import RegisterBank.Proofs.Hardware.Read
import RegisterBank.Proofs.Machine.Layout
import RegisterBank.Proofs.Register.Tightness

/-!
# Decoders in machine words

The numbers in the hardware of a register are the bounds of its elements, the lanes and the slots of
their words, and the lengths of literals. A register that the allocator has placed ends in the
address space of `2 ^ 32` bytes, and its items take no more than its span, whatever their number of
bytes; so none of these numbers needs more than 64 bits. That the bytes of an item are a power of
two is not used: the hardware is generated before the software files ask for it.
-/

namespace RegisterBank

open Hardware (Element ElementRead ReadSlot Source WriteSlice handshake itemElement readSource waits
  wordAddress)

/-! ## Bounds -/

namespace Layout

variable {layout : Layout} {r : Register} {env : Environment} {mode : Mode}

theorem bytes_pos_of_layout (h : Layout.of r env mode = .ok layout) : 0 < layout.bytes := by
  obtain ⟨bits, hpositive, -, -, htight, -⟩ := of_eq_ok_iff_tight.1 h
  rw [htight.bytes]
  exact paddedBytes_pos hpositive

/-- The items of a register fit into its span, whatever their number of bytes. -/
theorem items_mul_bytes_le_span (h : Layout.of r env mode = .ok layout) :
    layout.items * layout.bytes ≤ layout.span := by
  obtain ⟨bits, -, -, -, htight, -⟩ := of_eq_ok_iff_tight.1 h
  rw [items_eq, span_eq, Nat.mul_comm]
  exact htight.span.1.2

theorem bytes_le_span (h : Layout.of r env mode = .ok layout) : layout.bytes ≤ layout.span :=
  (Nat.le_mul_of_pos_left _ layout.items_pos).trans (items_mul_bytes_le_span h)

end Layout

namespace Hardware

variable {env : Environment} {p : Placement} {e : Element}

/-- An element that ends with its register or before it and is not shorter than an item. -/
structure Element.Within (e : Element) (p : Placement) : Prop where
  stop : e.stop ≤ p.stop
  length : p.layout.bytes ≤ e.length

theorem within_of_mem_elements (hp : p.Seated env) (he : e ∈ elements p) : e.Within p := by
  by_cases h : p.register.auto = true ∧ 1 < p.layout.items
  · rw [elements_eq_items h.1 h.2] at he
    obtain ⟨i, hi, rfl⟩ := List.mem_map.1 he
    refine ⟨?_, le_rfl⟩
    have hfits := Layout.items_mul_bytes_le_span hp.layout
    have hlast : (i + 1) * p.layout.bytes ≤ p.layout.items * p.layout.bytes :=
      Nat.mul_le_mul_right _ (List.mem_range.1 hi)
    rw [Nat.succ_mul] at hlast
    change p.address + i * p.layout.bytes + p.layout.bytes ≤ p.address + p.layout.span
    omega
  · rw [elements_eq_whole h, List.mem_singleton] at he
    subst he
    exact ⟨le_rfl, Layout.bytes_le_span hp.layout⟩

/-- No element ends after the address space. -/
theorem Element.Within.stop_le (he : e.Within p) (hp : p.Seated env) : e.stop ≤ 2 ^ 32 :=
  he.stop.trans hp.inside

/-- The bytes before a word of an item are fewer than those of the item. -/
theorem mul_lt_of_lt_words {bytes bus k : Nat} (hbus : 0 < bus)
    (hk : k < (bytes + (bus - 1)) / bus) : k * bus < bytes := by
  have hle : (k + 1) * bus ≤ bytes + (bus - 1) := (Nat.le_div_iff_mul_le hbus).1 hk
  rw [Nat.succ_mul] at hle
  omega

/-- An item that does not fit into a word has a slot for each word that it begins. -/
theorem elementRead_of_not_le {bus : Nat} (hbus : 0 < bus) (hle : ¬ p.layout.bytes ≤ bus) :
    elementRead bus p e =
      ⟨some ⟨s!"{e.name}_rdata_ext", (p.layout.bytes + (bus - 1)) / bus * (8 * bus),
          readSource p e⟩,
        (List.range ((p.layout.bytes + (bus - 1)) / bus)).map (wideSlot bus p e)⟩ := by
  rw [elementRead, if_neg hle, Nat.add_sub_assoc hbus]
  rfl

variable {bus : Nat}

/-- The words of the slots of an element, counted from its first byte, begin before its end. -/
theorem add_mul_lt_stop {k : Nat} (hp : p.Seated env) (hbus : 0 < bus) (he : e ∈ elements p)
    (hk : k < (elementRead bus p e).slots.length) : e.address + k * bus < e.stop := by
  have hlength : p.layout.bytes ≤ e.length := (within_of_mem_elements hp he).length
  have hbytes := Layout.bytes_pos_of_layout hp.layout
  have hword : k * bus < p.layout.bytes := by
    by_cases hle : p.layout.bytes ≤ bus
    · rw [elementRead_of_le hle, List.length_singleton] at hk
      rwa [Nat.lt_one_iff.1 hk, Nat.zero_mul]
    · rw [elementRead_of_not_le hbus hle, List.length_map, List.length_range] at hk
      exact mul_lt_of_lt_words hbus hk
  rw [Element.stop]
  omega

/-- The word that selects a slot begins before the end of its element. -/
theorem word_lt_stop {s : ReadSlot} {address : Nat} (hp : p.Seated env) (hbus : 0 < bus)
    (he : e ∈ elements p) (hs : s ∈ (elementRead bus p e).slots)
    (hword : s.selection = .word address) : address < e.stop := by
  by_cases hle : p.layout.bytes ≤ bus
  · have hfirst := add_mul_lt_stop hp hbus he (List.length_pos_of_mem hs)
    rw [Nat.zero_mul, Nat.add_zero] at hfirst
    rw [elementRead_of_le hle, List.mem_singleton] at hs
    subst hs
    simp only [narrowSlot] at hword
    split at hword
    · cases hword
    · cases hword
      exact (wordAddress_le bus e.address).trans_lt hfirst
  · rw [elementRead_of_not_le hbus hle] at hs
    obtain ⟨k, hk, rfl⟩ := List.mem_map.1 hs
    simp only [wideSlot] at hword
    split at hword
    · cases hword
    · cases hword
      refine add_mul_lt_stop hp hbus he ?_
      rwa [elementRead_of_not_le hbus hle, List.length_map, List.length_range, ← List.mem_range]

end Hardware

namespace Machine

open Checked

variable {env : Environment} {b : Build} {p : Placement} {e : Element} {bus : Nat}

/-! ## Elements -/

def itemElement? (p : Placement) (i : Nat) : Option Element := do
  let distance ← mul? 64 i p.layout.bytes
  let address ← add? 64 p.address distance
  some ⟨s!"{p.register.name}_{i}", address, p.layout.bytes⟩

/-- The elements of a register in the order of their addresses. -/
def elements? (p : Placement) : Option (List Element) := do
  let items ← items? p.layout
  if p.register.auto ∧ 1 < items then (List.range items).mapM (itemElement? p)
  else do
    let span ← span? p.layout
    some [⟨p.register.name, p.address, span⟩]

theorem elements?_eq (hp : p.Seated env) : elements? p = some (Hardware.elements p) := by
  obtain ⟨-, -, -, -, -, hbounded⟩ := Layout.of_eq_ok_iff_tight.1 hp.layout
  refine step_eq (items?_eq hbounded.depth) ?_
  by_cases h : p.register.auto = true ∧ 1 < p.layout.items
  · rw [Hardware.elements_eq_items h.1 h.2, if_pos h]
    refine mapM_eq_some_map fun i hi => ?_
    have he : itemElement p i ∈ Hardware.elements p := by
      rw [Hardware.elements_eq_items h.1 h.2]
      exact List.mem_map_of_mem hi
    have hstop : p.address + i * p.layout.bytes + p.layout.bytes ≤ 2 ^ 32 :=
      (Hardware.within_of_mem_elements hp he).stop_le hp
    refine step_eq (mul?_eq (by omega)) ?_
    exact step_eq (add?_eq (by omega)) rfl
  · rw [Hardware.elements_eq_whole h, if_neg h]
    exact step_eq (span?_eq hbounded.span) rfl

/-! ## Writes -/

/-- The bytes of a bus word. -/
def busBytes? (s : Settings) : Option Nat :=
  div? s.dataWidth 8

theorem busBytes?_eq (b : Build) : busBytes? b.design.settings = some b.busBytes :=
  div?_eq (by decide)

/-- The literal of a reset value for a storage of the given width. -/
def resetLiteral? (width : String) (reset : Nat) : Option String :=
  match (Text.unsigned? width.toList).filter (· < UInt64.size) with
  | some bits => some s!"{bits}'d{reset}"
  | none =>
    if reset = 0 then some s!"\x7b{width}\x7b1'd0\x7d\x7d"
    else do
      let bits ← sub? 64 (leadingZeros reset)
      some s!"\x7b\x7b({width}-{bits})\x7b1'd0\x7d\x7d,{bits}'d{reset}\x7d"

/-- Whether a reset value fits into so many bits. Nothing is left of a word that is moved by its
width or more. -/
def resetFits (bits : Int) (reset : Nat) : Bool :=
  match unsigned? 32 bits with
  | none => false
  | some bits => (shiftRight? 64 reset bits).all (· == 0)

/-- Refuses an item that is wider than the bus, and a stored reset value that is wider than the
register. -/
def checkWrite (b : Build) (bus : Nat) (p : Placement) : Checked Unit := do
  if bus < p.layout.bytes then
    throw (.configuration (.wideWrite p.register.name p.layout.bytes bus))
  else if p.register.auto ∧ p.register.reset ≠ 0 then do
    let bits ← b.valueBits p
    if resetFits bits p.register.reset then pure ()
    else throw (.configuration (.resetWidth p.register.name p.register.reset bits))
  else pure ()

/-- The numbers in the write decode of an element. -/
structure WriteDecode where
  slice : WriteSlice
  /-- One past the last address of the element. -/
  stop : Nat
  /-- The reset literal of its storage, if it has one. -/
  literal : Option String

/-- The write decode of the element of a slice. -/
def writeDecode (p : Placement) (s : WriteSlice) : WriteDecode :=
  ⟨s, s.element.stop,
    if p.register.auto then some (Hardware.resetLiteral s.width p.register.reset) else none⟩

def writeDecode? (bus : Nat) (p : Placement) (e : Element) : Option WriteDecode := do
  let lane ← laneBit? e.address bus
  let stop ← add? 64 e.address e.length
  if p.register.auto then do
    let literal ← resetLiteral? p.signalWidth p.register.reset
    some ⟨⟨e, lane, p.signalWidth⟩, stop, some literal⟩
  else some ⟨⟨e, lane, p.signalWidth⟩, stop, none⟩

/-- The write decode of a register. -/
def writeRegister (b : Build) (p : Placement) : Checked (List WriteDecode) := do
  let bus ← busBytes? b.design.settings
  checkWrite b bus p
  let elements ← elements? p
  liftM (elements.mapM (writeDecode? bus p))

theorem resetLiteral?_eq {reset : Nat} (width : String) (hreset : reset < 2 ^ 64) :
    resetLiteral? width reset = some (Hardware.resetLiteral width reset) := by
  unfold resetLiteral? Hardware.resetLiteral
  cases (Text.unsigned? width.toList).filter (· < UInt64.size) with
  | some bits => rfl
  | none =>
      by_cases hzero : reset = 0
      · simp only [hzero, if_true]
      · have hzeros := leadingZeros_add_log2 hzero hreset
        have hbits : 64 - leadingZeros reset = Nat.log2 reset + 1 := by omega
        simp only [hzero, if_false]
        refine step_eq (sub?_eq (by omega)) ?_
        rw [hbits]

theorem resetFits_eq {reset : Nat} (bits : Int) (hreset : reset < 2 ^ 64) :
    resetFits bits reset = Hardware.resetFits bits reset := by
  have hsize : (UInt32.size : Int) = 2 ^ 32 := rfl
  rw [resetFits, Hardware.resetFits, hsize]
  by_cases hcount : 0 ≤ bits ∧ bits < 2 ^ 32
  · simp only [unsigned?_eq hcount.1 hcount.2, all_shiftRight? hreset, hcount, decide_true,
      Bool.true_and]
  · rw [← Bool.decide_and, decide_eq_false hcount, Bool.false_and]
    simp only [unsigned?_eq_none hcount]

theorem yields_checkWrite (hreset : p.register.reset < 2 ^ 64) :
    Yields (checkWrite b b.busBytes p) (Hardware.checkWrite b p) := by
  refine yields_ite (fun _ => yields_throw _) fun _ => ?_
  refine yields_ite (fun _ => ?_) fun _ => yields_pure _
  refine yields_given fun bits _ => ?_
  rw [resetFits_eq bits hreset]
  exact yields_ite (fun _ => yields_pure _) fun _ => yields_throw _

theorem writeDecode?_eq (hbus : 0 < bus) (hreset : p.register.reset < 2 ^ 64)
    (hstop : e.stop ≤ 2 ^ 32) :
    writeDecode? bus p e =
      some (writeDecode p ⟨e, Block.laneBit e.address bus, p.signalWidth⟩) := by
  have hsum : e.address + e.length ≤ 2 ^ 32 := hstop
  refine step_eq (laneBit?_eq hbus (by omega)) ?_
  refine step_eq (add?_eq (by omega)) ?_
  unfold writeDecode
  split
  · exact step_eq (resetLiteral?_eq _ hreset) rfl
  · rfl

theorem yields_writeRegister (hp : p.Seated b.env) (hbus : 0 < b.busBytes)
    (hreset : p.register.reset < 2 ^ 64) :
    Yields (writeRegister b p)
      (Hardware.checkWrite b p >>= fun _ =>
        .ok ((Hardware.writeSlices b.busBytes p).map (writeDecode p))) := by
  refine yields_step (busBytes?_eq b) ?_
  refine (yields_checkWrite hreset).bind fun _ _ => ?_
  refine yields_step (elements?_eq hp) ?_
  have hdecodes : (Hardware.elements p).mapM (writeDecode? b.busBytes p) =
      some ((Hardware.writeSlices b.busBytes p).map (writeDecode p)) := by
    rw [Hardware.writeSlices, List.map_map]
    refine mapM_eq_some_map fun e he => ?_
    exact writeDecode?_eq hbus hreset ((Hardware.within_of_mem_elements hp he).stop_le hp)
  exact yields_lift hdecodes

/-! ## Reads -/

/-- One past the last byte of a register, or the greatest word when there is no such word. -/
def saturatedStop? (p : Placement) : Option Nat := do
  let span ← span? p.layout
  some ((add? 64 p.address span).getD (2 ^ 64 - 1))

/-- The slot of an item that fits into a word. -/
def narrowSlot? (bus : Nat) (p : Placement) (e : Element) (start stop : Nat) :
    Option ReadSlot := do
  let bits ← mul? 64 8 p.layout.bytes
  if p.layout.bytes < e.length then
    some ⟨s!"{e.name}_rsel", .block start stop, .requested bus, bits, .whole (readSource p e),
      handshake p⟩
  else do
    let lane ← laneBit? e.address bus
    some ⟨s!"{e.name}_rsel", .word start, .fixed lane, bits, .whole (readSource p e), handshake p⟩

/-- The slot of one word of an item of several words. -/
def wideSlot? (bus busBits : Nat) (p : Placement) (e : Element) (start stop k : Nat) :
    Option ReadSlot := do
  let phase ← mul? 64 k bus
  let first ← mul? 64 k busBits
  let source : Source := .bits s!"{e.name}_rdata_ext" first busBits
  if p.layout.bytes < e.length then
    some ⟨s!"{e.name}_w{k}_rsel", .stride start stop e.address p.layout.bytes phase, .fixed 0,
      busBits, source, handshake p⟩
  else do
    let address ← add? 64 e.address phase
    some ⟨s!"{e.name}_w{k}_rsel", .word address, .fixed 0, busBits, source, handshake p⟩

/-- How an element of a register is read over a bus of words of `bus` bytes. -/
def elementRead? (bus : Nat) (p : Placement) (e : Element) : Option ElementRead := do
  let busBits ← mul? 64 8 bus
  let logBus ← ceilLog2? bus
  let start ← floor? e.address logBus
  let stop ← add? 64 e.address e.length
  if p.layout.bytes ≤ bus then do
    let slot ← narrowSlot? bus p e start stop
    some ⟨none, [slot]⟩
  else do
    let words ← divCeil? p.layout.bytes bus
    let bits ← mul? 64 words busBits
    let slots ← (List.range words).mapM (wideSlot? bus busBits p e start stop)
    some ⟨some ⟨s!"{e.name}_rdata_ext", bits, readSource p e⟩, slots⟩

/-- The end of the addresses that a read strobe covers, for a register that user logic holds. -/
def strobe? (p : Placement) : Option (Option Nat) :=
  if waits p.register then do
    let stop ← saturatedStop? p
    some (some stop)
  else some none

/-- The read strobe of a register and the reads of its elements. -/
def readRegister? (b : Build) (p : Placement) : Option (Option Nat × List ElementRead) := do
  let bus ← busBytes? b.design.settings
  let strobe ← strobe? p
  let elements ← elements? p
  let reads ← elements.mapM (elementRead? bus p)
  some (strobe, reads)

theorem saturatedStop?_eq (hp : p.Seated env) : saturatedStop? p = some p.stop := by
  have hinside : p.address + p.layout.span ≤ 2 ^ 32 := hp.inside
  obtain ⟨-, -, -, -, -, hbounded⟩ := Layout.of_eq_ok_iff_tight.1 hp.layout
  refine step_eq (span?_eq (hbounded.span)) ?_
  rw [add?_eq (by omega)]
  rfl

theorem strobe?_eq (hp : p.Seated env) :
    strobe? p = some (if waits p.register then some p.stop else none) := by
  unfold strobe?
  split
  · exact step_eq (saturatedStop?_eq hp) rfl
  · rfl

theorem narrowSlot?_eq (hbus : 0 < bus) (he : e.Within p) (hstop : e.stop ≤ 2 ^ 32) :
    narrowSlot? bus p e (wordAddress bus e.address) e.stop =
      some (Hardware.narrowSlot bus p e) := by
  have hsum : e.address + e.length ≤ 2 ^ 32 := hstop
  have hlength := he.length
  refine step_eq (mul?_eq (by omega)) ?_
  unfold Hardware.narrowSlot
  by_cases hblock : p.layout.bytes < e.length
  · simp only [hblock, if_true]
  · simp only [hblock, if_false]
    exact step_eq (laneBit?_eq hbus (by omega)) rfl

theorem wideSlot?_eq {k : Nat} (he : e.Within p) (hstop : e.stop ≤ 2 ^ 32)
    (hk : k * bus < p.layout.bytes) :
    wideSlot? bus (8 * bus) p e (wordAddress bus e.address) e.stop k =
      some (Hardware.wideSlot bus p e k) := by
  have hsum : e.address + e.length ≤ 2 ^ 32 := hstop
  have hlength := he.length
  have hbits : k * (8 * bus) = 8 * (k * bus) := Nat.mul_left_comm k 8 bus
  refine step_eq (mul?_eq (by omega)) ?_
  refine step_eq (mul?_eq (by omega)) ?_
  unfold Hardware.wideSlot
  by_cases hblock : p.layout.bytes < e.length
  · simp only [hblock, if_true]
  · simp only [hblock, if_false]
    exact step_eq (add?_eq (by omega)) rfl

theorem elementRead?_eq (hbus : 0 < bus) (hbits : bus ≤ 8) (he : e.Within p)
    (hstop : e.stop ≤ 2 ^ 32) :
    elementRead? bus p e = some (Hardware.elementRead bus p e) := by
  have hsum : e.address + e.length ≤ 2 ^ 32 := hstop
  have hlength := he.length
  have hlog : Block.ceilLog2 bus ≤ 3 := Block.ceilLog2_le_iff.2 hbits
  refine step_eq (mul?_eq (by omega)) ?_
  refine step_eq (ceilLog2?_eq (by omega)) ?_
  refine step_eq (floor?_eq (by omega) (by omega)) ?_
  refine step_eq (add?_eq (by omega)) ?_
  by_cases hle : p.layout.bytes ≤ bus
  · rw [if_pos hle, Hardware.elementRead_of_le hle]
    exact step_eq (narrowSlot?_eq hbus he hstop) rfl
  · rw [if_neg hle, Hardware.elementRead_of_not_le hbus hle]
    have hwords := Nat.div_mul_le_self (p.layout.bytes + (bus - 1)) bus
    have htotal := Nat.mul_left_comm ((p.layout.bytes + (bus - 1)) / bus) 8 bus
    refine step_eq (divCeil?_eq (by omega) hbus) ?_
    refine step_eq (mul?_eq (by omega)) ?_
    refine step_eq (mapM_eq_some_map fun k hk => ?_) rfl
    exact wideSlot?_eq he hstop (Hardware.mul_lt_of_lt_words hbus (List.mem_range.1 hk))

theorem readRegister?_eq (hp : p.Seated b.env) (hbus : 0 < b.busBytes) (hbits : b.busBytes ≤ 8) :
    readRegister? b p =
      some (if waits p.register then some p.stop else none,
        Hardware.registerReads b.busBytes p) := by
  have hreads : (Hardware.elements p).mapM (elementRead? b.busBytes p) =
      some (Hardware.registerReads b.busBytes p) := by
    refine mapM_eq_some_map fun e he => ?_
    have hwithin := Hardware.within_of_mem_elements hp he
    exact elementRead?_eq hbus hbits hwithin (hwithin.stop_le hp)
  refine step_eq (busBytes?_eq b) ?_
  refine step_eq (strobe?_eq hp) ?_
  exact step_eq (elements?_eq hp) (step_eq hreads rfl)

end Machine

end RegisterBank
