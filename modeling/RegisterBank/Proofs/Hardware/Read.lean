import RegisterBank.Proofs.Exclusive
import RegisterBank.Proofs.Hardware.Element
import RegisterBank.Proofs.Hardware.Slot
import RegisterBank.Proofs.Hardware.Snippet

/-!
# Read decode

A slot of a fixed lane drives the lane of a byte only if the byte lies in the window of the slot's
element, and the slots of one element are never selected together. Since the windows of all readable
elements are disjoint, each lane of each word has one driver at most (`exclusive_tableSlots`). Each
byte of an item has a slot of its own element (`Regular.exists_delivers`), so it has exactly one.
-/

namespace RegisterBank.Hardware

variable {p : Placement} {ps : List Placement} {e : Element} {s : ReadSlot} {bus j x t w bit : Nat}
  {values : String → Nat} {m : Module} {a : Artifacts}

/-! ### The slots of an element -/

/-- The register whose handshake completes reads of its own elements. -/
def handshake (p : Placement) : Option String :=
  if waits p.register then some p.register.name else none

/-- The slot of an item that fits into a word. -/
def narrowSlot (bus : Nat) (p : Placement) (e : Element) : ReadSlot :=
  { name := s!"{e.name}_rsel"
    selection :=
      if p.layout.bytes < e.length then .block (wordAddress bus e.address) e.stop
      else .word (wordAddress bus e.address)
    lane :=
      if p.layout.bytes < e.length then .requested bus
      else .fixed (Block.laneBit e.address bus)
    bits := 8 * p.layout.bytes
    source := .whole (readSource p e)
    handshake := handshake p }

/-- The slot of one word of an item of several words. -/
def wideSlot (bus : Nat) (p : Placement) (e : Element) (k : Nat) : ReadSlot :=
  { name := s!"{e.name}_w{k}_rsel"
    selection :=
      if p.layout.bytes < e.length then
        .stride (wordAddress bus e.address) e.stop e.address p.layout.bytes (k * bus)
      else .word (e.address + k * bus)
    lane := .fixed 0
    bits := 8 * bus
    source := .bits s!"{e.name}_rdata_ext" (k * (8 * bus)) (8 * bus)
    handshake := handshake p }

theorem elementRead_of_le (hle : p.layout.bytes ≤ bus) :
    elementRead bus p e = ⟨none, [narrowSlot bus p e]⟩ :=
  if_pos hle

/-- The words of an item whose bytes fill them are as many as their bytes go into its own. -/
theorem elementRead_of_lt (hlt : bus < p.layout.bytes) (hbus : 0 < bus)
    (hdvd : bus ∣ p.layout.bytes) :
    elementRead bus p e =
      ⟨some ⟨s!"{e.name}_rdata_ext", 8 * p.layout.bytes, readSource p e⟩,
        (List.range (p.layout.bytes / bus)).map (wideSlot bus p e)⟩ := by
  obtain ⟨words, hwords⟩ := hdvd
  have hround : (p.layout.bytes + bus - 1) / bus = p.layout.bytes / bus := by
    rw [Nat.add_sub_assoc hbus, hwords, Nat.mul_add_div hbus, Nat.mul_div_cancel_left _ hbus,
      Nat.div_eq_of_lt (Nat.sub_lt hbus Nat.one_pos), Nat.add_zero]
  have hbits : p.layout.bytes / bus * (8 * bus) = 8 * p.layout.bytes := by
    rw [hwords, Nat.mul_div_cancel_left _ hbus, Nat.mul_left_comm, Nat.mul_comm words]
  rw [elementRead, if_neg (Nat.not_le.2 hlt), ← hbits, ← hround]
  rfl

namespace Regular

variable (h : Regular bus p e)

include h

theorem carries_narrowSlot (hle : p.layout.bytes ≤ bus) (hitem : ¬ p.layout.bytes < e.length) :
    (narrowSlot bus p e).Carries bus e.address p.layout.bytes where
  selection := if_neg hitem
  lane := if_neg hitem
  bits := rfl
  fits := h.mod_add_le hle

theorem carries_wideSlot (hle : bus ≤ p.layout.bytes) (hitem : ¬ p.layout.bytes < e.length)
    (k : Nat) : (wideSlot bus p e k).Carries bus (e.address + k * bus) bus := by
  obtain ⟨j, hbus⟩ := h.bus_eq
  have hdvd : bus ∣ e.address + k * bus :=
    Nat.dvd_add (Nat.dvd_trans (h.bus_dvd_bytes hle) h.aligned.address) (Nat.dvd_mul_left _ _)
  have hmod : (e.address + k * bus) % bus = 0 := Nat.mod_eq_zero_of_dvd hdvd
  refine ⟨?_, ?_, rfl, by omega⟩
  · rw [wordAddress_of_dvd hbus hdvd]
    exact if_neg hitem
  · rw [Block.laneBit, hmod]
    rfl

theorem mem_window_of_narrowSlot (hle : p.layout.bytes ≤ bus) (ht : t < 8)
    (hdrives : (narrowSlot bus p e).Drives (wordAddress bus x) (Block.laneBit x bus + t)) :
    x ∈ e.window := by
  obtain ⟨j, hbus⟩ := h.bus_eq
  have hlength := h.bytes_le_length
  by_cases hblock : p.layout.bytes < e.length
  · -- The lane follows the request, so the slot is none of a fixed lane.
    have hlane : (narrowSlot bus p e).lane = .requested bus := if_pos hblock
    have hcovers := hdrives.2
    rw [hlane] at hcovers
    exact hcovers.elim
  · obtain ⟨hlow, hhigh⟩ := ((h.carries_narrowSlot hle hblock).drives_iff hbus ht).1 hdrives
    exact ⟨hlow, by rw [Element.stop]; omega⟩

theorem mem_window_of_wideSlot {k : Nat} (hle : bus ≤ p.layout.bytes)
    (hk : k < p.layout.bytes / bus) (ht : t < 8)
    (hdrives : (wideSlot bus p e k).Drives (wordAddress bus x) (Block.laneBit x bus + t)) :
    x ∈ e.window := by
  obtain ⟨j, hbus⟩ := h.bus_eq
  have hlength := h.bytes_le_length
  have hdvd := h.bus_dvd_bytes hle
  by_cases hblock : p.layout.bytes < e.length
  · have hselects := hdrives.1
    have hstride : (wideSlot bus p e k).selection =
        .stride (wordAddress bus e.address) e.stop e.address p.layout.bytes (k * bus) :=
      if_pos hblock
    rw [hstride] at hselects
    -- Both ends of the block are word boundaries, so its words hold only its own bytes.
    have haddress := Nat.dvd_trans hdvd h.aligned.address
    have hstop : bus ∣ e.stop := Nat.dvd_add haddress (Nat.dvd_trans hdvd h.aligned.length)
    exact mem_Ico_of_wordAddress hbus haddress hstop hselects.1.1 hselects.1.2
  · obtain ⟨hlow, hhigh⟩ := ((h.carries_wideSlot hle hblock k).drives_iff hbus ht).1 hdrives
    have hwords : (k + 1) * bus ≤ p.layout.bytes := by
      rw [← Nat.div_mul_cancel hdvd]
      exact Nat.mul_le_mul_right _ hk
    rw [Nat.succ_mul] at hwords
    exact ⟨by omega, by rw [Element.stop]; omega⟩

/-- A slot of a fixed lane drives only lanes of bytes of its element. -/
theorem mem_window_of_drives (hs : s ∈ (elementRead bus p e).slots) (ht : t < 8)
    (hdrives : s.Drives (wordAddress bus x) (Block.laneBit x bus + t)) : x ∈ e.window := by
  by_cases hle : p.layout.bytes ≤ bus
  · rw [elementRead_of_le hle, List.mem_singleton] at hs
    exact h.mem_window_of_narrowSlot hle ht (hs ▸ hdrives)
  · have hlt : bus < p.layout.bytes := Nat.not_le.1 hle
    rw [elementRead_of_lt hlt h.bus_pos (h.bus_dvd_bytes hlt.le)] at hs
    obtain ⟨k, hk, rfl⟩ := List.mem_map.1 hs
    exact h.mem_window_of_wideSlot hlt.le (List.mem_range.1 hk) ht hdrives

/-- The slots of a wide element differ in their words, or in their words of an item. -/
theorem exclusive_wideSlot {i k : Nat} (hne : i ≠ k) :
    ¬ ((wideSlot bus p e i).Drives w bit ∧ (wideSlot bus p e k).Drives w bit) := by
  rintro ⟨⟨hi, -⟩, ⟨hk, -⟩⟩
  apply hne
  apply Nat.eq_of_mul_eq_mul_right h.bus_pos
  unfold wideSlot at hi hk
  by_cases hblock : p.layout.bytes < e.length
  · simp only [if_pos hblock] at hi hk
    exact hi.2.symm.trans hk.2
  · simp only [if_neg hblock] at hi hk
    exact Nat.add_left_cancel (hi.symm.trans hk)

theorem exclusive_slots :
    (elementRead bus p e).slots.Pairwise fun s s' => ¬ (s.Drives w bit ∧ s'.Drives w bit) := by
  by_cases hle : p.layout.bytes ≤ bus
  · rw [elementRead_of_le hle]
    exact List.pairwise_singleton _ _
  · have hlt : bus < p.layout.bytes := Nat.not_le.1 hle
    rw [elementRead_of_lt hlt h.bus_pos (h.bus_dvd_bytes hlt.le), List.pairwise_map]
    exact List.pairwise_lt_range.imp fun hik => h.exclusive_wideSlot (Nat.ne_of_lt hik)

end Regular

/-! ### The slots of a table -/

theorem readSlots_eq (bus : Nat) (p : Placement) :
    readSlots bus p = (elements p).flatMap fun e => (elementRead bus p e).slots := by
  rw [readSlots, registerReads, List.flatMap_map]

theorem exclusive_readSlots (hregular : ∀ e ∈ elements p, Regular bus p e) (ht : t < 8) :
    (readSlots bus p).Pairwise fun s s' =>
      ¬ (s.Drives (wordAddress bus x) (Block.laneBit x bus + t) ∧
        s'.Drives (wordAddress bus x) (Block.laneBit x bus + t)) := by
  rw [readSlots_eq, List.pairwise_flatMap]
  refine ⟨fun e he => (hregular e he).exclusive_slots, (disjoint_elements p).imp_of_mem ?_⟩
  rintro e f he hf hdisjoint s hs s' hs' ⟨hdrives, hdrives'⟩
  exact Set.disjoint_left.1 hdisjoint ((hregular e he).mem_window_of_drives hs ht hdrives)
    ((hregular f hf).mem_window_of_drives hs' ht hdrives')

/-- A slot of a fixed lane drives only lanes of bytes of its register. -/
theorem mem_range_of_drives (hpacked : p.layout.Packed)
    (hregular : ∀ e ∈ elements p, Regular bus p e) (hs : s ∈ readSlots bus p) (ht : t < 8)
    (hdrives : s.Drives (wordAddress bus x) (Block.laneBit x bus + t)) : x ∈ p.range := by
  rw [readSlots_eq] at hs
  obtain ⟨e, he, hs⟩ := List.mem_flatMap.1 hs
  exact (mem_range_iff_exists_element hpacked).2
    ⟨e, he, (hregular e he).mem_window_of_drives hs ht hdrives⟩

/-- No bit of the response has two drivers. -/
theorem exclusive_tableSlots {b : Build} (hb : b.Checked) (ht : t < 8) :
    (tableSlots b.busBytes b.placements).Pairwise fun s s' =>
      ¬ (s.Drives (wordAddress b.busBytes x) (Block.laneBit x b.busBytes + t) ∧
        s'.Drives (wordAddress b.busBytes x) (Block.laneBit x b.busBytes + t)) := by
  have hregular : ∀ p ∈ readable b.placements, ∀ e ∈ elements p, Regular b.busBytes p e :=
    fun p hp e he => regular_of_mem_elements hb (mem_readable.1 hp).1 he
  have hpacked : ∀ p ∈ readable b.placements, p.layout.Packed :=
    fun p hp => hb.packed (mem_readable.1 hp).1
  rw [tableSlots, List.pairwise_flatMap]
  refine ⟨fun p hp => exclusive_readSlots (hregular p hp) ht, hb.disjoint_readable.imp_of_mem ?_⟩
  rintro p q hp hq hdisjoint s hs s' hs' ⟨hdrives, hdrives'⟩
  exact Set.disjoint_left.1 hdisjoint
    (mem_range_of_drives (hpacked p hp) (hregular p hp) hs ht hdrives)
    (mem_range_of_drives (hpacked q hq) (hregular q hq) hs' ht hdrives')

/-! ### The bytes of an item -/

/-- The slot answers reads of byte `j` of an element with that byte of its source. -/
structure Delivers (bus : Nat) (p : Placement) (e : Element) (j : Nat) (s : ReadSlot) : Prop where
  mem : s ∈ (elementRead bus p e).slots
  drives : ∀ t < 8,
    s.Drives (wordAddress bus (e.address + j)) (Block.laneBit (e.address + j) bus + t)
  bitAt : ∀ values, (∀ x ∈ (elementRead bus p e).extension, x.Assigned values) → ∀ t < 8,
    s.bitAt values (Block.laneBit (e.address + j) bus + t) =
      (values (readSource p e).written).testBit (8 * j + t)

theorem Regular.delivers_narrowSlot (h : Regular bus p e) (hle : p.layout.bytes ≤ bus)
    (hitem : e.length = p.layout.bytes) (hj : j < p.layout.bytes) :
    Delivers bus p e j (narrowSlot bus p e) := by
  obtain ⟨k, hbus⟩ := h.bus_eq
  have hcarries := h.carries_narrowSlot hle (Nat.not_lt.2 hitem.le)
  refine ⟨?_, ?_, ?_⟩
  · rw [elementRead_of_le hle]
    exact List.mem_singleton_self _
  · intro t ht
    rw [hcarries.drives_iff hbus ht]
    omega
  · intro values _ t _
    rw [hcarries.bitAt_eq (Nat.le_add_right _ _) (by omega), Nat.add_sub_cancel_left]
    rfl

/-- Byte `j` of a wide item is in its word `j / bus`. -/
theorem Regular.delivers_wideSlot (h : Regular bus p e) (hlt : bus < p.layout.bytes)
    (hitem : e.length = p.layout.bytes) (hj : j < p.layout.bytes) :
    Delivers bus p e j (wideSlot bus p e (j / bus)) := by
  obtain ⟨k, hbus⟩ := h.bus_eq
  have hread := elementRead_of_lt (e := e) hlt h.bus_pos (h.bus_dvd_bytes hlt.le)
  have hcarries := h.carries_wideSlot hlt.le (Nat.not_lt.2 hitem.le) (j / bus)
  have hword := Nat.div_add_mod' j bus
  have hbyte : j % bus < bus := Nat.mod_lt j h.bus_pos
  refine ⟨?_, ?_, ?_⟩
  · rw [hread]
    refine List.mem_map_of_mem (List.mem_range.2 ?_)
    exact Nat.div_lt_div_of_lt_of_dvd (h.bus_dvd_bytes hlt.le) hj
  · intro t ht
    rw [hcarries.drives_iff hbus ht]
    omega
  · intro values hvalues t ht
    rw [hread] at hvalues
    have hvalue : values s!"{e.name}_rdata_ext" =
        values (readSource p e).written % 2 ^ (8 * p.layout.bytes) := hvalues _ rfl
    have hoffset : e.address + j - (e.address + j / bus * bus) = j % bus := by omega
    have hbit : j / bus * (8 * bus) + (8 * (j % bus) + t) = 8 * j + t := by
      rw [Nat.mul_left_comm]
      omega
    rw [hcarries.bitAt_eq (by omega) (by omega), hoffset]
    change (decide (8 * (j % bus) + t < 8 * bus) && (values s!"{e.name}_rdata_ext").testBit
      (j / bus * (8 * bus) + (8 * (j % bus) + t))) = _
    rw [hvalue, hbit, Nat.testBit_mod_two_pow, decide_eq_true (by omega : 8 * (j % bus) + t < _),
      decide_eq_true (by omega : 8 * j + t < _), Bool.true_and, Bool.true_and]

theorem Regular.exists_delivers (h : Regular bus p e) (hitem : e.length = p.layout.bytes)
    (hj : j < p.layout.bytes) : ∃ s, Delivers bus p e j s := by
  by_cases hle : p.layout.bytes ≤ bus
  · exact ⟨_, h.delivers_narrowSlot hle hitem hj⟩
  · exact ⟨_, h.delivers_wideSlot (Nat.not_le.1 hle) hitem hj⟩

end RegisterBank.Hardware
