import RegisterBank.Proofs.Hardware.Read

/-!
# Who completes a read

A read waits for user logic where a selected slot belongs to a register of user logic. Slots are
selected by words, and the words that select a slot of a register are exactly those that hold one of
its bytes (`exists_selects_iff`). So a read of a byte waits for every register of user logic with a
byte in the same word, whichever of them the byte belongs to. Registers have disjoint ranges and
begin at multiples of their spans, so two of them can only share the word in which both begin. Reads
are completed by the registers that they address if and only if no register of user logic begins in
the same word as another register.
-/

namespace RegisterBank.Hardware

variable {p q : Placement} {ps : List Placement} {e : Element} {s : ReadSlot} {bus x y : Nat}
  {m : Module} {a : Artifacts}

/-- Whatever a read of a byte waits for are the handshake signals of one register. -/
def CompletedBy (bus : Nat) (ps : List Placement) (x : Nat) (p : Placement) : Prop :=
  ∀ s ∈ tableSlots bus ps, s.selection.Selects (wordAddress bus x) →
    ∀ name, s.handshake = some name → handshake p = some name

/-! ### The words of an element -/

/-- The words that hold bytes of an element are those from the word of its first byte on that begin
before its end. -/
theorem exists_mem_window_iff {k : Nat} (hbus : bus = 2 ^ k) (hne : 0 < e.length) :
    (∃ y ∈ e.window, wordAddress bus y = wordAddress bus x) ↔
      wordAddress bus e.address ≤ wordAddress bus x ∧ wordAddress bus x < e.stop := by
  have hdvd : bus ∣ wordAddress bus x := by
    rw [wordAddress_eq hbus]
    exact Nat.dvd_mul_left _ _
  constructor
  · rintro ⟨y, ⟨hlow, hhigh⟩, hword⟩
    rw [← hword]
    exact ⟨wordAddress_mono bus hlow, (wordAddress_le bus y).trans_lt hhigh⟩
  · rintro ⟨hlow, hhigh⟩
    rcases Nat.lt_or_ge (wordAddress bus x) e.address with hlt | hge
    · -- The word begins before the element, so it holds the element's first byte.
      refine ⟨e.address, ⟨Nat.le_refl _, Nat.lt_add_of_pos_right hne⟩, ?_⟩
      exact Nat.le_antisymm hlow ((le_wordAddress_iff hbus hdvd).2 hlt.le)
    · exact ⟨wordAddress bus x, ⟨hge, hhigh⟩, wordAddress_of_dvd hbus hdvd⟩

namespace Regular

variable (h : Regular bus p e)

include h

theorem selects_narrowSlot_iff (hle : p.layout.bytes ≤ bus) :
    (narrowSlot bus p e).selection.Selects (wordAddress bus x) ↔
      wordAddress bus e.address ≤ wordAddress bus x ∧ wordAddress bus x < e.stop := by
  obtain ⟨j, hbus⟩ := h.bus_eq
  by_cases hblock : p.layout.bytes < e.length
  · have hselection : (narrowSlot bus p e).selection =
        .block (wordAddress bus e.address) e.stop := if_pos hblock
    rw [hselection]
    rfl
  · -- The element is an item inside one word.
    have hlength : e.length = p.layout.bytes :=
      Nat.le_antisymm (Nat.not_lt.1 hblock) h.bytes_le_length
    have hfits := h.mod_add_le hle
    have haddress := Nat.div_add_mod' e.address bus
    rw [(h.carries_narrowSlot hle hblock).selection]
    change wordAddress bus x = wordAddress bus e.address ↔ _
    rw [wordAddress_eq hbus, wordAddress_eq hbus, Element.stop]
    constructor
    · intro hword
      rw [hword]
      exact ⟨Nat.le_refl _, (Nat.div_mul_le_self e.address bus).trans_lt
        (Nat.lt_add_of_pos_right h.aligned.nonempty)⟩
    · rintro ⟨hlow, hhigh⟩
      have hnext : x / bus * bus < (e.address / bus + 1) * bus := by
        rw [Nat.succ_mul]
        omega
      congr 1
      exact Nat.le_antisymm (Nat.le_of_lt_succ (Nat.lt_of_mul_lt_mul_right hnext))
        (Nat.le_of_mul_le_mul_right hlow h.bus_pos)

/-- A word of a wide element selects the slot of its place in the item. -/
theorem exists_selects_wideSlot_iff (hlt : bus < p.layout.bytes) :
    (∃ k < p.layout.bytes / bus, (wideSlot bus p e k).selection.Selects (wordAddress bus x)) ↔
      wordAddress bus e.address ≤ wordAddress bus x ∧ wordAddress bus x < e.stop := by
  obtain ⟨j, hbus⟩ := h.bus_eq
  have hdvd := h.bus_dvd_bytes hlt.le
  have haddress : bus ∣ e.address := hdvd.trans h.aligned.address
  have hlength := h.bytes_le_length
  have hstride : ∀ k, p.layout.bytes < e.length → (wideSlot bus p e k).selection =
      .stride (wordAddress bus e.address) e.stop e.address p.layout.bytes (k * bus) :=
    fun k hblock => if_pos hblock
  have hword : ∀ k, ¬ p.layout.bytes < e.length →
      (wideSlot bus p e k).selection = .word (e.address + k * bus) :=
    fun k hitem => if_neg hitem
  constructor
  · rintro ⟨k, hk, hselects⟩
    by_cases hblock : p.layout.bytes < e.length
    · rw [hstride k hblock] at hselects
      exact hselects.1
    · rw [hword k hblock] at hselects
      have hselected : wordAddress bus x = e.address + k * bus := hselects
      have hwords : (k + 1) * bus ≤ p.layout.bytes := by
        rw [← Nat.div_mul_cancel hdvd]
        exact Nat.mul_le_mul_right bus hk
      have hpos := h.bus_pos
      rw [Nat.succ_mul] at hwords
      rw [hselected, wordAddress_of_dvd hbus haddress, Element.stop]
      omega
  · rintro ⟨hlow, hhigh⟩
    rw [wordAddress_of_dvd hbus haddress] at hlow
    have hdistance : bus ∣ wordAddress bus x - e.address := by
      rw [wordAddress_eq hbus]
      exact Nat.dvd_sub (Nat.dvd_mul_left bus _) haddress
    have hphase : bus ∣ (wordAddress bus x - e.address) % p.layout.bytes :=
      (Nat.dvd_mod_iff hdvd).2 hdistance
    have hbytes : (wordAddress bus x - e.address) % p.layout.bytes < p.layout.bytes :=
      Nat.mod_lt _ (h.bus_pos.trans hlt)
    refine ⟨_, Nat.div_lt_div_of_lt_of_dvd hdvd hbytes, ?_⟩
    rw [wideSlot, Nat.div_mul_cancel hphase]
    by_cases hblock : p.layout.bytes < e.length
    · rw [if_pos hblock, wordAddress_of_dvd hbus haddress]
      exact ⟨⟨hlow, hhigh⟩, rfl⟩
    · rw [if_neg hblock]
      rw [Element.stop] at hhigh
      rw [Nat.mod_eq_of_lt (by omega)]
      exact (Nat.add_sub_cancel' hlow).symm

/-- The words that select a slot of an element are those that hold one of its bytes. -/
theorem exists_selects_iff :
    (∃ s ∈ (elementRead bus p e).slots, s.selection.Selects (wordAddress bus x)) ↔
      ∃ y ∈ e.window, wordAddress bus y = wordAddress bus x := by
  obtain ⟨j, hbus⟩ := h.bus_eq
  rw [exists_mem_window_iff hbus h.aligned.nonempty]
  by_cases hle : p.layout.bytes ≤ bus
  · rw [← h.selects_narrowSlot_iff hle, elementRead_of_le hle]
    simp
  · have hlt : bus < p.layout.bytes := Nat.not_le.1 hle
    rw [← h.exists_selects_wideSlot_iff hlt,
      elementRead_of_lt hlt h.bus_pos (h.bus_dvd_bytes hlt.le)]
    simp

theorem handshake_eq (hs : s ∈ (elementRead bus p e).slots) : s.handshake = handshake p := by
  by_cases hle : p.layout.bytes ≤ bus
  · rw [elementRead_of_le hle, List.mem_singleton] at hs
    rw [hs]
    rfl
  · have hlt : bus < p.layout.bytes := Nat.not_le.1 hle
    rw [elementRead_of_lt hlt h.bus_pos (h.bus_dvd_bytes hlt.le)] at hs
    obtain ⟨k, -, rfl⟩ := List.mem_map.1 hs
    rfl

end Regular

/-! ### The words of a register -/

theorem exists_selects_iff (hpacked : p.layout.Packed)
    (hregular : ∀ e ∈ elements p, Regular bus p e) :
    (∃ s ∈ readSlots bus p, s.selection.Selects (wordAddress bus x)) ↔
      ∃ y ∈ p.range, wordAddress bus y = wordAddress bus x := by
  rw [readSlots_eq]
  constructor
  · rintro ⟨s, hs, hselects⟩
    obtain ⟨e, he, hs⟩ := List.mem_flatMap.1 hs
    obtain ⟨y, hy, hword⟩ := (hregular e he).exists_selects_iff.1 ⟨s, hs, hselects⟩
    exact ⟨y, (mem_range_iff_exists_element hpacked).2 ⟨e, he, hy⟩, hword⟩
  · rintro ⟨y, hy, hword⟩
    obtain ⟨e, he, hy⟩ := (mem_range_iff_exists_element hpacked).1 hy
    obtain ⟨s, hs, hselects⟩ := (hregular e he).exists_selects_iff.2 ⟨y, hy, hword⟩
    exact ⟨s, List.mem_flatMap.2 ⟨e, he, hs⟩, hselects⟩

theorem handshake_of_mem_readSlots (hregular : ∀ e ∈ elements p, Regular bus p e)
    (hs : s ∈ readSlots bus p) : s.handshake = handshake p := by
  rw [readSlots_eq] at hs
  obtain ⟨e, he, hs⟩ := List.mem_flatMap.1 hs
  exact (hregular e he).handshake_eq hs

theorem handshake_eq_some_iff {name : String} :
    handshake p = some name ↔ waits p.register = true ∧ p.register.name = name := by
  rw [handshake, Option.ite_none_right_eq_some, Option.some.injEq]

/-- A read is completed by one register if and only if no other register that waits for user logic
has a byte in the word of the read. -/
theorem completedBy_iff {b : Build} (hb : b.Checked) (hp : p ∈ readable b.placements) (x : Nat) :
    CompletedBy b.busBytes b.placements x p ↔
      ∀ q ∈ readable b.placements, q ≠ p → waits q.register = true →
        ∀ y ∈ q.range, wordAddress b.busBytes y ≠ wordAddress b.busBytes x := by
  have hpacked : ∀ q ∈ readable b.placements, q.layout.Packed :=
    fun q hq => hb.packed (mem_readable.1 hq).1
  have hregular : ∀ q ∈ readable b.placements, ∀ e ∈ elements q, Regular b.busBytes q e :=
    fun q hq e he => regular_of_mem_elements hb (mem_readable.1 hq).1 he
  constructor
  · intro hcompleted q hq hne hwaits y hy hword
    obtain ⟨s, hs, hselects⟩ := (exists_selects_iff (hpacked q hq) (hregular q hq)).2 ⟨y, hy, hword⟩
    have hslot : s ∈ tableSlots b.busBytes b.placements := List.mem_flatMap.2 ⟨q, hq, hs⟩
    have hwaiting : s.handshake = some q.register.name := by
      rw [handshake_of_mem_readSlots (hregular q hq) hs, handshake_eq_some_iff]
      exact ⟨hwaits, rfl⟩
    obtain ⟨-, hname⟩ := handshake_eq_some_iff.1 (hcompleted s hslot hselects _ hwaiting)
    exact hne (hb.eq_of_name_eq (mem_readable.1 hq).1 (mem_readable.1 hp).1 hname.symm)
  · intro halone s hs hselects name hname
    obtain ⟨q, hq, hs⟩ := List.mem_flatMap.1 hs
    rw [handshake_of_mem_readSlots (hregular q hq) hs] at hname
    by_cases hqp : q = p
    · rw [← hqp, hname]
    · obtain ⟨y, hy, hword⟩ :=
        (exists_selects_iff (hpacked q hq) (hregular q hq)).1 ⟨s, hs, hselects⟩
      exact absurd hword (halone q hq hqp (handshake_eq_some_iff.1 hname).1 y hy)

/-! ### Registers that share a word -/

/-- A register with only a part of a word has its first byte there. -/
theorem wordAddress_address_eq {k : Nat} (hbus : bus = 2 ^ k)
    (haligned : p.layout.span ∣ p.address) (hx : x ∈ p.range) (hy : y ∉ p.range)
    (hword : wordAddress bus y = wordAddress bus x) :
    wordAddress bus p.address = wordAddress bus x := by
  obtain ⟨hlow, hhigh⟩ := hx
  have hpos : 0 < bus := hbus ▸ Nat.two_pow_pos k
  by_cases hle : p.layout.span ≤ bus
  · have hdvd : p.layout.span ∣ bus := Block.dvd_of_le ⟨_, p.layout.span_eq⟩ ⟨k, hbus⟩ hle
    have hfits := Block.mod_add_le hpos haligned hdvd
    have haddress := Nat.div_add_mod' p.address bus
    have hquotient : x / bus = p.address / bus := by
      refine Nat.div_eq_of_lt_le (by omega) ?_
      rw [Nat.succ_mul]
      omega
    rw [wordAddress_eq hbus, wordAddress_eq hbus, hquotient]
  · -- The register consists of whole words, so the other byte is one of its own.
    have hdvd : bus ∣ p.layout.span :=
      Block.dvd_of_le ⟨k, hbus⟩ ⟨_, p.layout.span_eq⟩ (Nat.not_le.1 hle).le
    have haddress : bus ∣ p.address := hdvd.trans haligned
    refine absurd (mem_Ico_of_wordAddress hbus haddress (Nat.dvd_add haddress hdvd) ?_ ?_) hy
    · rw [hword]
      exact wordAddress_mono bus hlow
    · rw [hword]
      exact (wordAddress_le bus x).trans_lt hhigh

theorem address_mem_range (p : Placement) : p.address ∈ p.range :=
  ⟨Nat.le_refl _, Nat.lt_add_of_pos_right p.layout.span_pos⟩

section Checked

variable {b : Build} (hb : b.Checked)

include hb

/-- Registers that share a word both begin in it. -/
theorem wordAddress_address_eq_of_ne (hp : p ∈ readable b.placements)
    (hq : q ∈ readable b.placements) (hne : p ≠ q) (hx : x ∈ p.range) (hy : y ∈ q.range)
    (hword : wordAddress b.busBytes y = wordAddress b.busBytes x) :
    wordAddress b.busBytes p.address = wordAddress b.busBytes x := by
  obtain ⟨k, hbus, -⟩ := hb.exists_busBytes_eq_two_pow
  have : Std.Symm fun p q : Placement => Disjoint p.range q.range := ⟨fun _ _ h => h.symm⟩
  have hdisjoint : Disjoint p.range q.range := hb.disjoint_readable.forall hp hq hne
  exact wordAddress_address_eq hbus (hb.seated p (mem_readable.1 hp).1).aligned hx
    (Set.disjoint_right.1 hdisjoint hy) hword

theorem completedBy_iff_of_mem_range (hp : p ∈ readable b.placements) (hx : x ∈ p.range) :
    CompletedBy b.busBytes b.placements x p ↔
      ∀ q ∈ readable b.placements, q ≠ p → waits q.register = true →
        wordAddress b.busBytes q.address ≠ wordAddress b.busBytes x := by
  rw [completedBy_iff hb hp]
  constructor
  · intro halone q hq hne hwaits
    exact halone q hq hne hwaits _ (address_mem_range q)
  · intro hbegin q hq hne hwaits y hy hword
    refine hbegin q hq hne hwaits ?_
    rw [wordAddress_address_eq_of_ne hb hq hp hne hy hx hword.symm, hword]

theorem forall_completedBy_iff :
    (∀ p ∈ readable b.placements, ∀ x ∈ p.range, CompletedBy b.busBytes b.placements x p) ↔
      ∀ p ∈ readable b.placements, ∀ q ∈ readable b.placements, q ≠ p →
        waits q.register = true →
          wordAddress b.busBytes q.address ≠ wordAddress b.busBytes p.address := by
  constructor
  · intro hall p hp
    have hfirst := address_mem_range p
    exact (completedBy_iff_of_mem_range hb hp hfirst).1 (hall p hp _ hfirst)
  · intro hbegin p hp x hx
    rw [completedBy_iff_of_mem_range hb hp hx]
    intro q hq hne hwaits hword
    refine hbegin p hp q hq hne hwaits ?_
    rw [wordAddress_address_eq_of_ne hb hp hq hne.symm hx (address_mem_range q) hword, hword]

end Checked

/-- The hardware has the lines of the read slots. A read is completed by the register that it
addresses exactly if no other register of user logic begins in the word of the read. All reads are,
exactly if no register of user logic begins in the same word as another register. -/
theorem generate_completes_iff (h : Artifacts.generate m = .ok a) :
    let bus := m.settings.busBytes
    let ps := a.map.placements
    a.hardware.snippet = Text.unlines (listing m.settings ps) ∧
    (∀ p ∈ readable ps, ∀ x ∈ p.range, (CompletedBy bus ps x p ↔
      ∀ q ∈ readable ps, q ≠ p → waits q.register = true →
        wordAddress bus q.address ≠ wordAddress bus x)) ∧
      ((∀ p ∈ readable ps, ∀ x ∈ p.range, CompletedBy bus ps x p) ↔
        ∀ p ∈ readable ps, ∀ q ∈ readable ps, q ≠ p → waits q.register = true →
          wordAddress bus q.address ≠ wordAddress bus p.address) := by
  refine ⟨snippet_eq_of_generate_eq_ok h, ?_⟩
  obtain ⟨b, hb, rfl, hmap, -⟩ := Artifacts.exists_checked_of_generate_eq_ok h
  rw [← hmap]
  exact ⟨fun p hp x hx => completedBy_iff_of_mem_range hb hp hx, forall_completedBy_iff hb⟩

/-- The array of user logic has words of its own. -/
theorem generate_completes_iff_mixedModule :
    ∃ a taps stamp trace version, Artifacts.generate mixedModule = .ok a ∧
      readable a.map.placements = [taps, stamp, trace, version] ∧
      handshake trace = some "trace" ∧
      ∀ p ∈ readable a.map.placements, ∀ x ∈ p.range, CompletedBy 4 a.map.placements x p := by
  obtain ⟨a, taps, stamp, trace, version, ha, hlist, htrace, haddresses, hwaits⟩ :
      ∃ a taps stamp trace version, Artifacts.generate mixedModule = .ok a ∧
        readable a.map.placements = [taps, stamp, trace, version] ∧
        handshake trace = some "trace" ∧
        [taps, stamp, trace, version].map (wordAddress 4 ·.address) = [0, 16, 24, 32] ∧
        [taps, stamp, version].map (waits ·.register) = [false, false, false] :=
    ⟨_, _, _, _, _, rfl, rfl, rfl, rfl, rfl⟩
  refine ⟨a, taps, stamp, trace, version, ha, hlist, htrace, ?_⟩
  apply (generate_completes_iff ha).2.2.2
  simp only [List.map_cons, List.map_nil, List.cons.injEq, and_true] at haddresses hwaits
  intro p hp q hq hne hq'
  rw [hlist] at hp hq
  change wordAddress 4 q.address ≠ wordAddress 4 p.address
  simp only [List.mem_cons, List.not_mem_nil, or_false] at hp hq
  grind

/-- A module in which a flag of the register file shares a word with a byte of user logic. -/
def receiverModule : Module :=
  { name := "receiver"
    version := { major := 1, minor := 0, patch := 0 }
    groups :=
      [⟨"main", "",
        [{ name := "ready", access := .read, width := .literal 1 },
          { name := "data", access := .read, width := .literal 8, auto := false }]⟩] }

/-- A read of the flag waits until user logic has data. -/
theorem not_forall_completedBy :
    ¬ ∀ m a, Artifacts.generate m = .ok a →
      ∀ p ∈ readable a.map.placements, ∀ x ∈ p.range,
        CompletedBy m.settings.busBytes a.map.placements x p := by
  intro hall
  obtain ⟨a, ready, slot, ha, hready, hreads, haddress, hslot, hselects, hwaits, hnone⟩ :
      ∃ a ready slot, Artifacts.generate receiverModule = .ok a ∧
        a.map.placements[0]? = some ready ∧ ready.register.access.reads = true ∧
        ready.address = 0 ∧ slot ∈ tableSlots 4 a.map.placements ∧
        slot.selection = .word 0 ∧ slot.handshake = some "data" ∧ handshake ready = none :=
    ⟨_, _, _, rfl, rfl, rfl, rfl, List.mem_cons_of_mem _ (List.mem_cons_self), rfl, rfl, rfl⟩
  have hmem := mem_readable.2 ⟨List.mem_of_getElem? hready, hreads⟩
  have hcompleted := hall _ _ ha ready hmem _ (address_mem_range ready) slot hslot
  rw [hselects, haddress, hnone] at hcompleted
  exact nomatch hcompleted rfl _ hwaits

end RegisterBank.Hardware
