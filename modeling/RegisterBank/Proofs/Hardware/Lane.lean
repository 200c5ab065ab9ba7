import RegisterBank.Proofs.Hardware.Write

/-!
# The lanes of items

The bus carries the byte of an address in the lane of that address, and an element takes its data
from the lane of its first byte. So an item is written from its own lane exactly if whole words lie
between it and the first byte of its element (`lane_eq_iff`). An array that the register file holds
has an element for each item and passes. An array of user logic is one element, whose lane is that
of item zero: items that are narrower than the bus word, other than the first of each word, are
taken from the lane of another byte.
-/

namespace RegisterBank.Hardware

open Software (itemAddress)

variable {p : Placement} {s : WriteSlice} {i bus : Nat} {m : Module} {a : Artifacts}

/-- Every item of the register is written from the lane of its own address. -/
def WrittenFromOwnLanes (bus : Nat) (p : Placement) : Prop :=
  ∀ i < p.layout.items, ∀ s ∈ writeSlices bus p, s.element.Holds (itemAddress p i) →
    s.lane = Block.laneBit (itemAddress p i) bus

theorem itemAddress_mem_window (hp : p.layout.Packed) :
    itemAddress p i ∈ (itemElement p i).window := by
  rw [← address_itemElement hp, Element.window, Set.mem_Ico]
  exact ⟨Nat.le_refl _, Nat.lt_add_of_pos_right hp.bytes_pos⟩

theorem itemAddress_mem_range (hp : p.layout.Packed) (hi : i < p.layout.items) :
    itemAddress p i ∈ p.range :=
  (mem_range_iff_exists_item hp).2 ⟨i, hi, itemAddress_mem_window hp⟩

/-- One slice of the register decodes the address of an item. -/
theorem exists_slice_of_item (bus : Nat) (hp : p.layout.Packed) (hi : i < p.layout.items) :
    ∃ s ∈ writeSlices bus p, s.element.Holds (itemAddress p i) ∧
      (writeSlices bus p).filter (·.element.Holds (itemAddress p i)) = [s] := by
  obtain ⟨e, he, hholds⟩ := (mem_range_iff_exists_element hp).1 (itemAddress_mem_range hp hi)
  rw [← map_element_writeSlices bus] at he
  obtain ⟨s, hs, rfl⟩ := List.mem_map.1 he
  have hexclusive : (writeSlices bus p).Pairwise fun s t =>
      ¬ (s.element.Holds (itemAddress p i) ∧ t.element.Holds (itemAddress p i)) := by
    have hdisjoint := disjoint_elements p
    rw [← map_element_writeSlices bus, List.pairwise_map] at hdisjoint
    exact hdisjoint.imp fun hst => not_holds_of_disjoint hst _
  exact ⟨s, hs, hholds, filter_eq_singleton hexclusive hs hholds⟩

theorem dvd_of_scalar (bus : Nat) (hscalar : ¬ 1 < p.layout.items) (hi : i < p.layout.items) :
    bus ∣ i * p.layout.bytes := by
  have hzero : i = 0 := by omega
  rw [hzero, Nat.zero_mul]
  exact Nat.dvd_zero bus

/-- An item is written from its own lane if it has an element of its own, or if whole words lie
between it and the first item. -/
theorem lane_eq_iff (hp : p.layout.Packed) (hi : i < p.layout.items) (hs : s ∈ writeSlices bus p)
    (hholds : s.element.Holds (itemAddress p i)) :
    s.lane = Block.laneBit (itemAddress p i) bus ↔
      p.register.auto = true ∨ bus ∣ i * p.layout.bytes := by
  obtain ⟨e, he, rfl⟩ := List.mem_map.1 hs
  change Block.laneBit e.address bus = _ ↔ _
  by_cases harray : p.register.auto = true ∧ 1 < p.layout.items
  · rw [elements_eq_items harray.1 harray.2] at he
    obtain ⟨j, -, rfl⟩ := List.mem_map.1 he
    have hij : j = i := by
      -- Items have disjoint windows, so the element of another item does not hold the address.
      by_contra hne
      have hown := itemAddress_mem_window (i := i) hp
      rcases Nat.lt_or_gt_of_ne hne with hlt | hlt
      · exact Set.disjoint_left.1 (disjoint_itemElements p hlt) hholds hown
      · exact Set.disjoint_left.1 (disjoint_itemElements p hlt) hown hholds
    rw [hij, address_itemElement hp]
    exact iff_of_true rfl (.inl harray.1)
  · rw [elements_eq_whole harray, List.mem_singleton] at he
    have haddress : itemAddress p i = p.address + i * p.layout.bytes :=
      (address_itemElement hp i).symm
    rw [he, haddress, eq_comm]
    change Block.laneBit (p.address + i * p.layout.bytes) bus = Block.laneBit p.address bus ↔ _
    rw [Block.laneBit_add_eq_iff]
    refine ⟨.inr, ?_⟩
    rintro (hauto | hdvd)
    · exact dvd_of_scalar bus (fun hlt => harray ⟨hauto, hlt⟩) hi
    · exact hdvd

/-- All items pass where the second one does: where it has an element of its own, or does not exist,
or fills a bus word. -/
theorem writtenFromOwnLanes_iff (hp : p.layout.Packed) (hfits : p.layout.bytes ≤ bus) :
    WrittenFromOwnLanes bus p ↔
      p.register.auto = true ∨ p.isArray = false ∨ p.layout.bytes = bus := by
  constructor
  · intro hlanes
    by_cases harray : 1 < p.layout.items
    · obtain ⟨s, hs, hholds, -⟩ := exists_slice_of_item bus hp harray
      have hlane := hlanes 1 harray s hs hholds
      rw [lane_eq_iff hp harray hs hholds, Nat.one_mul] at hlane
      refine hlane.imp_right fun hdvd => .inr ?_
      exact Nat.le_antisymm hfits (Nat.le_of_dvd hp.bytes_pos hdvd)
    · exact .inr (.inl (decide_eq_false harray))
  · intro hcases i hi s hs hholds
    rw [lane_eq_iff hp hi hs hholds]
    rcases hcases with hauto | hscalar | hbytes
    · exact .inl hauto
    · exact .inr (dvd_of_scalar bus (of_decide_eq_false hscalar) hi)
    · rw [hbytes]
      exact .inr (Nat.dvd_mul_left bus i)

/-- The hardware has the lines of the write slices, and the address of every item of a writable
register is decoded by one of them. The slice has the lane of that address exactly if the register
file holds the register or whole words lie before the item; so all items are written from their own
lanes unless user logic holds an array of items that are narrower than the bus word. -/
theorem generate_lanes_iff (h : Artifacts.generate m = .ok a)
    (hp : p ∈ writable a.map.placements) :
    let bus := m.settings.busBytes
    a.hardware.snippet = Text.unlines (listing m.settings a.map.placements) ∧
    (∀ i < 2 ^ p.layout.logItems, ∃ s,
      (writeSlices bus p).filter (·.element.Holds (itemAddress p i)) = [s] ∧
        (s.lane = Block.laneBit (itemAddress p i) bus ↔
          p.register.auto = true ∨ bus ∣ i * p.layout.bytes)) ∧
      (WrittenFromOwnLanes bus p ↔
        p.register.auto = true ∨ p.isArray = false ∨ p.layout.bytes = bus) := by
  refine ⟨snippet_eq_of_generate_eq_ok h, ?_⟩
  obtain ⟨b, hb, rfl, hmap, -⟩ := Artifacts.exists_checked_of_generate_eq_ok h
  rw [← hmap] at hp
  have hpacked := hb.packed (mem_writable.1 hp).1
  refine ⟨?_, writtenFromOwnLanes_iff hpacked (bytes_le_of_checkWrite_eq_ok (hb.writes p hp))⟩
  intro i hi
  rw [← p.layout.items_eq] at hi
  obtain ⟨s, hs, hholds, hfilter⟩ := exists_slice_of_item b.design.settings.busBytes hpacked hi
  exact ⟨s, hfilter, lane_eq_iff hpacked hi hs hholds⟩

/-- A module with two arrays of user logic: one of words and one of bytes. -/
def blockModule : Module :=
  { name := "block"
    version := { major := 1, minor := 0, patch := 0 }
    groups :=
      [⟨"main", "",
        [{ name := "words", access := .write, width := .literal 32, logItems := .literal 1
           auto := false },
          { name := "taps", access := .write, width := .literal 8, logItems := .literal 2
            auto := false }]⟩] }

theorem generate_lanes_iff_blockModule :
    ∃ a words taps, Artifacts.generate blockModule = .ok a ∧
      a.map.placements[0]? = some words ∧ a.map.placements[1]? = some taps ∧
      WrittenFromOwnLanes 4 words ∧ ¬ WrittenFromOwnLanes 4 taps := by
  obtain ⟨a, words, taps, ha, hwords, htaps, hwritten, hwritten', hbytes, hnarrow⟩ :
      ∃ a words taps, Artifacts.generate blockModule = .ok a ∧
        a.map.placements[0]? = some words ∧ a.map.placements[1]? = some taps ∧
        words.register.access.writes = true ∧ taps.register.access.writes = true ∧
        words.layout.bytes = 4 ∧
        ¬ (taps.register.auto = true ∨ taps.isArray = false ∨ taps.layout.bytes = 4) :=
    ⟨_, _, _, rfl, rfl, rfl, rfl, rfl, rfl, by decide⟩
  have hiff := generate_lanes_iff ha (mem_writable.2 ⟨List.mem_of_getElem? hwords, hwritten⟩)
  have hiff' := generate_lanes_iff ha (mem_writable.2 ⟨List.mem_of_getElem? htaps, hwritten'⟩)
  exact ⟨a, words, taps, ha, hwords, htaps, hiff.2.2.2 (.inr (.inr hbytes)),
    fun hlanes => hnarrow (hiff'.2.2.1 hlanes)⟩

/-- The second byte of an array of user logic is written from the lane of the first one. -/
theorem not_forall_writtenFromOwnLanes :
    ¬ ∀ m a, Artifacts.generate m = .ok a →
      ∀ p ∈ writable a.map.placements, WrittenFromOwnLanes m.settings.busBytes p := by
  intro hall
  obtain ⟨a, taps, ha, htaps, hwritten, hitems, haddress, hslices⟩ :
      ∃ a taps, Artifacts.generate blockModule = .ok a ∧ a.map.placements[1]? = some taps ∧
        taps.register.access.writes = true ∧ taps.layout.items = 4 ∧ itemAddress taps 1 = 9 ∧
        writeSlices 4 taps = [⟨⟨"taps", 8, 4⟩, 0, "8"⟩] :=
    ⟨_, _, rfl, rfl, rfl, rfl, rfl, rfl⟩
  have hlanes := hall _ _ ha taps (mem_writable.2 ⟨List.mem_of_getElem? htaps, hwritten⟩)
  have hslice : (⟨⟨"taps", 8, 4⟩, 0, "8"⟩ : WriteSlice) ∈ writeSlices 4 taps := by
    rw [hslices]
    exact List.mem_singleton_self _
  have hlane := hlanes 1 (by omega) _ hslice (by rw [haddress]; decide)
  rw [haddress] at hlane
  exact absurd hlane (by decide)

end RegisterBank.Hardware
