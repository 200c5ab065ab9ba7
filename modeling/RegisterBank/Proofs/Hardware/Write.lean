import Mathlib.Data.List.Flatten
import RegisterBank.Proofs.Exclusive
import RegisterBank.Proofs.Hardware.Element
import RegisterBank.Proofs.Hardware.Snippet

/-!
# Write decode

The windows of the written elements are disjoint, so an address is decoded by one of them at most,
and a write reaches one storage or one user signal at most. An element takes its data from lanes
inside the bus word, because its address is a multiple of its bytes and they fit into a word.
-/

namespace RegisterBank.Hardware

variable {p : Placement} {ps : List Placement} {e : Element} {bus : Nat} {m : Module}
  {a : Artifacts}

/-- A write as the decoders see it. -/
structure WriteRequest where
  valid : Bool
  ready : Bool
  strobes : Nat
  /-- The address of the first strobed byte. -/
  address : Nat
  deriving DecidableEq, Repr

/-- Whether the write enable of an element is set. -/
def WriteRequest.Enables (q : WriteRequest) (e : Element) : Prop :=
  (q.valid = true ∧ q.ready = true) ∧ q.strobes ≠ 0 ∧ e.Holds q.address

instance (q : WriteRequest) (e : Element) : Decidable (q.Enables e) :=
  inferInstanceAs (Decidable (_ ∧ _))

theorem map_element_writeSlices (bus : Nat) (p : Placement) :
    (writeSlices bus p).map (·.element) = elements p := by
  simp [writeSlices, Function.comp_def]

theorem map_element_tableSlices (bus : Nat) (ps : List Placement) :
    (tableSlices bus ps).map (·.element) = (writable ps).flatMap elements := by
  rw [tableSlices, List.map_flatMap]
  simp only [map_element_writeSlices]

theorem forwardedSlices_sublist (bus : Nat) (ps : List Placement) :
    (forwardedSlices bus ps).Sublist (tableSlices bus ps) :=
  List.Sublist.flatMap List.filter_sublist _

/-- Elements with disjoint windows do not hold an address together. -/
theorem not_holds_of_disjoint {f : Element} (h : Disjoint e.window f.window) (x : Nat) :
    ¬ (e.Holds x ∧ f.Holds x) :=
  fun ⟨he, hf⟩ => Set.disjoint_left.1 h he hf

theorem iUnion_window_tableSlices (hpacked : ∀ p ∈ ps, p.layout.Packed) :
    ⋃ s ∈ tableSlices bus ps, s.element.window = ⋃ p ∈ writable ps, p.range := by
  ext x
  simp only [Set.mem_iUnion, exists_prop]
  constructor
  · rintro ⟨s, hs, hx⟩
    obtain ⟨p, hp, hsp⟩ := List.mem_flatMap.1 hs
    have he : s.element ∈ elements p := by
      rw [← map_element_writeSlices bus]
      exact List.mem_map_of_mem hsp
    have hpp := hpacked p (mem_writable.1 hp).1
    exact ⟨p, hp, (mem_range_iff_exists_element hpp).2 ⟨s.element, he, hx⟩⟩
  · rintro ⟨p, hp, hx⟩
    have hpp := hpacked p (mem_writable.1 hp).1
    obtain ⟨e, he, hxe⟩ := (mem_range_iff_exists_element hpp).1 hx
    rw [← map_element_writeSlices bus] at he
    obtain ⟨s, hs, rfl⟩ := List.mem_map.1 he
    exact ⟨s, List.mem_flatMap.2 ⟨p, hp, hs⟩, hxe⟩

/-- The slice of a written element lies inside the bus word. -/
theorem lane_add_le {b : Build} (hb : b.Checked) (hp : p ∈ writable b.placements) {s : WriteSlice}
    (hs : s ∈ writeSlices b.busBytes p) :
    s.lane = Block.laneBit s.element.address b.busBytes ∧
      s.lane + 8 * p.layout.bytes ≤ b.design.settings.dataWidth := by
  obtain ⟨e, he, rfl⟩ := List.mem_map.1 hs
  have hregular := regular_of_mem_elements hb (mem_writable.1 hp).1 he
  have hfits := hregular.mod_add_le (bytes_le_of_checkWrite_eq_ok (hb.writes p hp))
  obtain ⟨j, -, hwidth⟩ := hb.exists_busBytes_eq_two_pow
  refine ⟨rfl, ?_⟩
  change 8 * (e.address % b.busBytes) + 8 * p.layout.bytes ≤ _
  omega

/-- The hardware has the lines of the write slices. The windows of their elements are disjoint and
cover the ranges of the writable registers. So an address selects one element at most, a write sets
one enable and waits for one ready signal at most, and every element is written from lanes of the
bus word. -/
theorem generate_writes (h : Artifacts.generate m = .ok a) :
    let bus := m.settings.busBytes
    let slices := tableSlices bus a.map.placements
    a.hardware.snippet = Text.unlines (listing m.settings a.map.placements) ∧
      slices.Pairwise (fun s t => Disjoint s.element.window t.element.window) ∧
      (∀ x, (slices.filter (·.element.Holds x)).length ≤ 1) ∧
      (∀ q : WriteRequest, (slices.filter (q.Enables ·.element)).length ≤ 1) ∧
      (∀ x, ((forwardedSlices bus a.map.placements).filter (·.element.Holds x)).length ≤ 1) ∧
      ⋃ s ∈ slices, s.element.window = ⋃ p ∈ writable a.map.placements, p.range ∧
      ∀ p ∈ writable a.map.placements, ∀ s ∈ writeSlices bus p,
        s.lane = Block.laneBit s.element.address bus ∧
          s.lane + 8 * p.layout.bytes ≤ m.settings.dataWidth := by
  refine ⟨snippet_eq_of_generate_eq_ok h, ?_⟩
  obtain ⟨b, hb, rfl, hmap, -⟩ := Artifacts.exists_checked_of_generate_eq_ok h
  rw [← hmap]
  have hpacked : ∀ p ∈ b.placements, p.layout.Packed := fun p hp => hb.packed hp
  have hwritable : ∀ p ∈ writable b.placements, p.layout.Packed :=
    fun p hp => hpacked p (mem_writable.1 hp).1
  have hdisjoint : (tableSlices b.busBytes b.placements).Pairwise
      fun s t => Disjoint s.element.window t.element.window := by
    have helements := disjoint_flatMap_elements hwritable hb.disjoint_writable
    rwa [← map_element_tableSlices b.busBytes, List.pairwise_map] at helements
  have hexclusive : ∀ x, (tableSlices b.busBytes b.placements).Pairwise
      fun s t => ¬ (s.element.Holds x ∧ t.element.Holds x) :=
    fun x => hdisjoint.imp fun hst => not_holds_of_disjoint hst x
  refine ⟨hdisjoint, ?_, ?_, ?_, iUnion_window_tableSlices hpacked, ?_⟩
  · intro x
    exact length_filter_le_one (hexclusive x)
  · intro q
    apply length_filter_le_one
    refine (hexclusive q.address).imp ?_
    rintro s t hst ⟨⟨-, -, hs⟩, -, -, ht⟩
    exact hst ⟨hs, ht⟩
  · intro x
    exact length_filter_le_one ((hexclusive x).sublist (forwardedSlices_sublist _ _))
  · intro p hp s hs
    exact lane_add_le hb hp hs

theorem generate_writes_mixedModule :
    ∃ a, Artifacts.generate mixedModule = .ok a ∧
      (tableSlices 4 a.map.placements).map (fun s => (s.element.address, s.lane)) =
        [(0, 0), (4, 0), (8, 0), (12, 0), (16, 0)] ∧
      a.hardware.snippet = Text.unlines (listing mixedModule.settings a.map.placements) ∧
      (∀ x, ((tableSlices 4 a.map.placements).filter (·.element.Holds x)).length ≤ 1) ∧
      ⋃ s ∈ tableSlices 4 a.map.placements, s.element.window =
        ⋃ p ∈ writable a.map.placements, p.range := by
  obtain ⟨a, ha, hslices⟩ : ∃ a, Artifacts.generate mixedModule = .ok a ∧
      (tableSlices 4 a.map.placements).map (fun s => (s.element.address, s.lane)) =
        [(0, 0), (4, 0), (8, 0), (12, 0), (16, 0)] := ⟨_, rfl, rfl⟩
  obtain ⟨htext, -, hexclusive, -, -, hcover, -⟩ := generate_writes ha
  exact ⟨a, ha, hslices, htext, hexclusive, hcover⟩

end RegisterBank.Hardware
