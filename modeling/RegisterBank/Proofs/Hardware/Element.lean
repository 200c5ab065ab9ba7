import Mathlib.Data.Set.Lattice
import RegisterBank.Proofs.Build

/-!
# Elements tile their registers

The windows of the elements of a register are disjoint and cover its range, whether it is decoded
item by item or as a whole. So the elements of registers with disjoint ranges have disjoint windows
all together, which is what makes the decoders of a table exclusive.

The hardware steps from item to item by the bytes of an item and software by a shift. The two agree
where items are a power of two bytes wide, and the software files refuse all others.
-/

namespace RegisterBank.Hardware

open Software (addressText itemAddress indexShift)

variable {p : Placement} {ps : List Placement} {e : Element} {m : Module} {a : Artifacts}

/-- The byte addresses that select an element. -/
def Element.window (e : Element) : Set Nat :=
  Set.Ico e.address e.stop

theorem elements_eq_items (hauto : p.register.auto = true) (hitems : 1 < p.layout.items) :
    elements p = (List.range p.layout.items).map (itemElement p) :=
  if_pos ⟨hauto, hitems⟩

theorem elements_eq_whole (h : ¬ (p.register.auto = true ∧ 1 < p.layout.items)) :
    elements p = [wholeElement p] :=
  if_neg h

theorem window_wholeElement (p : Placement) : (wholeElement p).window = p.range := rfl

theorem mem_window_itemElement {i x : Nat} :
    x ∈ (itemElement p i).window ↔
      p.address + i * p.layout.bytes ≤ x ∧ x < p.address + (i + 1) * p.layout.bytes := by
  rw [Nat.succ_mul, ← Nat.add_assoc]
  rfl

/-- An item ends where the next one begins or before it. -/
theorem disjoint_itemElements (p : Placement) {i j : Nat} (hij : i < j) :
    Disjoint (itemElement p i).window (itemElement p j).window := by
  rw [Set.disjoint_left]
  intro x hi hj
  rw [mem_window_itemElement] at hi hj
  have hstep : (i + 1) * p.layout.bytes ≤ j * p.layout.bytes := Nat.mul_le_mul_right _ hij
  omega

theorem disjoint_elements (p : Placement) :
    (elements p).Pairwise fun e f => Disjoint e.window f.window := by
  by_cases h : p.register.auto = true ∧ 1 < p.layout.items
  · rw [elements_eq_items h.1 h.2, List.pairwise_map]
    exact List.pairwise_lt_range.imp fun hij => disjoint_itemElements p hij
  · rw [elements_eq_whole h]
    exact List.pairwise_singleton _ _

/-- The items of a packed register reach from its first byte to its last one. -/
theorem mem_range_iff_exists_item (hp : p.layout.Packed) {x : Nat} :
    x ∈ p.range ↔ ∃ i < p.layout.items, x ∈ (itemElement p i).window := by
  rw [Placement.range, Set.mem_Ico, hp.span_eq_items_mul_bytes]
  simp only [mem_window_itemElement]
  constructor
  · rintro ⟨hlow, hhigh⟩
    -- A byte belongs to the item at the quotient of its distance by the bytes of an item.
    refine ⟨(x - p.address) / p.layout.bytes, ?_, ?_, ?_⟩
    · rw [Nat.div_lt_iff_lt_mul hp.bytes_pos]
      omega
    · have hdiv := Nat.div_mul_le_self (x - p.address) p.layout.bytes
      omega
    · have hdiv : x - p.address <
          (x - p.address) / p.layout.bytes * p.layout.bytes + p.layout.bytes :=
        Nat.lt_div_mul_add hp.bytes_pos
      rw [Nat.succ_mul]
      omega
  · rintro ⟨i, hi, hlow, hhigh⟩
    have hlast : (i + 1) * p.layout.bytes ≤ p.layout.items * p.layout.bytes :=
      Nat.mul_le_mul_right _ hi
    omega

theorem mem_range_iff_exists_element (hp : p.layout.Packed) {x : Nat} :
    x ∈ p.range ↔ ∃ e ∈ elements p, x ∈ e.window := by
  by_cases h : p.register.auto = true ∧ 1 < p.layout.items
  · rw [elements_eq_items h.1 h.2, mem_range_iff_exists_item hp]
    simp
  · rw [elements_eq_whole h]
    simp [window_wholeElement]

theorem iUnion_window_elements (hp : p.layout.Packed) :
    ⋃ e ∈ elements p, e.window = p.range := by
  ext x
  simp only [Set.mem_iUnion, exists_prop]
  exact (mem_range_iff_exists_element hp).symm

/-- Registers with disjoint ranges have elements with disjoint windows. -/
theorem disjoint_flatMap_elements (hpacked : ∀ p ∈ ps, p.layout.Packed)
    (hdisjoint : ps.Pairwise fun p q => Disjoint p.range q.range) :
    (ps.flatMap elements).Pairwise fun e f => Disjoint e.window f.window := by
  rw [List.pairwise_flatMap]
  refine ⟨fun p _ => disjoint_elements p, hdisjoint.imp_of_mem ?_⟩
  intro p q hp hq hpq e he f hf
  refine hpq.mono ?_ ?_
  · intro x hx
    exact (mem_range_iff_exists_element (hpacked p hp)).2 ⟨e, he, hx⟩
  · intro x hx
    exact (mem_range_iff_exists_element (hpacked q hq)).2 ⟨f, hf, hx⟩

/-- How an element lies on the bytes of an item. -/
structure Element.Aligned (e : Element) (bytes : Nat) : Prop where
  address : bytes ∣ e.address
  length : bytes ∣ e.length
  nonempty : 0 < e.length

theorem aligned_of_mem_elements (hpacked : p.layout.Packed) (haligned : p.layout.span ∣ p.address)
    (he : e ∈ elements p) : e.Aligned p.layout.bytes := by
  have hregister : p.layout.bytes ∣ p.address := Nat.dvd_trans hpacked.bytes_dvd_span haligned
  by_cases h : p.register.auto = true ∧ 1 < p.layout.items
  · rw [elements_eq_items h.1 h.2] at he
    obtain ⟨i, -, rfl⟩ := List.mem_map.1 he
    exact ⟨Nat.dvd_add hregister (Nat.dvd_mul_left _ _), Nat.dvd_refl _, hpacked.bytes_pos⟩
  · rw [elements_eq_whole h, List.mem_singleton] at he
    rw [he]
    exact ⟨hregister, hpacked.bytes_dvd_span, p.layout.span_pos⟩

/-- The sizes that the decoders of an element rely on. -/
structure Regular (bus : Nat) (p : Placement) (e : Element) : Prop where
  bus_eq : ∃ k, bus = 2 ^ k
  bytes_eq : ∃ k, p.layout.bytes = 2 ^ k
  aligned : e.Aligned p.layout.bytes

theorem regular_of_mem_elements {b : Build} (hb : b.Checked) (hp : p ∈ b.placements)
    (he : e ∈ elements p) : Regular b.busBytes p e := by
  obtain ⟨j, hbus, -⟩ := hb.exists_busBytes_eq_two_pow
  obtain ⟨k, -, hbytes⟩ := hb.bytes p hp
  exact ⟨⟨j, hbus⟩, ⟨k, hbytes⟩,
    aligned_of_mem_elements (hb.packed hp) (hb.seated p hp).aligned he⟩

namespace Regular

variable {bus : Nat} (h : Regular bus p e)

include h

theorem bus_pos : 0 < bus := by
  obtain ⟨k, hbus⟩ := h.bus_eq
  rw [hbus]
  exact Nat.two_pow_pos k

theorem bus_dvd_bytes (hle : bus ≤ p.layout.bytes) : bus ∣ p.layout.bytes :=
  Block.dvd_of_le h.bus_eq h.bytes_eq hle

theorem bytes_le_length : p.layout.bytes ≤ e.length :=
  Nat.le_of_dvd h.aligned.nonempty h.aligned.length

/-- The first item of an element does not reach over the end of a word into which it fits. -/
theorem mod_add_le (hle : p.layout.bytes ≤ bus) : e.address % bus + p.layout.bytes ≤ bus :=
  Block.mod_add_le h.bus_pos h.aligned.address (Block.dvd_of_le h.bytes_eq h.bus_eq hle)

end Regular

/-- An element of a register that is no array of user logic is one item. -/
theorem length_eq_bytes (hpacked : p.layout.Packed)
    (hdirect : p.register.auto = true ∨ p.isArray = false) (he : e ∈ elements p) :
    e.length = p.layout.bytes := by
  by_cases h : p.register.auto = true ∧ 1 < p.layout.items
  · rw [elements_eq_items h.1 h.2] at he
    obtain ⟨i, -, rfl⟩ := List.mem_map.1 he
    rfl
  · rw [elements_eq_whole h, List.mem_singleton] at he
    have hscalar : p.layout.items = 1 := by
      have hpos := p.layout.items_pos
      rcases hdirect with hauto | harray
      · have hle : ¬ 1 < p.layout.items := fun hlt => h ⟨hauto, hlt⟩
        omega
      · have hle : ¬ 1 < p.layout.items := of_decide_eq_false harray
        omega
    rw [he]
    change p.layout.span = p.layout.bytes
    rw [hpacked.span_eq_items_mul_bytes, hscalar, Nat.one_mul]

/-- The multiples of the bytes of an item are the shifts of software. -/
theorem address_itemElement (hp : p.layout.Packed) (i : Nat) :
    (itemElement p i).address = itemAddress p i := by
  obtain ⟨k, hbytes, -⟩ := hp
  change p.address + i * p.layout.bytes = p.address + i <<< Block.ceilLog2 p.layout.bytes
  rw [hbytes, Block.ceilLog2_two_pow, Nat.shiftLeft_eq]

/-- Hardware decodes each item of an array that the register file holds at the address at which
software accesses it, and the windows of the items tile the range of the array. -/
theorem generate_items (h : Artifacts.generate m = .ok a) (hp : p ∈ a.map.placements)
    (hauto : p.register.auto = true) (harray : 1 < p.layout.items) :
    (elements p).map (·.address) = (List.range (2 ^ p.layout.logItems)).map (itemAddress p) ∧
      (∀ name, addressText name p = s!"({name}) + (addr << {indexShift p})") ∧
      (elements p).Pairwise (fun e f => Disjoint e.window f.window) ∧
      ⋃ e ∈ elements p, e.window = p.range := by
  obtain ⟨b, hb, -, hmap, -⟩ := Artifacts.exists_checked_of_generate_eq_ok h
  have hpacked : p.layout.Packed := hb.packed (by rwa [Build.placements, hmap])
  refine ⟨?_, ?_, disjoint_elements p, iUnion_window_elements hpacked⟩
  · rw [elements_eq_items hauto harray, p.layout.items_eq, List.map_map]
    apply List.map_congr_left
    intro i _
    exact address_itemElement hpacked i
  · intro name
    exact if_pos (decide_eq_true harray)

/-- A module with an array of padded items, a register of two bus words, an array of user logic, and
a register of user logic that is written where the register of two words is read. -/
def mixedModule : Module :=
  { name := "mixed"
    version := { major := 1, minor := 2, patch := 0 }
    params := [{ name := "W", fields := ⟨some (.literal 20), none, some (.literal 24)⟩ }]
    groups :=
      [⟨"main", "",
        [{ name := "taps", access := .readWrite, width := ⟨"W", .name "W"⟩
           logItems := .literal 2 },
          { name := "stamp", access := .read, width := .literal 64 },
          { name := "trace", access := .read, width := .literal 8, logItems := .literal 3
            auto := false },
          { name := "start", access := .write, width := .literal 8, auto := false }]⟩]
    settings := { overlap := true } }

theorem generate_items_mixedModule :
    ∃ a taps, Artifacts.generate mixedModule = .ok a ∧ a.map.placements[0]? = some taps ∧
      (elements taps).map (·.address) = [0, 4, 8, 12] ∧ taps.layout.span = 16 ∧
      (elements taps).map (·.address) =
        (List.range (2 ^ taps.layout.logItems)).map (itemAddress taps) ∧
      (∀ name, addressText name taps = s!"({name}) + (addr << {indexShift taps})") ∧
      (elements taps).Pairwise (fun e f => Disjoint e.window f.window) ∧
      ⋃ e ∈ elements taps, e.window = taps.range := by
  obtain ⟨a, taps, ha, htaps, hauto, hitems, haddresses, hspan⟩ :
      ∃ a taps, Artifacts.generate mixedModule = .ok a ∧ a.map.placements[0]? = some taps ∧
        taps.register.auto = true ∧ taps.layout.items = 4 ∧
        (elements taps).map (·.address) = [0, 4, 8, 12] ∧ taps.layout.span = 16 :=
    ⟨_, _, rfl, rfl, rfl, rfl, rfl, rfl⟩
  have harray : 1 < taps.layout.items := by
    rw [hitems]
    decide
  exact ⟨a, taps, ha, htaps, haddresses, hspan,
    generate_items ha (List.mem_of_getElem? htaps) hauto harray⟩

end RegisterBank.Hardware
