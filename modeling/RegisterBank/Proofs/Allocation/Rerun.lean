import Mathlib.Data.List.Forall2
import RegisterBank.Proofs.Allocation.Run

/-!
# Placing a placed table again

The registers of an address map ask for the addresses that they have, so the map can be taken as a
table and placed by hand. The second run goes side by side with the first one: from the same cursors
it puts the same register at the same address (`place_pinned`), and so both meet the same cursors
at the next register. The version register asks for no address in either run; it comes back to its
place because the least free address is the same.
-/

namespace RegisterBank.Policy

variable {policy : Policy} {env : Environment} {c c' : Cursors} {r : Register} {p : Placement}
  {rs : List Register} {ps : List Placement} {table : Table} {groups : List (Group Placement)}
  {map : AddressMap}

/-- An address that was found once is found again when it is asked for. -/
theorem addressFor_pinned {layout : Layout} {floor address : Nat}
    (h : policy.addressFor r layout floor = .ok address) :
    addressFor ⟨false, policy.overlap⟩ { r with address := some address } layout floor =
      .ok address := by
  obtain ⟨haligned, hfloor⟩ := addressFor_spec h
  -- The version register asks for nothing in either run, so both compute the same least address.
  by_cases hversion : r.isVersion = true
  · have hfirst : policy.request r = .ok none := by
      rw [request, if_pos hversion]
    have hagain : request ⟨false, policy.overlap⟩ { r with address := some address } = .ok none :=
      if_pos hversion
    rw [addressFor, hagain]
    rwa [addressFor, hfirst] at h
  · have hagain : request ⟨false, policy.overlap⟩ { r with address := some address } =
        .ok (some address) := if_neg hversion
    rw [addressFor, hagain, ok_bind]
    simp only [Nat.mod_eq_zero_of_dvd haligned, not_lt.2 hfloor, ne_eq, not_true_eq_false,
      if_false]

theorem place_pinned (h : policy.place env c r = .ok (p, c')) :
    place ⟨false, policy.overlap⟩ env c p.register = .ok (p, c') := by
  obtain ⟨layout, address, hlayout, haddress, hstop, rfl, rfl⟩ := place_eq_ok_iff.1 h
  exact place_eq_ok_iff.2
    ⟨layout, address, hlayout, addressFor_pinned haddress, hstop, rfl, rfl⟩

theorem placeAll_pinned (h : policy.placeAll env c rs = .ok (ps, c')) :
    placeAll ⟨false, policy.overlap⟩ env c (ps.map (·.register)) = .ok (ps, c') := by
  induction rs generalizing c ps with
  | nil =>
      cases h
      rfl
  | cons r rs ih =>
      obtain ⟨p, c₁, qs, hplace, hrest, rfl⟩ := placeAll_cons_eq_ok_iff.1 h
      exact placeAll_cons_eq_ok_iff.2 ⟨p, c₁, qs, place_pinned hplace, ih hrest, rfl⟩

theorem placeGroups_pinned (h : policy.placeGroups env c table = .ok (groups, c')) :
    placeGroups ⟨false, policy.overlap⟩ env c (groups.map (Group.map (·.register))) =
      .ok (groups, c') := by
  induction table generalizing c groups with
  | nil =>
      cases h
      rfl
  | cons g rest ih =>
      obtain ⟨members, c₁, others, hmembers, hothers, rfl⟩ := placeGroups_cons_eq_ok_iff.1 h
      exact placeGroups_cons_eq_ok_iff.2
        ⟨members, c₁, others, placeAll_pinned hmembers, ih hothers, rfl⟩

/-- A run puts every register somewhere, and changes nothing of it but its address. -/
theorem forall₂_of_placeAll_eq_ok (h : policy.placeAll env c rs = .ok (ps, c')) :
    List.Forall₂ (fun r p => p.register = { r with address := some p.address }) rs ps := by
  induction rs generalizing c ps with
  | nil =>
      cases h
      exact .nil
  | cons r rs ih =>
      obtain ⟨p, c₁, qs, hplace, hrest, rfl⟩ := placeAll_cons_eq_ok_iff.1 h
      obtain ⟨layout, address, -, -, -, rfl, -⟩ := place_eq_ok_iff.1 hplace
      exact .cons rfl (ih hrest)

/-- Placing the registers of an address map by hand, where each of them asks for the address that it
has, gives the same address map. -/
theorem allocate_pinned (h : policy.allocate env table = .ok map) :
    allocate ⟨false, policy.overlap⟩ env map.pinned = .ok map := by
  obtain ⟨hnonempty, groups, cursors, hgroups, rfl⟩ := allocate_eq_ok_iff.1 h
  refine allocate_eq_ok_iff.2 ⟨?_, groups, cursors, placeGroups_pinned hgroups, rfl⟩
  obtain ⟨c, hrun, -⟩ := placeAll_of_allocate_eq_ok h
  have hlength := (forall₂_of_placeAll_eq_ok hrun).length_eq
  have hflatten : Group.flatten (AddressMap.pinned ⟨groups, Block.ceilLog2 cursors.top⟩) =
      (Group.flatten groups).map (·.register) := Group.flatten_map _ _
  rw [hflatten, ne_eq, List.map_eq_nil_iff, ← List.length_eq_zero_iff]
  rwa [ne_eq, ← List.length_eq_zero_iff, hlength] at hnonempty

/-- A table without addresses but for one on the version register, which stands in the middle and is
not placed there. An array that is only read has to be moved up to its span. -/
def gappedTable : Table :=
  [⟨"main", "",
    [{ name := "ctrl", access := .readWrite, width := .literal 8 },
      { name := "VERSION", access := .read, width := .literal 16, address := some 64 }]⟩,
    ⟨"none", "", []⟩,
    ⟨"more", "",
      [{ name := "data", access := .read, width := .literal 20, logItems := .literal 2 },
        { name := "mode", access := .write, width := .literal 3 }]⟩]

theorem allocate_pinned_gappedTable :
    ∃ map, allocate ⟨true, .acrossDirections⟩ {} gappedTable = .ok map ∧
      map.placements.map (·.address) = [0, 2, 16, 1] ∧
      allocate ⟨false, .acrossDirections⟩ {} map.pinned = .ok map := by
  obtain ⟨map, hmap, haddresses⟩ :
      ∃ map, allocate ⟨true, .acrossDirections⟩ {} gappedTable = .ok map ∧
        map.placements.map (·.address) = [0, 2, 16, 1] := ⟨_, rfl, rfl⟩
  exact ⟨map, hmap, haddresses, allocate_pinned hmap⟩

end RegisterBank.Policy
