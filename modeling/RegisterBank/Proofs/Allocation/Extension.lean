import RegisterBank.Proofs.Allocation.Conformance

/-!
# Addresses stay when registers follow

The allocator goes through the registers of a table once. It never looks ahead, and it does not
know where a group begins, so `allocate` shows nothing of a table but the row of its registers
(`map_places_allocate`). Registers that are declared after those of a table leave all of these where
they are, and a table that is refused is refused with the same error however it goes on.
-/

namespace RegisterBank

/-- The placed registers in order and the width of their addresses, without the cut into groups. -/
def AddressMap.places (map : AddressMap) : List Placement × Nat :=
  (map.placements, map.addrWidth)

namespace Policy

variable {policy : Policy} {env : Environment} {c c' : Cursors} {rs extended : List Register}
  {ps : List Placement} {table : Table} {e : Error}

/-! ## Rows of registers -/

/-- A run over the first registers of a row puts them where the run over the whole row does. -/
theorem exists_placeAll_of_isPrefix (hinitial : rs <+: extended)
    (h : policy.placeAll env c extended = .ok (ps, c')) :
    ∃ c₁, policy.placeAll env c rs = .ok (ps.take rs.length, c₁) := by
  obtain ⟨later, rfl⟩ := hinitial
  rw [placeAll_append, bind_eq_ok_iff] at h
  obtain ⟨⟨first, c₁⟩, hfirst, h⟩ := h
  rw [bind_eq_ok_iff] at h
  obtain ⟨⟨rest, c₂⟩, -, h⟩ := h
  cases h
  have hlength := (forall₂_of_placeAll_eq_ok hfirst).length_eq
  exact ⟨c₁, by rw [hlength, List.take_left, hfirst]⟩

/-- A run that stops at one of the first registers of a row never comes to the others. -/
theorem placeAll_eq_error_of_isPrefix (hinitial : rs <+: extended)
    (h : policy.placeAll env c rs = .error e) : policy.placeAll env c extended = .error e := by
  obtain ⟨later, rfl⟩ := hinitial
  rw [placeAll_append, h, error_bind]

/-- The cursors after a run are not past those after a run over more registers. -/
theorem top_le_of_subset {o : Overlap} {ps qs : List Placement} {c d : Cursors}
    (hc : c.Records o ps) (hd : d.Records o qs) (hsubset : ps ⊆ qs) : c.top ≤ d.top := by
  have hstops := hd.top_le_iff.1 (le_refl d.top)
  exact hc.top_le_iff.2 fun p hp => hstops p (hsubset hp)

/-! ## Tables -/

/-- What a table is given depends on its registers in order, and on nothing else of it. -/
theorem map_places_allocate (policy : Policy) (env : Environment) (table : Table) :
    (policy.allocate env table).map AddressMap.places =
      if (Group.flatten table).isEmpty then .error (.configuration .emptyTable)
      else (policy.placeAll env {} (Group.flatten table)).map fun run =>
        (run.1, Block.ceilLog2 run.2.top) := by
  rw [allocate, placeAll_flatten]
  split
  · rfl
  · cases policy.placeGroups env {} table <;> rfl

theorem exists_allocate_of_placeAll (hnonempty : Group.flatten table ≠ [])
    (h : policy.placeAll env {} (Group.flatten table) = .ok (ps, c)) :
    ∃ map, policy.allocate env table = .ok map ∧ map.placements = ps ∧
      map.addrWidth = Block.ceilLog2 c.top := by
  have hplaces := map_places_allocate policy env table
  rw [if_neg (by rwa [List.isEmpty_iff]), h] at hplaces
  cases hallocate : policy.allocate env table with
  | error e =>
      rw [hallocate] at hplaces
      cases hplaces
  | ok map =>
      rw [hallocate] at hplaces
      obtain ⟨hplacements, hwidth⟩ := Prod.mk.inj (Except.ok.inj hplaces)
      exact ⟨map, rfl, hplacements, hwidth⟩

/-- Registers that follow those of a table do not matter to it. If the longer table is allocated,
the shorter one is too, with the same registers at the same addresses and in the same layouts, and
with addresses that are no wider; if the shorter one is refused, the longer one is refused with the
same error. Nor does it matter how the registers are cut into groups. -/
theorem allocate_extended {table extended : Table} (hnonempty : Group.flatten table ≠ [])
    (hinitial : Group.flatten table <+: Group.flatten extended) :
    (∀ larger, policy.allocate env extended = .ok larger →
      ∃ map, policy.allocate env table = .ok map ∧
        map.placements = larger.placements.take (Group.flatten table).length ∧
        map.addrWidth ≤ larger.addrWidth) ∧
    (∀ e, policy.allocate env table = .error e → policy.allocate env extended = .error e) ∧
    ∀ regrouped, Group.flatten regrouped = Group.flatten table →
      (policy.allocate env regrouped).map AddressMap.places =
        (policy.allocate env table).map AddressMap.places := by
  have hstart := Cursors.records_nil policy.overlap
  refine ⟨fun larger h => ?_, fun e h => ?_, fun regrouped hsame => ?_⟩
  · obtain ⟨d, hlonger, hlargerWidth⟩ := placeAll_of_allocate_eq_ok h
    obtain ⟨c, hshorter⟩ := exists_placeAll_of_isPrefix hinitial hlonger
    obtain ⟨map, hmap, hplacements, hwidth⟩ := exists_allocate_of_placeAll hnonempty hshorter
    refine ⟨map, hmap, hplacements, ?_⟩
    have hrecords := (laid_of_placeAll_eq_ok hstart hshorter).2
    have hlargerRecords := (laid_of_placeAll_eq_ok hstart hlonger).2
    rw [hwidth, hlargerWidth]
    exact Block.ceilLog2_mono
      (top_le_of_subset hrecords hlargerRecords (List.take_subset _ _))
  · rw [allocate_eq_error_iff] at h ⊢
    rcases h with ⟨hempty, -⟩ | hrun
    · exact absurd hempty hnonempty
    · exact .inr (placeAll_eq_error_of_isPrefix hinitial hrun)
  · rw [map_places_allocate, map_places_allocate, hsame]

/-- The registers of `mixedTable` before the version register, cut into groups in another way. -/
def declaredTable : Table :=
  [⟨"none", "", []⟩, ⟨"declared", "", (Group.flatten mixedTable).take 3⟩]

theorem allocate_extended_mixedTable :
    Group.flatten declaredTable ≠ [] ∧
      Group.flatten declaredTable <+: Group.flatten mixedTable ∧
      (∃ map larger, allocate ⟨false, .acrossDirections⟩ {} declaredTable = .ok map ∧
        allocate ⟨false, .acrossDirections⟩ {} mixedTable = .ok larger ∧
        map.placements = larger.placements.take 3 ∧ map.addrWidth ≤ larger.addrWidth) ∧
      allocate ⟨false, .never⟩ {} declaredTable = .error (.address "data" (.overlapping 8 12)) ∧
      allocate ⟨false, .never⟩ {} mixedTable = .error (.address "data" (.overlapping 8 12)) := by
  have hnonempty : Group.flatten declaredTable ≠ [] := List.cons_ne_nil _ _
  have hinitial : Group.flatten declaredTable <+: Group.flatten mixedTable :=
    ⟨(Group.flatten mixedTable).drop 3, rfl⟩
  obtain ⟨larger, hlarger⟩ :
      ∃ larger, allocate ⟨false, .acrossDirections⟩ {} mixedTable = .ok larger := ⟨_, rfl⟩
  obtain ⟨map, hmap, hplacements, hwidth⟩ :=
    (allocate_extended hnonempty hinitial).1 larger hlarger
  have hrefused :
      allocate ⟨false, .never⟩ {} declaredTable = .error (.address "data" (.overlapping 8 12)) :=
    rfl
  exact ⟨hnonempty, hinitial, ⟨map, larger, hmap, hlarger, hplacements, hwidth⟩, hrefused,
    (allocate_extended hnonempty hinitial).2.1 _ hrefused⟩

end Policy

end RegisterBank
