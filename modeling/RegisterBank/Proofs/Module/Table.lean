import RegisterBank.Module.Basic
import RegisterBank.Proofs.Failure

/-!
# The table of a module

A module has a table when its bus has one of the known widths, some register is declared, and the
names of all registers are given and differ, also without regard to the case of their letters.
-/

namespace RegisterBank

/-- Names that differ in more than the case of their letters. -/
def Register.Distinct (r s : Register) : Prop :=
  Text.asciiLower r.name ≠ Text.asciiLower s.name

theorem Register.Distinct.name_ne {r s : Register} (h : r.Distinct s) : r.name ≠ s.name :=
  fun hname => h (congrArg Text.asciiLower hname)

/-- Names have no fault when all are given, none has been seen, and no two of them agree. -/
theorem Table.nameFault?_eq_none_iff {seen : List String} {rs : List Register} :
    nameFault? seen rs = none ↔
      rs.Pairwise Register.Distinct ∧
        ∀ r ∈ rs, r.name ≠ "" ∧ Text.asciiLower r.name ∉ seen := by
  induction rs generalizing seen with
  | nil => simp [nameFault?]
  | cons r rs ih =>
      rw [nameFault?, List.pairwise_cons, List.forall_mem_cons]
      by_cases hname : r.name = ""
      · simp [hname]
      · by_cases hseen : Text.asciiLower r.name ∈ seen
        · simp [hname, hseen]
        · rw [if_neg hname, if_neg (by simpa using hseen), ih]
          constructor
          · rintro ⟨hdistinct, hfresh⟩
            refine ⟨⟨?_, hdistinct⟩, ⟨hname, hseen⟩, ?_⟩
            · intro s hs heq
              exact (hfresh s hs).2 (List.mem_cons.2 (.inl heq.symm))
            · intro s hs
              exact ⟨(hfresh s hs).1, fun hmem => (hfresh s hs).2 (List.mem_cons_of_mem _ hmem)⟩
          · rintro ⟨⟨hfirst, hdistinct⟩, -, hfresh⟩
            refine ⟨hdistinct, fun s hs => ⟨(hfresh s hs).1, ?_⟩⟩
            rw [List.mem_cons, not_or]
            exact ⟨(hfirst s hs).symm, (hfresh s hs).2⟩

theorem Settings.validate_eq_ok_iff {s : Settings} :
    s.validate = .ok () ↔ s.dataWidth ∈ dataWidths := by
  rw [validate]
  split
  · exact iff_of_true rfl ‹_›
  · exact iff_of_false (fun h => nomatch h) ‹_›

/-- The declared groups with the interrupt registers, where these are enabled. -/
def Module.equipped (m : Module) : Table :=
  if m.settings.interrupts then Table.withInterrupts m.groups else m.groups

/-- When a module has a table, and which one. -/
theorem Module.table_eq_ok_iff {m : Module} {table : Table} :
    m.table = .ok table ↔
      m.settings.dataWidth ∈ Settings.dataWidths ∧ Group.flatten m.groups ≠ [] ∧
        m.withVersion m.equipped = .ok table ∧
        Table.nameFault? [] (Group.flatten table) = none := by
  rw [Module.table, bind_eq_ok_iff, equipped]
  simp only [ite_error_eq_ok_iff, bind_eq_ok_iff, List.isEmpty_iff]
  constructor
  · rintro ⟨⟨⟩, hvalid, hnonempty, groups, hgroups, h⟩
    refine ⟨Settings.validate_eq_ok_iff.1 hvalid, hnonempty, ?_⟩
    split at h
    · cases h
    · rename_i hfault
      cases h
      exact ⟨hgroups, hfault⟩
  · rintro ⟨hwidth, hnonempty, hgroups, hfault⟩
    refine ⟨(), Settings.validate_eq_ok_iff.2 hwidth, hnonempty, table, hgroups, ?_⟩
    simp only [hfault]

theorem Module.distinct_of_table_eq_ok {m : Module} {table : Table} (h : m.table = .ok table) :
    (Group.flatten table).Pairwise Register.Distinct :=
  (Table.nameFault?_eq_none_iff.1 (table_eq_ok_iff.1 h).2.2.2).1

end RegisterBank
