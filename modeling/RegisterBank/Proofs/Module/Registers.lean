import RegisterBank.Build
import RegisterBank.Proofs.Allocation.Rerun
import RegisterBank.Proofs.Module.Completion

/-!
# Declared and added registers

The table of a module has the declared registers and those that are added to them: the interrupt
registers and the version register. What holds of both holds of all registers that are placed.
-/

namespace RegisterBank

variable {m : Module} {table : Table} {P : Register → Prop}

namespace Table

variable {r s : Register} {name descr : String}

theorem eq_or_mem_of_mem_addTo (h : r ∈ Group.flatten (table.addTo name descr s)) :
    r = s ∨ r ∈ Group.flatten table := by
  induction table with
  | nil =>
      rw [addTo, Group.flatten_cons, Group.flatten_nil, List.append_nil, List.mem_singleton] at h
      exact .inl h
  | cons g rest ih =>
      rw [addTo] at h
      rw [Group.flatten_cons, List.mem_append]
      split at h
      · rw [Group.flatten_cons, List.mem_append, List.mem_append, List.mem_singleton] at h
        rcases h with (h | rfl) | h
        · exact .inr (.inl h)
        · exact .inl rfl
        · exact .inr (.inr h)
      · rw [Group.flatten_cons, List.mem_append] at h
        rcases h with h | h
        · exact .inr (.inl h)
        · exact (ih h).imp_right .inr

end Table

namespace Module

theorem forall_mem_equipped (hdeclared : ∀ r ∈ Group.flatten m.groups, P r)
    (hinterrupts : ∀ r ∈ interruptGroup.members, P r) : ∀ r ∈ Group.flatten m.equipped, P r := by
  rcases m.equipped_cases with ⟨-, -, heq⟩ | ⟨-, heq⟩
  · intro r hr
    rw [heq, Group.flatten_append, List.mem_append, Group.flatten_cons, Group.flatten_nil,
      List.append_nil] at hr
    exact hr.elim (hdeclared r) (hinterrupts r)
  · rw [heq]
    exact hdeclared

theorem forall_mem_withVersion {groups : Table} (hgroups : ∀ r ∈ Group.flatten groups, P r)
    (hversion : ∀ packed, P (versionRegister packed)) (h : m.withVersion groups = .ok table) :
    ∀ r ∈ Group.flatten table, P r := by
  rcases withVersion_eq_ok_iff.1 h with ⟨-, rfl⟩ | ⟨-, packed, -, rfl⟩
  · exact hgroups
  · intro r hr
    rcases Table.eq_or_mem_of_mem_addTo hr with rfl | hr
    · exact hversion packed
    · exact hgroups r hr

/-- What holds of the declared registers and of those that are added holds of all registers of the
table. -/
theorem forall_mem_table (hdeclared : ∀ r ∈ Group.flatten m.groups, P r)
    (hinterrupts : ∀ r ∈ interruptGroup.members, P r)
    (hversion : ∀ packed, P (versionRegister packed)) (h : m.table = .ok table) :
    ∀ r ∈ Group.flatten table, P r := by
  obtain ⟨-, -, hadded, -⟩ := table_eq_ok_iff.1 h
  exact forall_mem_withVersion (forall_mem_equipped hdeclared hinterrupts) hversion hadded

end Module

/-- What holds of registers before they are placed holds of them in their places. -/
theorem Policy.forall_mem_placeAll {policy : Policy} {env : Environment} {c c' : Cursors}
    {rs : List Register} {ps : List Placement}
    (hplaced : ∀ r address, P r → P { r with address := address })
    (hrs : ∀ r ∈ rs, P r) (h : policy.placeAll env c rs = .ok (ps, c')) :
    ∀ p ∈ ps, P p.register := by
  have hsame := forall₂_of_placeAll_eq_ok h
  clear h
  induction hsame with
  | nil => exact fun _ hp => absurd hp List.not_mem_nil
  | cons hregister _ ih =>
      rw [List.forall_mem_cons] at hrs ⊢
      exact ⟨hregister ▸ hplaced _ _ hrs.1, ih hrs.2⟩

/-- What holds of the declared registers and of those that are added, whatever their addresses,
holds of all registers of a build. -/
theorem Build.forall_mem_placements {b : Build} (hdeclared : ∀ r ∈ Group.flatten m.groups, P r)
    (hinterrupts : ∀ r ∈ interruptGroup.members, P r)
    (hversion : ∀ packed, P (versionRegister packed))
    (hplaced : ∀ r address, P r → P { r with address := address })
    (h : Build.ofModule m = .ok b) : ∀ p ∈ b.placements, P p.register := by
  simp only [Build.ofModule, bind_eq_ok_iff, Except.ok.injEq] at h
  obtain ⟨env, -, table, htable, map, hmap, rfl⟩ := h
  obtain ⟨cursors, hrun, -⟩ := Policy.placeAll_of_allocate_eq_ok hmap
  exact Policy.forall_mem_placeAll hplaced
    (Module.forall_mem_table hdeclared hinterrupts hversion htable) hrun

end RegisterBank
