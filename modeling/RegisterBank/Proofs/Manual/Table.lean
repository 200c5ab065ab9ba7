import RegisterBank.Proofs.Artifacts

/-!
# Tables of the manual

The table of a group looks each of its registers up by name to find the address. No two registers of
a build have the same name, so each row has the address at which its register is placed.
-/

namespace RegisterBank

variable {m : Module} {a : Artifacts} {b : Build} {p : Placement}

/-- The table of a group, with the addresses at which its members are placed. -/
def Manual.tableFile (g : Group Placement) : TextFile :=
  .ofLines (tableName g ++ ".tex") (g.members.map fun p => rowText (cells p.register p.address))

namespace Build.Checked

variable (hb : b.Checked)

include hb

/-- Looking a register up by its name finds the register. -/
theorem find?_name (hp : p ∈ b.placements) : b.map.find? p.register.name = some p := by
  cases hfind : b.map.find? p.register.name with
  | none =>
      have hnone := List.find?_eq_none.1 hfind p hp
      simp at hnone
  | some q =>
      have hname : q.register.name = p.register.name := by simpa using List.find?_some hfind
      rw [hb.eq_of_name_eq (List.mem_of_find?_eq_some hfind) hp hname]

theorem addressOf?_name (hp : p ∈ b.placements) :
    b.map.addressOf? p.register.name = some p.address := by
  rw [AddressMap.addressOf?, hb.find?_name hp, Option.map_some]

theorem groupFile_eq_ok {g : Group Placement} (hg : g ∈ b.map.groups) :
    Manual.groupFile b g = .ok (Manual.tableFile g) := by
  have hrow : ∀ p ∈ g.members,
      Manual.row b p = .ok (Manual.rowText (Manual.cells p.register p.address)) := by
    intro p hp
    rw [Manual.row, hb.addressOf?_name (List.mem_flatMap.2 ⟨g, hg, hp⟩)]
  have hrows : g.members.mapM (Manual.row b) =
      .ok (g.members.map fun p => Manual.rowText (Manual.cells p.register p.address)) := by
    rw [mapM_eq_ok_iff, List.forall₂_map_right_iff, List.forall₂_same]
    exact hrow
  rw [Manual.groupFile, hrows, ok_bind]
  rfl

end Build.Checked

theorem Artifacts.Parts.tables_eq_map (x : Parts m a) :
    x.tables = x.build.map.groups.map Manual.tableFile := by
  have htables := map_eq_of_mapM_eq_ok x.tables_eq (g := id)
    fun g hg table htable => Except.ok.inj (htable.symm.trans (x.checked.groupFile_eq_ok hg))
  rwa [List.map_id] at htables

end RegisterBank
