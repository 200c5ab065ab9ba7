import RegisterBank.Proofs.Manual.Table
import RegisterBank.Proofs.Text.Family
import Mathlib.Data.List.Nodup

/-!
# The names of the generated files

Nine files have the name of the module and an ending; the manual has an index, and a table for each
group with the name of the group. All endings differ, so two files have the same name only if they
are the tables of groups of one name.
-/

namespace RegisterBank.Artifacts

open Text (Family before?)

variable {m : Module} {a : Artifacts}

/-- What follows the name of the module in the names of files. -/
def endings : List String :=
  ["_csrs.v", "_csrs_conf.vh", "_csrs_def.vh", "_csrs_lparam.vs", "_csrs.h", "_csrs_emb.c",
    "_csrs_verilator.h", "_csrs_emb_verilator.c", "_csrs_emb_tb.vs"]

/-- The names of the files besides the tables. -/
def fixedNames (m : Module) : List String :=
  (Family.mk m.name endings).names ++ ["csrs.tex"]

theorem nodup_fixedNames (m : Module) : (fixedNames m).Nodup := by
  have hindex : ∀ e ∈ endings, before? e "csrs.tex" = none := by decide
  have hendings : endings.Nodup := by decide
  rw [fixedNames, (List.perm_append_singleton _ _).nodup_iff, List.nodup_cons]
  refine ⟨?_, Family.nodup_names hendings⟩
  simp only [Family.names, List.mem_map, not_exists, not_and]
  intro e he
  exact (Text.ne_append_of_before? (hindex e he)).symm

theorem ne_append_of_mem_fixedNames {name : String} (h : name ∈ fixedNames m) (stem : String) :
    name ≠ stem ++ "_csrs_tab.tex" := by
  have hendings : ∀ e ∈ endings,
      before? "_csrs_tab.tex" e = none ∧ before? e "_csrs_tab.tex" = none := by decide
  rcases List.mem_append.1 h with h | h
  · obtain ⟨e, he, rfl⟩ := List.mem_map.1 h
    exact Text.append_ne_append (hendings e he).1 (hendings e he).2
  · rw [List.mem_singleton.1 h]
    exact Text.ne_append_of_before? (by decide)

theorem name_tableFile (g : Group Placement) :
    (Manual.tableFile g).name = g.name ++ "_csrs_tab.tex" :=
  String.append_assoc

/-- The tables come after all other files. -/
theorem exists_files_eq (h : generate m = .ok a) :
    ∃ fixed : List TextFile, a.files = fixed ++ a.map.groups.map Manual.tableFile ∧
      fixed.map (·.name) = fixedNames m := by
  obtain ⟨x⟩ := nonempty_parts h
  refine ⟨_, by rw [x.files_eq, x.tables_eq_map, x.map_eq], ?_⟩
  simp [fixedNames, Family.names, endings, Build.top, x.design_eq, Header.file, Header.instanceFile,
    Software.embeddedHeader, Software.embeddedSource, Software.simulationHeader,
    Software.simulationSource, Software.testbenchFile, Manual.indexFile, TextFile.ofLines,
    String.append_assoc, toString]

/-- Files of the same name have the same contents exactly if groups of the same name have the same
table. -/
theorem contents_agree_iff (h : generate m = .ok a) :
    (∀ f ∈ a.files, ∀ g ∈ a.files, f.name = g.name → f.contents = g.contents) ↔
      ∀ g ∈ a.map.groups, ∀ g' ∈ a.map.groups, g.name = g'.name →
        (Manual.tableFile g).contents = (Manual.tableFile g').contents := by
  obtain ⟨fixed, hfiles, hnames⟩ := exists_files_eq h
  have htable {f : TextFile} (hf : f ∈ fixed) (g : Group Placement) :
      f.name ≠ g.name ++ "_csrs_tab.tex" :=
    ne_append_of_mem_fixedNames (hnames ▸ List.mem_map_of_mem hf) g.name
  have hinj := List.inj_on_of_nodup_map (hnames ▸ nodup_fixedNames m)
  rw [hfiles]
  simp only [List.forall_mem_append, List.forall_mem_map, name_tableFile, String.append_left_inj]
  constructor
  · rintro ⟨-, htables⟩ g hg g' hg' hname
    exact (htables g hg).2 g' hg' hname
  · intro htables
    refine ⟨fun f hf => ⟨?_, ?_⟩, fun g hg => ⟨?_, htables g hg⟩⟩
    · intro f' hf' hname
      rw [hinj hf hf' hname]
    · intro g _ hname
      exact absurd hname (htable hf g)
    · intro f hf hname
      exact absurd hname.symm (htable hf g)

end RegisterBank.Artifacts
