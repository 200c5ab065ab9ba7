import RegisterBank.Proofs.FileNames
import RegisterBank.Proofs.Workspace.Path
import RegisterBank.Workspace.Command

/-!
# Generating and then checking

Files are written one after the other, so at each place the file that is written there last is the
one that remains. A check that follows finds all files unchanged exactly if those for one place have
the same contents (`generate_check_iff`).
-/

namespace RegisterBank.Workspace

open FileTree (access)

variable {α β : Type} {tree tree' : FileTree} {input output path text : String}
  {texts : List TextFile}

/-! ## Runs on a file tree -/

theorem run_bind (x : StateM FileTree α) (f : α → StateM FileTree β) (tree : FileTree) :
    (x >>= f).run tree = (f (x.run tree).1).run (x.run tree).2 := rfl

theorem run_read (path : String) (tree : FileTree) :
    (access.read path).run tree = (tree.read? path, tree) := rfl

theorem run_makeDirectory (path : String) (tree : FileTree) :
    (access.makeDirectory path).run tree =
      ((tree.makeDirectory path).2, (tree.makeDirectory path).1) := rfl

theorem run_write (path text : String) (tree : FileTree) :
    (access.write path text).run tree =
      match tree.write? path text with
      | some tree' => (true, tree')
      | none => (false, tree) := by
  change (match tree.write? path text with
    | some tree' => do set tree'; return true
    | none => return false : StateM FileTree Bool).run tree = _
  cases tree.write? path text <;> rfl

theorem run_writeAll_cons (output : String) (f : TextFile) (rest : List TextFile)
    (tree : FileTree) :
    (writeAll access output (f :: rest)).run tree =
      match tree.write? (Path.join output f.name) f.contents with
      | some tree' => (writeAll access output rest).run tree'
      | none => (.error (.file (Path.join output f.name)), tree) := by
  rw [writeAll, run_bind, run_write]
  cases tree.write? (Path.join output f.name) f.contents <;> rfl

theorem run_writeOutput (output : String) (texts : List TextFile) (tree : FileTree) :
    (writeOutput access output texts).run tree =
      if (tree.makeDirectory output).2 then
        (writeAll access output texts).run (tree.makeDirectory output).1
      else (.error (.directory output), (tree.makeDirectory output).1) := by
  rw [writeOutput, run_bind, run_makeDirectory]
  cases (tree.makeDirectory output).2 <;> rfl

theorem run_staleNames (output : String) (texts : List TextFile) (tree : FileTree) :
    (staleNames access output texts).run tree =
      ((texts.filter fun f => tree.read? (Path.join output f.name) ≠ some f.contents).map (·.name),
        tree) := by
  induction texts with
  | nil => rfl
  | cons f rest ih =>
      rw [staleNames, run_bind, run_read, run_bind, ih]
      change (ite _ _ _, tree) = _
      by_cases hfound : tree.read? (Path.join output f.name) = some f.contents <;>
        simp [hfound]

/-- A check succeeds where each file can be read with its contents. -/
theorem run_checkOutput_eq_ok_iff :
    (checkOutput access input output texts).run tree = (.ok (), tree) ↔
      ∀ f ∈ texts, tree.read? (Path.join output f.name) = some f.contents := by
  have hempty (names : List String) :
      (if names.isEmpty then .ok () else .error (.outOfDate output names input) :
        Except CommandError Unit) = .ok () ↔ names = [] := by
    cases names <;> simp
  rw [checkOutput, run_bind, run_staleNames]
  change (_, tree) = _ ↔ _
  rw [Prod.mk.injEq, and_iff_left rfl]
  refine (hempty _).trans ?_
  simp [List.filter_eq_nil_iff]

theorem run_generate {m : Module} {a : Artifacts} (hread : tree.read? input = some text)
    (hcompile : compileText text = .ok (m, a)) (output : Option String) (check : Bool) :
    (generate access input output check).run tree =
      (if check then checkOutput access input (output.getD (defaultOutput m.name)) a.files
        else writeOutput access (output.getD (defaultOutput m.name)) a.files).run tree := by
  have hinput : (compileInput access input).run tree = (.ok (m, a), tree) := by
    rw [compileInput, run_bind, run_read, hread]
    simp only [hcompile]
    rfl
  rw [generate, run_bind, hinput]

/-- A command that succeeds has read and compiled its input. -/
theorem exists_compileText_eq_ok {output : Option String} {check : Bool}
    (h : (generate access input output check).run tree = (.ok (), tree')) :
    ∃ text m a, tree.read? input = some text ∧ compileText text = .ok (m, a) := by
  rw [generate, run_bind, compileInput, run_bind, run_read] at h
  cases hread : tree.read? input with
  | none =>
      rw [hread] at h
      cases h
  | some text =>
      cases hcompile : compileText text with
      | error cause =>
          simp only [hread, hcompile] at h
          cases h
      | ok result => exact ⟨text, result.1, result.2, rfl, hcompile⟩

/-! ## What is written -/

/-- The second tree is the first one after files were written into a directory. -/
structure Written (output : String) (texts : List TextFile) (tree tree' : FileTree) : Prop where
  /-- Paths lead where they did. -/
  paths : ∀ path, tree'.place? path = tree.place? path
  /-- At the place of each file, some file for this place remains. -/
  files : ∀ f ∈ texts, ∃ place, tree.place? (Path.join output f.name) = some place ∧
    ∃ g ∈ texts, tree.place? (Path.join output g.name) = some place ∧
      tree'.entryAt place = .file g.contents
  /-- Nothing changes at other places. -/
  others : ∀ place, (∀ f ∈ texts, tree.place? (Path.join output f.name) ≠ some place) →
    tree'.entryAt place = tree.entryAt place

theorem Written.nil (output : String) (tree : FileTree) : Written output [] tree tree :=
  ⟨fun _ => rfl, by simp, fun _ _ => rfl⟩

/-- What is written first remains unless a later file is for the same place. -/
theorem Written.cons {f : TextFile} {rest : List TextFile} {place : Place}
    (hplace : tree.place? (Path.join output f.name) = some place)
    (hfree : tree.entryAt place ≠ .directory)
    (h : Written output rest (tree.put place (.file f.contents)) tree') :
    Written output (f :: rest) tree tree' := by
  have hpaths : ∀ path, (tree.put place (.file f.contents)).place? path = tree.place? path :=
    FileTree.place?_put_file hfree
  have hfiles := h.files
  have hothers := h.others
  simp only [hpaths] at hfiles hothers
  refine ⟨fun path => (h.paths path).trans (hpaths path), ?_, ?_⟩
  · have hlater : ∀ f' ∈ rest, ∃ place, tree.place? (Path.join output f'.name) = some place ∧
        ∃ g ∈ f :: rest, tree.place? (Path.join output g.name) = some place ∧
          tree'.entryAt place = .file g.contents := by
      intro f' hf'
      obtain ⟨place', hplace', g, hg, hentry⟩ := hfiles f' hf'
      exact ⟨place', hplace', g, List.mem_cons_of_mem f hg, hentry⟩
    rw [List.forall_mem_cons]
    refine ⟨?_, hlater⟩
    by_cases hagain : ∃ g ∈ rest, tree.place? (Path.join output g.name) = some place
    · obtain ⟨g, hg, hsame⟩ := hagain
      rw [hplace, ← hsame]
      exact hlater g hg
    · have hentry : tree'.entryAt place = .file f.contents := by
        rw [hothers place fun g hg hsame => hagain ⟨g, hg, hsame⟩]
        exact FileTree.entryAt_put_self _ _ (FileTree.isLasting_eq_false hfree)
      exact ⟨place, hplace, f, List.mem_cons_self, hplace, hentry⟩
  · intro other hother
    rw [List.forall_mem_cons] at hother
    rw [hothers other hother.2]
    apply FileTree.entryAt_put_of_ne
    intro heq
    exact hother.1 (heq ▸ hplace)

theorem written_of_writeAll_eq_ok
    (h : (writeAll access output texts).run tree = (.ok (), tree')) :
    Written output texts tree tree' := by
  induction texts generalizing tree with
  | nil =>
      cases h
      exact Written.nil output _
  | cons f rest ih =>
      rw [run_writeAll_cons] at h
      cases hwrite : tree.write? (Path.join output f.name) f.contents with
      | none =>
          rw [hwrite] at h
          cases h
      | some tree₁ =>
          rw [hwrite] at h
          obtain ⟨place, hplace, hfree, rfl⟩ := FileTree.write?_eq_some_iff.1 hwrite
          exact Written.cons hplace hfree (ih h)

namespace Written

variable (h : Written output texts tree tree')

include h

/-- All files can be read back exactly if those for one place have the same contents. -/
theorem forall_read?_iff :
    (∀ f ∈ texts, tree'.read? (Path.join output f.name) = some f.contents) ↔
      ∀ f ∈ texts, ∀ g ∈ texts,
        tree'.place? (Path.join output f.name) = tree'.place? (Path.join output g.name) →
          f.contents = g.contents := by
  constructor
  · intro hread f hf g hg hsame
    have heq : tree'.read? (Path.join output f.name) = tree'.read? (Path.join output g.name) := by
      rw [FileTree.read?, FileTree.read?, hsame]
    rw [hread f hf, hread g hg] at heq
    exact Option.some.inj heq
  · intro hsame f hf
    obtain ⟨place, hplace, g, hg, hplace', hentry⟩ := h.files f hf
    rw [← h.paths] at hplace hplace'
    rw [hsame f hf g hg (hplace.trans hplace'.symm)]
    exact FileTree.read?_eq_some_iff.2 ⟨place, hplace, hentry⟩

/-- A file for another place can be read as before. -/
theorem read?_eq_some
    (hother : ∀ f ∈ texts, tree'.place? (Path.join output f.name) ≠ tree'.place? input)
    (hread : tree.read? input = some text) : tree'.read? input = some text := by
  obtain ⟨place, hplace, hentry⟩ := FileTree.read?_eq_some_iff.1 hread
  simp only [h.paths, hplace] at hother
  refine FileTree.read?_eq_some_iff.2 ⟨place, (h.paths input).trans hplace, ?_⟩
  rw [h.others place hother, hentry]

end Written

/-- Files are written up to the end where none has a directory in its place. -/
theorem exists_writeAll_eq_ok (h : ∀ f ∈ texts, tree.Writable (Path.join output f.name)) :
    ∃ tree', (writeAll access output texts).run tree = (.ok (), tree') := by
  induction texts generalizing tree with
  | nil => exact ⟨tree, rfl⟩
  | cons f rest ih =>
      rw [List.forall_mem_cons] at h
      obtain ⟨place, hplace, hfree⟩ := h.1
      have hwrite : tree.write? (Path.join output f.name) f.contents =
          some (tree.put place (.file f.contents)) :=
        FileTree.write?_eq_some_iff.2 ⟨place, hplace, hfree, rfl⟩
      rw [run_writeAll_cons, hwrite]
      exact ih fun g hg => (h.2 g hg).put_file hfree

/-! ## Checking what was generated -/

variable {m : Module} {a : Artifacts}

/-- The place of a file in the directory for the artifacts of a module. -/
def filePlace (tree : FileTree) (output : Option String) (m : Module) (f : TextFile) :
    Option Place :=
  tree.place? (Path.join (output.getD (defaultOutput m.name)) f.name)

theorem generate_eq_ok_of_compileText_eq_ok (h : compileText text = .ok (m, a)) :
    Artifacts.generate m = .ok a := by
  rw [compileText, bind_eq_ok_iff] at h
  obtain ⟨m', -, h⟩ := h
  rw [bind_eq_ok_iff] at h
  obtain ⟨a', ha, h⟩ := h
  cases h
  exact ha

/-- The files of a module are written by a command that succeeds, into a tree to which directories
may have been added. -/
theorem exists_written {output : Option String} (hread : tree.read? input = some text)
    (hcompile : compileText text = .ok (m, a))
    (h : (generate access input output false).run tree = (.ok (), tree')) :
    ∃ made, tree.Grows made ∧
      Written (output.getD (defaultOutput m.name)) a.files made tree' := by
  rw [run_generate hread hcompile, if_neg Bool.false_ne_true, run_writeOutput] at h
  split at h
  · exact ⟨_, FileTree.grows_makeDirectory _ _, written_of_writeAll_eq_ok h⟩
  · cases h

/-- Where names have no slashes, the artifacts are files of the directory. -/
theorem isFileName_of_mem_files (ha : Artifacts.generate m = .ok a) (hm : '/' ∉ m.name.toList)
    (hgroups : ∀ g ∈ a.map.groups, '/' ∉ g.name.toList) {f : TextFile} (hf : f ∈ a.files) :
    Path.IsFileName f.name := by
  have hendings : ∀ e ∈ Artifacts.endings, '/' ∉ e.toList ∧ 2 < e.length := by decide
  obtain ⟨fixed, hfiles, hnames⟩ := Artifacts.exists_files_eq ha
  rw [hfiles] at hf
  rcases List.mem_append.1 hf with hf | hf
  · have hname : f.name ∈ Artifacts.fixedNames m := hnames ▸ List.mem_map_of_mem hf
    rcases List.mem_append.1 hname with hname | hname
    · obtain ⟨e, he, hname⟩ := List.mem_map.1 hname
      rw [← hname]
      exact Path.isFileName_append hm (hendings e he).1 (hendings e he).2
    · rw [List.mem_singleton.1 hname]
      exact ⟨by decide, by decide, by decide, by decide⟩
  · obtain ⟨g, hg, rfl⟩ := List.mem_map.1 hf
    rw [Artifacts.name_tableFile]
    exact Path.isFileName_append (hgroups g hg) (by decide) (by decide)

/-- Where names have no slashes, files are in one place exactly if they have one name. -/
theorem filePlace_eq_iff {output : Option String} (ha : Artifacts.generate m = .ok a)
    (hm : '/' ∉ m.name.toList) (hgroups : ∀ g ∈ a.map.groups, '/' ∉ g.name.toList)
    {made : FileTree} (hwritten : Written (output.getD (defaultOutput m.name)) a.files made tree')
    {f g : TextFile} (hf : f ∈ a.files) (hg : g ∈ a.files) :
    filePlace tree' output m f = filePlace tree' output m g ↔ f.name = g.name := by
  constructor
  · intro hsame
    obtain ⟨place, hplace, -⟩ := hwritten.files f hf
    rw [← hwritten.paths] at hplace
    exact FileTree.name_eq_of_place?_join (isFileName_of_mem_files ha hm hgroups hf)
      (isFileName_of_mem_files ha hm hgroups hg) hplace (hsame.symm.trans hplace)
  · intro hname
    rw [filePlace, filePlace, hname]

/-- Artifacts are generated where their directory can be made and they can be written into it. -/
theorem exists_generate_eq_ok (output : Option String) {made : FileTree}
    (hread : tree.read? input = some text) (hcompile : compileText text = .ok (m, a))
    (hmade : tree.makeDirectory (output.getD (defaultOutput m.name)) = (made, true))
    (hfree : ∀ f ∈ a.files,
      made.Writable (Path.join (output.getD (defaultOutput m.name)) f.name)) :
    ∃ tree', (generate access input output false).run tree = (.ok (), tree') ∧
      ∀ path, tree'.place? path = made.place? path := by
  obtain ⟨tree', hwrite⟩ := exists_writeAll_eq_ok hfree
  refine ⟨tree', ?_, (written_of_writeAll_eq_ok hwrite).paths⟩
  rw [run_generate hread hcompile, if_neg Bool.false_ne_true, run_writeOutput, hmade]
  exact hwrite

/-- A check after all artifacts were written succeeds exactly if those for one place agree. -/
theorem run_generate_eq_ok_iff_agree {output : Option String} (hread : tree.read? input = some text)
    (hcompile : compileText text = .ok (m, a))
    (h : (generate access input output false).run tree = (.ok (), tree'))
    (hother : ∀ f ∈ a.files, filePlace tree' output m f ≠ tree'.place? input) :
    (generate access input output true).run tree' = (.ok (), tree') ↔
      ∀ f ∈ a.files, ∀ g ∈ a.files,
        filePlace tree' output m f = filePlace tree' output m g → f.contents = g.contents := by
  obtain ⟨made, hgrows, hwritten⟩ := exists_written hread hcompile h
  have hread' := hwritten.read?_eq_some hother (hgrows.read?_eq_some hread)
  rw [run_generate hread' hcompile, if_pos rfl, run_checkOutput_eq_ok_iff,
    hwritten.forall_read?_iff]
  rfl

/-- When does a check succeed after the artifacts of a module have been generated? If the input has
not been overwritten, exactly if the artifacts for one place have the same contents. Where the name
of the module and those of its groups have no slashes, this is so exactly if groups of the same name
have the same table. -/
theorem generate_check_iff {output : Option String}
    (h : (generate access input output false).run tree = (.ok (), tree')) :
    ∃ text m a, tree.read? input = some text ∧ compileText text = .ok (m, a) ∧
      ((∀ f ∈ a.files, filePlace tree' output m f ≠ tree'.place? input) →
        ((generate access input output true).run tree' = (.ok (), tree') ↔
          ∀ f ∈ a.files, ∀ g ∈ a.files,
            filePlace tree' output m f = filePlace tree' output m g → f.contents = g.contents) ∧
        ('/' ∉ m.name.toList → (∀ g ∈ a.map.groups, '/' ∉ g.name.toList) →
          ((generate access input output true).run tree' = (.ok (), tree') ↔
            ∀ g ∈ a.map.groups, ∀ g' ∈ a.map.groups, g.name = g'.name →
              (Manual.tableFile g).contents = (Manual.tableFile g').contents))) := by
  obtain ⟨text, m, a, hread, hcompile⟩ := exists_compileText_eq_ok h
  obtain ⟨made, -, hwritten⟩ := exists_written hread hcompile h
  have ha := generate_eq_ok_of_compileText_eq_ok hcompile
  refine ⟨text, m, a, hread, hcompile, ?_⟩
  intro hother
  have hcheck := run_generate_eq_ok_iff_agree hread hcompile h hother
  refine ⟨hcheck, ?_⟩
  intro hm hgroups
  rw [hcheck, ← Artifacts.contents_agree_iff ha]
  refine forall₂_congr fun f hf => forall₂_congr fun g hg => ?_
  rw [filePlace_eq_iff ha hm hgroups hwritten hf hg]

/-! ## A description with two groups of one name -/

/-- A directory for output. -/
def outputTree : FileTree :=
  ⟨[(["out"], .directory)]⟩

/-- A module description next to the directory for output. -/
def describedTree (text : String) : FileTree :=
  outputTree.put ["module.toml"] (.file text)

/-- The lines of a group `main` with one register. -/
def mainLines (register : String) : List String :=
  ["[[csrs]]", "name = \"main\"", "[[csrs.regs]]", "name = \"" ++ register ++ "\"",
    "type = \"W\"", "n_bits = 8"]

def lampLines : List String :=
  ["name = \"lamp\"", "version = \"1.0.0\""] ++ mainLines "level"

/-- A description with one group. -/
def lampText : String :=
  Text.unlines lampLines

/-- The same description with another group of the same name after it. -/
def twinText : String :=
  Text.unlines (lampLines ++ mainLines "gain")

def lampNames : List String :=
  ["lamp_csrs.v", "lamp_csrs_conf.vh", "lamp_csrs_def.vh", "lamp_csrs_lparam.vs", "lamp_csrs.h",
    "lamp_csrs_emb.c", "lamp_csrs_verilator.h", "lamp_csrs_emb_verilator.c", "lamp_csrs_emb_tb.vs",
    "csrs.tex", "main_csrs_tab.tex", "general_csrs_tab.tex"]

theorem place?_outputTree : ∀ name ∈ lampNames,
    outputTree.place? (Path.join "out" name) = some ["out", name] := by
  decide +kernel

theorem place?_describedTree (text path : String) :
    (describedTree text).place? path = outputTree.place? path :=
  FileTree.place?_put_file (by decide) path

theorem place?_module : outputTree.place? "module.toml" = some ["module.toml"] := by
  decide +kernel

theorem read?_describedTree (text : String) :
    (describedTree text).read? "module.toml" = some text := by
  refine FileTree.read?_eq_some_iff.2 ⟨["module.toml"], ?_, ?_⟩
  · rw [place?_describedTree, place?_module]
  · exact FileTree.entryAt_put_self _ _ (by decide)

theorem makeDirectory_describedTree (text : String) :
    (describedTree text).makeDirectory "out" = (describedTree text, true) := rfl

/-- Files of these names can be generated next to the description, which stays as it is. -/
theorem exists_generate_describedTree (hcompile : compileText text = .ok (m, a))
    (hnames : ∀ f ∈ a.files, f.name ∈ lampNames) :
    ∃ tree', (generate access "module.toml" (some "out") false).run (describedTree text) =
        (.ok (), tree') ∧
      ∀ f ∈ a.files, filePlace tree' (some "out") m f ≠ tree'.place? "module.toml" := by
  have hplace : ∀ f ∈ a.files,
      (describedTree text).place? (Path.join "out" f.name) = some ["out", f.name] := by
    intro f hf
    rw [place?_describedTree, place?_outputTree f.name (hnames f hf)]
  have hwritable : ∀ f ∈ a.files, (describedTree text).Writable (Path.join "out" f.name) := by
    intro f hf
    refine ⟨_, hplace f hf, ?_⟩
    rw [describedTree, FileTree.entryAt_put_of_ne _ _ (by simp)]
    simp [outputTree, FileTree.entryAt, FileTree.isLasting, List.lookup_cons, rootName, aboveName]
  obtain ⟨tree', hrun, hpaths⟩ := exists_generate_eq_ok (some "out") (read?_describedTree text)
    hcompile (makeDirectory_describedTree text) hwritable
  refine ⟨tree', hrun, ?_⟩
  intro f hf
  rw [filePlace, hpaths, hpaths, place?_describedTree text "module.toml", place?_module]
  exact (hplace f hf).trans_ne (by simp)

theorem exists_of_map_eq_some {γ : Type} {facts : Module × Artifacts → γ} {c : γ}
    (h : (compileText text).toOption.map facts = some c) :
    ∃ m a, compileText text = .ok (m, a) ∧ facts (m, a) = c := by
  cases hcompile : compileText text with
  | error cause =>
      rw [hcompile] at h
      cases h
  | ok result =>
      rw [hcompile] at h
      exact ⟨result.1, result.2, rfl, Option.some.inj h⟩

theorem generate_check_iff_lamp :
    ∃ tree', (generate access "module.toml" (some "out") false).run (describedTree lampText) =
        (.ok (), tree') ∧
      (generate access "module.toml" (some "out") true).run tree' = (.ok (), tree') := by
  have hfacts : (compileText lampText).toOption.map (fun r =>
      (r.1.name, r.2.files.map (·.name), r.2.map.groups.map (·.name))) =
        some ("lamp", lampNames, ["main", "general"]) := by
    decide +kernel
  obtain ⟨m, a, hcompile, hfacts⟩ := exists_of_map_eq_some hfacts
  simp only [Prod.mk.injEq] at hfacts
  obtain ⟨hname, hfiles, hgroups⟩ := hfacts
  obtain ⟨tree', hrun, hother⟩ := exists_generate_describedTree hcompile
    fun f hf => hfiles ▸ List.mem_map_of_mem hf
  obtain ⟨text, m', a', hread, hcompile', hcheck⟩ := generate_check_iff hrun
  obtain rfl : text = lampText := Option.some.inj (hread.symm.trans (read?_describedTree lampText))
  cases hcompile.symm.trans hcompile'
  have hslashes : ∀ name ∈ a.map.groups.map (·.name), '/' ∉ name.toList := by
    rw [hgroups]
    decide
  have hnodup : (a.map.groups.map (·.name)).Nodup := by
    rw [hgroups]
    decide
  refine ⟨tree', hrun, ((hcheck hother).2 (by rw [hname]; decide) ?_).2 ?_⟩
  · intro g hg
    exact hslashes g.name (List.mem_map_of_mem hg)
  · intro g hg g' hg' hsame
    rw [List.inj_on_of_nodup_map hnodup hg hg' hsame]

/-- The table of the second group overwrites that of the first one, and the check finds it
changed. -/
theorem generate_check_ne_ok_twin :
    ∃ m a tree', compileText twinText = .ok (m, a) ∧
      (generate access "module.toml" (some "out") false).run (describedTree twinText) =
        (.ok (), tree') ∧
      (∀ f ∈ a.files, filePlace tree' (some "out") m f ≠ tree'.place? "module.toml") ∧
      (generate access "module.toml" (some "out") true).run tree' ≠ (.ok (), tree') := by
  have hfacts : (compileText twinText).toOption.map (fun r =>
      (r.2.files.map (·.name), (r.2.files.drop 10).take 2)) =
        some (lampNames.take 11 ++ lampNames.drop 10,
          [⟨"main_csrs_tab.tex", "    level & W & 0 & 8 & 0 &  \\\\ \\hline\n"⟩,
            ⟨"main_csrs_tab.tex", "    gain & W & 1 & 8 & 0 &  \\\\ \\hline\n"⟩]) := by
    decide +kernel
  obtain ⟨m, a, hcompile, hfacts⟩ := exists_of_map_eq_some hfacts
  simp only [Prod.mk.injEq] at hfacts
  obtain ⟨hfiles, htables⟩ := hfacts
  have hnames : ∀ f ∈ a.files, f.name ∈ lampNames := by
    intro f hf
    have hname : f.name ∈ a.files.map (·.name) := List.mem_map_of_mem hf
    rw [hfiles, List.mem_append] at hname
    exact hname.elim List.mem_of_mem_take List.mem_of_mem_drop
  obtain ⟨tree', hrun, hother⟩ := exists_generate_describedTree hcompile hnames
  refine ⟨m, a, tree', hcompile, hrun, hother, ?_⟩
  intro hcheck
  have hmem : ∀ f ∈ (a.files.drop 10).take 2, f ∈ a.files :=
    fun f hf => List.mem_of_mem_drop (List.mem_of_mem_take hf)
  rw [htables, List.forall_mem_cons, List.forall_mem_singleton] at hmem
  have hagree := (run_generate_eq_ok_iff_agree (read?_describedTree twinText) hcompile hrun
    hother).1 hcheck _ hmem.1 _ hmem.2 rfl
  exact absurd hagree (by decide)

end RegisterBank.Workspace
