import RegisterBank.Proofs.Workspace.FileTree

/-!
# Files in one directory

A name without slashes that is not one of the names for places stands for a file in the directory to
which it is joined. Files of different names in one directory are in different places.
-/

namespace RegisterBank.Workspace

/-- A name that a file in a directory can have. -/
structure Path.IsFileName (name : String) : Prop where
  no_slash : '/' ∉ name.toList
  ne_empty : name ≠ ""
  ne_here : name ≠ "."
  ne_above : name ≠ aboveName

namespace Path

variable {name stem ending : String}

/-- A long ending without slashes makes a name of a file. -/
theorem isFileName_append (hstem : '/' ∉ stem.toList) (hending : '/' ∉ ending.toList)
    (hlong : 2 < ending.length) : IsFileName (stem ++ ending) := by
  have hlength : 2 < (stem ++ ending).length := by
    rw [String.length_append]
    omega
  refine ⟨?_, ?_, ?_, ?_⟩
  · simp [hstem, hending]
  · intro h
    simp [h] at hlength
  · intro h
    rw [h] at hlength
    exact absurd hlength (by decide)
  · intro h
    rw [h] at hlength
    exact absurd hlength (by decide)

theorem step_of_isFileName (h : IsFileName name) (place : Place) :
    step place name = place ++ [name] := by
  simp [step, h.ne_empty, h.ne_here, h.ne_above]

theorem names_append_slash (directory name : String) :
    names (directory ++ "/" ++ name) = names directory ++ names name := by
  have hslash : "/".toList = ['/'] := by decide
  simp [names, hslash, Text.pieces_append_cons]

theorem names_of_isFileName (h : IsFileName name) : names name = [name] := by
  simp [names, Text.pieces_of_not_mem h.no_slash]

theorem head?_append_of_ne_empty {directory : String} (hne : directory ≠ "") (rest : String) :
    (directory ++ rest).toList.head? = directory.toList.head? := by
  cases hlist : directory.toList with
  | nil => exact absurd (String.toList_eq_nil_iff.1 hlist) hne
  | cons c cs => simp [hlist]

/-- The names of the files in a directory come after the same names, from the same start. -/
theorem exists_names_join (directory : String) :
    ∃ first before, ∀ name, IsFileName name →
      start (join directory name) = first ∧ names (join directory name) = before ++ [name] := by
  have hhead {name : String} (h : IsFileName name) : name.toList.head? ≠ some '/' :=
    fun hslash => h.no_slash (List.mem_of_mem_head? hslash)
  by_cases hempty : directory = ""
  · refine ⟨[], [], ?_⟩
    intro name h
    have hjoin : join directory name = name := by simp [join, hempty]
    rw [hjoin, names_of_isFileName h, start, if_neg (hhead h)]
    exact ⟨rfl, rfl⟩
  · have hstart (rest : String) : start (directory ++ rest) = start directory := by
      rw [start, start, head?_append_of_ne_empty hempty]
    by_cases hslash : directory.toList.getLast? = some '/'
    · obtain ⟨cs, hcs⟩ := List.getLast?_eq_some_iff.1 hslash
      have hdirectory : directory = String.ofList cs ++ "/" := by
        rw [← String.toList_inj, hcs, String.toList_append, String.toList_ofList]
        rfl
      refine ⟨start directory, names (String.ofList cs), ?_⟩
      intro name h
      have hjoin : join directory name = directory ++ name := by
        simp [join, hhead h, hempty, hslash]
      rw [hjoin, hstart]
      refine ⟨rfl, ?_⟩
      rw [hdirectory, names_append_slash, names_of_isFileName h]
    · refine ⟨start directory, names directory, ?_⟩
      intro name h
      have hjoin : join directory name = directory ++ "/" ++ name := by
        simp [join, hhead h, hempty, hslash]
      rw [hjoin, names_append_slash, names_of_isFileName h, String.append_assoc, hstart]
      exact ⟨rfl, rfl⟩

end Path

namespace FileTree

variable {tree : FileTree} {place next : Place} {directory name name' : String}

theorem follow_append_singleton (tree : FileTree) (place : Place) (names : List String)
    (name : String) :
    tree.follow place (names ++ [name]) =
      (tree.follow place names).bind fun last => tree.advance last name := by
  induction names generalizing place with
  | nil =>
      change (tree.advance place name).bind .ok = tree.advance place name
      cases tree.advance place name <;> rfl
  | cons first names ih =>
      rw [List.cons_append, follow, follow]
      cases tree.advance place first with
      | error obstacle => rfl
      | ok second => exact ih second

/-- Two files in one directory are in one place only if they have the same name. -/
theorem name_eq_of_place?_join (h : Path.IsFileName name) (h' : Path.IsFileName name')
    (hplace : tree.place? (Path.join directory name) = some place)
    (hplace' : tree.place? (Path.join directory name') = some place) : name = name' := by
  obtain ⟨first, before, hjoin⟩ := Path.exists_names_join directory
  have hlast {name : String} (h : Path.IsFileName name)
      (hplace : tree.place? (Path.join directory name) = some place) :
      ∃ last, place = last ++ [name] := by
    obtain ⟨-, hfollow⟩ := place?_eq_some_iff.1 hplace
    rw [(hjoin name h).1, (hjoin name h).2, follow_append_singleton] at hfollow
    cases hbefore : tree.follow first before with
    | error obstacle =>
        rw [hbefore] at hfollow
        cases hfollow
    | ok last =>
        rw [hbefore] at hfollow
        obtain ⟨-, -, hstep⟩ := advance_eq_ok_iff.1 hfollow
        exact ⟨last, by rw [← hstep, Path.step_of_isFileName h]⟩
  obtain ⟨last, hname⟩ := hlast h hplace
  obtain ⟨last', hname'⟩ := hlast h' hplace'
  have hlists : [name] = [name'] := List.append_inj_right' (hname.symm.trans hname') rfl
  exact List.singleton_inj.1 hlists

end FileTree

end RegisterBank.Workspace
