import RegisterBank.Workspace.FileTree

/-!
# What changes in a file tree

Making directories adds to a tree and changes nothing in it. Writing a file changes one place, which
is a directory neither before nor afterwards. Since a path is followed over directories only, the
places that paths lead to stay the same while files are written, and none is lost while directories
are made.
-/

namespace RegisterBank.Workspace.FileTree

variable {tree tree' tree'' : FileTree} {place next : Place} {name path text : String}
  {names : List String}

/-! ## Following paths -/

theorem advance_eq_ok_iff :
    tree.advance place name = .ok next ↔
      tree.entryAt place = .directory ∧ name.utf8ByteSize ≤ Path.nameLimit ∧
        Path.step place name = next := by
  unfold advance
  cases tree.entryAt place with
  | file text => simp
  | absent => simp
  | directory =>
      by_cases hname : name.utf8ByteSize ≤ Path.nameLimit <;> simp [hname]

/-- Paths lead where they did before if no directory is lost. -/
theorem follow_eq_ok
    (hkeep : ∀ place, tree.entryAt place = .directory → tree'.entryAt place = .directory)
    (h : tree.follow place names = .ok next) : tree'.follow place names = .ok next := by
  induction names generalizing place with
  | nil => exact h
  | cons name names ih =>
      cases hadvance : tree.advance place name with
      | error obstacle =>
          rw [follow, hadvance] at h
          cases h
      | ok second =>
          rw [follow, hadvance] at h
          obtain ⟨hdirectory, hname, hsecond⟩ := advance_eq_ok_iff.1 hadvance
          have hadvance' : tree'.advance place name = .ok second :=
            advance_eq_ok_iff.2 ⟨hkeep place hdirectory, hname, hsecond⟩
          rw [follow, hadvance']
          exact ih h

theorem place?_eq_some_iff :
    tree.place? path = some place ↔
      (path ≠ "" ∧ Path.isUsable path = true) ∧
        tree.follow (Path.start path) (Path.names path) = .ok place := by
  unfold place?
  split
  · rename_i hpath
    cases tree.follow (Path.start path) (Path.names path) <;> simp [hpath, Except.toOption]
  · rename_i hpath
    simp [hpath]

theorem place?_eq_some
    (hkeep : ∀ place, tree.entryAt place = .directory → tree'.entryAt place = .directory)
    (h : tree.place? path = some place) : tree'.place? path = some place := by
  rw [place?_eq_some_iff] at h ⊢
  exact ⟨h.1, follow_eq_ok hkeep h.2⟩

theorem read?_eq_some_iff :
    tree.read? path = some text ↔
      ∃ place, tree.place? path = some place ∧ tree.entryAt place = .file text := by
  unfold read?
  cases tree.place? path with
  | none => simp
  | some place => cases hentry : tree.entryAt place <;> simp [hentry]

/-! ## Making directories -/

/-- Nothing in the first tree is changed in the second one. -/
def Grows (tree tree' : FileTree) : Prop :=
  ∀ place, tree.entryAt place ≠ .absent → tree'.entryAt place = tree.entryAt place

theorem Grows.refl (tree : FileTree) : tree.Grows tree :=
  fun _ _ => rfl

theorem Grows.trans (h : tree.Grows tree') (h' : tree'.Grows tree'') : tree.Grows tree'' := by
  intro place hplace
  have hentry := h place hplace
  rw [← hentry]
  exact h' place (hentry ▸ hplace)

theorem Grows.place?_eq_some (h : tree.Grows tree') (hplace : tree.place? path = some place) :
    tree'.place? path = some place := by
  refine FileTree.place?_eq_some ?_ hplace
  intro place hdirectory
  rw [h place (by simp [hdirectory]), hdirectory]

/-- What could be read can still be read. -/
theorem Grows.read?_eq_some (h : tree.Grows tree') (hread : tree.read? path = some text) :
    tree'.read? path = some text := by
  obtain ⟨place, hplace, hentry⟩ := read?_eq_some_iff.1 hread
  refine read?_eq_some_iff.2 ⟨place, h.place?_eq_some hplace, ?_⟩
  rw [h place (by simp [hentry]), hentry]

theorem grows_put {entry : Entry} (h : tree.entryAt place = .absent) :
    tree.Grows (tree.put place entry) := by
  intro other hother
  apply entryAt_put_of_ne
  intro heq
  exact hother (heq ▸ h)

theorem grows_makeAt? (h : tree.makeAt? place = some tree') : tree.Grows tree' := by
  unfold makeAt? at h
  split at h
  · cases h
    exact Grows.refl tree
  · rename_i habsent
    cases h
    exact grows_put habsent
  · cases h

theorem grows_makeLast? (h : tree.makeLast? place names = some tree') : tree.Grows tree' := by
  unfold makeLast? at h
  split at h
  · exact grows_makeAt? h
  · cases h

theorem grows_makeEach (tree : FileTree) (place : Place) (names : List String) :
    tree.Grows (tree.makeEach place names).1 := by
  induction names generalizing tree place with
  | nil => exact Grows.refl tree
  | cons name names ih =>
      cases hmake : tree.makeLast? place [name] with
      | none =>
          rw [makeEach, hmake]
          exact Grows.refl tree
      | some tree' =>
          rw [makeEach, hmake]
          exact (grows_makeLast? hmake).trans (ih tree' (Path.step place name))

theorem grows_makeDirectory (tree : FileTree) (path : String) :
    tree.Grows (tree.makeDirectory path).1 := by
  have heach := tree.grows_makeEach (Path.start path) (Path.parts path).dropLast
  unfold makeDirectory
  split
  · exact Grows.refl tree
  · split
    · split
      · rename_i hmade
        rwa [hmade] at heach
      · rename_i tree' hmade
        rw [hmade] at heach
        split
        · rename_i hlast
          exact heach.trans (grows_makeLast? hlast)
        · exact heach
    · exact Grows.refl tree

/-! ## Writing files -/

theorem write?_eq_some_iff :
    tree.write? path text = some tree' ↔
      ∃ place, tree.place? path = some place ∧ tree.entryAt place ≠ .directory ∧
        tree.put place (.file text) = tree' := by
  unfold write?
  cases tree.place? path with
  | none => simp
  | some place => simp

/-- Whether a file can be written at a path. -/
def Writable (tree : FileTree) (path : String) : Prop :=
  ∃ place, tree.place? path = some place ∧ tree.entryAt place ≠ .directory

instance (tree : FileTree) (path : String) : Decidable (tree.Writable path) :=
  decidable_of_iff ((tree.place? path).any (tree.entryAt · ≠ .directory)) (by
    simp [Writable, Option.any_eq_true])

/-- A place where a file can be written is none that every tree has. -/
theorem isLasting_eq_false (h : tree.entryAt place ≠ .directory) : isLasting place = false := by
  cases hlasting : isLasting place with
  | false => rfl
  | true => exact absurd (by simp [entryAt, hlasting]) h

theorem entryAt_put_file_eq_directory_iff (h : tree.entryAt place ≠ .directory) (other : Place) :
    (tree.put place (.file text)).entryAt other = .directory ↔
      tree.entryAt other = .directory := by
  by_cases heq : other = place
  · rw [heq, entryAt_put_self _ _ (isLasting_eq_false h)]
    simp [h]
  · rw [entryAt_put_of_ne _ _ heq]

/-- Writing a file changes no path. -/
theorem place?_put_file (h : tree.entryAt place ≠ .directory) (path : String) :
    (tree.put place (.file text)).place? path = tree.place? path := by
  apply Option.ext
  intro other
  exact ⟨place?_eq_some fun q => (entryAt_put_file_eq_directory_iff h q).1,
    place?_eq_some fun q => (entryAt_put_file_eq_directory_iff h q).2⟩

theorem Writable.put_file (h : tree.Writable path) (hfree : tree.entryAt place ≠ .directory) :
    (tree.put place (.file text)).Writable path := by
  obtain ⟨other, hother, hdirectory⟩ := h
  refine ⟨other, (place?_put_file hfree path).trans hother, ?_⟩
  rwa [ne_eq, entryAt_put_file_eq_directory_iff hfree]

end RegisterBank.Workspace.FileTree
