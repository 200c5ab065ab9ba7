import RegisterBank.Workspace.Path

/-!
# File trees

A tree of directories and text files, as a list of entries by place, the latest first. The working
directory, the directories around it and the root always exist. A path is followed name by name, and
every place on the way has to be a directory. A file can be written where its directory exists and
no directory has its name. A directory is made after those on the way to it; when it cannot be made,
the ones made before it stay.
-/

namespace RegisterBank.Workspace

/-- What stands at a place. -/
inductive Entry where
  | file (text : String)
  | directory
  /-- Nothing, as where a file was removed. -/
  | absent
  deriving DecidableEq, Repr

structure FileTree where
  entries : List (Place × Entry) := []
  deriving DecidableEq, Repr

namespace FileTree

/-- Whether a place exists in every tree. -/
def isLasting (place : Place) : Bool :=
  place == [rootName] || place.all (· == aboveName)

def entryAt (tree : FileTree) (place : Place) : Entry :=
  if isLasting place then .directory else (tree.entries.lookup place).getD .absent

def put (tree : FileTree) (place : Place) (entry : Entry) : FileTree :=
  ⟨(place, entry) :: tree.entries⟩

theorem entryAt_put_self (tree : FileTree) (entry : Entry) {place : Place}
    (h : isLasting place = false) : (tree.put place entry).entryAt place = entry := by
  simp [entryAt, put, h]

theorem entryAt_put_of_ne (tree : FileTree) (entry : Entry) {place other : Place}
    (h : other ≠ place) : (tree.put place entry).entryAt other = tree.entryAt other := by
  have h' : (other == place) = false := by simpa using h
  simp [entryAt, put, List.lookup_cons, h']

/-- Why a path leads to no place. -/
inductive Obstacle where
  /-- A directory on the way does not exist. -/
  | missing
  /-- A file is in the way, or no path can be like this one. -/
  | blocked
  deriving DecidableEq, Repr

/-- The place that a name leads to from another place. -/
def advance (tree : FileTree) (place : Place) (name : String) : Except Obstacle Place :=
  match tree.entryAt place with
  | .absent => .error .missing
  | .file _ => .error .blocked
  | .directory =>
    if name.utf8ByteSize ≤ Path.nameLimit then .ok (Path.step place name) else .error .blocked

/-- The place that the names lead to from another place. -/
def follow (tree : FileTree) (place : Place) : List String → Except Obstacle Place
  | [] => .ok place
  | name :: names => do
    let next ← tree.advance place name
    tree.follow next names

/-- The place that a path leads to. -/
def place? (tree : FileTree) (path : String) : Option Place :=
  if path ≠ "" ∧ Path.isUsable path then
    (tree.follow (Path.start path) (Path.names path)).toOption
  else none

def read? (tree : FileTree) (path : String) : Option String :=
  match (tree.place? path).map tree.entryAt with
  | some (.file text) => some text
  | _ => none

/-- The tree in which a file is written, where it can be. -/
def write? (tree : FileTree) (path text : String) : Option FileTree :=
  match tree.place? path with
  | none => none
  | some place =>
    if tree.entryAt place ≠ .directory then some (tree.put place (.file text)) else none

/-- The tree in which a place is a directory, where it can be one. -/
def makeAt? (tree : FileTree) (place : Place) : Option FileTree :=
  match tree.entryAt place with
  | .directory => some tree
  | .absent => some (tree.put place .directory)
  | .file _ => none

/-- The tree in which the names lead to a directory, where only the last one can be new. -/
def makeLast? (tree : FileTree) (place : Place) (names : List String) : Option FileTree :=
  match tree.follow place names with
  | .ok place => tree.makeAt? place
  | .error _ => none

/-- Makes a directory at every name on the way from a directory, up to the first where none can be;
whether there is none like that. -/
def makeEach (tree : FileTree) (place : Place) : List String → FileTree × Bool
  | [] => (tree, true)
  | name :: names =>
    match tree.makeLast? place [name] with
    | some tree => tree.makeEach (Path.step place name) names
    | none => (tree, false)

/-- Makes a directory after all directories on the way to it; whether it exists then. The parts of a
path are made one by one, and the whole path as it is written comes last. -/
def makeDirectory (tree : FileTree) (path : String) : FileTree × Bool :=
  if path = "" then (tree, true)
  else if Path.isUsable path then
    match tree.makeEach (Path.start path) (Path.parts path).dropLast with
    | (tree, false) => (tree, false)
    | (tree, true) =>
      match tree.makeLast? (Path.start path) (Path.trimmedNames path) with
      | some tree => (tree, true)
      | none => (tree, false)
  else (tree, false)

/-- The tree in which a file is written and all directories on the way to it exist. -/
def writeDeep? (tree : FileTree) (path text : String) : Option FileTree :=
  match tree.makeEach (Path.start path) (Path.parts path).dropLast with
  | (tree, true) => tree.write? path text
  | (_, false) => none

/-- The tree without the file at a path, when there is one. -/
def remove? (tree : FileTree) (path : String) : Option FileTree :=
  match tree.place? path with
  | none => none
  | some place =>
    match tree.entryAt place with
    | .file _ => some (tree.put place .absent)
    | _ => none

/-- The names in the directory at a place, in increasing order. -/
def listAt (tree : FileTree) (place : Place) : List String :=
  if tree.entryAt place = .directory then
    let names := tree.entries.filterMap fun (entry, _) =>
      if entry.dropLast = place ∧ entry ≠ [] ∧ tree.entryAt entry ≠ .absent then entry.getLast?
      else none
    names.eraseDups.mergeSort fun a b => decide (a < b) || a == b
  else []

/-- The names in the directory at a path, in increasing order. -/
def list (tree : FileTree) (path : String) : List String :=
  match tree.place? path with
  | some place => tree.listAt place
  | none => []

end FileTree

end RegisterBank.Workspace
