import RegisterBank.Artifacts
import RegisterBank.Module.Reading
import RegisterBank.Workspace.FileTree

/-!
# Commands

`generate` writes all artifacts of a described module into a directory, or checks that the directory
holds them unchanged; `addressMap` lists the addresses. The commands work on any kind of file store
that can read, write and make directories: a `FileTree`, or the files of a computer.
-/

namespace RegisterBank.Workspace

/-- What the commands need of a file store. Paths are texts. -/
structure FileAccess (m : Type → Type) where
  /-- The text of a file, when it can be read. -/
  read : String → m (Option String)
  /-- Makes a directory and those on the way to it; whether it exists then. -/
  makeDirectory : String → m Bool
  /-- Writes a file; whether that was possible. -/
  write : String → String → m Bool

def FileTree.access : FileAccess (StateM FileTree) where
  read path := do return (← get).read? path
  makeDirectory path := do
    let (tree, made) := (← get).makeDirectory path
    set tree
    return made
  write path text := do
    match (← get).write? path text with
    | some tree => set tree; return true
    | none => return false

/-- Why a command failed. -/
inductive CommandError where
  | unreadable (input : String)
  | uncompiled (input : String) (cause : Error)
  | outOfDate (output : String) (names : List String) (input : String)
  | directory (output : String)
  | file (path : String)
  deriving DecidableEq, Repr

namespace CommandError

/-- The failure in words. -/
def message : CommandError → String
  | unreadable input => s!"failed to read {input}"
  | uncompiled input _ => s!"failed to compile {input}"
  | outOfDate output names input =>
    s!"{output} is out of date (" ++ String.intercalate ", " names
      ++ s!"); run `cargo xtask csr-gen {input}`"
  | directory output => s!"failed to create {output}"
  | file path => s!"failed to write {path}"

/-- The error behind the failure. -/
def cause? : CommandError → Option Error
  | uncompiled _ cause => some cause
  | _ => none

end CommandError

/-- The module that a text describes, with its artifacts. -/
def compileText (text : String) : Except Error (Module × Artifacts) := do
  let m ← Module.parse text
  let artifacts ← Artifacts.generate m
  .ok (m, artifacts)

section Commands

variable {m : Type → Type} [Monad m] (files : FileAccess m)

/-- The artifacts of the module that a file describes. -/
def compileFile (path : String) : m (Except Error Artifacts) := do
  match ← files.read path with
  | none => return .error (.configuration (.unreadable path))
  | some text => return (compileText text).map (·.2)

/-- The module that the input of a command describes, with its artifacts. -/
def compileInput (input : String) : m (Except CommandError (Module × Artifacts)) := do
  match ← files.read input with
  | none => return .error (.unreadable input)
  | some text =>
    match compileText text with
    | .ok result => return .ok result
    | .error cause => return .error (.uncompiled input cause)

/-- The names of the files that are missing in a directory or have other contents there. -/
def staleNames (output : String) : List TextFile → m (List String)
  | [] => return []
  | file :: rest => do
    let found ← files.read (Path.join output file.name)
    let names ← staleNames output rest
    return if found = some file.contents then names else file.name :: names

/-- Writes files into a directory, up to the first that cannot be written. -/
def writeAll (output : String) : List TextFile → m (Except CommandError Unit)
  | [] => return .ok ()
  | file :: rest => do
    let path := Path.join output file.name
    if ← files.write path file.contents then writeAll output rest
    else return .error (.file path)

/-- The directory for the artifacts of a module, where none is given. -/
def defaultOutput (moduleName : String) : String :=
  Path.join "build" moduleName

/-- Checks that a directory holds the files unchanged. -/
def checkOutput (input output : String) (texts : List TextFile) : m (Except CommandError Unit) := do
  let names ← staleNames files output texts
  return if names.isEmpty then .ok () else .error (.outOfDate output names input)

/-- Makes a directory and writes the files into it. -/
def writeOutput (output : String) (texts : List TextFile) : m (Except CommandError Unit) := do
  if ← files.makeDirectory output then writeAll files output texts
  else return .error (.directory output)

/-- Writes all artifacts of a described module, or checks them. -/
def generate (input : String) (output : Option String) (check : Bool) :
    m (Except CommandError Unit) := do
  match ← compileInput files input with
  | .error e => return .error e
  | .ok (described, artifacts) =>
    let output := output.getD (defaultOutput described.name)
    if check then checkOutput files input output artifacts.files
    else writeOutput files output artifacts.files

/-- A register in the list of addresses. -/
def addressLine (p : Placement) : String :=
  s!"  0x{Text.hexAddress p.address} {Text.padRight 3 p.register.access.code} "
    ++ s!"{Text.padRight 20 p.register.name} {p.layout.bytes} bytes x {p.layout.items}"

def addressLines (map : AddressMap) : List String :=
  s!"address width: {map.addrWidth} bits"
    :: map.groups.flatMap fun g => s!"{g.name}: {g.descr}" :: g.members.map addressLine

/-- The list of addresses of a described module, as a text. -/
def addressMap (input : String) : m (Except CommandError String) := do
  match ← compileInput files input with
  | .error e => return .error e
  | .ok (_, artifacts) => return .ok (Text.unlines (addressLines artifacts.map))

end Commands

end RegisterBank.Workspace
