import RegisterBank.Workspace.Command

/-!
# The command line

`csr-gen FILE [-o DIR] [--check]` writes or checks the artifacts of a module description, and
`csr-map FILE` prints its address map.
-/

namespace RegisterBank.CommandLine

open Workspace (CommandError FileAccess)

def computerFiles : FileAccess IO where
  read path := do
    try
      return some (← IO.FS.readFile path)
    catch _ => return none
  makeDirectory path := do
    try
      IO.FS.createDirAll path
      return true
    catch _ => return false
  write path text := do
    try
      IO.FS.writeFile path text
      return true
    catch _ => return false

/-- A command with its arguments. -/
inductive Request where
  | generate (input : String) (output : Option String) (check : Bool)
  | map (input : String)

/-- The request for artifacts that arguments make. -/
def generation? (input output : Option String) (check : Bool) : List String → Option Request
  | [] => input.map fun input => .generate input output check
  | "--check" :: rest => generation? input output true rest
  | "-o" :: directory :: rest => generation? input (some directory) check rest
  | "--out" :: directory :: rest => generation? input (some directory) check rest
  | argument :: rest =>
    if input.isNone then generation? (some argument) output check rest else none

/-- The request that the arguments of the program make. -/
def request? : List String → Option Request
  | "csr-gen" :: rest => generation? none none false rest
  | ["csr-map", input] => some (.map input)
  | _ => none

/-- The failure and its cause on one line. -/
def failureText (e : CommandError) : String :=
  match e.cause? with
  | some cause => e.message ++ ": " ++ cause.message
  | none => e.message

/-- Reports a failure. -/
def fail (e : CommandError) : IO UInt32 := do
  IO.eprintln (failureText e)
  return 1

/-- Carries out a request. -/
def run : Request → IO UInt32
  | .generate input output check => do
    match ← Workspace.generate computerFiles input output check with
    | .ok () => return 0
    | .error e => fail e
  | .map input => do
    match ← Workspace.addressMap computerFiles input with
    | .ok text => IO.print text; return 0
    | .error e => fail e

end RegisterBank.CommandLine

def main (args : List String) : IO UInt32 :=
  match RegisterBank.CommandLine.request? args with
  | some request => RegisterBank.CommandLine.run request
  | none => do
    IO.eprintln "usage: csr-gen FILE [-o DIR] [--check] | csr-map FILE"
    return 2
