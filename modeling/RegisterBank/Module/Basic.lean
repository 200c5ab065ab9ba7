import RegisterBank.Bus.Settings
import RegisterBank.Parameter.Basic
import RegisterBank.Register.Basic

/-!
# Modules

A `Module` is a validated description: parameters, groups of registers and the settings of the
build. `Module.table` completes the declared groups to the table that is placed: the interrupt
registers are added where they are enabled, and the version register where none is declared.
-/

namespace RegisterBank

/-- A module with control and status registers. -/
structure Module where
  /-- The name, with which the names of all generated files begin. -/
  name : String
  version : Version
  params : List Parameter := []
  groups : Table := []
  settings : Settings := {}
  deriving Repr

/-- The name of the group that holds the interrupt registers. -/
def interruptGroupName : String := "interrupt_csrs"

/-- The name of the group that holds the version register. -/
def generalGroupName : String := "general"

def interruptGroup : Group Register :=
  { name := interruptGroupName
    descr := "Interrupt registers."
    members :=
      [{ name := "status", access := .read, width := .literal 32
         descr := "Interrupt status: bit i is set when interrupt i is pending." },
        { name := "mask", access := .write, width := .literal 32
          descr := "Interrupt mask: bit i disables interrupt i." },
        { name := "clear", access := .write, width := .literal 32
          descr := "Interrupt clear: writing 1 to bit i clears interrupt i." }] }

def versionDescr : String :=
  "Product version. This 16-bit register uses nibbles to represent decimal numbers using their "
    ++ "binary values. The two most significant nibbles represent the integer part of the version, "
    ++ "and the two least significant nibbles represent the decimal part."

/-- The version register with its reset value. -/
def versionRegister (packed : Nat) : Register :=
  { name := versionName, access := .read, width := .literal 16, reset := packed
    descr := versionDescr }

namespace Table

/-- Puts a register at the end of the first group of the given name, or into a new last group. -/
def addTo (name descr : String) (r : Register) : Table → Table
  | [] => [⟨name, descr, [r]⟩]
  | g :: rest =>
    if g.name = name then { g with members := g.members ++ [r] } :: rest
    else g :: addTo name descr r rest

/-- The groups with the interrupt registers, unless a group of their name is declared. -/
def withInterrupts (table : Table) : Table :=
  if table.any (·.name == interruptGroupName) then table else table ++ [interruptGroup]

/-- Whether a version register is declared. -/
def hasVersion (table : Table) : Bool :=
  (Group.flatten table).any (·.isVersion)

/-- The first fault of register names, where `seen` lists earlier ones in lower case. -/
def nameFault? : (seen : List String) → List Register → Option ConfigurationFault
  | _, [] => none
  | seen, r :: rest =>
    if r.name = "" then some .unnamedRegister
    else if seen.contains (Text.asciiLower r.name) then some (.repeatedRegister r.name)
    else nameFault? (Text.asciiLower r.name :: seen) rest

end Table

namespace Module

/-- The reset value of the version register. -/
def packedVersion (m : Module) : Except Error Nat :=
  match m.version.packed? with
  | some n => .ok n
  | none => .error (.configuration (.versionRange m.version))

/-- The groups with the version register, unless one is declared. -/
def withVersion (m : Module) (table : Table) : Except Error Table :=
  if table.hasVersion then .ok table
  else do
    let packed ← m.packedVersion
    .ok (table.addTo generalGroupName "General Registers." (versionRegister packed))

/-- The table of the module's registers. Every register has a name, and no two names differ only in
the case of their letters. -/
def table (m : Module) : Except Error Table := do
  m.settings.validate
  if (Group.flatten m.groups).isEmpty then
    .error (.configuration (.noRegisters m.name))
  else
    let groups := if m.settings.interrupts then Table.withInterrupts m.groups else m.groups
    let groups ← m.withVersion groups
    match Table.nameFault? [] (Group.flatten groups) with
    | some fault => .error (.configuration fault)
    | none => .ok groups

end Module

end RegisterBank
