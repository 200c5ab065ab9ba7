import RegisterBank.Allocation.Basic
import RegisterBank.Module.Basic
import RegisterBank.Parameter.Resolution
import RegisterBank.Verilog.Width

/-!
# Builds

A build is a module with the values of its parameters and the addresses of its registers. Every
artifact is generated from one build, so a register has the same address everywhere.
-/

namespace RegisterBank

/-- A module with its parameter values and addresses. -/
structure Build where
  design : Module
  env : Environment
  map : AddressMap
  deriving Repr

/-- What the names of the macros of a module begin with. -/
def macroStem (name : String) : String :=
  Text.capitals name ++ "_"

namespace Build

variable (b : Build)

/-- The name of the module. -/
def top : String :=
  b.design.name

/-- What the names of the module's macros begin with. -/
def stem : String :=
  macroStem b.design.name

def busBytes : Nat :=
  b.design.settings.busBytes

/-- The placed registers in order. -/
def placements : List Placement :=
  b.map.placements

/-- The width of a register in bits by the default parameter values. -/
def valueBits (p : Placement) : Except Error Int :=
  p.register.width.eval b.env .value

/-- The build of a module: its parameters are resolved and its registers are placed. -/
def ofModule (m : Module) : Except Error Build := do
  let env ← Environment.resolve m.params
  let table ← m.table
  let map ← m.settings.policy.allocate env table
  .ok ⟨m, env, map⟩

end Build

namespace Placement

/-- The width of the register's data signals. -/
def signalWidth (p : Placement) : String :=
  Verilog.larger p.register.width.source "1"

def macroName (p : Placement) : String :=
  Text.capitals p.register.name

end Placement

end RegisterBank
