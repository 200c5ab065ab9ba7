import RegisterBank.Build
import RegisterBank.Header.Line

/-!
# Definitions in Verilog headers

The names that the headers of a module define. Inside an instance, widths may depend on its
parameters, so the macros of registers keep them symbolic; outside it, local parameters give the
same quantities at the default parameter values. Every array has an address width, which covers the
bytes of all its items.
-/

namespace RegisterBank.Header

/-- The default value of a parameter, when it has one. -/
def parameterDefinitions (b : Build) (p : Parameter) : Except Error (List Definition) :=
  match p.field .value with
  | none => .ok []
  | some formula => do
    let value ← formula.eval b.env .value
    .ok [⟨macroStem (b.top ++ "_csrs") ++ Text.capitals p.name, toString value⟩]

def parameterDefaults (b : Build) : Except Error (List Definition) := do
  let definitions ← b.design.params.mapM (parameterDefinitions b)
  .ok definitions.flatten

/-- The address width of an array, symbolic when its depth is. -/
def symbolicAddrWidth (p : Placement) : String :=
  let bytesWidth := Block.ceilLog2 p.layout.bytes
  let depth := p.register.logItems
  match depth.literal? with
  | some logItems => toString (logItems + (bytesWidth : Int))
  | none => if bytesWidth = 0 then depth.source else s!"{depth.source}+{bytesWidth}"

/-- The width of the address space. -/
def spaceDefinition (b : Build) : Definition :=
  ⟨b.stem ++ "CSRS_ADDR_W", toString b.map.addrWidth⟩

def registerName (b : Build) (p : Placement) (quantity : String) : String :=
  b.stem ++ p.macroName ++ "_" ++ quantity

/-- The macros of a register for use inside an instance. -/
def instanceDefinitions (b : Build) (p : Placement) : List Definition :=
  [⟨registerName b p "ADDR", toString p.address⟩]
    ++ (if 0 < p.layout.logItems then
        [⟨registerName b p "ADDR_W", Verilog.larger (symbolicAddrWidth p) "1"⟩]
      else [])
    ++ [⟨registerName b p "W", p.signalWidth⟩]

/-- The local parameters of a register at the default parameter values. -/
def defaultDefinitions (b : Build) (p : Placement) : Except Error (List Definition) := do
  let layout ← Layout.of p.register b.env .value
  let bits ← b.valueBits p
  .ok
    ([⟨registerName b p "ADDR", toString p.address⟩]
      ++ (if 0 < layout.logItems then [⟨registerName b p "ADDR_W", toString layout.addrWidth⟩]
        else [])
      ++ [⟨registerName b p "W", toString bits⟩])

end RegisterBank.Header
