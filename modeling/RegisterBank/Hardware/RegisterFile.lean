import RegisterBank.Hardware.Protocol
import RegisterBank.Hardware.Read
import RegisterBank.Hardware.Write
import RegisterBank.Text.Lines

/-!
# The register file

The hardware of a build. Every register except the version register has a port; a register that the
register file holds has one signal for each element there, and any other register has the signals of
its handshakes. Then come the write decode of all writable registers and the read decode of all
readable ones, in order of declaration, between the parts of the protocol.
-/

namespace RegisterBank.Hardware

open Verilog (Fragment Port Signal)

/-- The signals by which user logic sees writes of a register. -/
def writeSignals (p : Placement) : List Signal :=
  let n := p.register.name
  if !p.register.access.writes then []
  else if p.register.auto then (elements p).map fun e => .output e.name p.signalWidth
  else [.output s!"{n}_wdata" p.signalWidth, .output s!"{n}_wen" "1", .input s!"{n}_wready" "1"]

/-- The signals by which user logic answers reads of a register. A stored register that software can
also write is read back from its storage. -/
def readSignals (p : Placement) : List Signal :=
  let n := p.register.name
  if !p.register.access.reads then []
  else if p.register.auto then
    if p.register.access.writes then [] else (elements p).map fun e => .input e.name p.signalWidth
  else
    [.input s!"{n}_rdata" p.signalWidth, .input s!"{n}_rvalid" "1", .output s!"{n}_ren" "1",
      .input s!"{n}_rready" "1"]

def registerPort? (p : Placement) : Option Port :=
  if p.register.isVersion then none
  else
    some
      { name := p.register.name
        descr := s!"{p.register.name} register interface"
        signals := writeSignals p ++ readSignals p }

/-- The remark before the logic of a register. -/
def remarkSection (p : Placement) : Section :=
  let r := p.register
  let kind := if r.auto then "auto" else "manual"
  { logic :=
      [.plain "",
        .plain (s!"    // {r.name}: {r.access.code}, {r.width.source} bits, reset {r.reset}, "
          ++ s!"address {p.address}, span {p.layout.span} bytes (max), {kind}")] }

/-- The write part of a register, when software can write it. -/
def writePart (busBytes : Nat) (p : Placement) : Section :=
  if p.register.access.writes then remarkSection p ++ writeSection busBytes p else {}

/-- The read part of a register, when software can read it. The remark stands in the write part of a
register that has one. -/
def readPart (busBytes : Nat) (p : Placement) : Section :=
  if p.register.access.reads then
    (if p.register.access.writes then {} else remarkSection p) ++ readSection busBytes p
  else {}

/-- The whole register file as one section, without the response process around it. -/
def body (b : Build) : Section :=
  busSection b.design.settings.interface ++ addressSection
    ++ .concat (b.placements.map (writePart b.busBytes))
    ++ .concat (b.placements.map (readPart b.busBytes))
    ++ responseSection

/-- The fragment of a build whose registers have been checked. -/
def fragmentOf (b : Build) : Fragment :=
  { parameters := moduleParameters b
    ports := busPorts b.design.settings.interface ++ b.placements.filterMap registerPort?
    wires := (body b).wires
    instances := (body b).instances
    snippet := Text.unlines
      ((body b).logic.map (·.line) ++ responseOpening ++ (body b).response.map (·.line)
        ++ stateMachine) }

/-- Checks the writable registers in order. -/
def checkWrites (b : Build) : List Placement → Except Error Unit
  | [] => .ok ()
  | p :: rest => do
    if p.register.access.writes then checkWrite b p
    checkWrites b rest

def fragment (b : Build) : Except Error Fragment := do
  checkWrites b b.placements
  .ok (fragmentOf b)

end RegisterBank.Hardware
