import RegisterBank.Header.Definition
import RegisterBank.Software.Accessor

/-!
# Software files

The accessors of a module in C, once for a processor that reaches the registers by address and once
for a simulation that reaches them through a handle, each with a header; and the tasks of a test
bench.
-/

namespace RegisterBank.Software

open Header (Definition Line)

/-- The address macros of a header. -/
def addressDefinitions (b : Build) : List Definition :=
  b.placements.map fun p => ⟨addressMacro b p, toString p.address⟩

/-- The width macros of a header. The widths are those of the word types. -/
def widthDefinitions (b : Build) : List Definition :=
  b.placements.map fun p => ⟨widthMacro b p, toString (8 * p.layout.bytes)⟩

/-- The macros that both C headers have. -/
def macroLines (b : Build) : List Line :=
  [.plain "// Address space width", .define (Header.spaceDefinition b), .plain "",
    .plain "// Addresses"]
  ++ (addressDefinitions b).map .define
  ++ [.plain "", .plain "// Data widths (bit)"]
  ++ (widthDefinitions b).map .define
  ++ [.plain ""]

def declarationLines (b : Build) (extra : List String) (accessors : List Accessor) : List Line :=
  (accessors.flatMap fun a => a.prototypes b extra).map fun p => .plain (p.text ++ ";")

/-- The macro that guards a header against being included twice. -/
def guardName (b : Build) (ending : String) : String :=
  "H_" ++ b.stem ++ ending

/-- A header that is read only once. -/
def guarded (name : String) (lines : List Line) : List Line :=
  [.plain s!"#ifndef {name}", .define ⟨name, ""⟩, .plain ""] ++ lines
    ++ [.plain "", .plain s!"#endif // {name}"]

/-- The lines of the header for a processor. -/
def embeddedLines (b : Build) (accessors : List Accessor) : List Line :=
  guarded (guardName b "CSRS_H")
    ([.plain "#include <stdint.h>", .plain ""] ++ macroLines b
      ++ [.plain "// Base address", .plain s!"void {b.stem}INIT_BASEADDR(uint32_t addr);",
          .plain "", .plain "// Setters and getters"]
      ++ declarationLines b [] accessors)

def embeddedHeader (b : Build) (accessors : List Accessor) : TextFile :=
  Header.file s!"{b.top}_csrs.h" Definition.softwareMacro (embeddedLines b accessors)

def simulationLines (b : Build) (accessors : List Accessor) : List Line :=
  guarded (guardName b "CSRS_VERILATOR_H")
    ([.plain "#include <stdint.h>", .plain "", .plain "#include \"iob_tasks.h\"", .plain ""]
      ++ macroLines b
      ++ [.plain "// Setters and getters"]
      ++ declarationLines b [Accessor.handle] accessors)

def simulationHeader (b : Build) (accessors : List Accessor) : TextFile :=
  Header.file s!"{b.top}_csrs_verilator.h" Definition.softwareMacro (simulationLines b accessors)

def embeddedSource (b : Build) (accessors : List Accessor) : TextFile :=
  .ofLines s!"{b.top}_csrs_emb.c"
    ([s!"#include \"{b.top}_csrs.h\"", "", "static uint32_t base;",
        s!"void {b.stem}INIT_BASEADDR(uint32_t addr) \x7b", "  base = addr;", "\x7d", ""]
      ++ (accessors.flatMap fun a => a.embeddedFunctions b).flatMap Function.lines)

def simulationSource (b : Build) (accessors : List Accessor) : TextFile :=
  .ofLines s!"{b.top}_csrs_emb_verilator.c"
    ([s!"#include \"{b.top}_csrs_verilator.h\"", ""]
      ++ (accessors.flatMap fun a => a.simulationFunctions b).flatMap Function.lines)

/-- The tasks of a register, which use the macros for the inside of an instance. -/
def taskLines (b : Build) (p : Placement) : List String :=
  let range := s!"[{8 * p.layout.bytes}-1:0]"
  let address := addressText ("`" ++ addressMacro b p) p
  let index := "input reg [ADDR_W-1:0] addr"
  let setArguments := if p.isArray then ", " ++ index else ""
  let getArguments := if p.isArray then index ++ ", " else ""
  let setName := b.stem ++ "SET_" ++ p.macroName
  let getName := b.stem ++ "GET_" ++ p.macroName
  (if p.register.access.writes then
      [s!"task static {setName}(input reg {range} value{setArguments});",
        s!"  iob_write({address}, value, `{widthMacro b p});", "endtask", ""]
    else [])
  ++ if p.register.access.reads then
      [s!"task static {getName}({getArguments}output reg {range} rvalue);",
        s!"  iob_read({address}, rvalue, `{widthMacro b p});", "endtask", ""]
    else []

/-- The tasks of a test bench. -/
def testbenchFile (b : Build) : TextFile :=
  .ofLines s!"{b.top}_csrs_emb_tb.vs"
    ([s!"// {b.top} CSR setters and getters", ""] ++ b.placements.flatMap (taskLines b))

def files (b : Build) : Except Error (List TextFile) := do
  let accessors ← accessors b.placements
  .ok [embeddedHeader b accessors, embeddedSource b accessors, simulationHeader b accessors,
    simulationSource b accessors, testbenchFile b]

end RegisterBank.Software
