import RegisterBank.Header.Definition
import RegisterBank.TextFile

/-!
# Verilog headers

The three headers of a module: the default values of its parameters, the macros of its registers for
use inside an instance, and the local parameters for code outside.
-/

namespace RegisterBank.Header

/-- The lines of the header with the default values of the parameters. -/
def configurationLines (b : Build) : Except Error (List Line) := do
  let definitions ← parameterDefaults b
  .ok (definitions.map .define)

/-- The header with the default values of the parameters. -/
def configurationFile (b : Build) : Except Error TextFile := do
  let lines ← configurationLines b
  .ok (file s!"{b.top}_csrs_conf.vh" Definition.hardwareMacro lines)

/-- The lines of the header for use inside an instance. -/
def instanceLines (b : Build) : List Line :=
  [.plain s!"`include \"{b.top}_csrs_conf.vh\"", .plain "",
    .plain s!"// {b.top} CSR macros. Widths may depend on instance parameters.", .plain "",
    .define (spaceDefinition b)]
  ++ b.placements.flatMap fun p => .plain "" :: (instanceDefinitions b p).map .define

/-- The header for use inside an instance. -/
def instanceFile (b : Build) : TextFile :=
  file s!"{b.top}_csrs_def.vh" Definition.hardwareMacro (instanceLines b)

/-- The lines of a register in the header for code outside an instance. -/
def defaultLines (b : Build) (p : Placement) : Except Error (List Line) := do
  let definitions ← defaultDefinitions b p
  .ok (definitions.map .define ++ [.plain ""])

/-- The lines of the header for code outside an instance. -/
def parameterLines (b : Build) : Except Error (List Line) := do
  let lines ← b.placements.mapM (defaultLines b)
  .ok
    ([.plain "// Address space width", .define (spaceDefinition b), .plain "",
        .plain "// Default register addresses and widths"]
      ++ lines.flatten)

/-- The header for code outside an instance. -/
def parameterFile (b : Build) : Except Error TextFile := do
  let lines ← parameterLines b
  .ok (file s!"{b.top}_csrs_lparam.vs" Definition.localParameter lines)

def files (b : Build) : Except Error (List TextFile) := do
  let configuration ← configurationFile b
  let parameters ← parameterFile b
  .ok [configuration, instanceFile b, parameters]

end RegisterBank.Header
