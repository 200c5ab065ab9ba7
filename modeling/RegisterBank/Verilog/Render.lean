import RegisterBank.Text.Lines
import RegisterBank.Verilog.Fragment
import RegisterBank.Verilog.Width

/-!
# Fragments as modules

`Fragment.render` writes a fragment as a module of its own: the parameters, the ports with a remark
before each group, the declarations of internal signals, the instances, and the snippet.
-/

namespace RegisterBank.Verilog

open Text (ListLine punctuated unlines)

def parameterLines (parameters : List (String × String)) : List ListLine :=
  parameters.map fun (name, value) => .entry s!"    parameter {name} = {value}"

def signalLine (s : Signal) : ListLine :=
  .entry s!"    {s.direction.keyword} {range s.width}{s.portName}"

/-- The signals of a port after a remark on the port. -/
def portLines (p : Port) : List ListLine :=
  .remark s!"    // {p.name}: {p.descr}" :: p.signals.map signalLine

/-- The declaration of an internal signal. -/
def wireLine (w : Wire) : String :=
  let kind := if w.isVar then "reg" else "wire"
  s!"    {kind} {range w.width}{w.name};"

/-- Names with what they are bound to, in an instance. -/
def bindingLines (bindings : List (String × String)) : List ListLine :=
  bindings.map fun (name, value) => .entry s!"        .{name}({value})"

/-- An instance after an empty line and a remark. -/
def instanceLines (i : Instance) : List String :=
  let opening :=
    if i.parameters.isEmpty then [s!"    {i.core} {i.name} ("]
    else
      [s!"    {i.core} #("] ++ punctuated (bindingLines i.parameters) ++ [s!"    ) {i.name} ("]
  ["", s!"    // {i.descr}"] ++ opening ++ punctuated (bindingLines i.connections) ++ ["    );"]

/-- The opening of a module with its parameters. -/
def headLines (name : String) (parameters : List (String × String)) : List String :=
  if parameters.isEmpty then [s!"module {name} ("]
  else [s!"module {name} #("] ++ punctuated (parameterLines parameters) ++ [") ("]

/-- The lines of a module before the snippet. -/
def Fragment.lines (f : Fragment) (name : String) : List String :=
  ["`timescale 1ns / 1ps", ""] ++ headLines name f.parameters
    ++ punctuated (f.ports.flatMap portLines) ++ [");", ""] ++ f.wires.map wireLine
    ++ f.instances.flatMap instanceLines ++ [""]

/-- The fragment as a module of the given name. -/
def Fragment.render (f : Fragment) (name : String) : String :=
  unlines (f.lines name) ++ f.snippet ++ unlines ["", "endmodule"]

end RegisterBank.Verilog
