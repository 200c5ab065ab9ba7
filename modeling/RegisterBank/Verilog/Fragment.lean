/-!
# Hardware fragments

What a register file adds to the module that owns it: parameters, ports, internal signals, instances
of other cores, and a text of assignments and processes.
-/

namespace RegisterBank.Verilog

/-- The direction of a signal at the boundary. -/
inductive Direction where
  | input
  | output
  deriving DecidableEq, Repr

namespace Direction

/-- The keyword of a port declaration. -/
def keyword : Direction → String
  | input => "input"
  | output => "output"

/-- What the name of a port ends with. -/
def ending : Direction → String
  | input => "_i"
  | output => "_o"

end Direction

/-- A signal at the boundary. Its name does not show the direction. -/
structure Signal where
  name : String
  direction : Direction
  width : String
  deriving DecidableEq, Repr

def Signal.input (name width : String) : Signal :=
  ⟨name, .input, width⟩

def Signal.output (name width : String) : Signal :=
  ⟨name, .output, width⟩

/-- The name of the module port that carries the signal. -/
def Signal.portName (s : Signal) : String :=
  s.name ++ s.direction.ending

/-- A named group of signals at the boundary. -/
structure Port where
  name : String
  descr : String
  signals : List Signal
  deriving DecidableEq, Repr

/-- An internal signal. A variable is assigned inside a process. -/
structure Wire where
  name : String
  width : String
  isVar : Bool := false
  deriving DecidableEq, Repr

/-- An internal signal with a continuous assignment or driver. -/
def Wire.net (name width : String) : Wire :=
  ⟨name, width, false⟩

/-- An internal signal that a process assigns. -/
def Wire.var (name width : String) : Wire :=
  ⟨name, width, true⟩

/-- An instance of another core, with its parameter values and the signals at its ports. -/
structure Instance where
  core : String
  name : String
  descr : String
  parameters : List (String × String) := []
  connections : List (String × String) := []
  deriving DecidableEq, Repr

/-- The connections of the clock, the clock enable and the reset. -/
def clockConnections : List (String × String) :=
  [("clk_i", "clk_i"), ("cke_i", "cke_i"), ("arst_i", "arst_i")]

/-- All that a register file adds to a module. -/
structure Fragment where
  /-- Module parameters with their default values. -/
  parameters : List (String × String) := []
  ports : List Port := []
  wires : List Wire := []
  instances : List Instance := []
  snippet : String := ""
  deriving DecidableEq, Repr

end RegisterBank.Verilog
