import RegisterBank.Bus.Interface
import RegisterBank.Verilog.Fragment

/-!
# Bus signals

The signals of the internal bus and of each external protocol, without the stem of their names. The
internal bus carries a request forward (`valid`, `addr`, `wdata`, `wstrb`) and an answer back
(`rvalid`, `rdata`, `ready`).
-/

namespace RegisterBank.Hardware

open Verilog (Direction Signal)

structure BusSignal where
  name : String
  direction : Direction
  width : String
  deriving DecidableEq, Repr

/-- The signals of a request on the internal bus, with their widths. -/
def requestSignals : List (String × String) :=
  [("valid", "1"), ("addr", "ADDR_W"), ("wdata", "DATA_W"), ("wstrb", "DATA_W/8")]

/-- The signals of an answer on the internal bus. -/
def answerSignals : List (String × String) :=
  [("rvalid", "1"), ("rdata", "DATA_W"), ("ready", "1")]

def internalSignals : List (String × String) :=
  requestSignals ++ answerSignals

/-- The signals of the native protocol, the internal bus seen from outside. -/
def nativeSignals : List BusSignal :=
  requestSignals.map (fun (name, width) => ⟨name, .input, width⟩)
    ++ answerSignals.map fun (name, width) => ⟨name, .output, width⟩

def apbSignals : List BusSignal :=
  [⟨"addr", .input, "ADDR_W"⟩, ⟨"sel", .input, "1"⟩, ⟨"enable", .input, "1"⟩,
    ⟨"write", .input, "1"⟩, ⟨"wdata", .input, "DATA_W"⟩, ⟨"wstrb", .input, "DATA_W/8"⟩,
    ⟨"rdata", .output, "DATA_W"⟩, ⟨"ready", .output, "1"⟩]

def axiLiteSignals : List BusSignal :=
  [⟨"awaddr", .input, "ADDR_W"⟩, ⟨"awprot", .input, "3"⟩, ⟨"awvalid", .input, "1"⟩,
    ⟨"awready", .output, "1"⟩, ⟨"wdata", .input, "DATA_W"⟩, ⟨"wstrb", .input, "DATA_W/8"⟩,
    ⟨"wvalid", .input, "1"⟩, ⟨"wready", .output, "1"⟩, ⟨"bresp", .output, "2"⟩,
    ⟨"bvalid", .output, "1"⟩, ⟨"bready", .input, "1"⟩, ⟨"araddr", .input, "ADDR_W"⟩,
    ⟨"arprot", .input, "3"⟩, ⟨"arvalid", .input, "1"⟩, ⟨"arready", .output, "1"⟩,
    ⟨"rdata", .output, "DATA_W"⟩, ⟨"rresp", .output, "2"⟩, ⟨"rvalid", .output, "1"⟩,
    ⟨"rready", .input, "1"⟩]

def axiSignals : List BusSignal :=
  [⟨"awid", .input, "1"⟩, ⟨"awaddr", .input, "ADDR_W"⟩, ⟨"awlen", .input, "8"⟩,
    ⟨"awsize", .input, "3"⟩, ⟨"awburst", .input, "2"⟩, ⟨"awlock", .input, "2"⟩,
    ⟨"awcache", .input, "4"⟩, ⟨"awprot", .input, "3"⟩, ⟨"awqos", .input, "4"⟩,
    ⟨"awvalid", .input, "1"⟩, ⟨"awready", .output, "1"⟩, ⟨"wdata", .input, "DATA_W"⟩,
    ⟨"wstrb", .input, "DATA_W/8"⟩, ⟨"wlast", .input, "1"⟩, ⟨"wvalid", .input, "1"⟩,
    ⟨"wready", .output, "1"⟩, ⟨"bid", .output, "1"⟩, ⟨"bresp", .output, "2"⟩,
    ⟨"bvalid", .output, "1"⟩, ⟨"bready", .input, "1"⟩, ⟨"arid", .input, "1"⟩,
    ⟨"araddr", .input, "ADDR_W"⟩, ⟨"arlen", .input, "8"⟩, ⟨"arsize", .input, "3"⟩,
    ⟨"arburst", .input, "2"⟩, ⟨"arlock", .input, "2"⟩, ⟨"arcache", .input, "4"⟩,
    ⟨"arprot", .input, "3"⟩, ⟨"arqos", .input, "4"⟩, ⟨"arvalid", .input, "1"⟩,
    ⟨"arready", .output, "1"⟩, ⟨"rid", .output, "1"⟩, ⟨"rdata", .output, "DATA_W"⟩,
    ⟨"rresp", .output, "2"⟩, ⟨"rlast", .output, "1"⟩, ⟨"rvalid", .output, "1"⟩,
    ⟨"rready", .input, "1"⟩]

def protocolSignals : Interface → List BusSignal
  | .native => nativeSignals
  | .apb => apbSignals
  | .axiLite => axiLiteSignals
  | .axi => axiSignals

/-- The signals of the control port, their names with the stem of the protocol. -/
def controlSignals (interface : Interface) : List Signal :=
  (protocolSignals interface).map fun s => ⟨s!"{interface.stem}_{s.name}", s.direction, s.width⟩

/-- The names that a converter core has for the widths of address and data. -/
def converterParameters : Interface → String × String
  | .native => ("ADDR_W", "DATA_W")
  | .apb => ("APB_ADDR_W", "APB_DATA_W")
  | .axiLite => ("ADDR_W", "DATA_W")
  | .axi => ("ADDR_WIDTH", "DATA_WIDTH")

end RegisterBank.Hardware
