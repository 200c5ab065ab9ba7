import RegisterBank.Build
import RegisterBank.Hardware.Section
import RegisterBank.Hardware.Signals

/-!
# The protocol of the register file

What every register file has whatever its registers: the ports of clock and bus, the connection of
the external protocol to the internal bus, the addresses that all decoders share, and the machine of
two states that sequences requests.
-/

namespace RegisterBank.Hardware

open Verilog (Instance Phrase Port Signal Wire)

def moduleParameters (b : Build) : List (String × String) :=
  [("ADDR_W", toString b.map.addrWidth), ("DATA_W", toString b.design.settings.dataWidth)]

def busPorts (interface : Interface) : List Port :=
  [{ name := "clk_en_rst"
     descr := "Clock, clock enable and asynchronous reset"
     signals := [.input "clk" "1", .input "cke" "1", .input "arst" "1"] },
    { name := "control_if"
      descr := s!"CSR control interface ({interface.name})"
      signals := controlSignals interface },
    { name := "csrs_iob_output"
      descr := "Internal CSR bus, for user logic"
      signals := internalSignals.map fun (name, width) => .output s!"csrs_iob_{name}" width }]

/-- The core that converts the external protocol into the internal bus. -/
def converterInstance (interface : Interface) (core : String) : Instance :=
  { core
    name := s!"{core}_converter"
    descr := s!"Convert the {interface.name} control port into the internal bus"
    parameters :=
      [((converterParameters interface).1, "ADDR_W"), ((converterParameters interface).2, "DATA_W")]
    connections := Verilog.clockConnections
      ++ (controlSignals interface).map (fun s => (s.portName, s.portName))
      ++ requestSignals.map (fun (name, _) => (s!"iob_{name}_o", s!"internal_iob_{name}"))
      ++ answerSignals.map fun (name, _) => (s!"iob_{name}_i", s!"internal_iob_{name}") }

/-- The connection of the external protocol to the internal bus. -/
def attachment (interface : Interface) : Section :=
  match interface.converter? with
  | none =>
    { logic :=
        requestSignals.map (fun (name, _) =>
          [.text s!"    assign internal_iob_{name} = ", .port s!"iob_{name}_i", .text ";"])
        ++ answerSignals.map fun (name, _) =>
          [.text "    assign ", .port s!"iob_{name}_o", .text s!" = internal_iob_{name};"] }
  | some core => { instances := [converterInstance interface core] }

/-- The internal bus, its copy for user logic, and its connection to the external protocol. -/
def busSection (interface : Interface) : Section :=
  { wires := internalSignals.map fun (name, width) => .net s!"internal_iob_{name}" width
    logic :=
      [.plain "    localparam WSTRB_W = DATA_W/8;",
        .plain "    localparam NBYTES_W = $clog2(WSTRB_W);",
        .plain "    localparam WAIT_REQ = 1'd0;",
        .plain "    localparam WAIT_RVALID = 1'd1;",
        .plain ""]
      ++ internalSignals.map (fun (name, _) =>
        [.text "    assign ", .port s!"csrs_iob_{name}_o", .text s!" = internal_iob_{name};"])
      ++ [.plain ""] }
  ++ attachment interface

/-- The word address of a request, and the address of the first byte that a write strobes. -/
def addressSection : Section :=
  { wires :=
      [.net "byte_offset" "$clog2(DATA_W/8)+1", .net "word_addr" "ADDR_W", .net "waddr" "ADDR_W"]
    instances :=
      [{ core := "iob_ctls"
         name := "bo_inst"
         descr := "Offset of the first strobed byte"
         parameters := [("W", "DATA_W/8"), ("MODE", "0"), ("SYMBOL", "0")]
         connections := [("data_i", "internal_iob_wstrb"), ("count_o", "byte_offset")] }]
    logic :=
      [.plain "    assign word_addr = (internal_iob_addr >> NBYTES_W) << NBYTES_W;",
        .plain "    assign waddr = word_addr + byte_offset;"] }

/-- The registers of the response: names and widths. -/
def responseRegisters : List (String × String) :=
  [("state", "1"), ("rvalid", "1"), ("rdata", "DATA_W"), ("ready", "1")]

def responseStorage (name width : String) : Instance :=
  { core := "iob_reg"
    name := s!"{name}_reg"
    descr := s!"{name} register"
    parameters :=
      [("DATA_W", width),
        ("RST_VAL", if width = "1" then "1'b0" else "\x7bDATA_W\x7b1'b0\x7d\x7d")]
    connections := Verilog.clockConnections ++ [("data_i", s!"{name}_nxt"), ("data_o", name)] }

/-- The wires and registers of the response. -/
def responseSection : Section :=
  { wires :=
      responseRegisters.flatMap (fun (name, width) =>
        [Wire.net name width, Wire.var s!"{name}_nxt" width])
      ++ ["rvalid_int", "wready_int", "rready_int"].map fun name => Wire.var name "1"
    instances := responseRegisters.map fun (name, width) => responseStorage name width }

/-- The lines between the logic of the registers and their response: the answer signals of the bus,
and the defaults of the response. -/
def responseOpening : List String :=
  ["",
    "    assign internal_iob_rvalid = rvalid;",
    "    assign internal_iob_rdata = rdata;",
    "    assign internal_iob_ready = ready;",
    "",
    "    always @* begin",
    "        rdata_nxt = \x7bDATA_W\x7b1'b0\x7d\x7d;",
    "        rvalid_int = (internal_iob_valid & internal_iob_ready) & (~(|internal_iob_wstrb));",
    "        rready_int = 1'b1;",
    "        wready_int = 1'b1;",
    ""]

/-- The machine that sequences requests, at the end of the response process. -/
def stateMachine : List String :=
  ["",
    "        ready_nxt = 1'b0;",
    "        rvalid_nxt = 1'b0;",
    "        state_nxt = state;",
    "",
    "        case (state)",
    "            WAIT_REQ: begin",
    "                if (internal_iob_valid & (!internal_iob_ready)) begin",
    "                    ready_nxt = |internal_iob_wstrb ? wready_int : rready_int;",
    "                    if (ready_nxt && (!(|internal_iob_wstrb))) begin",
    "                        state_nxt = WAIT_RVALID;",
    "                    end",
    "                end",
    "            end",
    "            default: begin",
    "                if (rvalid_int) begin",
    "                    rvalid_nxt = 1'b1;",
    "                    state_nxt = WAIT_REQ;",
    "                end",
    "            end",
    "        endcase",
    "    end"]

end RegisterBank.Hardware
