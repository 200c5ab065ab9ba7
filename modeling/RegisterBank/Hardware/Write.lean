import RegisterBank.Hardware.Element
import RegisterBank.Hardware.Section

/-!
# Write decode

A write selects the element that holds the address of the first strobed byte. The element takes its
data from the lane of the bus word where the bus carries the byte at the element's address. A
register that the register file holds has a storage core for each element; any other register
hands the write on to user logic, which answers with a ready signal.
-/

namespace RegisterBank.Hardware

open Verilog (Instance Phrase Wire)

/-- The part of the bus word that an element is written from. -/
structure WriteSlice where
  element : Element
  /-- The first bit of the slice. -/
  lane : Nat
  /-- The width of the slice. -/
  width : String
  deriving DecidableEq, Repr

/-- The slices from which the elements of a register are written. -/
def writeSlices (busBytes : Nat) (p : Placement) : List WriteSlice :=
  (elements p).map fun e => ⟨e, Block.laneBit e.address busBytes, p.signalWidth⟩

/-- The literal of a reset value for a storage of the given width. A symbolic width is filled up
with zeros. -/
def resetLiteral (width : String) (reset : Nat) : String :=
  match (Text.unsigned? width.toList).filter (· < UInt64.size) with
  | some bits => s!"{bits}'d{reset}"
  | none =>
    if reset = 0 then s!"\x7b{width}\x7b1'd0\x7d\x7d"
    else
      let bits := Nat.log2 reset + 1
      s!"\x7b\x7b({width}-{bits})\x7b1'd0\x7d\x7d,{bits}'d{reset}\x7d"

/-- Whether a reset value fits into so many bits. -/
def resetFits (bits : Int) (reset : Nat) : Bool :=
  0 ≤ bits && bits < UInt32.size && reset >>> bits.toNat == 0

/-- Refuses an item that is wider than the bus, and a stored reset value that is wider than the
register. -/
def checkWrite (b : Build) (p : Placement) : Except Error Unit := do
  if b.busBytes < p.layout.bytes then
    .error (.configuration (.wideWrite p.register.name p.layout.bytes b.busBytes))
  else if p.register.auto ∧ p.register.reset ≠ 0 then do
    let bits ← b.valueBits p
    if resetFits bits p.register.reset then .ok ()
    else .error (.configuration (.resetWidth p.register.name p.register.reset bits))
  else .ok ()

/-- The storage core of an element. -/
def storage (p : Placement) (s : WriteSlice) : Instance :=
  let n := s.element.name
  { core := "iob_reg_e"
    name := s!"{n}_datareg"
    descr := s!"{n} storage"
    parameters := [("DATA_W", s.width), ("RST_VAL", resetLiteral s.width p.register.reset)]
    connections := Verilog.clockConnections
      ++ [("en_i", s!"{n}_wen"), ("data_i", s!"{n}_wdata"), ("data_o", s!"{n}_o")] }

/-- The signals and decode that every written element has. -/
def decodeSection (s : WriteSlice) : Section :=
  let n := s.element.name
  { wires := [.net s!"{n}_wdata" s.width, .net s!"{n}_addressed_w" "1"]
    logic :=
      [.plain s!"    assign {n}_wdata = internal_iob_wdata[{s.lane}+:{s.width}];",
        .plain (s!"    assign {n}_addressed_w = (waddr >= {s.element.address}) && "
          ++ s!"(waddr < {s.element.stop});")] }

/-- The write enable and the storage of an element that the register file holds. -/
def storedSection (p : Placement) (s : WriteSlice) : Section :=
  let n := s.element.name
  { wires := [.net s!"{n}_wen" "1"]
    instances := [storage p s]
    logic :=
      [.plain (s!"    assign {n}_wen = (internal_iob_valid & internal_iob_ready) & "
        ++ s!"((|internal_iob_wstrb) & {n}_addressed_w);")] }

/-- The write enable and the data of an element that user logic holds, and its ready signal. -/
def forwardedSection (s : WriteSlice) : Section :=
  let n := s.element.name
  { logic :=
      [[.text "    assign ", .port s!"{n}_wen_o",
          .text (s!" = ({n}_addressed_w & (internal_iob_valid & internal_iob_ready)) ? "
            ++ "|internal_iob_wstrb : 1'b0;")],
        [.text "    assign ", .port s!"{n}_wdata_o", .text s!" = {n}_wdata;"]]
    response :=
      [.plain s!"        if ({n}_addressed_w) begin",
        [.text "            wready_int = ", .port s!"{n}_wready_i", .text ";"],
        .plain "        end"] }

/-- The section of one written element. -/
def sliceSection (p : Placement) (s : WriteSlice) : Section :=
  decodeSection s ++ if p.register.auto then storedSection p s else forwardedSection s

/-- The section of a register that software can write. -/
def writeSection (busBytes : Nat) (p : Placement) : Section :=
  .concat ((writeSlices busBytes p).map (sliceSection p))

end RegisterBank.Hardware
