import RegisterBank.Hardware.Element
import RegisterBank.Hardware.Section

/-!
# Read decode

A read answers with the bus word at the word address of the request. Each readable element fills its
part of the word through read slots: a slot is selected by a condition on the word address and puts
bits of its source into a lane of the word. An element that fits into a word has one slot; a wider
one has a slot for each of its words. Where one element covers several items of an array, the
condition selects the whole block, and the lane follows the address of the request.
-/

namespace RegisterBank.Hardware

open Verilog (Phrase Piece Wire)

/-- The word addresses that select a slot. -/
inductive Selection where
  /-- One word. -/
  | word (address : Nat)
  /-- The words of a block. -/
  | block (start stop : Nat)
  /-- The words of a block at a distance from its first item that is `phase` modulo the bytes of an
  item. -/
  | stride (start stop base bytes phase : Nat)
  deriving DecidableEq, Repr

def Selection.text : Selection → String
  | word address => s!"word_addr == {address}"
  | block start stop => s!"(word_addr >= {start}) && (word_addr < {stop})"
  | stride start stop base bytes phase =>
    s!"(word_addr >= {start}) && (word_addr < {stop}) && "
      ++ s!"(((word_addr - {base}) % {bytes}) == {phase})"

/-- Where in the response word the bits of a slot go. -/
inductive Lane where
  /-- From a fixed bit on. -/
  | fixed (bit : Nat)
  /-- From the lane of the requested byte on. -/
  | requested (busBytes : Nat)
  deriving DecidableEq, Repr

def Lane.text : Lane → String
  | fixed bit => toString bit
  | requested busBytes => s!"8*(internal_iob_addr % {busBytes})"

/-- Where the bits of a slot come from. -/
inductive Source where
  /-- A signal or a constant as a whole. -/
  | whole (value : Piece)
  /-- Bits of a signal. -/
  | bits (signal : String) (first count : Nat)
  deriving DecidableEq, Repr

def Source.piece : Source → Piece
  | whole value => value
  | bits signal first count => .text s!"{signal}[{first}+:{count}]"

/-- A contribution to the response word. -/
structure ReadSlot where
  name : String
  selection : Selection
  lane : Lane
  bits : Nat
  source : Source
  /-- The register whose handshake completes the read, where user logic holds the value. -/
  handshake : Option String
  deriving DecidableEq, Repr

/-- A source widened to whole bus words. -/
structure Extension where
  name : String
  bits : Nat
  source : Piece
  deriving DecidableEq, Repr

structure ElementRead where
  extension : Option Extension
  slots : List ReadSlot
  deriving DecidableEq, Repr

/-- Whether reads of the register wait for user logic. -/
def waits (r : Register) : Bool :=
  !r.auto && !r.isVersion

/-- What an element is read from: the version register from its constant, any other register from a
port. -/
def readSource (p : Placement) (e : Element) : Piece :=
  let r := p.register
  if r.isVersion then .text s!"16'h{Text.hexAddress r.reset}"
  else if !r.auto then .port s!"{r.name}_rdata_i"
  else if r.access.writes then .port s!"{e.name}_o"
  else .port s!"{e.name}_i"

/-- How an element of a register is read over a bus of words of `bus` bytes. -/
def elementRead (bus : Nat) (p : Placement) (e : Element) : ElementRead :=
  let bytes := p.layout.bytes
  let start := Block.floor e.address (Block.ceilLog2 bus)
  let isBlock := bytes < e.length
  let handshake := if waits p.register then some p.register.name else none
  if bytes ≤ bus then
    { extension := none
      slots :=
        [{ name := s!"{e.name}_rsel"
           selection := if isBlock then .block start e.stop else .word start
           lane := if isBlock then .requested bus else .fixed (Block.laneBit e.address bus)
           bits := 8 * bytes
           source := .whole (readSource p e)
           handshake }] }
  else
    let words := (bytes + bus - 1) / bus
    let extended := s!"{e.name}_rdata_ext"
    { extension := some ⟨extended, words * (8 * bus), readSource p e⟩
      slots := (List.range words).map fun k =>
        { name := s!"{e.name}_w{k}_rsel"
          selection :=
            if isBlock then .stride start e.stop e.address bytes (k * bus)
            else .word (e.address + k * bus)
          lane := .fixed 0
          bits := 8 * bus
          source := .bits extended (k * (8 * bus)) (8 * bus)
          handshake } }

def registerReads (bus : Nat) (p : Placement) : List ElementRead :=
  (elements p).map (elementRead bus p)

def readSlots (bus : Nat) (p : Placement) : List ReadSlot :=
  (registerReads bus p).flatMap (·.slots)

/-- The lines by which user logic completes a read. -/
def handshakeLines : Option String → List Phrase
  | some name =>
    [[.text "            rvalid_int = ", .port s!"{name}_rvalid_i", .text ";"],
      [.text "            rready_int = ", .port s!"{name}_rready_i", .text ";"]]
  | none => []

def slotSection (s : ReadSlot) : Section :=
  let slice := s!"rdata_nxt[{s.lane.text}+:{s.bits}]"
  { wires := [.var s.name "1"]
    response :=
      [Phrase.plain s!"        {s.name} = {s.selection.text};",
        Phrase.plain s!"        if ({s.name}) begin",
        [.text s!"            {slice} = {slice} | ", s.source.piece, .text ";"]]
      ++ handshakeLines s.handshake ++ [Phrase.plain "        end"] }

/-- The section of a widened source. -/
def extensionSection (x : Extension) : Section :=
  { wires := [.net x.name (toString x.bits)]
    logic := [[.text s!"    assign {x.name} = ", x.source, .text ";"]] }

def elementReadSection (r : ElementRead) : Section :=
  let extension := match r.extension with
    | some x => extensionSection x
    | none => {}
  extension ++ .concat (r.slots.map slotSection)

/-- The read strobe of a register that user logic holds. -/
def strobeSection (p : Placement) : Section :=
  let n := p.register.name
  { wires := [.net s!"{n}_addressed_r" "1"]
    logic :=
      [.plain (s!"    assign {n}_addressed_r = (internal_iob_addr >= {p.address}) && "
          ++ s!"(internal_iob_addr < {p.stop});"),
        [.text "    assign ", .port s!"{n}_ren_o",
          .text (s!" = {n}_addressed_r & (internal_iob_valid & internal_iob_ready) & "
            ++ "(~|internal_iob_wstrb);")]] }

/-- The section of a register that software can read. -/
def readSection (bus : Nat) (p : Placement) : Section :=
  (if waits p.register then strobeSection p else {})
    ++ .concat ((registerReads bus p).map elementReadSection)

end RegisterBank.Hardware
