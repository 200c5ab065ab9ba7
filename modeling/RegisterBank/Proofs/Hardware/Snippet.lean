import RegisterBank.Proofs.Build

/-!
# The text of the register file

Each write slice and each read slot has a few lines in the text of the register file. The slices
come first, with their data, decodes and enables; what user logic answers to a write and what the
read slots add to the response stands inside the response process. Besides the lines of the
protocol and the remarks, the text has no others (`snippet_eq_listing`), so whatever holds of the
slices and slots of a table holds of the hardware that is written.
-/

namespace RegisterBank.Hardware

open Verilog (Phrase)

variable {m : Module} {a : Artifacts}

/-! ## Slices -/

/-- The data of a slice, taken from the bus word, and the addresses that select it. -/
def WriteSlice.decodeLines (s : WriteSlice) : List String :=
  let n := s.element.name
  [s!"    assign {n}_wdata = internal_iob_wdata[{s.lane}+:{s.width}];",
    s!"    assign {n}_addressed_w = (waddr >= {s.element.address}) && "
      ++ s!"(waddr < {s.element.stop});"]

/-- The enable of a slice that the register file holds, or the enable and the data that a slice of
user logic hands on. -/
def WriteSlice.enableLines (auto : Bool) (s : WriteSlice) : List String :=
  let n := s.element.name
  if auto then
    [s!"    assign {n}_wen = (internal_iob_valid & internal_iob_ready) & "
      ++ s!"((|internal_iob_wstrb) & {n}_addressed_w);"]
  else
    [s!"    assign {n}_wen_o"
        ++ s!" = ({n}_addressed_w & (internal_iob_valid & internal_iob_ready)) ? "
        ++ "|internal_iob_wstrb : 1'b0;",
      s!"    assign {n}_wdata_o" ++ s!" = {n}_wdata;"]

/-- The ready signal of user logic, which answers while the slice is addressed. -/
def WriteSlice.readyLines (s : WriteSlice) : List String :=
  let n := s.element.name
  [s!"        if ({n}_addressed_w) begin", s!"            wready_int = {n}_wready_i;",
    "        end"]

/-- The slices of registers that user logic holds. While one of them is addressed, its ready signal
answers the write. -/
def forwardedSlices (bus : Nat) (ps : List Placement) : List WriteSlice :=
  ((writable ps).filter (!·.register.auto)).flatMap (writeSlices bus)

/-! ## Slots -/

/-- The condition of a slot, and under it the bits that the slot joins to the response and the
handshake that completes the read. -/
def ReadSlot.lines (s : ReadSlot) : List String :=
  let slice := s!"rdata_nxt[{s.lane.text}+:{s.bits}]"
  [s!"        {s.name} = {s.selection.text};", s!"        if ({s.name}) begin",
    s!"            {slice} = {slice} | {s.source.piece.written};"]
  ++ (match s.handshake with
    | some n =>
      [s!"            rvalid_int = {n}_rvalid_i;", s!"            rready_int = {n}_rready_i;"]
    | none => [])
  ++ ["        end"]

def Extension.line (x : Extension) : String :=
  s!"    assign {x.name} = {x.source.written};"

/-- The read strobe of a register that user logic holds. -/
def strobeLines (p : Placement) : List String :=
  let n := p.register.name
  [s!"    assign {n}_addressed_r = (internal_iob_addr >= {p.address}) && "
      ++ s!"(internal_iob_addr < {p.stop});",
    s!"    assign {n}_ren_o" ++ s!" = {n}_addressed_r & "
      ++ "(internal_iob_valid & internal_iob_ready) & (~|internal_iob_wstrb);"]

/-! ## The whole text -/

def protocolLines (interface : Interface) : List String :=
  ((busSection interface).logic ++ addressSection.logic).map (·.line)

def remarkLines (p : Placement) : List String :=
  (remarkSection p).logic.map (·.line)

/-- The assignments for writes of a register. -/
def writeLines (bus : Nat) (p : Placement) : List String :=
  remarkLines p ++
    (writeSlices bus p).flatMap fun s => s.decodeLines ++ s.enableLines p.register.auto

/-- The assignments for reads of a register. The remark stands before those for writes where there
are some. -/
def readLines (bus : Nat) (p : Placement) : List String :=
  (if p.register.access.writes then [] else remarkLines p) ++
    (if waits p.register then strobeLines p else []) ++
    (registerReads bus p).flatMap fun r => r.extension.toList.map Extension.line

/-- The lines of a register file. -/
def listing (s : Settings) (ps : List Placement) : List String :=
  protocolLines s.interface ++
    (writable ps).flatMap (writeLines s.busBytes) ++
    (readable ps).flatMap (readLines s.busBytes) ++
    responseOpening ++
    (forwardedSlices s.busBytes ps).flatMap WriteSlice.readyLines ++
    (tableSlots s.busBytes ps).flatMap ReadSlot.lines ++
    stateMachine

/-! ## Sections -/

theorem map_line_sliceSection (p : Placement) (s : WriteSlice) :
    (sliceSection p s).logic.map (·.line) = s.decodeLines ++ s.enableLines p.register.auto := by
  cases hauto : p.register.auto <;>
    simp [sliceSection, decodeSection, storedSection, forwardedSection, hauto, Phrase.line,
      Phrase.plain, WriteSlice.decodeLines, WriteSlice.enableLines, Verilog.Piece.written,
      String.append_assoc, toString]

theorem map_line_response_sliceSection (p : Placement) (s : WriteSlice) :
    (sliceSection p s).response.map (·.line) = if p.register.auto then [] else s.readyLines := by
  cases hauto : p.register.auto <;>
    simp [sliceSection, decodeSection, storedSection, forwardedSection, hauto, Phrase.line,
      Phrase.plain, WriteSlice.readyLines, Verilog.Piece.written, String.append_assoc, toString]

theorem map_line_slotSection (s : ReadSlot) :
    (slotSection s).response.map (·.line) = s.lines := by
  cases hhandshake : s.handshake <;>
    simp [slotSection, handshakeLines, hhandshake, Phrase.line, Phrase.plain, ReadSlot.lines,
      Verilog.Piece.written, String.append_assoc, toString]

theorem map_line_extensionSection (x : Extension) :
    (extensionSection x).logic.map (·.line) = [x.line] := by
  simp [extensionSection, Phrase.line, Extension.line, Verilog.Piece.written, String.append_assoc,
    toString]

theorem map_line_strobeSection (p : Placement) :
    (strobeSection p).logic.map (·.line) = strobeLines p := by
  simp [strobeSection, Phrase.line, Phrase.plain, strobeLines, Verilog.Piece.written,
    String.append_assoc, toString]

/-! ## The text of a build -/

theorem map_line_writes (bus : Nat) (p : Placement) :
    ((remarkSection p).logic ++
        (writeSlices bus p).flatMap fun s => (sliceSection p s).logic).map (·.line) =
      writeLines bus p := by
  rw [List.map_append, List.map_flatMap]
  simp only [map_line_sliceSection]
  rfl

theorem map_line_reads (bus : Nat) (p : Placement) :
    ((if p.register.access.writes then [] else (remarkSection p).logic) ++
        (readSection bus p).logic).map (·.line) = readLines bus p := by
  have hextension : ∀ r : ElementRead,
      (r.extension.toList.flatMap fun x => (extensionSection x).logic).map (·.line) =
        r.extension.toList.map Extension.line := by
    intro r
    rw [List.map_flatMap, List.map_eq_flatMap]
    simp only [map_line_extensionSection]
  rw [logic_readSection, List.map_append, List.map_append, List.map_flatMap]
  simp only [hextension, readLines, apply_ite (List.map Phrase.line), List.map_nil,
    map_line_strobeSection, remarkLines, List.append_assoc]

/-- The text of a register file is its listing. -/
theorem snippet_eq_listing (b : Build) :
    (fragmentOf b).snippet = Text.unlines (listing b.design.settings b.placements) := by
  have hlogic : (body b).logic.map (·.line) =
      protocolLines b.design.settings.interface ++
        (writable b.placements).flatMap (writeLines b.busBytes) ++
        (readable b.placements).flatMap (readLines b.busBytes) := by
    rw [logic_body, List.map_append, List.map_append, List.map_flatMap, List.map_flatMap]
    simp only [map_line_writes, map_line_reads]
    rfl
  have hready : ((writable b.placements).flatMap fun p =>
        (writeSlices b.busBytes p).flatMap fun s => (sliceSection p s).response).map (·.line) =
      (forwardedSlices b.busBytes b.placements).flatMap WriteSlice.readyLines := by
    simp only [List.map_flatMap, map_line_response_sliceSection, forwardedSlices,
      flatMap_filter_eq, List.flatMap_assoc]
    apply List.flatMap_congr
    intro p _
    cases p.register.auto <;> simp
  have hresponse : (body b).response.map (·.line) =
      (forwardedSlices b.busBytes b.placements).flatMap WriteSlice.readyLines ++
        (tableSlots b.busBytes b.placements).flatMap ReadSlot.lines := by
    rw [response_body, List.map_append, hready, List.map_flatMap]
    simp only [map_line_slotSection]
  simp only [fragmentOf, hlogic, hresponse, listing, List.append_assoc]
  rfl

theorem snippet_eq_of_generate_eq_ok (h : Artifacts.generate m = .ok a) :
    a.hardware.snippet = Text.unlines (listing m.settings a.map.placements) := by
  obtain ⟨b, -, rfl, hmap, hhardware⟩ := Artifacts.exists_checked_of_generate_eq_ok h
  rw [hhardware, snippet_eq_listing, Build.placements, hmap]

end RegisterBank.Hardware
