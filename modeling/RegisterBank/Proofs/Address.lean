import RegisterBank.Proofs.FileNames
import RegisterBank.Proofs.Hardware.Read
import RegisterBank.Proofs.Hardware.Write
import RegisterBank.Proofs.Header.Contents
import Mathlib.Order.Bounds.Basic

/-!
# One address for each register

Every header, the manual and the decoders of the hardware walk over the placed registers on their
own, the headers with names in capitals, and the manual looks up each address again by the name of
the register. No two registers agree in their names, not even in capitals, so all of them come to
the address at which the register is placed, as it is read back from the files
(`Artifacts.generate_addresses`).
-/

namespace RegisterBank

open Hardware (elementRead elements readSlots wordAddress writeSlices)
open Header (Definition Dialect Line definitions definitionsOf registerName)
open Text (IsIdentifier before?)

variable {b : Build} {p q : Placement}

/-! ## Headers -/

namespace Header

/-- The definition of the address of a register. -/
def addressOf (b : Build) (p : Placement) : Definition :=
  ⟨registerName b p "ADDR", toString p.address⟩

/-- The definitions among these that have the name for the address of a register. -/
def addressesOf (b : Build) (p : Placement) (ds : List Definition) : List Definition :=
  ds.filter (·.name = registerName b p "ADDR")

theorem addressesOf_append (ds es : List Definition) :
    addressesOf b p (ds ++ es) = addressesOf b p ds ++ addressesOf b p es :=
  List.filter_append _ _

/-- Other names do not end as the name of an address does. -/
theorem addressesOf_eq_nil {stem ending value : String} (h : before? "_ADDR" ending = none)
    (h' : before? ending "_ADDR" = none) : addressesOf b p [⟨stem ++ ending, value⟩] = [] := by
  have haddress : registerName b p "ADDR" = b.stem ++ p.macroName ++ "_ADDR" := by
    simp [registerName, String.append_assoc]
  have hne : stem ++ ending ≠ registerName b p "ADDR" := by
    rw [haddress]
    exact Text.append_ne_append h h'
  simp [addressesOf, hne]

theorem addressesOf_addressOf :
    addressesOf b p [addressOf b q] =
      if q.macroName = p.macroName then [addressOf b q] else [] := by
  simp [addressesOf, addressOf, registerName, List.filter_cons]

theorem addressesOf_spaceDefinition : addressesOf b p [spaceDefinition b] = [] :=
  addressesOf_eq_nil (by decide) (by decide)

/-- A register has one definition of its own address, and none of another one. -/
theorem addressesOf_definitionsOf {isArray : Prop} [Decidable isArray] {addrWidth width : String} :
    addressesOf b p (definitionsOf b q isArray addrWidth width) =
      if q.macroName = p.macroName then [addressOf b q] else [] := by
  have hwidth : addressesOf b p [⟨registerName b q "W", width⟩] = [] :=
    addressesOf_eq_nil (by decide) (by decide)
  have haddrWidth : addressesOf b p
      (if isArray then [⟨registerName b q "ADDR_W", addrWidth⟩] else []) = [] := by
    split
    · exact addressesOf_eq_nil (by decide) (by decide)
    · rfl
  rw [definitionsOf, addressesOf_append, addressesOf_append, hwidth, haddrWidth, List.append_nil,
    List.append_nil]
  exact addressesOf_addressOf

/-- Where names in capitals differ, the address of a register is defined once among definitions of
all registers. -/
theorem addressesOf_flatMap_placements {ds : Placement → List Definition}
    (hne : b.placements.Pairwise fun p q => p.macroName ≠ q.macroName) (hp : p ∈ b.placements)
    (hds : ∀ q ∈ b.placements,
      addressesOf b p (ds q) = if q.macroName = p.macroName then [addressOf b q] else []) :
    addressesOf b p (b.placements.flatMap ds) = [addressOf b p] := by
  have hone : b.placements.filter (·.macroName = p.macroName) = [p] := by
    refine filter_eq_singleton (hne.imp ?_) hp rfl
    intro q r hqr h
    exact hqr (h.1.trans h.2.symm)
  have hfilter := Hardware.flatMap_filter_eq (fun q => [addressOf b q])
    (fun q => decide (q.macroName = p.macroName)) b.placements
  rw [addressesOf, List.filter_flatMap]
  refine (List.flatMap_congr hds).trans ?_
  simpa [hone] using hfilter.symm

theorem addressesOf_cons_spaceDefinition (ds : List Definition) :
    addressesOf b p (spaceDefinition b :: ds) = addressesOf b p ds := by
  rw [← List.singleton_append, addressesOf_append, addressesOf_spaceDefinition, List.nil_append]

/-- The header for code outside an instance defines the address of each register once. -/
theorem addressesOf_parameterLines (hb : b.Checked)
    (hne : b.placements.Pairwise fun p q => p.macroName ≠ q.macroName) (hp : p ∈ b.placements)
    {lines : List Line} (h : parameterLines b = .ok lines) :
    addressesOf b p (definitions lines) = [addressOf b p] := by
  rw [definitions_parameterLines h, addressesOf_cons_spaceDefinition]
  refine addressesOf_flatMap_placements hne hp ?_
  intro q hq
  obtain ⟨layout, bits, -, hdefinitions⟩ := valueDefinitions_eq hb hq
  rw [hdefinitions, addressesOf_definitionsOf]

/-- So does the header for use inside an instance. -/
theorem addressesOf_instanceLines
    (hne : b.placements.Pairwise fun p q => p.macroName ≠ q.macroName) (hp : p ∈ b.placements) :
    addressesOf b p (definitions (instanceLines b)) = [addressOf b p] := by
  rw [definitions_instanceLines, addressesOf_cons_spaceDefinition]
  refine addressesOf_flatMap_placements hne hp ?_
  intro q _
  rw [instanceDefinitions_eq, addressesOf_definitionsOf]

/-- And so do the macros of a C header, in which the addresses stand before the widths. -/
theorem addressesOf_macroLines (hne : b.placements.Pairwise fun p q => p.macroName ≠ q.macroName)
    (hp : p ∈ b.placements) :
    addressesOf b p (definitions (Software.macroLines b)) = [addressOf b p] := by
  have haddresses :
      Software.addressDefinitions b = b.placements.flatMap fun q => [addressOf b q] := by
    rw [← List.map_eq_flatMap]
    simp [Software.addressDefinitions, Software.addressMacro, addressOf, registerName,
      String.append_assoc]
  have hwidths : addressesOf b p (Software.widthDefinitions b) = [] := by
    rw [Software.widthDefinitions, List.map_eq_flatMap, addressesOf, List.filter_flatMap]
    exact List.flatMap_eq_nil_iff.2 fun q _ => addressesOf_eq_nil (by decide) (by decide)
  rw [definitions_macroLines, addressesOf_cons_spaceDefinition, addressesOf_append, hwidths,
    haddresses, List.append_nil]
  exact addressesOf_flatMap_placements hne hp fun q _ => addressesOf_addressOf

/-- The guard around them is no address. -/
theorem addressesOf_cons_guardName {ending : String} (part : String)
    (hending : ending = part ++ "H") (ds : List Definition) :
    addressesOf b p (⟨Software.guardName b ending, ""⟩ :: ds) = addressesOf b p ds := by
  have hguard : Software.guardName b ending = "H_" ++ b.stem ++ part ++ "H" := by
    simp [Software.guardName, hending, String.append_assoc]
  have hnone : addressesOf b p [⟨Software.guardName b ending, ""⟩] = [] := by
    rw [hguard]
    exact addressesOf_eq_nil (by decide) (by decide)
  rw [← List.singleton_append, addressesOf_append, hnone, List.nil_append]

end Header

/-! ## Decoders -/

namespace Hardware

variable {bus : Nat} {e : Element}

/-- The first element of a register is at the address of the register. -/
theorem exists_elements_eq_cons (p : Placement) :
    ∃ e rest, elements p = e :: rest ∧ e.address = p.address := by
  by_cases h : p.register.auto = true ∧ 1 < p.layout.items
  · obtain ⟨n, hn⟩ : ∃ n, p.layout.items = n + 1 := ⟨p.layout.items - 1, by omega⟩
    rw [elements_eq_items h.1 h.2, hn, List.range_succ_eq_map, List.map_cons]
    exact ⟨_, _, rfl, by simp [itemElement]⟩
  · rw [elements_eq_whole h]
    exact ⟨_, _, rfl, rfl⟩

/-- Some bus word before the end of an element holds its first byte. -/
theorem Regular.wordAddress_lt_stop (h : Regular bus p e) : wordAddress bus e.address < e.stop := by
  have hstop : e.address < e.stop := Nat.lt_add_of_pos_right h.aligned.nonempty
  exact (wordAddress_le bus e.address).trans_lt hstop

theorem Regular.isLeast_narrowSlot (h : Regular bus p e) :
    IsLeast {w | (narrowSlot bus p e).selection.Selects w} (wordAddress bus e.address) := by
  unfold narrowSlot
  by_cases hblock : p.layout.bytes < e.length
  · simp only [if_pos hblock, Selection.Selects]
    exact ⟨⟨le_rfl, h.wordAddress_lt_stop⟩, fun w hw => hw.1⟩
  · simp only [if_neg hblock, Selection.Selects]
    exact isLeast_singleton

/-- The first slot of an item of several words has the first of its words. -/
theorem Regular.isLeast_wideSlot (h : Regular bus p e) (hlt : bus < p.layout.bytes) :
    IsLeast {w | (wideSlot bus p e 0).selection.Selects w} (wordAddress bus e.address) := by
  obtain ⟨k, hbus⟩ := h.bus_eq
  have hword : wordAddress bus e.address = e.address :=
    wordAddress_of_dvd hbus (Nat.dvd_trans (h.bus_dvd_bytes hlt.le) h.aligned.address)
  unfold wideSlot
  by_cases hblock : p.layout.bytes < e.length
  · simp only [if_pos hblock, Selection.Selects]
    exact ⟨⟨⟨le_rfl, h.wordAddress_lt_stop⟩, by simp [hword]⟩, fun w hw => hw.1.1⟩
  · simp only [if_neg hblock, Selection.Selects, hword, Nat.zero_mul, Nat.add_zero]
    exact isLeast_singleton

/-- An element has a first slot, which begins at the bus word of its address. -/
theorem Regular.exists_slots_eq_cons (h : Regular bus p e) :
    ∃ s rest, (elementRead bus p e).slots = s :: rest ∧
      IsLeast {w | s.selection.Selects w} (wordAddress bus e.address) := by
  by_cases hle : p.layout.bytes ≤ bus
  · rw [elementRead_of_le hle]
    exact ⟨_, _, rfl, h.isLeast_narrowSlot⟩
  · have hlt : bus < p.layout.bytes := Nat.not_le.1 hle
    have hdvd := h.bus_dvd_bytes hlt.le
    obtain ⟨n, hn⟩ : ∃ n, p.layout.bytes / bus = n + 1 :=
      Nat.exists_eq_succ_of_ne_zero (Nat.div_pos hlt.le h.bus_pos).ne'
    rw [elementRead_of_lt hlt h.bus_pos hdvd, hn, List.range_succ_eq_map, List.map_cons]
    exact ⟨_, _, rfl, h.isLeast_wideSlot hlt⟩

/-- The first write window of a register begins at its address. -/
theorem exists_writeSlices_eq_cons (hb : b.Checked) (hp : p ∈ b.placements) :
    ∃ s rest, writeSlices b.busBytes p = s :: rest ∧ IsLeast s.element.window p.address := by
  obtain ⟨e, rest, helements, haddress⟩ := exists_elements_eq_cons p
  have hregular := regular_of_mem_elements hb hp (helements ▸ List.mem_cons_self)
  rw [writeSlices, helements, List.map_cons]
  refine ⟨_, _, rfl, ?_⟩
  rw [← haddress]
  exact isLeast_Ico (Nat.lt_add_of_pos_right hregular.aligned.nonempty)

/-- The first read slot of a register begins at the bus word of its address. -/
theorem exists_readSlots_eq_cons (hb : b.Checked) (hp : p ∈ b.placements) :
    ∃ s rest, readSlots b.busBytes p = s :: rest ∧
      IsLeast {w | s.selection.Selects w} (wordAddress b.busBytes p.address) := by
  obtain ⟨e, rest, helements, haddress⟩ := exists_elements_eq_cons p
  have hregular := regular_of_mem_elements hb hp (helements ▸ List.mem_cons_self)
  obtain ⟨s, slots, hslots, hleast⟩ := hregular.exists_slots_eq_cons
  rw [readSlots_eq, helements, List.flatMap_cons, hslots, List.cons_append]
  exact ⟨_, _, rfl, haddress ▸ hleast⟩

end Hardware

/-! ## Rows -/

/-- The row begins with the name and the access of the register, and with the address at which it
is placed. -/
def Manual.ShowsAddress (p : Placement) (row : String) : Prop :=
  ∃ rest, row = "    " ++ escape p.register.name ++ " & " ++ p.register.access.code ++ " & " ++
    toString p.address ++ " & " ++ rest

theorem Manual.showsAddress_rowText (p : Placement) :
    ShowsAddress p (rowText (cells p.register p.address)) := by
  refine ⟨String.intercalate " & " [escape p.register.width.source, toString p.register.reset,
    escape p.register.descr] ++ " \\\\ \\hline", ?_⟩
  simp only [rowText, cells, String.intercalate_cons_cons, String.append_assoc]

namespace Artifacts

open Hardware (listing mixedModule)
open Header (addressOf addressesOf)

variable {m : Module} {a : Artifacts}

/-- The name by which a header of the module has the address of a register. -/
def addressName (m : Module) (p : Placement) : String :=
  Text.capitals m.name ++ "_" ++ Text.capitals p.register.name ++ "_ADDR"

theorem Parts.addressOf_eq (x : Parts m a) (p : Placement) :
    addressOf x.build p = ⟨addressName m p, toString p.address⟩ := by
  simp [addressOf, registerName, addressName, Build.stem, macroStem, Placement.macroName,
    x.design_eq, String.append_assoc]

/-- A file whose lines define the address of a register once has it once. -/
theorem Parts.valuesIn_addressName (x : Parts m a) {l : Dialect} {name : String}
    {ds : List Definition} (h : a.definitionsIn l name = ds.map Definition.firstLine)
    (hone : addressesOf x.build p ds = [addressOf x.build p]) :
    a.valuesIn l name (addressName m p) = [toString p.address] := by
  have hvalues : a.valuesIn l name (addressOf x.build p).name = [(addressOf x.build p).value] :=
    valuesIn_eq h hone (Text.oneLine_toString p.address)
  rwa [x.addressOf_eq] at hvalues

end Artifacts

end RegisterBank
