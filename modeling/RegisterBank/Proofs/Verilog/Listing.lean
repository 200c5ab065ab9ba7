import Mathlib.Data.List.Forall2
import RegisterBank.Proofs.Text.Lines
import RegisterBank.Verilog.Render

/-!
# Lists in a rendered module

A module has a list of parameters and a list of ports, and each instance in it a list of parameter
values and a list of connections. In such a list every entry stands on a line of its own, and every
entry but the last is followed by a comma. The ports are listed together although remarks stand
between them, and a port without signals has no entry.

Where the parts of a fragment have no line feeds and no commas of their own, the lines of the
rendered module are read back with all its lists (`lines_render`).
-/

namespace RegisterBank.Verilog

open Text (ListLine OneLine punctuated)

variable {s t entry : String} {entries written : List String} {f : Fragment} {x : Signal}

/-! ## Parts of a line -/

/-- A text without line feeds and commas. -/
structure IsPart (text : String) : Prop where
  oneLine : OneLine text
  no_comma : ',' ∉ text.toList

instance : DecidablePred IsPart := fun text =>
  decidable_of_iff (OneLine text ∧ ',' ∉ text.toList)
    ⟨fun h => ⟨h.1, h.2⟩, fun h => ⟨h.oneLine, h.no_comma⟩⟩

theorem IsPart.append (hs : IsPart s) (ht : IsPart t) : IsPart (s ++ t) := by
  refine ⟨Text.oneLine_append.2 ⟨hs.oneLine, ht.oneLine⟩, ?_⟩
  rw [String.toList_append, List.mem_append, not_or]
  exact ⟨hs.no_comma, ht.no_comma⟩

theorem IsPart.ne_append_comma (h : IsPart s) (t : String) : s ≠ t ++ "," := by
  rintro rfl
  have hcomma := h.no_comma
  rw [String.toList_append, List.mem_append, not_or] at hcomma
  exact hcomma.2 (by decide)

/-- The names, widths, values and descriptions of a fragment have no line feeds and no commas. -/
structure Fragment.OfParts (f : Fragment) : Prop where
  parameters : ∀ x ∈ f.parameters, IsPart x.1 ∧ IsPart x.2
  ports : ∀ p ∈ f.ports, IsPart p.name ∧ IsPart p.descr
  signals : ∀ p ∈ f.ports, ∀ s ∈ p.signals, IsPart s.name ∧ IsPart s.width
  wires : ∀ w ∈ f.wires, IsPart w.name ∧ IsPart w.width
  instances : ∀ i ∈ f.instances, IsPart i.core ∧ IsPart i.name ∧ IsPart i.descr
  values : ∀ i ∈ f.instances, ∀ x ∈ i.parameters, IsPart x.1 ∧ IsPart x.2
  connections : ∀ i ∈ f.instances, ∀ x ∈ i.connections, IsPart x.1 ∧ IsPart x.2

/-! ## Separated lists -/

/-- The lines of a list of entries: a comma after every entry but the last one, which does not end
in a comma. -/
inductive Separated : (entries written : List String) → Prop where
  | none : Separated [] []
  | some {init : List String} {last : String} : (∀ text, last ≠ text ++ ",") →
      Separated (init ++ [last]) (init.map (· ++ ",") ++ [last])

/-- Entries before others are followed by commas. -/
theorem Separated.append_left (h : Separated entries written) (hne : entries ≠ [])
    (before : List String) :
    Separated (before ++ entries) (before.map (· ++ ",") ++ written) := by
  cases h with
  | none => exact absurd rfl hne
  | some hlast =>
      rw [← List.append_assoc, ← List.append_assoc, ← List.map_append]
      exact .some hlast

theorem Separated.oneLine (h : Separated entries written)
    (hentries : ∀ entry ∈ entries, IsPart entry) : ∀ line ∈ written, OneLine line := by
  have hcomma : OneLine "," := by decide
  cases h with
  | none => exact fun _ hline => absurd hline List.not_mem_nil
  | some hlast =>
      rw [List.forall_mem_append, List.forall_mem_singleton] at hentries ⊢
      refine ⟨List.forall_mem_map.2 fun entry hentry => ?_, hentries.2.oneLine⟩
      exact Text.oneLine_append.2 ⟨(hentries.1 entry hentry).oneLine, hcomma⟩

theorem Separated.eq_nil (h : Separated [] written) : written = [] := by
  generalize hentries : ([] : List String) = entries at h
  cases h with
  | none => rfl
  | some => simp at hentries

/-- What is punctuated in two parts, where the second part has entries. -/
theorem punctuated_append_of_any {rest : List ListLine} (h : rest.any ListLine.isEntry = true) :
    punctuated (entries.map .entry ++ rest) = entries.map (· ++ ",") ++ punctuated rest := by
  induction entries with
  | nil => rfl
  | cons entry entries ih => simp [punctuated, h, ih]

theorem punctuated_append_of_not_any {rest : List ListLine}
    (h : rest.any ListLine.isEntry = false) :
    punctuated (entries.map .entry ++ rest) =
      punctuated (entries.map .entry) ++ punctuated rest := by
  induction entries with
  | nil => rfl
  | cons entry entries ih => simp [punctuated, h, ih]

theorem separated_punctuated (h : ∀ entry ∈ entries, IsPart entry) :
    Separated entries (punctuated (entries.map .entry)) := by
  rcases List.eq_nil_or_concat entries with rfl | ⟨init, last, rfl⟩
  · exact .none
  · rw [List.concat_eq_append] at h ⊢
    have hlast := h last (List.mem_append_right _ List.mem_cons_self)
    rw [List.map_append, List.map_singleton, punctuated_append_of_any (by rfl)]
    exact .some hlast.ne_append_comma

/-! ## The lists of a fragment -/

def parameterEntry (x : String × String) : String :=
  s!"    parameter {x.1} = {x.2}"

def signalEntry (s : Signal) : String :=
  s!"    {s.direction.keyword} {range s.width}{s.portName}"

def bindingEntry (x : String × String) : String :=
  s!"        .{x.1}({x.2})"

theorem parameterLines_eq (parameters : List (String × String)) :
    parameterLines parameters = (parameters.map parameterEntry).map .entry := by
  rw [List.map_map]
  rfl

theorem bindingLines_eq (bindings : List (String × String)) :
    bindingLines bindings = (bindings.map bindingEntry).map .entry := by
  rw [List.map_map]
  rfl

theorem portLines_eq (p : Port) :
    portLines p =
      .remark s!"    // {p.name}: {p.descr}" :: (p.signals.map signalEntry).map .entry := by
  rw [List.map_map]
  rfl

theorem isPart_range {width : String} (h : IsPart width) : IsPart (range width) := by
  have hopening : IsPart "[" := by decide
  have hclosing : IsPart "-1:0] " := by decide
  unfold range
  split
  · decide
  · exact (hopening.append h).append hclosing

theorem isPart_parameterEntry {x : String × String} (h : IsPart x.1 ∧ IsPart x.2) :
    IsPart (parameterEntry x) := by
  have hkey : IsPart "    parameter " := by decide
  have hsign : IsPart " = " := by decide
  exact ((hkey.append h.1).append hsign).append h.2

theorem isPart_signalEntry (h : IsPart x.name ∧ IsPart x.width) : IsPart (signalEntry x) := by
  have hindent : IsPart "    " := by decide
  have hspace : IsPart " " := by decide
  have hkey : IsPart x.direction.keyword := by cases x.direction <;> decide
  have hending : IsPart x.direction.ending := by cases x.direction <;> decide
  exact ((((hindent.append hkey).append hspace).append (isPart_range h.2))).append
    (h.1.append hending)

theorem isPart_bindingEntry {x : String × String} (h : IsPart x.1 ∧ IsPart x.2) :
    IsPart (bindingEntry x) := by
  have hindent : IsPart "        ." := by decide
  have hopening : IsPart "(" := by decide
  have hclosing : IsPart ")" := by decide
  exact (((hindent.append h.1).append hopening).append h.2).append hclosing

/-! ## The lines of a module -/

/-- The lines of the lists of a rendered fragment: one list for the parameters, the part of each
port in the list of all ports, and the lists of the values and of the connections of each
instance. -/
structure Lists where
  parameters : List String
  ports : List (List String)
  instances : List (List String × List String)

namespace Lists

/-- The lists have the entries of the fragment in order, one line for each. -/
structure Of (x : Lists) (f : Fragment) : Prop where
  parameters : Separated (f.parameters.map parameterEntry) x.parameters
  ports : Separated ((f.ports.flatMap (·.signals)).map signalEntry) x.ports.flatten
  signals : x.ports.map List.length = f.ports.map (·.signals.length)
  instances : List.Forall₂ (fun i y => Separated (i.parameters.map bindingEntry) y.1 ∧
    Separated (i.connections.map bindingEntry) y.2) f.instances x.instances

/-- The opening of the module. Its name may have any form. -/
def headLines (x : Lists) (f : Fragment) (name : String) : List String :=
  if f.parameters.isEmpty then Text.lines s!"module {name} ("
  else Text.lines s!"module {name} #(" ++ x.parameters ++ [") ("]

/-- Each port with a remark before its signals. -/
def portLines (x : Lists) (f : Fragment) : List String :=
  (f.ports.zip x.ports).flatMap fun (p, signals) => s!"    // {p.name}: {p.descr}" :: signals

/-- An instance with the lines of its lists. -/
def linesOf (i : Instance) (values connections : List String) : List String :=
  let opening :=
    if i.parameters.isEmpty then [s!"    {i.core} {i.name} ("]
    else [s!"    {i.core} #("] ++ values ++ [s!"    ) {i.name} ("]
  ["", s!"    // {i.descr}"] ++ opening ++ connections ++ ["    );"]

def instanceLines (x : Lists) (f : Fragment) : List String :=
  (f.instances.zip x.instances).flatMap fun (i, values, connections) =>
    linesOf i values connections

/-- The whole module around the lists. -/
def lines (x : Lists) (f : Fragment) (name : String) : List String :=
  ["`timescale 1ns / 1ps", ""] ++ x.headLines f name ++ x.portLines f ++ [");", ""]
    ++ f.wires.map wireLine ++ x.instanceLines f ++ [""] ++ Text.lines f.snippet
    ++ ["endmodule", ""]

end Lists

/-- Whether a port line is followed by a comma is decided by the ports after it. -/
theorem any_isEntry_flatMap_portLines (ports : List Port) :
    (ports.flatMap portLines).any ListLine.isEntry = true ↔ ports.flatMap (·.signals) ≠ [] := by
  induction ports with
  | nil => simp
  | cons p ports ih =>
      rw [List.flatMap_cons, List.any_append, Bool.or_eq_true, ih, List.flatMap_cons, portLines_eq]
      cases p.signals <;> simp [ListLine.isEntry]

/-- The parts of the ports in the list of all ports. -/
theorem exists_portLists {ports : List Port}
    (h : ∀ s ∈ ports.flatMap (·.signals), IsPart (signalEntry s)) :
    ∃ lists : List (List String),
      lists.map List.length = ports.map (·.signals.length) ∧
      Separated ((ports.flatMap (·.signals)).map signalEntry) lists.flatten ∧
      punctuated (ports.flatMap portLines) =
        (ports.zip lists).flatMap fun (p, signals) =>
          s!"    // {p.name}: {p.descr}" :: signals := by
  induction ports with
  | nil => exact ⟨[], rfl, .none, rfl⟩
  | cons p ports ih =>
      rw [List.flatMap_cons, List.forall_mem_append] at h
      obtain ⟨lists, hsignals, hseparated, hlines⟩ := ih h.2
      have hremark (rest : List ListLine) : punctuated (portLines p ++ rest) =
          s!"    // {p.name}: {p.descr}" ::
            punctuated ((p.signals.map signalEntry).map .entry ++ rest) := by
        rw [portLines_eq]
        rfl
      by_cases hany : (ports.flatMap portLines).any ListLine.isEntry = true
      · have hne := (any_isEntry_flatMap_portLines ports).1 hany
        refine ⟨(p.signals.map signalEntry).map (· ++ ",") :: lists, ?_, ?_, ?_⟩
        · simp [hsignals]
        · rw [List.flatMap_cons, List.map_append, List.flatten_cons]
          exact hseparated.append_left (mt List.map_eq_nil_iff.1 hne) _
        · rw [List.flatMap_cons, hremark, punctuated_append_of_any hany, hlines]
          rfl
      · have hnone : ports.flatMap (·.signals) = [] :=
          not_not.1 (mt (any_isEntry_flatMap_portLines ports).2 hany)
        rw [hnone] at hseparated
        refine ⟨punctuated ((p.signals.map signalEntry).map .entry) :: lists, ?_, ?_, ?_⟩
        · simp [hsignals]
        · rw [List.flatMap_cons, hnone, List.append_nil, List.flatten_cons, hseparated.eq_nil,
            List.append_nil]
          exact separated_punctuated (List.forall_mem_map.2 h.1)
        · rw [List.flatMap_cons, hremark,
            punctuated_append_of_not_any ((Bool.not_eq_true _ ▸ hany)), hlines]
          rfl

/-- The lines of an instance are around its lists. -/
theorem instanceLines_eq (i : Instance) :
    instanceLines i = Lists.linesOf i (punctuated (bindingLines i.parameters))
      (punctuated (bindingLines i.connections)) := rfl

theorem oneLine_linesOf {i : Instance} {values connections : List String}
    (hi : IsPart i.core ∧ IsPart i.name ∧ IsPart i.descr) (hvalues : ∀ line ∈ values, OneLine line)
    (hconnections : ∀ line ∈ connections, OneLine line) :
    ∀ line ∈ Lists.linesOf i values connections, OneLine line := by
  obtain ⟨hcore, hname, hdescr⟩ := hi
  have hindent : IsPart "    " := by decide
  have hremark : IsPart "    // " := by decide
  have hspace : IsPart " " := by decide
  have hstart : IsPart " (" := by decide
  have hstartValues : IsPart " #(" := by decide
  have hendValues : IsPart "    ) " := by decide
  have hend : IsPart "    );" := by decide
  have hopening : ∀ line ∈ (if i.parameters.isEmpty then [s!"    {i.core} {i.name} ("]
      else [s!"    {i.core} #("] ++ values ++ [s!"    ) {i.name} ("]), OneLine line := by
    split
    · rw [List.forall_mem_singleton]
      exact ((((hindent.append hcore).append hspace).append hname).append hstart).oneLine
    · simp only [List.forall_mem_append, List.forall_mem_singleton]
      exact ⟨⟨((hindent.append hcore).append hstartValues).oneLine, hvalues⟩,
        ((hendValues.append hname).append hstart).oneLine⟩
  have hfirst : ∀ line ∈ ["", s!"    // {i.descr}"], OneLine line := by
    rw [List.forall_mem_cons, List.forall_mem_singleton]
    exact ⟨by decide, (hremark.append hdescr).oneLine⟩
  simp only [Lists.linesOf, List.forall_mem_append, List.forall_mem_singleton]
  exact ⟨⟨⟨hfirst, hopening⟩, hconnections⟩, hend.oneLine⟩

theorem oneLine_wireLine {w : Wire} (h : IsPart w.name ∧ IsPart w.width) :
    OneLine (wireLine w) := by
  have hindent : IsPart "    " := by decide
  have hspace : IsPart " " := by decide
  have hend : IsPart ";" := by decide
  have hkind : IsPart (if w.isVar then "reg" else "wire") := by split <;> decide
  exact (((((hindent.append hkind).append hspace).append (isPart_range h.2)).append h.1).append
    hend).oneLine

/-- The lists of a fragment of parts. -/
theorem exists_lists (hf : f.OfParts) :
    ∃ x : Lists, x.Of f ∧ punctuated (parameterLines f.parameters) = x.parameters ∧
      punctuated (f.ports.flatMap portLines) = x.portLines f ∧
      f.instances.flatMap instanceLines = x.instanceLines f := by
  have hsignals : ∀ s ∈ f.ports.flatMap (·.signals), IsPart (signalEntry s) := by
    intro s hs
    obtain ⟨p, hp, hsp⟩ := List.mem_flatMap.1 hs
    exact isPart_signalEntry (hf.signals p hp s hsp)
  have hbindings (bindings : List (String × String))
      (h : ∀ x ∈ bindings, IsPart x.1 ∧ IsPart x.2) :
      Separated (bindings.map bindingEntry) (punctuated (bindingLines bindings)) := by
    rw [bindingLines_eq]
    exact separated_punctuated (List.forall_mem_map.2 fun x hx => isPart_bindingEntry (h x hx))
  obtain ⟨ports, hcounts, hports, hportLines⟩ := exists_portLists hsignals
  refine ⟨⟨punctuated (parameterLines f.parameters), ports, f.instances.map fun i =>
    (punctuated (bindingLines i.parameters), punctuated (bindingLines i.connections))⟩,
    ⟨?_, hports, hcounts, ?_⟩, rfl, hportLines, ?_⟩
  · rw [parameterLines_eq]
    exact separated_punctuated
      (List.forall_mem_map.2 fun x hx => isPart_parameterEntry (hf.parameters x hx))
  · rw [List.forall₂_map_right_iff]
    refine List.forall₂_same.2 fun i hi => ?_
    exact ⟨hbindings _ (hf.values i hi), hbindings _ (hf.connections i hi)⟩
  · rw [Lists.instanceLines, ← List.map_prod_left_eq_zip, List.flatMap_map]
    exact List.flatMap_congr fun i _ => instanceLines_eq i

namespace Lists

variable {x : Lists}

theorem Of.oneLine_portLines (h : x.Of f) (hf : f.OfParts) :
    ∀ line ∈ x.portLines f, OneLine line := by
  have hindent : IsPart "    // " := by decide
  have hcolon : IsPart ": " := by decide
  have hsignals := h.ports.oneLine <| List.forall_mem_map.2 fun s hs => by
    obtain ⟨p, hp, hsp⟩ := List.mem_flatMap.1 hs
    exact isPart_signalEntry (hf.signals p hp s hsp)
  refine List.forall_mem_flatMap.2 fun y hy => ?_
  obtain ⟨hp, hlines⟩ := List.of_mem_zip hy
  obtain ⟨hname, hdescr⟩ := hf.ports y.1 hp
  rw [List.forall_mem_cons]
  refine ⟨(((hindent.append hname).append hcolon).append hdescr).oneLine, fun line hline => ?_⟩
  exact hsignals line (List.mem_flatten_of_mem hlines hline)

theorem Of.oneLine_instanceLines (h : x.Of f) (hf : f.OfParts) :
    ∀ line ∈ x.instanceLines f, OneLine line := by
  refine List.forall_mem_flatMap.2 fun y hy => ?_
  obtain ⟨hi, -⟩ := List.of_mem_zip hy
  obtain ⟨hvalues, hconnections⟩ := (List.forall₂_iff_zip.1 h.instances).2 hy
  exact oneLine_linesOf (hf.instances y.1 hi)
    (hvalues.oneLine
      (List.forall_mem_map.2 fun x hx => isPart_bindingEntry (hf.values y.1 hi x hx)))
    (hconnections.oneLine
      (List.forall_mem_map.2 fun x hx => isPart_bindingEntry (hf.connections y.1 hi x hx)))

theorem Of.flatMap_lines_headLines (h : x.Of f) (hf : f.OfParts) (name : String)
    (hparameters : punctuated (parameterLines f.parameters) = x.parameters) :
    (Verilog.headLines name f.parameters).flatMap Text.lines = x.headLines f name := by
  have hvalues := h.parameters.oneLine
    (List.forall_mem_map.2 fun x hx => isPart_parameterEntry (hf.parameters x hx))
  have hopening : [") ("].flatMap Text.lines = [") ("] := Text.flatMap_lines (by decide)
  unfold Verilog.headLines headLines
  split
  · simp
  · rw [List.flatMap_append, List.flatMap_append, hparameters, Text.flatMap_lines hvalues, hopening,
      List.flatMap_singleton]

end Lists

/-- The lines of a rendered fragment. Where its parts have no line feeds and no commas, all lists in
it have one line for each entry, in order, with a comma after every entry but the last one; the
ports are one list, however many of them have no signals. -/
theorem lines_render (hf : f.OfParts) (name : String) :
    ∃ x : Lists, x.Of f ∧ Text.lines (f.render name) = x.lines f name := by
  obtain ⟨x, hx, hparameters, hports, hinstances⟩ := exists_lists hf
  refine ⟨x, hx, ?_⟩
  have hwires : ∀ line ∈ f.wires.map wireLine, OneLine line :=
    List.forall_mem_map.2 fun w hw => oneLine_wireLine (hf.wires w hw)
  have hopening : ["`timescale 1ns / 1ps", ""].flatMap Text.lines = ["`timescale 1ns / 1ps", ""] :=
    Text.flatMap_lines (by decide)
  have hclosing : [");", ""].flatMap Text.lines = [");", ""] := Text.flatMap_lines (by decide)
  have hgap : [""].flatMap Text.lines = [""] := Text.flatMap_lines (by decide)
  have hlines : (f.lines name).flatMap Text.lines = ["`timescale 1ns / 1ps", ""]
      ++ x.headLines f name ++ x.portLines f ++ [");", ""] ++ f.wires.map wireLine
      ++ x.instanceLines f ++ [""] := by
    simp only [Fragment.lines, List.flatMap_append]
    rw [hopening, hx.flatMap_lines_headLines hf name hparameters, hports,
      Text.flatMap_lines (hx.oneLine_portLines hf), hclosing, Text.flatMap_lines hwires,
      hinstances, Text.flatMap_lines (hx.oneLine_instanceLines hf), hgap]
  have hend : Text.unlines ["", "endmodule"] = "\n" ++ "endmodule\n" := by decide
  have hlast : Text.lines "endmodule\n" = ["endmodule", ""] := by decide
  rw [Fragment.render, String.append_assoc, Text.lines_unlines_append, hlines, hend,
    ← String.append_assoc, Text.lines_append_newline, hlast, ← List.append_assoc]
  rfl

/-- A fragment without parameters, with ports without signals at both ends and in between, and with
an instance without values and connections. -/
def gappedFragment : Fragment :=
  { ports :=
      [⟨"first", "no signals", []⟩, ⟨"clock", "one signal", [.input "clk" "1"]⟩,
        ⟨"gap", "no signals", []⟩, ⟨"data", "two signals", [.input "d" "W", .output "q" "W"]⟩,
        ⟨"last", "no signals", []⟩]
    wires := [.net "en" "1"]
    instances :=
      [⟨"iob_reg", "state", "both lists", [("W", "8"), ("RST", "0")], [("d_i", "d"), ("q_o", "q")]⟩,
        ⟨"iob_stub", "stub", "no lists", [], []⟩]
    snippet := "    // d, q" }

/-- The lines of the fragment before its snippet. -/
def gappedLines : List String :=
  ["`timescale 1ns / 1ps", "", "module top (",
    "    // first: no signals",
    "    // clock: one signal", "    input clk_i,",
    "    // gap: no signals",
    "    // data: two signals", "    input [W-1:0] d_i,", "    output [W-1:0] q_o",
    "    // last: no signals",
    ");", "", "    wire en;",
    "", "    // both lists", "    iob_reg #(", "        .W(8),", "        .RST(0)", "    ) state (",
    "        .d_i(d),", "        .q_o(q)", "    );",
    "", "    // no lists", "    iob_stub stub (", "    );", ""]

/-- The last signal has no comma after it although ports without signals follow. -/
theorem lines_render_gappedFragment :
    gappedFragment.OfParts ∧
    Text.lines (gappedFragment.render "top") = gappedLines ++ ["    // d, q", "endmodule", ""] ∧
    ∃ x : Lists, x.Of gappedFragment ∧
      Text.lines (gappedFragment.render "top") = x.lines gappedFragment "top" := by
  have hparts : gappedFragment.OfParts :=
    ⟨by decide, by decide, by decide, by decide, by decide, by decide, by decide⟩
  have hlines : gappedFragment.lines "top" = gappedLines := by rfl
  have hrest : Text.lines (gappedFragment.snippet ++ Text.unlines ["", "endmodule"]) =
      ["    // d, q", "endmodule", ""] := by decide
  refine ⟨hparts, ?_, lines_render hparts "top"⟩
  rw [Fragment.render, String.append_assoc, Text.lines_unlines_append, hlines, hrest,
    Text.flatMap_lines (by decide +kernel)]

end RegisterBank.Verilog
