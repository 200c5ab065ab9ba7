import RegisterBank.Proofs.Software.Functions
import RegisterBank.Proofs.Text.Family

/-!
# Declared and defined functions

A line of a header that ends with a semicolon declares a function, and a line of a source that ends
with an opening brace begins the definition of one. No other line of the files ends so: the header
for a processor and its source have the same functions in the same order, and so have those for
simulation.
-/

namespace RegisterBank.Software

open Header (Definition Line)
open Text (before?)

variable {b : Build} {found : List Accessor} {lines rest : List String} {line body e s t : String}
  {c : Char} {n : Nat} {f : Function} {ls : List Line}

/-! ## Reading the lines -/

/-- The heads of the functions that the lines declare. -/
def declarations (lines : List String) : List String :=
  lines.filterMap (before? ";")

/-- The functions that the lines define, each with the line after its head. -/
def definitions : List String → List (String × String)
  | opening :: body :: rest =>
    match before? " \x7b" opening with
    | some head => (head, body) :: definitions (body :: rest)
    | none => definitions (body :: rest)
  | _ => []

/-- A text does not have an ending if its own ending lacks the last character. -/
theorem before?_append_eq_none (s : String) (hlast : e.toList.getLast? = some c)
    (hne : t.toList ≠ []) (hc : c ∉ t.toList) : before? e (s ++ t) = none := by
  rw [Option.eq_none_iff_forall_ne_some]
  intro head hhead
  have htext := congrArg (·.toList.getLast?) (Text.before?_eq_some_iff.1 hhead)
  simp only [String.toList_append, List.getLast?_append, hlast, Option.some_or,
    List.getLast?_eq_some_getLast hne, Option.some.injEq] at htext
  exact hc (htext ▸ List.getLast_mem hne)

@[simp] theorem declarations_append (ls ms : List String) :
    declarations (ls ++ ms) = declarations ls ++ declarations ms :=
  List.filterMap_append

theorem declarations_cons_of_none (h : before? ";" line = none) :
    declarations (line :: rest) = declarations rest :=
  List.filterMap_cons_none h

theorem declarations_cons_semicolon (head : String) (rest : List String) :
    declarations ((head ++ ";") :: rest) = head :: declarations rest :=
  List.filterMap_cons_some (Text.before?_eq_some_iff.2 rfl)

theorem declarations_map_semicolon (heads : List String) :
    declarations (heads.map (· ++ ";")) = heads := by
  induction heads with
  | nil => rfl
  | cons head heads ih => rw [List.map_cons, declarations_cons_semicolon, ih]

theorem definitions_cons_of_none (h : before? " \x7b" line = none) :
    definitions (line :: rest) = definitions rest := by
  cases rest with
  | nil => rfl
  | cons body rest => rw [definitions, h]

theorem definitions_cons_brace (head body : String) (rest : List String) :
    definitions ((head ++ " \x7b") :: body :: rest) =
      (head, body) :: definitions (body :: rest) := by
  rw [definitions, Text.before?_eq_some_iff.2 rfl]

theorem definitions_functionLines (h : ∃ z, f.statement = z ++ ");") (rest : List String) :
    definitions (f.lines ++ rest) = (f.head.text, "  " ++ f.statement) :: definitions rest := by
  obtain ⟨z, hz⟩ := h
  have hbody : before? " \x7b" ("  " ++ f.statement) = none := by
    rw [hz, ← String.append_assoc]
    exact before?_append_eq_none (c := '\x7b') _ (by decide) (by decide) (by decide)
  rw [Function.lines, List.cons_append, List.cons_append, List.cons_append, List.cons_append,
    List.nil_append, definitions_cons_brace, definitions_cons_of_none hbody,
    definitions_cons_of_none (by decide), definitions_cons_of_none (by decide)]

/-- A list of functions is read back. -/
theorem definitions_flatMap_lines {functions : List Function}
    (h : ∀ f ∈ functions, ∃ z, f.statement = z ++ ");") :
    definitions (functions.flatMap Function.lines) =
      functions.map fun f => (f.head.text, "  " ++ f.statement) := by
  induction functions with
  | nil => rfl
  | cons f functions ih =>
      rw [List.forall_mem_cons] at h
      rw [List.flatMap_cons, definitions_functionLines h.1, ih h.2, List.map_cons]

/-! ## The files of the accessors -/

/-- A header and a source, and the functions of the registers in them. -/
structure Library where
  header : List String
  source : List String
  functions : List Function

/-- The head of the function that sets the base address of the registers. -/
def initialization (b : Build) : String :=
  s!"void {b.stem}INIT_BASEADDR(uint32_t addr)"

/-- The functions for a processor. -/
def embeddedLibrary (b : Build) (accessors : List Accessor) : Library where
  header := (embeddedLines b accessors).map (Line.text Definition.softwareMacro)
  source :=
    [s!"#include \"{b.top}_csrs.h\"", "", "static uint32_t base;", initialization b ++ " \x7b",
      "  base = addr;", "\x7d", ""]
    ++ (accessors.flatMap (·.embeddedFunctions b)).flatMap Function.lines
  functions := accessors.flatMap (·.embeddedFunctions b)

/-- The functions for simulation. -/
def simulationLibrary (b : Build) (accessors : List Accessor) : Library where
  header := (simulationLines b accessors).map (Line.text Definition.softwareMacro)
  source :=
    [s!"#include \"{b.top}_csrs_verilator.h\"", ""]
    ++ (accessors.flatMap (·.simulationFunctions b)).flatMap Function.lines
  functions := accessors.flatMap (·.simulationFunctions b)

theorem embeddedHeader_eq :
    embeddedHeader b found =
      ⟨b.top ++ "_csrs.h", Text.unlines (embeddedLibrary b found).header⟩ := rfl

theorem embeddedSource_eq :
    embeddedSource b found =
      ⟨b.top ++ "_csrs_emb.c", Text.unlines (embeddedLibrary b found).source⟩ := by
  simp [embeddedSource, embeddedLibrary, initialization, TextFile.ofLines, toString,
    String.append_assoc]

theorem simulationHeader_eq :
    simulationHeader b found =
      ⟨b.top ++ "_csrs_verilator.h", Text.unlines (simulationLibrary b found).header⟩ := rfl

theorem simulationSource_eq :
    simulationSource b found =
      ⟨b.top ++ "_csrs_emb_verilator.c", Text.unlines (simulationLibrary b found).source⟩ := rfl

/-! ### What the headers declare -/

/-- A macro that stands for a number declares no function. -/
theorem before?_softwareMacro (name : String) (n : Nat) :
    before? ";" (Definition.softwareMacro ⟨name, toString n⟩) = none := by
  have hdigits : (toString n).toList = Nat.toDigits 10 n := Nat.toList_repr
  have hne : (toString n).toList ≠ [] := hdigits ▸ Nat.toDigits_ne_nil
  have hvalue : toString n ≠ "" := fun h => hne (by rw [h]; decide)
  have hsemicolon : ';' ∉ (toString n).toList := by
    rw [hdigits]
    exact fun h => absurd (Nat.isDigit_of_mem_toDigits (by decide) le_rfl h) (by decide)
  rw [Definition.softwareMacro, if_neg hvalue]
  exact before?_append_eq_none (c := ';') _ (by decide) hne hsemicolon

theorem declarations_defines {ds : List Definition}
    (h : ∀ d ∈ ds, ∃ n : Nat, d.value = toString n) :
    declarations (ds.map fun d => Definition.softwareMacro d) = [] := by
  rw [declarations, List.filterMap_eq_nil_iff, List.forall_mem_map]
  intro d hd
  obtain ⟨n, hn⟩ := h d hd
  rw [← before?_softwareMacro d.name n, ← hn]

theorem declarations_macroLines :
    declarations ((macroLines b).map (Line.text Definition.softwareMacro)) = [] := by
  have haddresses : declarations ((addressDefinitions b).map Definition.softwareMacro) = [] :=
    declarations_defines (by simp [addressDefinitions])
  have hwidths : declarations ((widthDefinitions b).map Definition.softwareMacro) = [] :=
    declarations_defines (by simp [widthDefinitions])
  have hspace : before? ";" (Definition.softwareMacro (Header.spaceDefinition b)) = none :=
    before?_softwareMacro _ _
  simp only [macroLines, List.map_append, List.map_map, Function.comp_def, Line.text, List.map_cons,
    List.map_nil, declarations_append, haddresses, hwidths, List.append_nil]
  rw [declarations_cons_of_none (by decide), declarations_cons_of_none hspace]
  decide

/-- The guard around the lines of a header declares nothing. -/
theorem declarations_guarded (ending : String) (hne : ending.toList ≠ [])
    (hending : ';' ∉ ending.toList) (lines : List Line) :
    declarations ((guarded (guardName b ending) lines).map (Line.text Definition.softwareMacro)) =
      declarations (lines.map (Line.text Definition.softwareMacro)) := by
  have hname : ∀ s, before? ";" (s ++ guardName b ending) = none := by
    intro s
    rw [guardName, ← String.append_assoc]
    exact before?_append_eq_none (c := ';') _ (by decide) hne hending
  have hguard : before? ";" (Definition.softwareMacro ⟨guardName b ending, ""⟩) = none :=
    hname "#define "
  simp only [guarded, List.map_append, List.map_cons, List.map_nil, Line.text, toString,
    declarations_append]
  rw [declarations_cons_of_none (hname "#ifndef "), declarations_cons_of_none hguard,
    declarations_cons_of_none (by decide), declarations_cons_of_none (by decide),
    declarations_cons_of_none (hname "#endif // ")]
  simp [declarations]

theorem declarations_declarationLines (extra : List String) (accessors : List Accessor) :
    declarations ((declarationLines b extra accessors).map (Line.text Definition.softwareMacro)) =
      (accessors.flatMap (·.prototypes b extra)).map (·.text) := by
  rw [← declarations_map_semicolon ((accessors.flatMap (·.prototypes b extra)).map (·.text))]
  simp [declarationLines, Line.text, Function.comp_def]

theorem map_text_flatMap {functions : Accessor → List Function} {extra : List String}
    (h : ∀ a, (functions a).map (·.head) = a.prototypes b extra) :
    (found.flatMap functions).map (·.head.text) =
      (found.flatMap (·.prototypes b extra)).map (·.text) := by
  rw [List.map_flatMap, List.map_flatMap]
  refine List.flatMap_congr fun a _ => ?_
  rw [← h a, List.map_map]
  rfl

/-- The header for a processor declares the function for the base address and those of the
registers. -/
theorem declarations_embeddedLibrary :
    declarations (embeddedLibrary b found).header =
      initialization b :: (embeddedLibrary b found).functions.map (·.head.text) := by
  have hinit : s!"void {b.stem}INIT_BASEADDR(uint32_t addr);" = initialization b ++ ";" := by
    simp [initialization, toString, String.append_assoc]
  have hplain : declarations
      ["// Base address", initialization b ++ ";", "", "// Setters and getters"] =
        [initialization b] := by
    rw [declarations_cons_of_none (by decide), declarations_cons_semicolon,
      declarations_cons_of_none (by decide), declarations_cons_of_none (by decide)]
    rfl
  rw [embeddedLibrary, embeddedLines, declarations_guarded _ (by decide) (by decide), hinit]
  simp only [List.map_append, List.map_cons, List.map_nil, Line.text, declarations_append,
    declarations_macroLines, declarations_declarationLines, hplain,
    map_text_flatMap fun a => a.map_head_embeddedFunctions]
  rw [declarations_cons_of_none (by decide), declarations_cons_of_none (by decide)]
  rfl

/-- The header for simulation declares the functions of the registers. -/
theorem declarations_simulationLibrary :
    declarations (simulationLibrary b found).header =
      (simulationLibrary b found).functions.map (·.head.text) := by
  rw [simulationLibrary, simulationLines, declarations_guarded _ (by decide) (by decide)]
  simp only [List.map_append, List.map_cons, List.map_nil, Line.text, declarations_append,
    declarations_macroLines, declarations_declarationLines,
    map_text_flatMap fun a => a.map_head_simulationFunctions]
  rw [declarations_cons_of_none (by decide), declarations_cons_of_none (by decide),
    declarations_cons_of_none (by decide), declarations_cons_of_none (by decide),
    declarations_cons_of_none (by decide)]
  rfl

/-! ### What the sources define -/

theorem exists_append_of_ending {d e : String} (h : e = d ++ ");") (s : String) :
    ∃ z, s ++ e = z ++ ");" :=
  ⟨s ++ d, by rw [h, String.append_assoc]⟩

theorem exists_statement_embedded (a : Accessor) :
    ∀ f ∈ a.embeddedFunctions b, ∃ z, f.statement = z ++ ");" :=
  forall_mem_of_access (exists_append_of_ending (d := ")) = (value)") (by decide) _)
    (exists_append_of_ending (d := "))") (by decide) _)

theorem exists_statement_simulation (a : Accessor) :
    ∀ f ∈ a.simulationFunctions b, ∃ z, f.statement = z ++ ");" :=
  forall_mem_of_access (exists_append_of_ending (d := ", native_if") (by decide) _)
    (exists_append_of_ending (d := ", native_if") (by decide) _)

/-- The line that includes a header begins no function. -/
theorem before?_inclusion (s t : String) (hne : t.toList ≠ []) (ht : '\x7b' ∉ t.toList) :
    before? " \x7b" ("#include \"" ++ s ++ t) = none :=
  before?_append_eq_none (c := '\x7b') _ (by decide) hne ht

theorem definitions_embeddedLibrary :
    definitions (embeddedLibrary b found).source =
      (initialization b, "  base = addr;") ::
        (embeddedLibrary b found).functions.map fun f => (f.head.text, "  " ++ f.statement) := by
  have hfunctions : ∀ f ∈ found.flatMap (·.embeddedFunctions b), ∃ z, f.statement = z ++ ");" :=
    List.forall_mem_flatMap.2 fun a _ => exists_statement_embedded a
  simp only [embeddedLibrary, List.cons_append, List.nil_append, toString]
  rw [definitions_cons_of_none (before?_inclusion _ _ (by decide) (by decide)),
    definitions_cons_of_none (by decide), definitions_cons_of_none (by decide),
    definitions_cons_brace, definitions_cons_of_none (by decide),
    definitions_cons_of_none (by decide), definitions_cons_of_none (by decide),
    definitions_flatMap_lines hfunctions]

theorem definitions_simulationLibrary :
    definitions (simulationLibrary b found).source =
      (simulationLibrary b found).functions.map fun f => (f.head.text, "  " ++ f.statement) := by
  have hfunctions : ∀ f ∈ found.flatMap (·.simulationFunctions b), ∃ z, f.statement = z ++ ");" :=
    List.forall_mem_flatMap.2 fun a _ => exists_statement_simulation a
  simp only [simulationLibrary, List.cons_append, List.nil_append, toString]
  rw [definitions_cons_of_none (before?_inclusion _ _ (by decide) (by decide)),
    definitions_cons_of_none (by decide), definitions_flatMap_lines hfunctions]

/-! ### Complete libraries -/

/-- The header declares what the source defines: after the functions of the module itself, the
functions of its registers. The header has a macro for the address of each register. -/
structure Library.Complete (b : Build) (first : List (String × String)) (l : Library) : Prop where
  declared : declarations l.header = (definitions l.source).map Prod.fst
  defined : definitions l.source =
    first ++ l.functions.map fun f => (f.head.text, "  " ++ f.statement)
  provided : Provides b l.functions
  addresses : ∀ p ∈ b.placements,
    Definition.softwareMacro ⟨addressMacro b p, toString p.address⟩ ∈ l.header

theorem softwareMacro_mem_macroLines {p : Placement} (hp : p ∈ b.placements) :
    Definition.softwareMacro ⟨addressMacro b p, toString p.address⟩ ∈
      (macroLines b).map (Line.text Definition.softwareMacro) := by
  have hline : Line.define ⟨addressMacro b p, toString p.address⟩ ∈ macroLines b := by
    have haddress : Line.define ⟨addressMacro b p, toString p.address⟩ ∈
        (addressDefinitions b).map Line.define :=
      List.mem_map_of_mem (List.mem_map_of_mem hp)
    simp only [macroLines, List.mem_append]
    exact .inl (.inl (.inl (.inr haddress)))
  exact List.mem_map_of_mem hline

theorem complete_embeddedLibrary (h : accessors b.placements = .ok found) :
    (embeddedLibrary b found).Complete b [(initialization b, "  base = addr;")] where
  declared := by
    rw [declarations_embeddedLibrary, definitions_embeddedLibrary, List.map_cons, List.map_map]
    rfl
  defined := definitions_embeddedLibrary
  provided := provides_flatMap (fun _ => Accessor.serves_embeddedFunctions) h
  addresses := by
    intro p hp
    have hmacro := softwareMacro_mem_macroLines hp
    simp only [embeddedLibrary, embeddedLines, guarded, List.map_append, List.mem_append]
    exact .inl (.inr (.inl (.inl (.inr hmacro))))

theorem complete_simulationLibrary (h : accessors b.placements = .ok found) :
    (simulationLibrary b found).Complete b [] where
  declared := by
    rw [declarations_simulationLibrary, definitions_simulationLibrary, List.map_map]
    rfl
  defined := definitions_simulationLibrary
  provided := provides_flatMap (fun _ => Accessor.serves_simulationFunctions) h
  addresses := by
    intro p hp
    have hmacro := softwareMacro_mem_macroLines hp
    simp only [simulationLibrary, simulationLines, guarded, List.map_append, List.mem_append]
    exact .inl (.inr (.inl (.inl (.inr hmacro))))

end RegisterBank.Software
