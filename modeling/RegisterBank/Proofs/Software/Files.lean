import RegisterBank.Proofs.Artifacts
import RegisterBank.Proofs.FileNames
import RegisterBank.Proofs.Hardware.Element
import RegisterBank.Proofs.Module.Registers
import RegisterBank.Proofs.Software.Library
import RegisterBank.Proofs.Text.Lines

/-!
# The files of the accessors

Where the names of a module and of its registers have no line feeds, the lines of the four files of
the accessors are read back from their texts. So the functions that a header declares are those that
its source defines (`generate_functions`).
-/

namespace RegisterBank.Software

open Header (Definition Line)
open Text (OneLine)

variable {b : Build} {found : List Accessor} {ls : List Line}

/-! ## Lines without line feeds -/

/-- The names that go into the files have no line feeds. -/
structure OneLineNames (b : Build) : Prop where
  top : OneLine b.top
  registers : ∀ p ∈ b.placements, OneLine p.register.name

theorem oneLine_define {d : Definition} (hname : OneLine d.name) (hvalue : OneLine d.value) :
    OneLine (Line.text Definition.softwareMacro (.define d)) := by
  have hword : OneLine "#define " := by decide
  have hblank : OneLine " " := by decide
  rw [Line.text, Definition.softwareMacro]
  split <;> simp [toString, hword, hblank, hname, hvalue]

theorem oneLine_prototype {h : Prototype} (hresult : OneLine h.result) (hname : OneLine h.name)
    (harguments : ∀ argument ∈ h.arguments, OneLine argument) : OneLine h.text := by
  have hblank : OneLine " " := by decide
  have hopen : OneLine "(" := by decide
  have hclose : OneLine ")" := by decide
  have hjoined : OneLine (String.intercalate ", " h.arguments) :=
    Text.oneLine_intercalate (by decide) harguments
  simp [Prototype.text, toString, hblank, hopen, hclose, hjoined, hresult, hname]

namespace OneLineNames

variable (hb : OneLineNames b) {p : Placement} (hp : p ∈ b.placements)

include hb

theorem stem : OneLine b.stem :=
  Text.oneLine_append.2 ⟨Text.oneLine_capitals hb.top, by decide⟩

include hp

theorem macroName : OneLine p.macroName :=
  Text.oneLine_capitals (hb.registers p hp)

theorem addressMacro : OneLine (addressMacro b p) := by
  have hending : OneLine "_ADDR" := by decide
  simp [Software.addressMacro, hb.stem, hb.macroName hp, hending]

theorem widthMacro : OneLine (widthMacro b p) := by
  have hending : OneLine "_W" := by decide
  simp [Software.widthMacro, hb.stem, hb.macroName hp, hending]

theorem addressText : OneLine (addressText (Software.addressMacro b p) p) := by
  have hopen : OneLine "(" := by decide
  have hindex : OneLine ") + (addr << " := by decide
  have hclose : OneLine ")" := by decide
  have hmacro := hb.addressMacro hp
  unfold Software.addressText
  split
  · simp only [Text.oneLine_append]
    exact ⟨⟨⟨⟨hopen, hmacro⟩, hindex⟩, Text.oneLine_toString _⟩, hclose⟩
  · simp only [Text.oneLine_append]
    exact ⟨⟨hopen, hmacro⟩, hclose⟩

end OneLineNames

section

variable (hb : OneLineNames b)

include hb

theorem oneLine_macroLines :
    ∀ line ∈ (macroLines b).map (Line.text Definition.softwareMacro), OneLine line := by
  have hspace : OneLine (b.stem ++ "CSRS_ADDR_W") :=
    Text.oneLine_append.2 ⟨hb.stem, by decide⟩
  have haddresses : ∀ d ∈ addressDefinitions b,
      OneLine (Line.text Definition.softwareMacro (.define d)) := by
    rw [addressDefinitions, List.forall_mem_map]
    exact fun p hp => oneLine_define (hb.addressMacro hp) (Text.oneLine_toString _)
  have hwidths : ∀ d ∈ widthDefinitions b,
      OneLine (Line.text Definition.softwareMacro (.define d)) := by
    rw [widthDefinitions, List.forall_mem_map]
    exact fun p hp => oneLine_define (hb.widthMacro hp) (Text.oneLine_toString _)
  simp only [List.forall_mem_map, macroLines, List.forall_mem_append, List.forall_mem_cons]
  exact ⟨⟨⟨⟨⟨by decide, oneLine_define hspace (Text.oneLine_toString _), by decide, by decide,
    List.forall_mem_nil _⟩, haddresses⟩, by decide, by decide, List.forall_mem_nil _⟩, hwidths⟩,
    by decide, List.forall_mem_nil _⟩

theorem oneLine_guarded {ending : String} (hending : OneLine ending)
    (hlines : ∀ line ∈ ls.map (Line.text Definition.softwareMacro), OneLine line) :
    ∀ line ∈ (guarded (guardName b ending) ls).map (Line.text Definition.softwareMacro),
      OneLine line := by
  have hname : OneLine (guardName b ending) := by
    have hguard : OneLine "H_" := by decide
    simp [guardName, hguard, hb.stem, hending]
  simp only [List.forall_mem_map] at hlines ⊢
  simp only [guarded, List.forall_mem_append, List.forall_mem_cons, Line.text, toString,
    Text.oneLine_append]
  exact ⟨⟨⟨⟨by decide, hname⟩, oneLine_define hname (show OneLine "" by decide), by decide,
    List.forall_mem_nil _⟩,
    hlines⟩, by decide, ⟨by decide, hname⟩, List.forall_mem_nil _⟩

end

namespace Accessor

variable {a : Accessor} {extra : List String} (hb : OneLineNames b)
  (ha : a.placement ∈ b.placements) (hextra : ∀ argument ∈ extra, OneLine argument)

theorem oneLine_name (type : WordType) : OneLine type.name := by
  cases type <;> decide

theorem oneLine_of_mem_indexArguments {p : Placement} :
    ∀ argument ∈ indexArguments p, OneLine argument := by
  unfold indexArguments
  split <;> decide

include hb ha hextra

theorem oneLine_setter : OneLine (a.setter b extra).text := by
  refine oneLine_prototype (show OneLine "void" by decide) ?_ ?_
  · exact Text.oneLine_append.2
      ⟨Text.oneLine_append.2 ⟨hb.stem, by decide⟩, hb.macroName ha⟩
  · have hvalue : OneLine s!"{a.type.name} value" :=
      Text.oneLine_append.2 ⟨oneLine_name a.type, by decide⟩
    simp only [setter, List.cons_append, List.forall_mem_cons, List.forall_mem_append]
    exact ⟨hvalue, oneLine_of_mem_indexArguments, hextra⟩

theorem oneLine_getter : OneLine (a.getter b extra).text := by
  refine oneLine_prototype (oneLine_name a.type) ?_ ?_
  · exact Text.oneLine_append.2
      ⟨Text.oneLine_append.2 ⟨hb.stem, by decide⟩, hb.macroName ha⟩
  · simp only [getter, List.forall_mem_append]
    exact ⟨oneLine_of_mem_indexArguments, hextra⟩

theorem oneLine_prototypes : ∀ h ∈ a.prototypes b extra, OneLine h.text :=
  forall_mem_of_access (oneLine_setter hb ha hextra) (oneLine_getter hb ha hextra)

/-- Both functions of a register are written on lines of their own where their statements are. -/
theorem oneLine_functionLines {set get : String} (hset : OneLine set) (hget : OneLine get) :
    ∀ f ∈ (if a.placement.register.access.writes then [⟨a.setter b extra, set⟩] else [])
        ++ (if a.placement.register.access.reads then [⟨a.getter b extra, get⟩] else [] :
          List Function),
      ∀ line ∈ f.lines, OneLine line := by
  have hlines : ∀ {h : Prototype} {s : String}, OneLine h.text → OneLine s →
      ∀ line ∈ (Function.mk h s).lines, OneLine line := by
    intro h s hhead hs
    simp only [Function.lines, List.forall_mem_cons, Text.oneLine_append]
    exact ⟨⟨hhead, by decide⟩, ⟨by decide, hs⟩, by decide, by decide, List.forall_mem_nil _⟩
  exact forall_mem_of_access (hlines (oneLine_setter hb ha hextra) hset)
    (hlines (oneLine_getter hb ha hextra) hget)

omit hextra

theorem oneLine_embeddedFunctions :
    ∀ f ∈ a.embeddedFunctions b, ∀ line ∈ f.lines, OneLine line := by
  have htype := oneLine_name a.type
  have haddress := hb.addressText ha
  refine oneLine_functionLines hb ha (List.forall_mem_nil _) ?_ ?_
  · simp only [Text.oneLine_append, toString]
    exact ⟨⟨⟨⟨by decide, htype⟩, by decide⟩, haddress⟩, by decide⟩
  · simp only [Text.oneLine_append, toString]
    exact ⟨⟨⟨⟨by decide, htype⟩, by decide⟩, haddress⟩, by decide⟩

theorem oneLine_simulationFunctions :
    ∀ f ∈ a.simulationFunctions b, ∀ line ∈ f.lines, OneLine line := by
  have htype := oneLine_name a.type
  have haddress := hb.addressText ha
  refine oneLine_functionLines hb ha (by decide) ?_ ?_
  · simp only [Text.oneLine_append, toString]
    exact ⟨⟨⟨⟨by decide, haddress⟩, by decide⟩, hb.widthMacro ha⟩, by decide⟩
  · simp only [Text.oneLine_append, toString]
    exact ⟨⟨⟨⟨by decide, htype⟩, by decide⟩, haddress⟩, by decide⟩

end Accessor

section

variable (hb : OneLineNames b) (hfound : ∀ a ∈ found, a.placement ∈ b.placements)

include hb hfound

theorem oneLine_declarationLines {extra : List String}
    (hextra : ∀ argument ∈ extra, OneLine argument) :
    ∀ line ∈ (declarationLines b extra found).map (Line.text Definition.softwareMacro),
      OneLine line := by
  simp only [declarationLines, List.map_map, List.forall_mem_map, List.forall_mem_flatMap]
  intro a ha h hh
  exact Text.oneLine_append.2
    ⟨Accessor.oneLine_prototypes hb (hfound a ha) hextra h hh, by decide⟩

theorem oneLine_embeddedLibrary :
    (∀ line ∈ (embeddedLibrary b found).header, OneLine line) ∧
      ∀ line ∈ (embeddedLibrary b found).source, OneLine line := by
  have hinit : OneLine (initialization b) := by
    simp only [initialization, toString, Text.oneLine_append]
    exact ⟨⟨by decide, hb.stem⟩, by decide⟩
  constructor
  · refine oneLine_guarded hb (by decide) ?_
    simp only [List.map_append, List.map_cons, List.map_nil, List.forall_mem_append,
      List.forall_mem_cons, Line.text, toString, Text.oneLine_append]
    exact ⟨⟨⟨⟨by decide, by decide, List.forall_mem_nil _⟩, oneLine_macroLines hb⟩, by decide,
      ⟨⟨by decide, hb.stem⟩, by decide⟩, by decide, by decide, List.forall_mem_nil _⟩,
      oneLine_declarationLines hb hfound (List.forall_mem_nil _)⟩
  · have hfunctions : ∀ line ∈ (found.flatMap (·.embeddedFunctions b)).flatMap Function.lines,
        OneLine line := by
      simp only [List.forall_mem_flatMap]
      exact fun a ha => Accessor.oneLine_embeddedFunctions hb (hfound a ha)
    simp only [embeddedLibrary, List.forall_mem_append, List.forall_mem_cons, toString,
      Text.oneLine_append]
    exact ⟨⟨⟨⟨by decide, hb.top⟩, by decide⟩, by decide, by decide, ⟨hinit, by decide⟩, by decide,
      by decide, by decide, List.forall_mem_nil _⟩, hfunctions⟩

theorem oneLine_simulationLibrary :
    (∀ line ∈ (simulationLibrary b found).header, OneLine line) ∧
      ∀ line ∈ (simulationLibrary b found).source, OneLine line := by
  constructor
  · refine oneLine_guarded hb (by decide) ?_
    simp only [List.map_append, List.map_cons, List.map_nil, List.forall_mem_append,
      List.forall_mem_cons, Line.text]
    exact ⟨⟨⟨⟨by decide, by decide, by decide, by decide, List.forall_mem_nil _⟩,
      oneLine_macroLines hb⟩, by decide, List.forall_mem_nil _⟩,
      oneLine_declarationLines hb hfound (by decide)⟩
  · have hfunctions : ∀ line ∈ (found.flatMap (·.simulationFunctions b)).flatMap Function.lines,
        OneLine line := by
      simp only [List.forall_mem_flatMap]
      exact fun a ha => Accessor.oneLine_simulationFunctions hb (hfound a ha)
    simp only [simulationLibrary, List.forall_mem_append, List.forall_mem_cons, toString,
      Text.oneLine_append]
    exact ⟨⟨⟨⟨by decide, hb.top⟩, by decide⟩, by decide, List.forall_mem_nil _⟩, hfunctions⟩

end

end RegisterBank.Software

namespace RegisterBank.Artifacts

open Hardware (mixedModule)
open Software (Function Provides declarations definitions embeddedLibrary initialization
  simulationLibrary)
open Text (IsIdentifier OneLine)

variable {m : Module} {a : Artifacts}

theorem Parts.oneLineNames (x : Parts m a) (htop : OneLine m.name)
    (hnames : ∀ r ∈ Group.flatten m.groups, OneLine r.name) :
    Software.OneLineNames x.build where
  top := by rwa [Build.top, x.design_eq]
  registers := Build.forall_mem_placements hnames (by decide)
    (fun _ => show OneLine versionName by decide) (fun _ _ h => h) x.ofModule

theorem Parts.placement_mem (x : Parts m a) :
    ∀ accessor ∈ x.accessors, accessor.placement ∈ x.build.placements := by
  intro accessor haccessor
  rw [← Software.map_placement_of_accessors_eq_ok x.accessors_eq]
  exact List.mem_map_of_mem haccessor

/-- The files of the accessors are those of the two libraries. -/
theorem Parts.library_mem (x : Parts m a) :
    ⟨m.name ++ "_csrs.h", Text.unlines (embeddedLibrary x.build x.accessors).header⟩ ∈ a.files ∧
      ⟨m.name ++ "_csrs_emb.c", Text.unlines (embeddedLibrary x.build x.accessors).source⟩ ∈
        a.files ∧
      ⟨m.name ++ "_csrs_verilator.h",
        Text.unlines (simulationLibrary x.build x.accessors).header⟩ ∈ a.files ∧
      ⟨m.name ++ "_csrs_emb_verilator.c",
        Text.unlines (simulationLibrary x.build x.accessors).source⟩ ∈ a.files := by
  have htop : m.name = x.build.top := by rw [Build.top, x.design_eq]
  rw [htop, ← Software.embeddedHeader_eq, ← Software.embeddedSource_eq,
    ← Software.simulationHeader_eq, ← Software.simulationSource_eq, x.files_eq]
  simp

/-- The functions of the registers are declared and defined in the same order, for a processor and
for simulation, and correspond one by one. A register that can be written has one setter and one
that can be read has one getter, each of which works at the address of the register. Where names
have no line feeds, the lines are read back from the files; where the names of registers are
identifiers, all functions have different names. -/
theorem generate_functions (h : generate m = .ok a) :
    ∃ x : Parts m a, ∃ embedded simulated : Software.Library,
      embedded = embeddedLibrary x.build x.accessors ∧
      simulated = simulationLibrary x.build x.accessors ∧
      ⟨m.name ++ "_csrs.h", Text.unlines embedded.header⟩ ∈ a.files ∧
      ⟨m.name ++ "_csrs_emb.c", Text.unlines embedded.source⟩ ∈ a.files ∧
      ⟨m.name ++ "_csrs_verilator.h", Text.unlines simulated.header⟩ ∈ a.files ∧
      ⟨m.name ++ "_csrs_emb_verilator.c", Text.unlines simulated.source⟩ ∈ a.files ∧
      embedded.Complete x.build [(initialization x.build, "  base = addr;")] ∧
      simulated.Complete x.build [] ∧
      List.Forall₂ Function.Corresponds embedded.functions simulated.functions ∧
      (OneLine m.name → (∀ r ∈ Group.flatten m.groups, OneLine r.name) →
        ∀ lines ∈ [embedded.header, embedded.source, simulated.header, simulated.source],
          Text.lines (Text.unlines lines) = lines ++ [""]) ∧
      ((∀ r ∈ Group.flatten m.groups, IsIdentifier r.name) →
        (embedded.functions.map (·.head.name)).Nodup) := by
  obtain ⟨x⟩ := nonempty_parts h
  obtain ⟨hheader, hsource, hsimHeader, hsimSource⟩ := x.library_mem
  have hembedded := Software.complete_embeddedLibrary x.accessors_eq
  refine ⟨x, _, _, rfl, rfl, hheader, hsource, hsimHeader, hsimSource, hembedded,
    Software.complete_simulationLibrary x.accessors_eq,
    Software.forall₂_corresponds_flatMap x.accessors, ?_, ?_⟩
  · intro htop hnames
    have hlines := x.oneLineNames htop hnames
    obtain ⟨hh, hs⟩ := Software.oneLine_embeddedLibrary hlines x.placement_mem
    obtain ⟨hh', hs'⟩ := Software.oneLine_simulationLibrary hlines x.placement_mem
    simp only [List.forall_mem_cons]
    exact ⟨Text.lines_unlines hh, Text.lines_unlines hs, Text.lines_unlines hh',
      Text.lines_unlines hs', List.forall_mem_nil _⟩
  · intro hnames
    exact hembedded.provided.nodup_names (x.checked.pairwise_macroName_ne
      (Build.isIdentifier_of_ofModule_eq_ok hnames x.ofModule))

/-- The array has an index; the register of 24 bits is moved as a word of 32 bits. -/
theorem generate_functions_mixedModule :
    ∃ a, generate mixedModule = .ok a ∧ ∃ x : Parts mixedModule a,
      declarations (embeddedLibrary x.build x.accessors).header =
        ["void MIXED_INIT_BASEADDR(uint32_t addr)",
          "void MIXED_SET_TAPS(uint32_t value, int addr)", "uint32_t MIXED_GET_TAPS(int addr)",
          "uint64_t MIXED_GET_STAMP()", "uint8_t MIXED_GET_TRACE(int addr)",
          "void MIXED_SET_START(uint8_t value)", "uint16_t MIXED_GET_VERSION()"] ∧
      (definitions (embeddedLibrary x.build x.accessors).source).map Prod.fst =
        declarations (embeddedLibrary x.build x.accessors).header ∧
      (definitions (simulationLibrary x.build x.accessors).source).map Prod.fst =
        declarations (simulationLibrary x.build x.accessors).header ∧
      ((embeddedLibrary x.build x.accessors).functions.map (·.head.name)).Nodup := by
  obtain ⟨a, b, accessors, ha, hb, haccessors, hdeclared⟩ :
      ∃ a b accessors, generate mixedModule = .ok a ∧ Build.ofModule mixedModule = .ok b ∧
        Software.accessors b.placements = .ok accessors ∧
        declarations (embeddedLibrary b accessors).header =
          ["void MIXED_INIT_BASEADDR(uint32_t addr)",
            "void MIXED_SET_TAPS(uint32_t value, int addr)", "uint32_t MIXED_GET_TAPS(int addr)",
            "uint64_t MIXED_GET_STAMP()", "uint8_t MIXED_GET_TRACE(int addr)",
            "void MIXED_SET_START(uint8_t value)", "uint16_t MIXED_GET_VERSION()"] :=
    ⟨_, _, _, rfl, rfl, rfl, by decide⟩
  obtain ⟨x, _, _, rfl, rfl, -, -, -, -, hembedded, hsimulated, -, -, hnodup⟩ :=
    generate_functions ha
  obtain rfl : b = x.build := Except.ok.inj (hb.symm.trans x.ofModule)
  obtain rfl : accessors = x.accessors := Except.ok.inj (haccessors.symm.trans x.accessors_eq)
  exact ⟨a, ha, x, hdeclared, hembedded.declared.symm, hsimulated.declared.symm,
    hnodup (by decide)⟩

end RegisterBank.Artifacts
