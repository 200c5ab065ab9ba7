import RegisterBank.Proofs.Header.Dialect
import RegisterBank.Proofs.Header.Lines
import RegisterBank.Proofs.Module.Identifiers
import RegisterBank.Proofs.Register.Stated
import RegisterBank.Proofs.Software.Files

/-!
# What the header files define

Where a module, its parameters and its registers are named by identifiers, the definitions of its
five headers are read back from the files (`Artifacts.Parts.definitionsIn_embedded` and the lemmas
after it). The C headers, the local parameters and the default values have numbers as values; the
macros for use inside an instance have expressions.
-/

namespace RegisterBank

open Header (Definition Dialect Line definitions)
open Text (IsIdentifier OneLine)

variable {b : Build} {p : Placement} {d : Definition} {lines : List Line}

theorem Text.oneLine_toString_int (v : Int) : OneLine (toString v) :=
  fun hfeed => absurd (Expr.blankFree_toString v _ hfeed) (by decide)

namespace Header

/-! ## Names -/

section

variable (hb : b.Named)

include hb

theorem isIdentifier_spaceDefinition : IsIdentifier (spaceDefinition b).name :=
  hb.stem.append (by decide)

theorem isIdentifier_registerName (hp : p ∈ b.placements) {quantity : String}
    (hquantity : quantity.toList.all Expr.isWordChar = true) :
    IsIdentifier (registerName b p quantity) := by
  have hname := (hb.macroName hp).all_isWordChar
  exact ((hb.stem.append hname).append (by decide)).append hquantity

theorem isIdentifier_of_mem_definitionsOf {isArray : Prop} [Decidable isArray]
    {addrWidth width : String} (hp : p ∈ b.placements)
    (hd : d ∈ definitionsOf b p isArray addrWidth width) : IsIdentifier d.name := by
  rcases mem_definitionsOf.1 hd with rfl | ⟨-, rfl⟩ | rfl
  all_goals exact isIdentifier_registerName hb hp (by decide)

end

/-! ## The header with the default values of the parameters -/

/-- A default value is a number. -/
theorem exists_of_mem_parameterDefaults {found : List Definition}
    (h : parameterDefaults b = .ok found) (hd : d ∈ found) :
    ∃ x ∈ b.design.params, ∃ v : Int,
      d = ⟨macroStem (b.top ++ "_csrs") ++ Text.capitals x.name, toString v⟩ := by
  rw [parameterDefaults, bind_eq_ok_iff] at h
  obtain ⟨parts, hparts, h⟩ := h
  cases h
  obtain ⟨part, hpart, hd⟩ := List.mem_flatten.1 hd
  obtain ⟨x, hx, hdefinitions⟩ := exists_mem_of_mapM_eq_ok hparts part hpart
  rw [parameterDefinitions] at hdefinitions
  split at hdefinitions
  · cases hdefinitions
    cases hd
  · rw [bind_eq_ok_iff] at hdefinitions
    obtain ⟨v, -, hdefinitions⟩ := hdefinitions
    cases hdefinitions
    exact ⟨x, hx, v, List.mem_singleton.1 hd⟩

theorem faithful_configurationLines (hb : b.Named)
    (hparams : ∀ x ∈ b.design.params, IsIdentifier x.name)
    (h : configurationLines b = .ok lines) :
    ∀ line ∈ lines, Dialect.hardware.Faithful Definition.hardwareMacro line := by
  rw [configurationLines, bind_eq_ok_iff] at h
  obtain ⟨found, hfound, h⟩ := h
  cases h
  rw [List.forall_mem_map]
  intro d hd
  obtain ⟨x, hx, v, rfl⟩ := exists_of_mem_parameterDefaults hfound hd
  have hstem : IsIdentifier (macroStem (b.top ++ "_csrs")) :=
    (hb.top.append (by decide)).capitals.append (by decide)
  have hname := hstem.append (hparams x hx).capitals.all_isWordChar
  exact Dialect.faithful_hardwareMacro hname (Expr.wordsApart_toString v)

/-! ## The header for code outside an instance -/

theorem oneLine_localParameter (hname : IsIdentifier d.name) (hvalue : OneLine d.value) :
    OneLine d.localParameter := by
  have hkeyword : OneLine "localparam " := by decide
  have hsign : OneLine " = " := by decide
  have hclosing : OneLine ";" := by decide
  simp [Definition.localParameter, toString, hkeyword, hsign, hclosing, hname.oneLine, hvalue]

theorem faithful_localParameter (hname : IsIdentifier d.name) (hvalue : OneLine d.value) :
    Dialect.parameter.Faithful Definition.localParameter (.define d) :=
  Dialect.faithful_define (oneLine_localParameter hname hvalue)
    (Dialect.defines_localParameter hname)

theorem eq_of_plain_mem_parameterLines {text : String} (h : parameterLines b = .ok lines)
    (htext : .plain text ∈ lines) :
    text ∈ ["// Address space width", "", "// Default register addresses and widths"] := by
  rw [parameterLines, bind_eq_ok_iff] at h
  obtain ⟨parts, hparts, h⟩ := h
  cases h
  have hregisters : .plain text ∈ parts.flatten → text = "" := by
    intro hmem
    obtain ⟨part, hpart, htext⟩ := List.mem_flatten.1 hmem
    obtain ⟨p, -, hlines⟩ := exists_mem_of_mapM_eq_ok hparts part hpart
    rw [defaultLines, bind_eq_ok_iff] at hlines
    obtain ⟨found, -, hlines⟩ := hlines
    cases hlines
    simpa using htext
  simp only [List.mem_append, List.mem_cons, List.not_mem_nil, or_false, Line.plain.injEq,
    reduceCtorEq, false_or] at htext ⊢
  tauto

theorem faithful_parameterLines (hb : b.Named) (hchecked : b.Checked)
    (h : parameterLines b = .ok lines) :
    ∀ line ∈ lines, Dialect.parameter.Faithful Definition.localParameter line := by
  refine Dialect.forall_faithful ?_ ?_
  · intro text htext
    have hplain : ∀ text ∈ ["// Address space width", "",
        "// Default register addresses and widths"],
        OneLine text ∧ Dialect.parameter.definition? text = none := by decide
    obtain ⟨hline, hnone⟩ := hplain text (eq_of_plain_mem_parameterLines h htext)
    exact Dialect.faithful_plain hline hnone
  · rw [definitions_parameterLines h, List.forall_mem_cons, List.forall_mem_flatMap]
    refine ⟨faithful_localParameter (isIdentifier_spaceDefinition hb) (Text.oneLine_toString _), ?_⟩
    intro p hp d hd
    obtain ⟨layout, bits, -, hdefinitions⟩ := valueDefinitions_eq hchecked hp
    rw [hdefinitions] at hd
    refine faithful_localParameter (isIdentifier_of_mem_definitionsOf hb hp hd) ?_
    rcases mem_definitionsOf.1 hd with rfl | ⟨-, rfl⟩ | rfl
    exacts [Text.oneLine_toString _, Text.oneLine_toString _, Text.oneLine_toString_int _]

/-! ## The header for use inside an instance -/

theorem cases_of_plain_mem_instanceLines {text : String} (h : .plain text ∈ instanceLines b) :
    text = "" ∨ text = "`include \"" ++ (b.top ++ "_csrs_conf.vh\"") ∨
      text = "// " ++ (b.top ++ " CSR macros. Widths may depend on instance parameters.") := by
  simp only [instanceLines, toString, String.append_assoc, List.mem_append, List.mem_cons,
    Line.plain.injEq, reduceCtorEq, List.not_mem_nil, or_false, List.mem_flatMap, List.mem_map,
    and_false, exists_false] at h
  tauto

/-- The values are expressions, so that no two words stand side by side in them. -/
theorem wordsApart_of_mem_instanceDefinitions (hchecked : b.Checked) (hp : p ∈ b.placements)
    (hstated : p.register.Stated) (hd : d ∈ instanceDefinitions b p) :
    Expr.WordsApart d.value.toList := by
  have hmost := (hchecked.seated p hp).layout
  obtain ⟨bits, hbits, hpos, hitems, -⟩ := Layout.sizes_of_eq_ok hmost
  have hone : (Expr.Form.expr 0 (.number 1)).WrittenAs "1".toList :=
    writtenAs_one.looser (Nat.zero_le 8)
  rcases mem_definitionsOf.1 (instanceDefinitions_eq b p ▸ hd) with rfl | ⟨-, rfl⟩ | rfl
  · exact Expr.wordsApart_toString p.address
  · have hdepth := hstated.logItems.writtenAs hitems (Int.natCast_nonneg _)
    obtain ⟨e, hsum⟩ := exists_writtenAs_symbolicAddrWidth hdepth hmost
    obtain ⟨joined, htext⟩ := Verilog.exists_writtenAs_larger hsum hone
    exact htext.wordsApart
  · have hwidth := hstated.width.writtenAs hbits (by omega)
    obtain ⟨joined, htext⟩ := Verilog.exists_writtenAs_larger hwidth hone
    exact htext.wordsApart

theorem faithful_instanceLines (hb : b.Named) (hchecked : b.Checked)
    (hstated : ∀ p ∈ b.placements, p.register.Stated) :
    ∀ line ∈ instanceLines b, Dialect.hardware.Faithful Definition.hardwareMacro line := by
  refine Dialect.forall_faithful ?_ ?_
  · intro text htext
    have htop := hb.top.oneLine
    rcases cases_of_plain_mem_instanceLines htext with rfl | rfl | rfl
    · exact Dialect.faithful_plain (by decide) Dialect.definition?_empty
    · refine Dialect.faithful_plain ?_ (Dialect.definition?_eq_none (by decide) (by decide))
      exact Text.oneLine_append.2 ⟨by decide, Text.oneLine_append.2 ⟨htop, by decide⟩⟩
    · refine Dialect.faithful_plain ?_ (Dialect.definition?_eq_none (by decide) (by decide))
      exact Text.oneLine_append.2 ⟨by decide, Text.oneLine_append.2 ⟨htop, by decide⟩⟩
  · rw [definitions_instanceLines, List.forall_mem_cons, List.forall_mem_flatMap]
    refine ⟨Dialect.faithful_hardwareMacro (isIdentifier_spaceDefinition hb)
      (Expr.wordsApart_toString b.map.addrWidth), ?_⟩
    intro p hp d hd
    exact Dialect.faithful_hardwareMacro
      (isIdentifier_of_mem_definitionsOf hb hp (instanceDefinitions_eq b p ▸ hd))
      (wordsApart_of_mem_instanceDefinitions hchecked hp (hstated p hp) hd)

end Header

/-! ## The C headers -/

namespace Software

variable {found : List Accessor} {text : String}

/-- Guards are no definitions. -/
theorem definition?_of_plain_mem_guarded {name : String}
    (hlines : ∀ text, .plain text ∈ lines → Dialect.software.definition? text = none)
    (h : .plain text ∈ guarded name lines) : Dialect.software.definition? text = none := by
  simp only [guarded, toString, List.mem_append, List.mem_cons, Line.plain.injEq, reduceCtorEq,
    List.not_mem_nil, or_false, false_or] at h
  rcases h with ((rfl | rfl) | hmem) | rfl | rfl
  · exact Dialect.definition?_eq_none (by decide) (by decide)
  · exact Dialect.definition?_empty
  · exact hlines text hmem
  · exact Dialect.definition?_empty
  · exact Dialect.definition?_eq_none (by decide) (by decide)

theorem definition?_of_plain_mem_macroLines (h : .plain text ∈ macroLines b) :
    Dialect.software.definition? text = none := by
  have hplain : ∀ text ∈ ["// Address space width", "", "// Addresses", "// Data widths (bit)"],
      Dialect.software.definition? text = none := by decide
  refine hplain text ?_
  simp only [macroLines, List.mem_append, List.mem_cons, List.mem_map, Line.plain.injEq,
    reduceCtorEq, and_false, exists_false, List.not_mem_nil, or_false, false_or] at h ⊢
  tauto

/-- Functions are declared with a type first. -/
theorem definition?_of_plain_mem_declarationLines {extra : List String}
    (h : .plain text ∈ declarationLines b extra found) :
    Dialect.software.definition? text = none := by
  simp only [declarationLines, List.mem_map, List.mem_flatMap, Line.plain.injEq] at h
  obtain ⟨head, ⟨a, -, hhead⟩, rfl⟩ := h
  have hresults : ∀ result ∈ ["void", "uint8_t", "uint16_t", "uint32_t", "uint64_t"],
      ¬ result.toList <+: Dialect.software.keyword.toList ∧
        ¬ Dialect.software.keyword.toList <+: result.toList := by decide
  have hresult : head.result ∈ ["void", "uint8_t", "uint16_t", "uint32_t", "uint64_t"] := by
    revert head
    refine forall_mem_of_access List.mem_cons_self ?_
    change a.type.name ∈ _
    cases a.type <;> decide
  have htext : head.text ++ ";" = head.result ++ (" " ++ (head.name ++
      ("(" ++ (String.intercalate ", " head.arguments ++ (")" ++ ";"))))) := by
    simp only [Prototype.text, toString, String.append_assoc]
  rw [htext]
  obtain ⟨hlead, hkeyword⟩ := hresults _ hresult
  exact Dialect.definition?_eq_none hlead hkeyword

theorem definition?_of_plain_mem_embeddedLines (h : .plain text ∈ embeddedLines b found) :
    Dialect.software.definition? text = none := by
  refine definition?_of_plain_mem_guarded ?_ h
  intro text htext
  simp only [toString, String.append_assoc, List.mem_append, List.mem_cons, Line.plain.injEq,
    List.not_mem_nil, or_false] at htext
  rcases htext with (((rfl | rfl) | hmacro) | rfl | rfl | rfl | rfl) | hdeclaration
  · decide
  · exact Dialect.definition?_empty
  · exact definition?_of_plain_mem_macroLines hmacro
  · decide
  · exact Dialect.definition?_eq_none (by decide) (by decide)
  · exact Dialect.definition?_empty
  · decide
  · exact definition?_of_plain_mem_declarationLines hdeclaration

theorem definition?_of_plain_mem_simulationLines (h : .plain text ∈ simulationLines b found) :
    Dialect.software.definition? text = none := by
  refine definition?_of_plain_mem_guarded ?_ h
  intro text htext
  simp only [List.mem_append, List.mem_cons, Line.plain.injEq, List.not_mem_nil, or_false] at htext
  rcases htext with (((rfl | rfl | rfl | rfl) | hmacro) | rfl) | hdeclaration
  · decide
  · exact Dialect.definition?_empty
  · decide
  · exact Dialect.definition?_empty
  · exact definition?_of_plain_mem_macroLines hmacro
  · decide
  · exact definition?_of_plain_mem_declarationLines hdeclaration

theorem isIdentifier_of_mem_macroLines (hb : b.Named) (hd : d ∈ Header.definitions (macroLines b)) :
    IsIdentifier d.name := by
  have hname (ending : String) (hending : ending.toList.all Expr.isWordChar = true) :
      ∀ p ∈ b.placements, IsIdentifier (b.stem ++ p.macroName ++ ending) :=
    fun p hp => (hb.stem.append (hb.macroName hp).all_isWordChar).append hending
  revert hd d
  rw [Header.definitions_macroLines, List.forall_mem_cons, List.forall_mem_append,
    addressDefinitions, widthDefinitions, List.forall_mem_map, List.forall_mem_map]
  exact ⟨Header.isIdentifier_spaceDefinition hb, hname "_ADDR" (by decide), hname "_W" (by decide)⟩

/-- A C header whose texts are single lines is read back: the guard, and then the macros. -/
theorem faithful_of_guarded (hb : b.Named) {ending : String}
    (hending : ending.toList.all Expr.isWordChar = true)
    (hlines : ∀ line ∈ lines.map (Line.text Definition.softwareMacro), OneLine line)
    (hplain : ∀ text, .plain text ∈ lines → Dialect.software.definition? text = none)
    (hguard : Header.definitions lines =
      ⟨guardName b ending, ""⟩ :: Header.definitions (macroLines b)) :
    ∀ line ∈ lines, Dialect.software.Faithful Definition.softwareMacro line := by
  rw [List.forall_mem_map] at hlines
  refine Dialect.forall_faithful ?_ ?_
  · exact fun text htext => Dialect.faithful_plain (hlines _ htext) (hplain text htext)
  · intro d hd
    refine Dialect.faithful_define (hlines _ (Header.mem_definitions.1 hd))
      (Dialect.defines_softwareMacro ?_)
    rw [hguard, List.mem_cons] at hd
    rcases hd with rfl | hd
    · have hguarded : IsIdentifier ("H_" ++ b.stem) :=
        IsIdentifier.append (by decide) hb.stem.all_isWordChar
      exact hguarded.append hending
    · exact isIdentifier_of_mem_macroLines hb hd

theorem OneLineNames.of_named (hb : b.Named) : OneLineNames b where
  top := hb.top.oneLine
  registers := fun p hp => (hb.registers p hp).oneLine

theorem faithful_embeddedLines (hb : b.Named) (hfound : ∀ a ∈ found, a.placement ∈ b.placements) :
    ∀ line ∈ embeddedLines b found, Dialect.software.Faithful Definition.softwareMacro line :=
  faithful_of_guarded hb (by decide)
    (oneLine_embeddedLibrary (OneLineNames.of_named hb) hfound).1
    (fun _ => definition?_of_plain_mem_embeddedLines) (Header.definitions_embeddedLines b found)

theorem faithful_simulationLines (hb : b.Named)
    (hfound : ∀ a ∈ found, a.placement ∈ b.placements) :
    ∀ line ∈ simulationLines b found, Dialect.software.Faithful Definition.softwareMacro line :=
  faithful_of_guarded hb (by decide)
    (oneLine_simulationLibrary (OneLineNames.of_named hb) hfound).1
    (fun _ => definition?_of_plain_mem_simulationLines) (Header.definitions_simulationLines b found)

end Software

/-! ## The files -/

namespace Artifacts

variable {m : Module} {a : Artifacts}

/-- The definitions in the file of a name, read in the language of the file. -/
def definitionsIn (a : Artifacts) (l : Dialect) (name : String) : List Definition :=
  (a.file? name).elim [] fun file => l.read file.contents

/-- The names that the file defines, in order. -/
def namesIn (a : Artifacts) (l : Dialect) (name : String) : List String :=
  (a.definitionsIn l name).map (·.name)

/-- The values for which the file has a name. -/
def valuesIn (a : Artifacts) (l : Dialect) (name defined : String) : List String :=
  ((a.definitionsIn l name).filter (·.name = defined)).map (·.value)

/-- The definitions of a file are those of its lines if these are read back. -/
theorem definitionsIn_eq {l : Dialect} {name : String} {write : Definition → String}
    (h : a.file? name = some (Header.file name write lines))
    (hlines : ∀ line ∈ lines, l.Faithful write line) :
    a.definitionsIn l name = (definitions lines).map Definition.firstLine := by
  rw [definitionsIn, h]
  exact Dialect.read_unlines hlines

theorem namesIn_eq {l : Dialect} {name : String} {ds : List Definition}
    (h : a.definitionsIn l name = ds.map Definition.firstLine) :
    a.namesIn l name = ds.map (·.name) := by
  rw [namesIn, h, List.map_map]
  rfl

/-- A name that is defined once, by a single line, has the value in this line. -/
theorem valuesIn_eq {l : Dialect} {name : String} {ds : List Definition}
    (h : a.definitionsIn l name = ds.map Definition.firstLine)
    (hone : ds.filter (·.name = d.name) = [d]) (hvalue : OneLine d.value) :
    a.valuesIn l name d.name = [d.value] := by
  rw [valuesIn, h, List.filter_map]
  change ((ds.filter (·.name = d.name)).map Definition.firstLine).map (·.value) = [d.value]
  rw [hone, List.map_singleton, Definition.firstLine_of_oneLine hvalue, List.map_singleton]

namespace Parts

variable (x : Parts m a)

theorem named (htop : IsIdentifier m.name)
    (hnames : ∀ r ∈ Group.flatten m.groups, IsIdentifier r.name) : x.build.Named where
  top := by rwa [Build.top, x.design_eq]
  registers := Build.isIdentifier_of_ofModule_eq_ok hnames x.ofModule

/-- The headers are the first files of their names. -/
theorem file?_eq :
    a.file? (m.name ++ "_csrs_conf.vh") = some (Header.file (m.name ++ "_csrs_conf.vh")
        Definition.hardwareMacro x.configuration) ∧
      a.file? (m.name ++ "_csrs_def.vh") = some (Header.file (m.name ++ "_csrs_def.vh")
        Definition.hardwareMacro (Header.instanceLines x.build)) ∧
      a.file? (m.name ++ "_csrs_lparam.vs") = some (Header.file (m.name ++ "_csrs_lparam.vs")
        Definition.localParameter x.parameters) ∧
      a.file? (m.name ++ "_csrs.h") = some (Header.file (m.name ++ "_csrs.h")
        Definition.softwareMacro (Software.embeddedLines x.build x.accessors)) ∧
      a.file? (m.name ++ "_csrs_verilator.h") = some (Header.file (m.name ++ "_csrs_verilator.h")
        Definition.softwareMacro (Software.simulationLines x.build x.accessors)) := by
  have htop : x.build.top = m.name := by rw [Build.top, x.design_eq]
  simp [file?, x.files_eq, htop, String.append_assoc, Header.file, Header.instanceFile,
    Software.embeddedHeader, Software.embeddedSource, Software.simulationHeader, TextFile.ofLines,
    toString]

variable {x} (hx : x.build.Named)

include hx

theorem definitionsIn_configuration (hparams : ∀ y ∈ m.params, IsIdentifier y.name) :
    a.definitionsIn .hardware (m.name ++ "_csrs_conf.vh") =
      (definitions x.configuration).map Definition.firstLine := by
  obtain ⟨hfile, -⟩ := x.file?_eq
  rw [← x.design_eq] at hparams
  exact definitionsIn_eq hfile (Header.faithful_configurationLines hx hparams x.configuration_eq)

theorem definitionsIn_instance (hm : m.Stated) :
    a.definitionsIn .hardware (m.name ++ "_csrs_def.vh") =
      (definitions (Header.instanceLines x.build)).map Definition.firstLine := by
  obtain ⟨-, hfile, -⟩ := x.file?_eq
  have hstated := hm.of_mem_placements x.ofModule
  exact definitionsIn_eq hfile (Header.faithful_instanceLines hx x.checked hstated)

theorem definitionsIn_parameters :
    a.definitionsIn .parameter (m.name ++ "_csrs_lparam.vs") =
      (definitions x.parameters).map Definition.firstLine := by
  obtain ⟨-, -, hfile, -⟩ := x.file?_eq
  exact definitionsIn_eq hfile (Header.faithful_parameterLines hx x.checked x.parameters_eq)

theorem definitionsIn_embedded :
    a.definitionsIn .software (m.name ++ "_csrs.h") =
      (definitions (Software.embeddedLines x.build x.accessors)).map Definition.firstLine := by
  obtain ⟨-, -, -, hfile, -⟩ := x.file?_eq
  exact definitionsIn_eq hfile (Software.faithful_embeddedLines hx x.placement_mem)

theorem definitionsIn_simulation :
    a.definitionsIn .software (m.name ++ "_csrs_verilator.h") =
      (definitions (Software.simulationLines x.build x.accessors)).map Definition.firstLine := by
  obtain ⟨-, -, -, -, hfile⟩ := x.file?_eq
  exact definitionsIn_eq hfile (Software.faithful_simulationLines hx x.placement_mem)

end Parts

end Artifacts

end RegisterBank
