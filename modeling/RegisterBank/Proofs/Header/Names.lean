import RegisterBank.Proofs.Header.Contents
import Mathlib.Data.List.Perm.Basic

/-!
# Names that are defined once

The headers of a module define names that begin with the name of the module in capitals. After it
come the name of a register or of a parameter, in capitals as well, and an ending. No two registers
have the same name in capitals, but a register can have the name of another one with an ending after
it: the address width of an array `taps` and the width of a register `taps_addr` are both
`TAPS_ADDR_W`. The address space has a name that an array `csrs` or a register `csrs_addr` would
give, and the default value of a parameter one that a register can give, too.
`Artifacts.generate_nodup_names_iff` says for each header when no name is defined twice in it.
-/

namespace RegisterBank

open Text (Family IsIdentifier capitals)
open Text.Family (Apart gaps)

variable {b : Build} {p q : Placement}

namespace Build

/-- Whether the register has several items at the parameter values of the mode. -/
def isArray (b : Build) (mode : Mode) (p : Placement) : Bool :=
  (Layout.of p.register b.env mode).toOption.any fun layout => 0 < layout.logItems

theorem isArray_of_eq_ok {mode : Mode} {layout : Layout}
    (h : Layout.of p.register b.env mode = .ok layout) :
    b.isArray mode p = decide (0 < layout.logItems) := by
  simp [isArray, h, Except.toOption]

/-- The parameters that have a default value. -/
def defaulted (b : Build) : List Parameter :=
  b.design.params.filter fun x => (x.field .value).isSome

end Build

namespace Header

/-- The names that lines define, in order. -/
def names (lines : List Line) : List String :=
  (definitions lines).map (·.name)

theorem names_append (lines others : List Line) :
    names (lines ++ others) = names lines ++ names others := by
  simp [names]

/-! ## The families of names -/

/-- The endings of the names of a register. -/
def endings (isArray : Bool) : List String :=
  ["_ADDR"] ++ (if isArray then ["_ADDR_W"] else []) ++ ["_W"]

/-- The names of a register. -/
def registerFamily (b : Build) (arrays : Placement → Bool) (p : Placement) : Family :=
  ⟨b.stem ++ p.macroName, endings (arrays p)⟩

/-- The name of the address space, which is that of an array. -/
def spaceFamily (b : Build) : Family :=
  ⟨b.stem ++ "CSRS", ["_ADDR_W"]⟩

/-- The names of the address space and of the registers. -/
def families (b : Build) (arrays : Placement → Bool) : List Family :=
  spaceFamily b :: b.placements.map (registerFamily b arrays)

/-- The name of the default value of a parameter. -/
def parameterFamily (b : Build) (x : Parameter) : Family :=
  ⟨b.stem ++ ("CSRS_" ++ capitals x.name), [""]⟩

/-- The address space and the registers have names of their own, where some registers are arrays. -/
@[mk_iff]
structure RegistersApart (b : Build) (arrays : Placement → Bool) : Prop where
  space : ∀ p ∈ b.placements, p.macroName ≠ "CSRS_ADDR"
  array : ∀ p ∈ b.placements, arrays p → p.macroName ≠ "CSRS"
  register : ∀ p ∈ b.placements, ∀ q ∈ b.placements, arrays p →
    q.macroName ≠ p.macroName ++ "_ADDR"

/-- The default values of parameters have names of their own, where some registers are arrays. -/
@[mk_iff]
structure ParametersApart (b : Build) (arrays : Placement → Bool) : Prop where
  parameter : b.defaulted.Pairwise fun x y => capitals x.name ≠ capitals y.name
  space : ∀ x ∈ b.defaulted, capitals x.name ≠ "ADDR_W"
  register : ∀ x ∈ b.defaulted, ∀ p ∈ b.placements, ∀ e ∈ endings (arrays p),
    "CSRS_" ++ capitals x.name ≠ p.macroName ++ e

instance (b : Build) (arrays : Placement → Bool) : Decidable (RegistersApart b arrays) :=
  decidable_of_iff' _ (registersApart_iff b arrays)

instance (b : Build) (arrays : Placement → Bool) : Decidable (ParametersApart b arrays) :=
  decidable_of_iff' _ (parametersApart_iff b arrays)

variable {arrays : Placement → Bool}

theorem gaps_endings (i j : Bool) :
    gaps (endings i) (endings j) =
      "" :: (if i then (if j then ["", "_ADDR"] else ["_ADDR"]) else []) ++ [""] := by
  cases i <;> cases j <;> decide

theorem mem_gaps_endings {i j : Bool} {z : String} :
    z ∈ gaps (endings i) (endings j) ↔ z = "" ∨ i ∧ z = "_ADDR" := by
  rw [gaps_endings]
  cases i <;> cases j <;> simp <;> tauto

theorem nodup_endings (i : Bool) : (endings i).Nodup := by
  cases i <;> decide

/-- The width of one register is the address width of another only if the first has the name of the
second with `_ADDR` after it. -/
theorem apart_registerFamily_iff (hne : p.macroName ≠ q.macroName) :
    (registerFamily b arrays p).Apart (registerFamily b arrays q) ↔
      (arrays p → q.macroName ≠ p.macroName ++ "_ADDR") ∧
        (arrays q → p.macroName ≠ q.macroName ++ "_ADDR") := by
  simp only [Family.apart_iff, registerFamily, mem_gaps_endings, String.append_assoc, ne_eq,
    String.append_right_inj]
  simp [hne, hne.symm]

theorem apart_spaceFamily_iff :
    (spaceFamily b).Apart (registerFamily b arrays p) ↔
      p.macroName ≠ "CSRS_ADDR" ∧ (arrays p → p.macroName ≠ "CSRS") := by
  have hspace (i : Bool) :
      gaps ["_ADDR_W"] (endings i) = (if i then [""] else []) ++ ["_ADDR"] := by
    cases i <;> decide
  have hregister (i : Bool) : gaps (endings i) ["_ADDR_W"] = if i then [""] else [] := by
    cases i <;> decide
  have hlong : "CSRS" ++ "_ADDR" = "CSRS_ADDR" := by decide
  simp only [Family.apart_iff, spaceFamily, registerFamily, hspace, hregister, String.append_assoc,
    ne_eq, String.append_right_inj]
  cases arrays p with
  | false => simp [hlong]
  | true => simp [hlong, eq_comm]; tauto

theorem nodup_endings_families : ∀ f ∈ families b arrays, f.endings.Nodup := by
  simp [families, spaceFamily, registerFamily, nodup_endings]

theorem nodup_families_iff (hne : b.placements.Pairwise fun p q => p.macroName ≠ q.macroName) :
    ((families b arrays).flatMap Family.names).Nodup ↔ RegistersApart b arrays := by
  have hregisters : (b.placements.Pairwise fun p q =>
      (registerFamily b arrays p).Apart (registerFamily b arrays q)) ↔
        ∀ p ∈ b.placements, ∀ q ∈ b.placements, arrays p →
          q.macroName ≠ p.macroName ++ "_ADDR" := by
    rw [← Text.pairwise_and_swap_iff]
    · exact ⟨fun h => (h.and hne).imp fun h => (apart_registerFamily_iff h.2).1 h.1,
        fun h => (h.and hne).imp fun h => (apart_registerFamily_iff h.2).2 h.1⟩
    · simp
  rw [Family.nodup_flatMap_names_iff nodup_endings_families, families, List.pairwise_cons,
    List.pairwise_map, hregisters]
  simp only [List.forall_mem_map, apart_spaceFamily_iff]
  constructor
  · rintro ⟨hspace, hregister⟩
    exact ⟨fun p hp => (hspace p hp).1, fun p hp => (hspace p hp).2, hregister⟩
  · intro h
    exact ⟨fun p hp => ⟨h.space p hp, h.array p hp⟩, h.register⟩

section

variable {x y : Parameter}

theorem apart_parameterFamily_iff :
    (parameterFamily b x).Apart (parameterFamily b y) ↔ capitals x.name ≠ capitals y.name := by
  simp [Apart, Family.names, parameterFamily, eq_comm]

theorem apart_parameterFamily_spaceFamily_iff :
    (parameterFamily b x).Apart (spaceFamily b) ↔ capitals x.name ≠ "ADDR_W" := by
  have hspace : "CSRS" ++ "_ADDR_W" = "CSRS_" ++ "ADDR_W" := by decide
  simp [Apart, Family.names, parameterFamily, spaceFamily, String.append_assoc, hspace, eq_comm,
    -String.reduceAppend]

theorem apart_parameterFamily_registerFamily_iff :
    (parameterFamily b x).Apart (registerFamily b arrays p) ↔
      ∀ e ∈ endings (arrays p), "CSRS_" ++ capitals x.name ≠ p.macroName ++ e := by
  simp [Apart, Family.names, parameterFamily, registerFamily, String.append_assoc, eq_comm]

end

theorem nodup_parameterFamilies_iff
    (hne : b.placements.Pairwise fun p q => p.macroName ≠ q.macroName) :
    ((b.defaulted.map (parameterFamily b) ++ families b arrays).flatMap Family.names).Nodup ↔
      RegistersApart b arrays ∧ ParametersApart b arrays := by
  have hendings : ∀ f ∈ b.defaulted.map (parameterFamily b) ++ families b arrays,
      f.endings.Nodup := by
    rw [List.forall_mem_append]
    exact ⟨by simp [parameterFamily], nodup_endings_families⟩
  rw [Family.nodup_flatMap_names_iff hendings, List.pairwise_append,
    ← Family.nodup_flatMap_names_iff nodup_endings_families, nodup_families_iff hne,
    List.pairwise_map]
  simp only [List.forall_mem_map, families, List.forall_mem_cons, apart_parameterFamily_iff,
    apart_parameterFamily_spaceFamily_iff, apart_parameterFamily_registerFamily_iff]
  constructor
  · rintro ⟨hparameter, hregisters, hcross⟩
    exact ⟨hregisters, hparameter, fun x hx => (hcross x hx).1, fun x hx => (hcross x hx).2⟩
  · rintro ⟨hregisters, h⟩
    exact ⟨h.parameter, hregisters, fun x hx => ⟨h.space x hx, h.register x hx⟩⟩

/-! ## The names in the headers -/

/-- The definitions of a register have the names of its family. -/
theorem map_name_definitionsOf {isArray : Prop} [Decidable isArray] {addrWidth width : String}
    (h : arrays p = decide isArray) :
    (definitionsOf b p isArray addrWidth width).map (·.name) =
      (registerFamily b arrays p).names := by
  have hname (quantity : String) :
      registerName b p quantity = b.stem ++ p.macroName ++ ("_" ++ quantity) := by
    simp [registerName, String.append_assoc]
  by_cases hitems : isArray <;>
    simp [definitionsOf, Family.names, registerFamily, endings, h, hitems, hname]

theorem name_spaceDefinition (b : Build) : (spaceFamily b).names = [(spaceDefinition b).name] := by
  simp [spaceFamily, Family.names, spaceDefinition, String.append_assoc]

/-- A header that defines the address space and then each register has the names of the families. -/
theorem map_name_cons {ds : Placement → List Definition}
    (h : ∀ p ∈ b.placements, (ds p).map (·.name) = (registerFamily b arrays p).names) :
    (spaceDefinition b :: b.placements.flatMap ds).map (·.name) =
      (families b arrays).flatMap Family.names := by
  rw [families, List.flatMap_cons, name_spaceDefinition, List.flatMap_map, List.map_cons,
    List.map_flatMap, List.flatMap_congr h]
  rfl

/-- The header for code outside an instance has the registers that are arrays at the default
parameter values as arrays. -/
theorem names_parameterLines (hb : b.Checked) {lines : List Line}
    (h : parameterLines b = .ok lines) :
    names lines = (families b (b.isArray .value)).flatMap Family.names := by
  rw [names, definitions_parameterLines h]
  apply map_name_cons
  intro p hp
  obtain ⟨layout, bits, hlayout, hdefinitions⟩ := valueDefinitions_eq hb hp
  rw [hdefinitions, map_name_definitionsOf (Build.isArray_of_eq_ok hlayout)]

/-- The header for use inside an instance has the registers that are placed as arrays as arrays. -/
theorem names_instanceLines (hb : b.Checked) :
    names (instanceLines b) = (families b (b.isArray .max)).flatMap Family.names := by
  rw [names, definitions_instanceLines]
  apply map_name_cons
  intro p hp
  rw [instanceDefinitions_eq,
    map_name_definitionsOf (Build.isArray_of_eq_ok (hb.seated p hp).layout)]

theorem macroStem_csrs (b : Build) : macroStem (b.top ++ "_csrs") = b.stem ++ "CSRS_" := by
  have hcapitals : capitals "_csrs" ++ "_" = "_" ++ "CSRS_" := by decide
  rw [macroStem, Text.capitals_append, String.append_assoc, hcapitals, ← String.append_assoc]
  rfl

/-- The default values are those of the parameters that have one. -/
theorem names_configurationLines {lines : List Line} (h : configurationLines b = .ok lines) :
    names lines = (b.defaulted.map (parameterFamily b)).flatMap Family.names := by
  simp only [configurationLines, parameterDefaults, bind_eq_ok_iff] at h
  obtain ⟨_, ⟨found, hfound, hflatten⟩, h⟩ := h
  cases hflatten
  cases h
  have hparameters : found.map (·.map (·.name)) = b.design.params.map fun x =>
      if (x.field .value).isSome then (parameterFamily b x).names else [] := by
    refine map_eq_of_mapM_eq_ok hfound ?_
    intro x _ definitions hdefinitions
    rw [parameterDefinitions] at hdefinitions
    split at hdefinitions
    · rename_i hnone
      cases hdefinitions
      simp [hnone]
    · rename_i formula hsome
      rw [bind_eq_ok_iff] at hdefinitions
      obtain ⟨value, -, hdefinitions⟩ := hdefinitions
      cases hdefinitions
      simp [hsome, Family.names, parameterFamily, macroStem_csrs, String.append_assoc]
  rw [names, definitions_map_define, List.map_flatten, hparameters, Build.defaulted,
    List.flatMap_map, Hardware.flatMap_filter_eq, List.flatMap_def]

/-! ## The names in the C headers -/

/-- The macros of a C header are those of the address space and of each register, none of which is
an array in it. -/
theorem perm_names_macroLines :
    (names (Software.macroLines b)).Perm ((families b fun _ => false).flatMap Family.names) := by
  have hmacros : names (Software.macroLines b) = (spaceDefinition b).name ::
      (b.placements.map (Software.addressMacro b) ++
        b.placements.flatMap fun p => [Software.widthMacro b p]) := by
    rw [names, definitions_macroLines]
    simp [Software.addressDefinitions, Software.widthDefinitions, ← List.map_eq_flatMap,
      Function.comp_def]
  rw [hmacros, families, List.flatMap_cons, name_spaceDefinition, List.flatMap_map,
    List.singleton_append]
  exact (List.map_append_flatMap_perm _ _ _).cons _

/-- The guard ends in a letter in which no other name does. -/
theorem apart_guardFamily (part : String) :
    ∀ f ∈ families b arrays, (Family.mk ("H_" ++ b.stem ++ part) ["H"]).Apart f := by
  have hspace : gaps ["H"] ["_ADDR_W"] = [] ∧ gaps ["_ADDR_W"] ["H"] = [] := by decide
  have hregister : ∀ i, gaps ["H"] (endings i) = [] ∧ gaps (endings i) ["H"] = [] := by decide
  simp [families, spaceFamily, registerFamily, Family.apart_iff, hspace, hregister]

/-- A C header that defines its guard besides these macros defines no name twice exactly if the
width of no register is that of the address space. -/
theorem nodup_guarded_iff (hne : b.placements.Pairwise fun p q => p.macroName ≠ q.macroName)
    {ending : String} (part : String) (hending : ending = part ++ "H") {lines : List Line}
    (hlines : definitions lines =
      ⟨Software.guardName b ending, ""⟩ :: definitions (Software.macroLines b)) :
    (names lines).Nodup ↔ ∀ p ∈ b.placements, p.macroName ≠ "CSRS_ADDR" := by
  have hguard : Software.guardName b ending = "H_" ++ b.stem ++ part ++ "H" := by
    simp [Software.guardName, hending, String.append_assoc]
  have hnot : Software.guardName b ending ∉ names (Software.macroLines b) := by
    rw [perm_names_macroLines.mem_iff, List.mem_flatMap]
    rintro ⟨f, hf, hname⟩
    exact apart_guardFamily part f hf (by simp [Family.names, hguard]) hname
  have hregisters : RegistersApart b (fun _ => false) ↔
      ∀ p ∈ b.placements, p.macroName ≠ "CSRS_ADDR" :=
    ⟨fun h => h.space, fun h => ⟨h, by simp, by simp⟩⟩
  rw [names, hlines, List.map_cons, ← names, List.nodup_cons, and_iff_right hnot,
    perm_names_macroLines.nodup_iff, nodup_families_iff hne, hregisters]

end Header

namespace Artifacts

open Hardware (mixedModule)
open Header (ParametersApart RegistersApart names)

variable {m : Module} {a : Artifacts}

/-- The names that the files define are those of their lines. -/
theorem Parts.namesIn_headers {x : Parts m a} (hx : x.build.Named) :
    a.namesIn .software (m.name ++ "_csrs.h") =
        names (Software.embeddedLines x.build x.accessors) ∧
      a.namesIn .software (m.name ++ "_csrs_verilator.h") =
        names (Software.simulationLines x.build x.accessors) ∧
      a.namesIn .parameter (m.name ++ "_csrs_lparam.vs") = names x.parameters ∧
      (m.Stated → (∀ y ∈ m.params, IsIdentifier y.name) →
        a.namesIn .hardware (m.name ++ "_csrs_conf.vh") ++
            a.namesIn .hardware (m.name ++ "_csrs_def.vh") =
          names (x.configuration ++ Header.instanceLines x.build)) := by
  refine ⟨namesIn_eq (definitionsIn_embedded hx), namesIn_eq (definitionsIn_simulation hx),
    namesIn_eq (definitionsIn_parameters hx), ?_⟩
  intro hm hparams
  rw [namesIn_eq (definitionsIn_configuration hx hparams),
    namesIn_eq (definitionsIn_instance hx hm), Header.names_append]
  rfl

/-- In the headers of a generated module whose registers are named by identifiers, when is no name
defined twice? A C header defines the width of the address space twice exactly if there is a
register `csrs_addr`. The header for code outside an instance defines a name twice exactly if there
is such a register, or if there is an array `csrs`, or if next to an array there is a register with
the name of the array and `_addr` after it, where arrays are those at the default parameter values.
The same holds of the header for use inside an instance, with the arrays that are placed, except
that here the default values of the parameters count, too. Where the module and its parameters are
named by identifiers as well, the names are those that are read back from the files. -/
theorem generate_nodup_names_iff (hnames : ∀ r ∈ Group.flatten m.groups, IsIdentifier r.name)
    (h : generate m = .ok a) :
    ∃ x : Parts m a,
      ((names (Software.embeddedLines x.build x.accessors)).Nodup ↔
        ∀ p ∈ x.build.placements, p.macroName ≠ "CSRS_ADDR") ∧
      ((names (Software.simulationLines x.build x.accessors)).Nodup ↔
        ∀ p ∈ x.build.placements, p.macroName ≠ "CSRS_ADDR") ∧
      ((names x.parameters).Nodup ↔ RegistersApart x.build (x.build.isArray .value)) ∧
      ((names (x.configuration ++ Header.instanceLines x.build)).Nodup ↔
        RegistersApart x.build (x.build.isArray .max) ∧
          ParametersApart x.build (x.build.isArray .max)) ∧
      (IsIdentifier m.name →
        a.namesIn .software (m.name ++ "_csrs.h") =
            names (Software.embeddedLines x.build x.accessors) ∧
          a.namesIn .software (m.name ++ "_csrs_verilator.h") =
            names (Software.simulationLines x.build x.accessors) ∧
          a.namesIn .parameter (m.name ++ "_csrs_lparam.vs") = names x.parameters ∧
          (m.Stated → (∀ y ∈ m.params, IsIdentifier y.name) →
            a.namesIn .hardware (m.name ++ "_csrs_conf.vh") ++
                a.namesIn .hardware (m.name ++ "_csrs_def.vh") =
              names (x.configuration ++ Header.instanceLines x.build))) := by
  obtain ⟨x⟩ := nonempty_parts h
  have hne := x.checked.pairwise_macroName_ne
    (Build.isIdentifier_of_ofModule_eq_ok hnames x.ofModule)
  refine ⟨x, ?_, ?_, ?_, ?_, fun htop => Parts.namesIn_headers (x.named htop hnames)⟩
  · exact Header.nodup_guarded_iff hne "CSRS_" (by decide)
      (Header.definitions_embeddedLines x.build x.accessors)
  · exact Header.nodup_guarded_iff hne "CSRS_VERILATOR_" (by decide)
      (Header.definitions_simulationLines x.build x.accessors)
  · rw [Header.names_parameterLines x.checked x.parameters_eq, Header.nodup_families_iff hne]
  · rw [Header.names_append, Header.names_configurationLines x.configuration_eq,
      Header.names_instanceLines x.checked, ← List.flatMap_append,
      Header.nodup_parameterFamilies_iff hne]

theorem generate_nodup_names_iff_mixedModule :
    (∀ r ∈ Group.flatten mixedModule.groups, IsIdentifier r.name) ∧
    (IsIdentifier mixedModule.name ∧ mixedModule.Stated ∧
      ∀ y ∈ mixedModule.params, IsIdentifier y.name) ∧
    ∃ a, generate mixedModule = .ok a ∧ ∃ x : Parts mixedModule a,
      (names (Software.embeddedLines x.build x.accessors)).Nodup ∧
      (names (Software.simulationLines x.build x.accessors)).Nodup ∧ (names x.parameters).Nodup ∧
      (names (x.configuration ++ Header.instanceLines x.build)).Nodup ∧
      (a.namesIn .software (mixedModule.name ++ "_csrs.h")).Nodup ∧
      (a.namesIn .software (mixedModule.name ++ "_csrs_verilator.h")).Nodup ∧
      (a.namesIn .parameter (mixedModule.name ++ "_csrs_lparam.vs")).Nodup ∧
      (a.namesIn .hardware (mixedModule.name ++ "_csrs_conf.vh") ++
        a.namesIn .hardware (mixedModule.name ++ "_csrs_def.vh")).Nodup := by
  obtain ⟨a, b, ha, hb, hspace, hdefault, hplaced, hparameters⟩ :
      ∃ a b, generate mixedModule = .ok a ∧ Build.ofModule mixedModule = .ok b ∧
        (∀ p ∈ b.placements, p.macroName ≠ "CSRS_ADDR") ∧ RegistersApart b (b.isArray .value) ∧
        RegistersApart b (b.isArray .max) ∧ ParametersApart b (b.isArray .max) :=
    ⟨_, _, rfl, rfl, by decide, by decide, by decide, by decide⟩
  have hnames : ∀ r ∈ Group.flatten mixedModule.groups, IsIdentifier r.name := by decide
  have htop : IsIdentifier mixedModule.name := by decide
  have hparams : ∀ y ∈ mixedModule.params, IsIdentifier y.name := by decide
  obtain ⟨x, hembedded, hsimulation, houtside, hinside, hfiles⟩ :=
    generate_nodup_names_iff hnames ha
  obtain rfl : b = x.build := Except.ok.inj (hb.symm.trans x.ofModule)
  obtain ⟨hembeddedFile, hsimulationFile, houtsideFile, hinsideFiles⟩ := hfiles htop
  refine ⟨hnames, ⟨htop, stated_mixedModule, hparams⟩, a, ha, x, hembedded.2 hspace,
    hsimulation.2 hspace, houtside.2 hdefault, hinside.2 ⟨hplaced, hparameters⟩, ?_⟩
  rw [hembeddedFile, hsimulationFile, houtsideFile, hinsideFiles stated_mixedModule hparams]
  exact ⟨hembedded.2 hspace, hsimulation.2 hspace, houtside.2 hdefault,
    hinside.2 ⟨hplaced, hparameters⟩⟩

/-- A module in which two parameters differ in the case of a letter, a register has the name of an
array with `_addr` after it, and another register has the name that the address space gives. -/
def probeModule : Module :=
  { name := "probe"
    version := { major := 1, minor := 0, patch := 0 }
    params :=
      [{ name := "w", fields := .constant (some (.literal 8)) },
        { name := "W", fields := .constant (some (.literal 16)) }]
    groups :=
      [⟨"main", "",
        [{ name := "taps", access := .read, width := .literal 8, logItems := .literal 2 },
          { name := "taps_addr", access := .read, width := .literal 8 },
          { name := "csrs_addr", access := .read, width := .literal 8 }]⟩] }

theorem stated_probeModule : probeModule.Stated := by
  intro r hr
  simp only [probeModule, Group.flatten_cons, Group.flatten_nil, List.append_nil, List.mem_cons,
    List.not_mem_nil, or_false] at hr
  rcases hr with rfl | rfl | rfl
  all_goals exact ⟨Formula.stated_literal (by decide), Formula.stated_literal (by decide)⟩

/-- The names of the module are identifiers, and all its headers define names twice. -/
theorem not_nodup_names_probeModule :
    (IsIdentifier probeModule.name ∧ (∀ x ∈ probeModule.params, IsIdentifier x.name) ∧
      ∀ r ∈ Group.flatten probeModule.groups, IsIdentifier r.name) ∧
    ∃ a, generate probeModule = .ok a ∧
      (¬ (a.namesIn .software (probeModule.name ++ "_csrs.h")).Nodup ∧
        ¬ (a.namesIn .software (probeModule.name ++ "_csrs_verilator.h")).Nodup ∧
        ¬ (a.namesIn .parameter (probeModule.name ++ "_csrs_lparam.vs")).Nodup ∧
        ¬ (a.namesIn .hardware (probeModule.name ++ "_csrs_conf.vh") ++
          a.namesIn .hardware (probeModule.name ++ "_csrs_def.vh")).Nodup) ∧
      ∀ x : Parts probeModule a,
        ¬ (names (Software.embeddedLines x.build x.accessors)).Nodup ∧
        ¬ (names (Software.simulationLines x.build x.accessors)).Nodup ∧
        ¬ (names x.parameters).Nodup ∧
        ¬ (names (x.configuration ++ Header.instanceLines x.build)).Nodup := by
  obtain ⟨a, b, accessors, configuration, parameters, ha, hb, haccessors, hconfiguration,
      hparameters, hembedded, hsimulation, houtside, hinside⟩ :
      ∃ a b accessors configuration parameters, generate probeModule = .ok a ∧
        Build.ofModule probeModule = .ok b ∧ Software.accessors b.placements = .ok accessors ∧
        Header.configurationLines b = .ok configuration ∧
        Header.parameterLines b = .ok parameters ∧
        ¬ (names (Software.embeddedLines b accessors)).Nodup ∧
        ¬ (names (Software.simulationLines b accessors)).Nodup ∧ ¬ (names parameters).Nodup ∧
        ¬ (names (configuration ++ Header.instanceLines b)).Nodup :=
    ⟨_, _, _, _, _, rfl, rfl, rfl, rfl, rfl, by decide, by decide, by decide, by decide⟩
  have hnames : ∀ r ∈ Group.flatten probeModule.groups, IsIdentifier r.name := by decide
  have htop : IsIdentifier probeModule.name := by decide
  have hparams : ∀ x ∈ probeModule.params, IsIdentifier x.name := by decide
  have hlines : ∀ x : Parts probeModule a,
      ¬ (names (Software.embeddedLines x.build x.accessors)).Nodup ∧
      ¬ (names (Software.simulationLines x.build x.accessors)).Nodup ∧
      ¬ (names x.parameters).Nodup ∧
      ¬ (names (x.configuration ++ Header.instanceLines x.build)).Nodup := by
    intro x
    obtain rfl : b = x.build := Except.ok.inj (hb.symm.trans x.ofModule)
    obtain rfl : accessors = x.accessors := Except.ok.inj (haccessors.symm.trans x.accessors_eq)
    obtain rfl : configuration = x.configuration :=
      Except.ok.inj (hconfiguration.symm.trans x.configuration_eq)
    obtain rfl : parameters = x.parameters :=
      Except.ok.inj (hparameters.symm.trans x.parameters_eq)
    exact ⟨hembedded, hsimulation, houtside, hinside⟩
  obtain ⟨x⟩ := nonempty_parts ha
  obtain ⟨hembeddedFile, hsimulationFile, houtsideFile, hinsideFiles⟩ :=
    Parts.namesIn_headers (x.named htop hnames)
  refine ⟨⟨htop, hparams, hnames⟩, a, ha, ?_, hlines⟩
  rw [hembeddedFile, hsimulationFile, houtsideFile, hinsideFiles stated_probeModule hparams]
  exact hlines x

end Artifacts

end RegisterBank
