import RegisterBank.Proofs.Header.Agreement

/-!
# The definitions in the headers

Each header has some plain lines, the definition of the width of the address space, and the
definitions of the registers in order of declaration. The C headers have all addresses before all
widths, inside a guard, and then declarations that define nothing.
-/

namespace RegisterBank.Header

variable {b : Build} {p : Placement} {lines : List Line}

theorem definitions_flatMap {α : Type} (f : α → List Line) (xs : List α) :
    definitions (xs.flatMap f) = xs.flatMap fun x => definitions (f x) :=
  List.filterMap_flatMap

/-- The header for use inside an instance. -/
theorem definitions_instanceLines (b : Build) :
    definitions (instanceLines b) =
      spaceDefinition b :: b.placements.flatMap (instanceDefinitions b) := by
  simp [instanceLines, definitions_flatMap, definitions_map_define]

/-- The definitions of a register in the header for code outside an instance, where it has a layout
at the default parameter values. -/
def valueDefinitions (b : Build) (p : Placement) : List Definition :=
  (defaultDefinitions b p).toOption.getD []

theorem definitions_of_defaultLines_eq_ok (h : defaultLines b p = .ok lines) :
    definitions lines = valueDefinitions b p := by
  rw [defaultLines, bind_eq_ok_iff] at h
  obtain ⟨found, hfound, h⟩ := h
  cases h
  simp [valueDefinitions, hfound, Except.toOption, definitions_map_define]

/-- The header for code outside an instance. -/
theorem definitions_parameterLines (h : parameterLines b = .ok lines) :
    definitions lines = spaceDefinition b :: b.placements.flatMap (valueDefinitions b) := by
  rw [parameterLines, bind_eq_ok_iff] at h
  obtain ⟨found, hfound, h⟩ := h
  cases h
  have hregisters : found.map definitions = b.placements.map (valueDefinitions b) :=
    map_eq_of_mapM_eq_ok hfound fun _ _ _ => definitions_of_defaultLines_eq_ok
  have hflatten : definitions found.flatten = (found.map definitions).flatten :=
    List.filterMap_flatten
  simp [hflatten, hregisters, List.flatMap_def]

theorem valueDefinitions_eq (hb : b.Checked) (hp : p ∈ b.placements) :
    ∃ layout, ∃ bits : Int, Layout.of p.register b.env .value = .ok layout ∧
      valueDefinitions b p =
        definitionsOf b p (0 < layout.logItems) (toString layout.addrWidth) (toString bits) := by
  obtain ⟨layout, hlayout⟩ := hb.defaults p hp
  obtain ⟨bits, -, hbits, -⟩ := Layout.of_eq_ok_iff.1 hlayout
  refine ⟨layout, bits, hlayout, ?_⟩
  rw [valueDefinitions, defaultDefinitions_eq_ok hlayout hbits]
  rfl

/-! ## The C headers -/

theorem definitions_macroLines (b : Build) :
    definitions (Software.macroLines b) =
      spaceDefinition b :: (Software.addressDefinitions b ++ Software.widthDefinitions b) := by
  simp [Software.macroLines, definitions_map_define]

theorem definitions_declarationLines (extra : List String) (accessors : List Software.Accessor) :
    definitions (Software.declarationLines b extra accessors) = [] := by
  simp [Software.declarationLines, definitions, Line.definition?]

theorem definitions_guarded (name : String) (lines : List Line) :
    definitions (Software.guarded name lines) = ⟨name, ""⟩ :: definitions lines := by
  simp [Software.guarded]

/-- The header for a processor. -/
theorem definitions_embeddedLines (b : Build) (accessors : List Software.Accessor) :
    definitions (Software.embeddedLines b accessors) =
      ⟨Software.guardName b "CSRS_H", ""⟩ :: definitions (Software.macroLines b) := by
  simp [Software.embeddedLines, definitions_guarded, definitions_declarationLines]

/-- The header for simulation. -/
theorem definitions_simulationLines (b : Build) (accessors : List Software.Accessor) :
    definitions (Software.simulationLines b accessors) =
      ⟨Software.guardName b "CSRS_VERILATOR_H", ""⟩ :: definitions (Software.macroLines b) := by
  simp [Software.simulationLines, definitions_guarded, definitions_declarationLines]

end RegisterBank.Header
