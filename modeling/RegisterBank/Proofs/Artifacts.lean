import RegisterBank.Proofs.Build

/-!
# The parts of the artifacts

What is generated for a module is put together from one build. `Artifacts.Parts` names the parts:
the accessors of its registers, the lines of its headers and the tables of its groups, with all
files in the order in which they are written.
-/

namespace RegisterBank.Artifacts

variable {m : Module} {a : Artifacts}

/-- What the artifacts of a module are put together from. -/
structure Parts (m : Module) (a : Artifacts) where
  build : Build
  accessors : List Software.Accessor
  /-- The lines of the header with the default values of the parameters. -/
  configuration : List Header.Line
  /-- The lines of the header for code outside an instance. -/
  parameters : List Header.Line
  /-- The tables of the groups for the manual. -/
  tables : List TextFile
  ofModule : Build.ofModule m = .ok build
  checked : build.Checked
  accessors_eq : Software.accessors build.placements = .ok accessors
  configuration_eq : Header.configurationLines build = .ok configuration
  parameters_eq : Header.parameterLines build = .ok parameters
  tables_eq : build.map.groups.mapM (Manual.groupFile build) = .ok tables
  map_eq : a.map = build.map
  hardware_eq : a.hardware = Hardware.fragmentOf build
  files_eq : a.files =
    [⟨build.top ++ "_csrs" ++ ".v", (Hardware.fragmentOf build).render (build.top ++ "_csrs")⟩,
      Header.file s!"{build.top}_csrs_conf.vh" Header.Definition.hardwareMacro configuration,
      Header.instanceFile build,
      Header.file s!"{build.top}_csrs_lparam.vs" Header.Definition.localParameter parameters,
      Software.embeddedHeader build accessors, Software.embeddedSource build accessors,
      Software.simulationHeader build accessors, Software.simulationSource build accessors,
      Software.testbenchFile build, Manual.indexFile build] ++ tables

theorem Parts.design_eq (x : Parts m a) : x.build.design = m := by
  obtain ⟨env, table, map, -, -, -, hbuild⟩ := Build.ofModule_eq_ok_iff.1 x.ofModule
  rw [hbuild]

theorem nonempty_parts (h : generate m = .ok a) : Nonempty (Parts m a) := by
  rw [generate, bind_eq_ok_iff] at h
  obtain ⟨b, hb, h⟩ := h
  have hchecked := checked_of_ofBuild_eq_ok hb h
  obtain ⟨hardware, headers, software, manual, hhardware, hheaders, hsoftware, hmanual, rfl⟩ :=
    ofBuild_eq_ok_iff.1 h
  obtain ⟨-, rfl⟩ := Hardware.fragment_eq_ok_iff.1 hhardware
  simp only [Header.files, Header.configurationFile, Header.parameterFile, bind_eq_ok_iff,
    Except.ok.injEq] at hheaders
  obtain ⟨_, ⟨configuration, hconfiguration, rfl⟩, _, ⟨parameters, hparameters, rfl⟩, rfl⟩ :=
    hheaders
  simp only [Software.files, bind_eq_ok_iff, Except.ok.injEq] at hsoftware
  obtain ⟨accessors, haccessors, rfl⟩ := hsoftware
  simp only [Manual.files, bind_eq_ok_iff, Except.ok.injEq] at hmanual
  obtain ⟨tables, htables, rfl⟩ := hmanual
  exact ⟨b, accessors, configuration, parameters, tables, hb, hchecked, haccessors, hconfiguration,
    hparameters, htables, rfl, rfl, rfl⟩

end RegisterBank.Artifacts
