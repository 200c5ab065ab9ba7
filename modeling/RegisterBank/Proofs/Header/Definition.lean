import RegisterBank.Header.Files
import RegisterBank.Proofs.Failure

/-!
# What the headers ask of a build

The header for code outside an instance gives the sizes of every register at the default parameter
values. So a build has headers only if each of its registers has a layout at these values, besides
the one that space is reserved by.
-/

namespace RegisterBank.Header

variable {b : Build} {p : Placement} {found : List TextFile}

theorem exists_of_defaultDefinitions_eq_ok {definitions : List Definition}
    (h : defaultDefinitions b p = .ok definitions) :
    ∃ layout, Layout.of p.register b.env .value = .ok layout := by
  rw [defaultDefinitions, bind_eq_ok_iff] at h
  obtain ⟨layout, hlayout, -⟩ := h
  exact ⟨layout, hlayout⟩

/-- Every register of a build with headers has a layout at the default parameter values. -/
theorem exists_layout_of_files_eq_ok (h : files b = .ok found) :
    ∀ p ∈ b.placements, ∃ layout, Layout.of p.register b.env .value = .ok layout := by
  simp only [files, bind_eq_ok_iff, parameterFile, parameterLines] at h
  obtain ⟨configuration, -, parameters, ⟨lines, ⟨found, hlines, -⟩, -⟩, -⟩ := h
  intro p hp
  obtain ⟨line, hline⟩ := exists_of_mapM_eq_ok hlines p hp
  rw [defaultLines, bind_eq_ok_iff] at hline
  obtain ⟨definitions, hdefinitions, -⟩ := hline
  exact exists_of_defaultDefinitions_eq_ok hdefinitions

end RegisterBank.Header
