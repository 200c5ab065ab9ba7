import Mathlib.Data.List.Pairwise
import RegisterBank.Artifacts
import RegisterBank.Proofs.Allocation.Rerun
import RegisterBank.Proofs.Allocation.Separation
import RegisterBank.Proofs.Hardware.RegisterFile
import RegisterBank.Proofs.Header.Definition
import RegisterBank.Proofs.Module.Table
import RegisterBank.Proofs.Software.Accessor

/-!
# What holds of every generated module

The parts of a module are generated one after the other, and each of them may refuse it for reasons
of its own: the table a bus of an odd width or a repeated name, the allocator an address, the
register file a written item that is wider than the bus, the headers a register without a layout at
the default parameter values, the software files an item without a word type. Nothing is generated
unless all of them agree, so each part can rely on what the others have checked. `Build.Checked`
collects these facts; what is shown of the register file and of the software is shown of checked
builds.
-/

namespace RegisterBank

open Hardware (checkWrite writable readable)

/-- A build that no part refuses. -/
structure Build.Checked (b : Build) : Prop where
  resolved : Environment.resolve b.design.params = .ok b.env
  dataWidth : b.design.settings.dataWidth ∈ Settings.dataWidths
  names : b.placements.Pairwise fun p q => p.register.Distinct q.register
  seated : ∀ p ∈ b.placements, p.Seated b.env
  ordered : b.placements.Pairwise fun p q =>
    b.design.settings.policy.overlap.Separates p.register.access q.register.access →
      p.address + p.layout.span ≤ q.address
  bytes : ∀ p ∈ b.placements, ∃ k ≤ 3, p.layout.bytes = 2 ^ k
  writes : ∀ p ∈ writable b.placements, checkWrite b p = .ok ()
  defaults : ∀ p ∈ b.placements, ∃ layout, Layout.of p.register b.env .value = .ok layout

theorem Settings.exists_dataWidth_eq {s : Settings} (h : s.dataWidth ∈ dataWidths) :
    ∃ k, s.dataWidth = 8 * 2 ^ k := by
  simp only [dataWidths, List.mem_cons, List.not_mem_nil, or_false] at h
  rcases h with h | h | h | h
  · exact ⟨0, h⟩
  · exact ⟨1, h⟩
  · exact ⟨2, h⟩
  · exact ⟨3, h⟩

namespace Policy

variable {policy : Policy} {env : Environment} {c c' : Cursors} {rs : List Register}
  {ps : List Placement}

/-- Placing registers leaves their names as they are. -/
theorem map_name_of_placeAll_eq_ok (h : policy.placeAll env c rs = .ok (ps, c')) :
    ps.map (·.register.name) = rs.map (·.name) := by
  have hsame := forall₂_of_placeAll_eq_ok h
  clear h
  induction hsame with
  | nil => rfl
  | cons hp _ ih => rw [List.map_cons, List.map_cons, hp, ih]

theorem distinct_of_placeAll_eq_ok (h : policy.placeAll env c rs = .ok (ps, c'))
    (hdistinct : rs.Pairwise Register.Distinct) :
    ps.Pairwise fun p q => p.register.Distinct q.register := by
  have hnames : (rs.map (·.name)).Pairwise fun a b => Text.asciiLower a ≠ Text.asciiLower b :=
    List.pairwise_map.2 hdistinct
  rwa [← map_name_of_placeAll_eq_ok h, List.pairwise_map] at hnames

end Policy

theorem Build.ofModule_eq_ok_iff {m : Module} {b : Build} :
    Build.ofModule m = .ok b ↔
      ∃ env table map, Environment.resolve m.params = .ok env ∧ m.table = .ok table ∧
        m.settings.policy.allocate env table = .ok map ∧ b = ⟨m, env, map⟩ := by
  simp only [Build.ofModule, bind_eq_ok_iff, Except.ok.injEq]
  constructor
  · rintro ⟨env, henv, table, htable, map, hmap, rfl⟩
    exact ⟨env, table, map, henv, htable, hmap, rfl⟩
  · rintro ⟨env, table, map, henv, htable, hmap, rfl⟩
    exact ⟨env, henv, table, htable, map, hmap, rfl⟩

namespace Artifacts

variable {m : Module} {a : Artifacts} {b : Build}

/-- Artifacts exist exactly where every kind of file does. -/
theorem ofBuild_eq_ok_iff :
    ofBuild b = .ok a ↔
      ∃ hardware headers software manual,
        Hardware.fragment b = .ok hardware ∧ Header.files b = .ok headers ∧
        Software.files b = .ok software ∧ Manual.files b = .ok manual ∧
        a = ⟨b.map, hardware,
          ⟨b.top ++ "_csrs" ++ ".v", hardware.render (b.top ++ "_csrs")⟩ :: headers ++ software
            ++ manual⟩ := by
  simp only [ofBuild, bind_eq_ok_iff, Except.ok.injEq]
  constructor
  · rintro ⟨hardware, hhardware, headers, hheaders, software, hsoftware, manual, hmanual, rfl⟩
    exact ⟨hardware, headers, software, manual, hhardware, hheaders, hsoftware, hmanual, rfl⟩
  · rintro ⟨hardware, headers, software, manual, hhardware, hheaders, hsoftware, hmanual, rfl⟩
    exact ⟨hardware, hhardware, headers, hheaders, software, hsoftware, manual, hmanual, rfl⟩

/-- A build from which artifacts are generated has passed all checks. -/
theorem checked_of_ofBuild_eq_ok (hbuild : Build.ofModule m = .ok b) (h : ofBuild b = .ok a) :
    b.Checked := by
  obtain ⟨env, table, map, henv, htable, hmap, rfl⟩ := Build.ofModule_eq_ok_iff.1 hbuild
  obtain ⟨hardware, headers, software, manual, hhardware, hheaders, hsoftware, -, rfl⟩ :=
    ofBuild_eq_ok_iff.1 h
  obtain ⟨hwrites, rfl⟩ := Hardware.fragment_eq_ok_iff.1 hhardware
  obtain ⟨cursors, hrun, -⟩ := Policy.placeAll_of_allocate_eq_ok hmap
  rw [Software.files, bind_eq_ok_iff] at hsoftware
  obtain ⟨accessors, haccessors, -⟩ := hsoftware
  exact
    { resolved := henv
      dataWidth := (Module.table_eq_ok_iff.1 htable).1
      names := Policy.distinct_of_placeAll_eq_ok hrun (Module.distinct_of_table_eq_ok htable)
      seated := Policy.seated_of_placeAll_eq_ok hrun
      ordered := Policy.pairwise_of_placeAll_eq_ok (Cursors.settled_default _) hrun
      bytes := Software.exists_bytes_eq_two_pow_of_accessors_eq_ok haccessors
      writes := hwrites
      defaults := Header.exists_layout_of_files_eq_ok hheaders }

/-- The artifacts of a module come from one checked build. -/
theorem exists_checked_of_generate_eq_ok (h : generate m = .ok a) :
    ∃ b : Build, b.Checked ∧ b.design = m ∧ b.map = a.map ∧
      a.hardware = Hardware.fragmentOf b := by
  rw [generate, bind_eq_ok_iff] at h
  obtain ⟨b, hbuild, h⟩ := h
  have hchecked := checked_of_ofBuild_eq_ok hbuild h
  obtain ⟨env, table, map, -, -, -, rfl⟩ := Build.ofModule_eq_ok_iff.1 hbuild
  obtain ⟨hardware, headers, software, manual, hhardware, -, -, -, rfl⟩ := ofBuild_eq_ok_iff.1 h
  obtain ⟨-, rfl⟩ := Hardware.fragment_eq_ok_iff.1 hhardware
  exact ⟨⟨m, env, map⟩, hchecked, rfl, rfl, rfl⟩

end Artifacts

namespace Build.Checked

variable {b : Build} {p : Placement}

theorem packed (hb : b.Checked) (hp : p ∈ b.placements) : p.layout.Packed := by
  obtain ⟨k, -, hbytes⟩ := hb.bytes p hp
  exact Layout.packed_of_bytes_eq (hb.seated p hp).layout hbytes

/-- A register of a build is known by its name. -/
theorem eq_of_name_eq {q : Placement} (hb : b.Checked) (hp : p ∈ b.placements)
    (hq : q ∈ b.placements) (hname : p.register.name = q.register.name) : p = q := by
  have : Std.Symm fun p q : Placement => p.register.Distinct q.register := ⟨fun _ _ h => h.symm⟩
  by_contra hne
  exact (hb.names.forall hp hq hne).name_ne hname

/-- A bus word has a power of two of bytes, and no bits besides them. -/
theorem exists_busBytes_eq_two_pow (hb : b.Checked) :
    ∃ k, b.busBytes = 2 ^ k ∧ 8 * b.busBytes = b.design.settings.dataWidth := by
  obtain ⟨k, hk⟩ := Settings.exists_dataWidth_eq hb.dataWidth
  have hbytes : b.busBytes = 2 ^ k := by
    rw [busBytes, Settings.busBytes, hk, Nat.mul_div_cancel_left _ (by decide)]
  exact ⟨k, hbytes, by rw [hbytes, hk]⟩

/-- Registers that share an access direction take disjoint ranges of bytes. -/
theorem disjoint_ranges (hb : b.Checked) :
    b.placements.Pairwise fun p q =>
      p.register.access.Shares q.register.access → Disjoint p.range q.range := by
  refine hb.ordered.imp ?_
  intro p q hpq hshares
  rw [Placement.range, Placement.range, Set.Ico_disjoint_Ico]
  exact (min_le_left _ _).trans ((hpq (.inl hshares)).trans (le_max_right _ _))

theorem disjoint_writable (hb : b.Checked) :
    (writable b.placements).Pairwise fun p q => Disjoint p.range q.range := by
  refine (hb.disjoint_ranges.filter _).imp_of_mem ?_
  intro p q hp hq hdisjoint
  exact hdisjoint (.inr ⟨(Hardware.mem_writable.1 hp).2, (Hardware.mem_writable.1 hq).2⟩)

theorem disjoint_readable (hb : b.Checked) :
    (readable b.placements).Pairwise fun p q => Disjoint p.range q.range := by
  refine (hb.disjoint_ranges.filter _).imp_of_mem ?_
  intro p q hp hq hdisjoint
  exact hdisjoint (.inl ⟨(Hardware.mem_readable.1 hp).2, (Hardware.mem_readable.1 hq).2⟩)

end Build.Checked

end RegisterBank
