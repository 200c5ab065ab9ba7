import RegisterBank.Proofs.Exclusive
import RegisterBank.Proofs.Module.Table

/-!
# The completed table

The table of a module is its declared groups and what is added to them: the interrupt registers and
the version register. Nothing else changes (`Module.strip` takes the added parts away again), and a
table to which both have been added is complete: a module that declares it has it as its table.
-/

namespace RegisterBank

theorem isVersion_versionRegister (packed : Nat) : (versionRegister packed).isVersion = true :=
  beq_self_eq_true _

theorem Register.isVersion_iff {r : Register} :
    r.isVersion = true ↔ Text.asciiLower r.name = Text.asciiLower versionName :=
  beq_iff_eq

/-- Of registers with distinct names one at most is the version register. -/
theorem filter_isVersion_eq_singleton {rs : List Register} {r : Register}
    (hdistinct : rs.Pairwise Register.Distinct) (hr : r ∈ rs) (hversion : r.isVersion = true) :
    rs.filter (·.isVersion) = [r] := by
  have happart : rs.Pairwise fun s t => ¬ (s.isVersion = true ∧ t.isVersion = true) :=
    hdistinct.imp fun hne hboth =>
      hne ((Register.isVersion_iff.1 hboth.1).trans (Register.isVersion_iff.1 hboth.2).symm)
  simpa using filter_eq_singleton happart hr hversion

namespace Table

variable {table : Table} {name other descr : String} {r : Register} {g : Group Register}

/-- A group of the name is among the groups. -/
def Declares (table : Table) (name : String) : Prop :=
  ∃ g ∈ table, g.name = name

instance (table : Table) (name : String) : Decidable (table.Declares name) :=
  inferInstanceAs (Decidable (∃ g ∈ table, g.name = name))

/-- The groups without their version registers. -/
def withoutVersion (table : Table) : Table :=
  table.map fun g => { g with members := g.members.filter fun r => !r.isVersion }

/-- The groups of other names. -/
def withoutGroup (table : Table) (name : String) : Table :=
  table.filter fun g => g.name ≠ name

/-- The groups without those of the name that have no registers. -/
def withoutEmpty (table : Table) (name : String) : Table :=
  table.filter fun g => ¬ (g.name = name ∧ g.members = [])

theorem declares_cons : Declares (g :: table) name ↔ g.name = name ∨ table.Declares name :=
  List.exists_mem_cons_iff _ _ _

theorem declares_append {later : Table} :
    Declares (table ++ later) name ↔ table.Declares name ∨ later.Declares name := by
  simp only [Declares, List.mem_append, or_and_right, exists_or]

theorem declares_singleton : Declares [g] name ↔ g.name = name := by
  simp [Declares]

theorem withoutVersion_cons : withoutVersion (g :: table) =
    { g with members := g.members.filter fun r => !r.isVersion } :: withoutVersion table := rfl

theorem withoutGroup_append {later : Table} :
    withoutGroup (table ++ later) name = withoutGroup table name ++ withoutGroup later name :=
  List.filter_append _ _

theorem withoutEmpty_append {later : Table} :
    withoutEmpty (table ++ later) name = withoutEmpty table name ++ withoutEmpty later name :=
  List.filter_append _ _

theorem withoutGroup_of_not_declares (h : ¬ table.Declares name) :
    table.withoutGroup name = table := by
  refine List.filter_eq_self.2 fun g hg => decide_eq_true ?_
  exact fun hname => h ⟨g, hg, hname⟩

theorem withoutEmpty_of_not_declares (h : ¬ table.Declares name) :
    table.withoutEmpty name = table := by
  refine List.filter_eq_self.2 fun g hg => decide_eq_true ?_
  exact fun hempty => h ⟨g, hg, hempty.1⟩

/-! ## The interrupt registers -/

theorem withInterrupts_of_declares (h : table.Declares interruptGroupName) :
    table.withInterrupts = table := by
  obtain ⟨g, hg, hname⟩ := h
  rw [withInterrupts, if_pos]
  exact List.any_eq_true.2 ⟨g, hg, beq_iff_eq.2 hname⟩

theorem withInterrupts_of_not_declares (h : ¬ table.Declares interruptGroupName) :
    table.withInterrupts = table ++ [interruptGroup] := by
  rw [withInterrupts, if_neg]
  intro hany
  obtain ⟨g, hg, hname⟩ := List.any_eq_true.1 hany
  exact h ⟨g, hg, beq_iff_eq.1 hname⟩

/-! ## The version register -/

theorem hasVersion_append {later : Table} :
    hasVersion (table ++ later) = (table.hasVersion || later.hasVersion) := by
  rw [hasVersion, Group.flatten_append, List.any_append, hasVersion, hasVersion]

theorem hasVersion_cons :
    hasVersion (g :: table) = (g.members.any (·.isVersion) || table.hasVersion) := by
  rw [hasVersion, Group.flatten_cons, List.any_append, hasVersion]

theorem declares_addTo :
    (table.addTo name descr r).Declares other ↔ table.Declares other ∨ name = other := by
  induction table with
  | nil => simp [addTo, Declares]
  | cons g rest ih =>
      rw [addTo]
      split
      · rename_i hname
        rw [declares_cons, declares_cons]
        constructor
        · exact .inl
        · rintro (h | h)
          · exact h
          · exact .inl (hname.trans h)
      · rw [declares_cons, declares_cons, ih, or_assoc]

theorem mem_addTo_of_ne (hg : g ∈ table) (hname : g.name ≠ name) :
    g ∈ table.addTo name descr r := by
  induction table with
  | nil => exact absurd hg List.not_mem_nil
  | cons first rest ih =>
      rw [addTo]
      rcases List.mem_cons.1 hg with rfl | hrest
      · rw [if_neg hname]
        exact List.mem_cons_self
      · split
        · exact List.mem_cons_of_mem _ hrest
        · exact List.mem_cons_of_mem _ (ih hrest)

theorem mem_flatten_addTo : r ∈ Group.flatten (table.addTo name descr r) := by
  induction table with
  | nil => simp [addTo]
  | cons g rest ih =>
      rw [addTo]
      split
      · simp
      · exact List.mem_append_right _ ih

theorem filter_eq_self_of_any_eq_false {rs : List Register}
    (h : rs.any (·.isVersion) = false) : (rs.filter fun r => !r.isVersion) = rs := by
  refine List.filter_eq_self.2 fun r hr => ?_
  rw [Bool.not_eq_true', Bool.eq_false_iff]
  exact List.any_eq_false.1 h r hr

theorem withoutVersion_of_hasVersion_eq_false (h : table.hasVersion = false) :
    table.withoutVersion = table := by
  induction table with
  | nil => rfl
  | cons g rest ih =>
      rw [hasVersion_cons, Bool.or_eq_false_iff] at h
      rw [withoutVersion_cons, ih h.2, filter_eq_self_of_any_eq_false h.1]

/-- Without the version register that was put into it, a table is as before, except that a group may
have been added for the register. -/
theorem withoutVersion_addTo (hr : r.isVersion = true) (h : table.hasVersion = false) :
    (table.addTo name descr r).withoutVersion =
      if table.Declares name then table else table ++ [⟨name, descr, []⟩] := by
  induction table with
  | nil => simp [addTo, withoutVersion, Declares, hr]
  | cons g rest ih =>
      rw [hasVersion_cons, Bool.or_eq_false_iff] at h
      have hmembers := filter_eq_self_of_any_eq_false h.1
      rw [addTo]
      by_cases hname : g.name = name
      · have hadded : ((g.members ++ [r]).filter fun r => !r.isVersion) = g.members := by
          simp [List.filter_append, hmembers, hr]
        rw [if_pos hname, if_pos (declares_cons.2 (.inl hname)), withoutVersion_cons, hadded,
          withoutVersion_of_hasVersion_eq_false h.2]
      · rw [if_neg hname, withoutVersion_cons, hmembers, ih h.2]
        simp only [declares_cons, hname, false_or]
        split <;> rfl

end Table

namespace Module

variable {m : Module} {table : Table}

/-- A table of the module without the registers and the groups that the module does not declare: the
version register, the interrupt registers, and the group that the version register was in. -/
def strip (m : Module) (table : Table) : Table :=
  let table := if m.groups.hasVersion then table else table.withoutVersion
  let table :=
    if m.settings.interrupts ∧ ¬ m.groups.Declares interruptGroupName then
      table.withoutGroup interruptGroupName
    else table
  if m.groups.Declares generalGroupName then table else table.withoutEmpty generalGroupName

/-- Nothing is left to be added to the table. -/
structure Complete (m : Module) (table : Table) : Prop where
  version : table.hasVersion = true
  interrupts : m.settings.interrupts = true → table.Declares interruptGroupName

/-- The group of interrupt registers is added, or all groups are declared. -/
theorem equipped_cases (m : Module) :
    m.settings.interrupts = true ∧ ¬ m.groups.Declares interruptGroupName ∧
        m.equipped = m.groups ++ [interruptGroup] ∨
      ¬ (m.settings.interrupts = true ∧ ¬ m.groups.Declares interruptGroupName) ∧
        m.equipped = m.groups := by
  unfold equipped
  by_cases henabled : m.settings.interrupts = true
  · by_cases hdeclared : m.groups.Declares interruptGroupName
    · rw [if_pos henabled, Table.withInterrupts_of_declares hdeclared]
      exact .inr ⟨fun h => h.2 hdeclared, rfl⟩
    · rw [if_pos henabled, Table.withInterrupts_of_not_declares hdeclared]
      exact .inl ⟨henabled, hdeclared, rfl⟩
  · rw [if_neg henabled]
    exact .inr ⟨fun h => henabled h.1, rfl⟩

theorem hasVersion_equipped : m.equipped.hasVersion = m.groups.hasVersion := by
  rcases m.equipped_cases with ⟨-, -, heq⟩ | ⟨-, heq⟩
  · have hinterrupts : Table.hasVersion [interruptGroup] = false := by decide
    rw [heq, Table.hasVersion_append, hinterrupts, Bool.or_false]
  · rw [heq]

theorem declares_general_equipped :
    m.equipped.Declares generalGroupName ↔ m.groups.Declares generalGroupName := by
  rcases m.equipped_cases with ⟨-, -, heq⟩ | ⟨-, heq⟩
  · have hname : interruptGroup.name ≠ generalGroupName := by decide
    rw [heq, Table.declares_append, Table.declares_singleton, or_iff_left hname]
  · rw [heq]

theorem declares_interrupts_equipped (h : m.settings.interrupts = true) :
    m.equipped.Declares interruptGroupName := by
  rcases m.equipped_cases with ⟨-, -, heq⟩ | ⟨hnot, heq⟩
  · rw [heq, Table.declares_append, Table.declares_singleton]
    exact .inr rfl
  · rw [heq]
    by_contra hdeclared
    exact hnot ⟨h, hdeclared⟩

/-- The version register is declared, or is added. -/
theorem withVersion_eq_ok_iff {groups : Table} :
    m.withVersion groups = .ok table ↔
      groups.hasVersion = true ∧ table = groups ∨
        groups.hasVersion = false ∧ ∃ packed, m.packedVersion = .ok packed ∧
          table = groups.addTo generalGroupName "General Registers." (versionRegister packed) := by
  rw [withVersion]
  by_cases hversion : groups.hasVersion = true
  · simp [hversion, eq_comm]
  · rw [if_neg hversion, bind_eq_ok_iff]
    simp [hversion, eq_comm]

theorem complete_of_withVersion_eq_ok (h : m.withVersion m.equipped = .ok table) :
    m.Complete table := by
  rcases withVersion_eq_ok_iff.1 h with ⟨hversion, rfl⟩ | ⟨-, packed, -, rfl⟩
  · exact ⟨hversion, declares_interrupts_equipped⟩
  · refine ⟨?_, fun henabled =>
      Table.declares_addTo.2 (.inl (declares_interrupts_equipped henabled))⟩
    exact List.any_eq_true.2
      ⟨_, Table.mem_flatten_addTo, isVersion_versionRegister packed⟩

/-- Without the version register that was added the equipped groups are left, and after them an
empty group where one was added for the register. -/
theorem exists_later_of_withVersion_eq_ok (h : m.withVersion m.equipped = .ok table) :
    ∃ later : Table, (if m.groups.hasVersion then table else table.withoutVersion) =
        m.equipped ++ later ∧
      (∀ g ∈ later, g.name = generalGroupName ∧ g.members = []) ∧
      (m.groups.Declares generalGroupName → later = []) := by
  rcases withVersion_eq_ok_iff.1 h with ⟨hversion, rfl⟩ | ⟨hversion, packed, -, rfl⟩
  · rw [hasVersion_equipped] at hversion
    exact ⟨[], by rw [if_pos hversion, List.append_nil], fun _ hg => absurd hg List.not_mem_nil,
      fun _ => rfl⟩
  · have hdeclared : m.groups.hasVersion = false := hasVersion_equipped ▸ hversion
    rw [if_neg (Bool.eq_false_iff.1 hdeclared),
      Table.withoutVersion_addTo (isVersion_versionRegister packed) hversion]
    simp only [declares_general_equipped]
    split
    · exact ⟨[], (List.append_nil _).symm, fun _ hg => absurd hg List.not_mem_nil, fun _ => rfl⟩
    · rename_i hgeneral
      refine ⟨_, rfl, fun g hg => ?_, fun h => absurd h hgeneral⟩
      rw [List.mem_singleton.1 hg]
      exact ⟨rfl, rfl⟩

/-- The declared groups are left when everything that was added is taken away. -/
theorem strip_of_withVersion_eq_ok (h : m.withVersion m.equipped = .ok table) :
    m.strip table = m.groups := by
  obtain ⟨later, hversion, hlater, hdeclared⟩ := exists_later_of_withVersion_eq_ok h
  have hkept : later.withoutGroup interruptGroupName = later := by
    refine Table.withoutGroup_of_not_declares ?_
    rintro ⟨g, hg, hname⟩
    exact absurd ((hlater g hg).1.symm.trans hname) (by decide)
  have hinterrupts : (if m.settings.interrupts ∧ ¬ m.groups.Declares interruptGroupName then
      (m.equipped ++ later).withoutGroup interruptGroupName else m.equipped ++ later) =
        m.groups ++ later := by
    rcases m.equipped_cases with ⟨henabled, hnot, heq⟩ | ⟨hnot, heq⟩
    · have hadded : Table.withoutGroup [interruptGroup] interruptGroupName = [] := rfl
      rw [if_pos ⟨henabled, hnot⟩, heq, Table.withoutGroup_append, Table.withoutGroup_append,
        Table.withoutGroup_of_not_declares hnot, hadded, hkept, List.append_nil]
    · rw [if_neg hnot, heq]
  rw [strip, hversion, hinterrupts]
  split
  · rename_i hgeneral
    rw [hdeclared hgeneral, List.append_nil]
  · rename_i hgeneral
    have hempty : later.withoutEmpty generalGroupName = [] :=
      List.filter_eq_nil_iff.2 fun g hg hkeep => of_decide_eq_true hkeep (hlater g hg)
    rw [Table.withoutEmpty_append, Table.withoutEmpty_of_not_declares hgeneral, hempty,
      List.append_nil]

/-- A module that declares a complete table has it as its table. -/
theorem table_of_complete (hwidth : m.settings.dataWidth ∈ Settings.dataWidths)
    (hcomplete : m.Complete m.groups)
    (hnames : Table.nameFault? [] (Group.flatten m.groups) = none) : m.table = .ok m.groups := by
  have hequipped : m.equipped = m.groups := by
    rcases m.equipped_cases with ⟨henabled, hnot, -⟩ | ⟨-, heq⟩
    · exact absurd (hcomplete.interrupts henabled) hnot
    · exact heq
  have hversion : m.withVersion m.equipped = .ok m.groups := by
    rw [hequipped, withVersion, if_pos hcomplete.version]
  have hnonempty : Group.flatten m.groups ≠ [] := by
    intro hempty
    have hmissing := hcomplete.version
    rw [Table.hasVersion, hempty] at hmissing
    cases hmissing
  exact table_eq_ok_iff.2 ⟨hwidth, hnonempty, hversion, hnames⟩

/-- The version register of a table is declared, or shows the version of the module. -/
theorem exists_filter_isVersion_eq (h : m.table = .ok table) :
    ∃ r, (Group.flatten table).filter (·.isVersion) = [r] ∧
      (m.groups.hasVersion = false →
        ∃ packed, m.packedVersion = .ok packed ∧ r = versionRegister packed) := by
  have hdistinct := distinct_of_table_eq_ok h
  obtain ⟨-, -, hadded, -⟩ := table_eq_ok_iff.1 h
  rcases withVersion_eq_ok_iff.1 hadded with ⟨hversion, rfl⟩ | ⟨-, packed, hpacked, rfl⟩
  · obtain ⟨r, hr, hisVersion⟩ := List.any_eq_true.1 hversion
    refine ⟨r, filter_isVersion_eq_singleton hdistinct hr hisVersion, fun hnone => ?_⟩
    rw [hasVersion_equipped, hnone] at hversion
    cases hversion
  · exact ⟨_, filter_isVersion_eq_singleton hdistinct Table.mem_flatten_addTo
      (isVersion_versionRegister packed), fun _ => ⟨packed, hpacked, rfl⟩⟩

theorem interruptGroup_mem_of_table_eq_ok (h : m.table = .ok table)
    (henabled : m.settings.interrupts = true)
    (hnot : ¬ m.groups.Declares interruptGroupName) : interruptGroup ∈ table := by
  obtain ⟨-, -, hadded, -⟩ := table_eq_ok_iff.1 h
  have hmem : interruptGroup ∈ m.equipped := by
    rcases m.equipped_cases with ⟨-, -, heq⟩ | ⟨hdeclared, -⟩
    · rw [heq]
      exact List.mem_append_right _ List.mem_cons_self
    · exact absurd ⟨henabled, hnot⟩ hdeclared
  rcases withVersion_eq_ok_iff.1 hadded with ⟨-, rfl⟩ | ⟨-, packed, -, rfl⟩
  · exact hmem
  · exact Table.mem_addTo_of_ne hmem (by decide)

/-- A table has one version register, and its registers have distinct names. Without the version
register and the interrupt registers that were added to them the declared groups are left as they
were. Nothing is added to a table a second time. -/
theorem table_completes (h : m.table = .ok table) :
    (∃ r, (Group.flatten table).filter (·.isVersion) = [r] ∧
      (m.groups.hasVersion = false →
        ∃ packed, m.packedVersion = .ok packed ∧ r = versionRegister packed)) ∧
    (Group.flatten table).Pairwise Register.Distinct ∧
    (∀ r ∈ Group.flatten table, r.name ≠ "") ∧
    (m.settings.interrupts = true → ¬ m.groups.Declares interruptGroupName →
      interruptGroup ∈ table) ∧
    m.strip table = m.groups ∧
    ∀ m' : Module, m'.settings = m.settings → m'.version = m.version → m'.groups = table →
      m'.table = .ok table := by
  obtain ⟨hwidth, -, hadded, hnames⟩ := table_eq_ok_iff.1 h
  have hcomplete : m.Complete table := complete_of_withVersion_eq_ok hadded
  obtain ⟨hdistinct, hnamed⟩ := Table.nameFault?_eq_none_iff.1 hnames
  refine ⟨exists_filter_isVersion_eq h, hdistinct, fun r hr => (hnamed r hr).1,
    interruptGroup_mem_of_table_eq_ok h, strip_of_withVersion_eq_ok hadded, ?_⟩
  rintro m' hsettings - rfl
  refine table_of_complete (hsettings ▸ hwidth) ⟨hcomplete.version, ?_⟩ hnames
  rw [hsettings]
  exact hcomplete.interrupts

/-- A module with interrupts that declares an empty group and no version register. -/
def sensorModule : Module :=
  { name := "sensor"
    version := { major := 1, minor := 20, patch := 3 }
    groups :=
      [⟨"reserved", "", []⟩,
        ⟨"main", "", [{ name := "level", access := .read, width := .literal 8 }]⟩]
    settings := { interrupts := true } }

theorem table_completes_sensorModule :
    ∃ table, sensorModule.table = .ok table ∧
      table.map (·.name) = ["reserved", "main", "interrupt_csrs", "general"] ∧
      (Group.flatten table).filter (·.isVersion) = [versionRegister 0x0120] ∧
      sensorModule.strip table = sensorModule.groups ∧
      { sensorModule with groups := table }.table = .ok table := by
  obtain ⟨table, htable, hnames⟩ : ∃ table, sensorModule.table = .ok table ∧
      table.map (·.name) = ["reserved", "main", "interrupt_csrs", "general"] := ⟨_, rfl, rfl⟩
  obtain ⟨⟨r, hr, hversion⟩, -, -, -, hstrip, hagain⟩ := table_completes htable
  obtain ⟨packed, hpacked, rfl⟩ := hversion (by decide)
  cases hpacked
  exact ⟨table, htable, hnames, hr, hstrip, hagain _ rfl rfl rfl⟩

end Module

end RegisterBank
