import RegisterBank.Proofs.Allocation.Rules

/-!
# The allocator keeps the rules

`Policy.Laid` is the rule for one register after the other: the places of the registers before it
decide what is left for it. A run from cursors that record these places puts the next register where
the rules put it and records it too, so whole runs follow the rules
(`Policy.laid_of_placeAll_eq_ok`), and a run that fails stops at the first register that breaks one
(`Policy.refuses_of_placeAll_eq_error`).

For tables, `Policy.allocate_eq_iff` says which of them the allocator accepts, what it answers for
these, and with which error it refuses the others.
-/

namespace RegisterBank

/-- The same group with every register at an address, and otherwise unchanged. -/
def Group.PlacedAs (g : Group Register) (h : Group Placement) : Prop :=
  g.Related (fun r p => p.register = { r with address := some p.address }) h

namespace Policy

/-- The places of registers that follow other placed registers: each of them follows the rules for
one, and nothing is left for it of what the registers before it have reserved. -/
def Laid (policy : Policy) (env : Environment) :
    List Placement → List Register → List Placement → Prop
  | _, [], [] => True
  | before, r :: rs, p :: ps =>
    p.Follows policy env (policy.overlap.reserved r.access before) r ∧
      Laid policy env (before ++ [p]) rs ps
  | _, _, _ => False

variable {policy : Policy} {env : Environment} {c c' : Cursors} {r : Register} {p : Placement}
  {before ps : List Placement} {rs : List Register} {table : Table} {map : AddressMap} {e : Error}

/-! ## One register after the other -/

/-- One placement from cursors that record the registers before it. -/
theorem records_of_follows (hc : c.Records policy.overlap before)
    (h : p.Follows policy env (c.floor r.access) r) :
    ((c.advance p.register.access p.stop).settle policy.overlap).Records policy.overlap
      (before ++ [p]) := by
  refine hc.append_singleton ?_ h.inside
  rw [h.register]
  exact h.address.le

/-- A run succeeds only with the places that the rules give, and its cursors record them. -/
theorem laid_of_placeAll_eq_ok (hc : c.Records policy.overlap before)
    (h : policy.placeAll env c rs = .ok (ps, c')) :
    policy.Laid env before rs ps ∧ c'.Records policy.overlap (before ++ ps) := by
  induction rs generalizing c before ps with
  | nil =>
      cases h
      rw [List.append_nil]
      exact ⟨trivial, hc⟩
  | cons r rs ih =>
      obtain ⟨p, c₁, qs, hplace, hrest, rfl⟩ := placeAll_cons_eq_ok_iff.1 h
      obtain ⟨hfollows, rfl⟩ := (place_eq_ok_iff_follows (hc.floor_le _)).1 hplace
      obtain ⟨hlaid, hrecords⟩ := ih (records_of_follows hc hfollows) hrest
      rw [List.append_assoc] at hrecords
      rw [hc.floor] at hfollows
      exact ⟨⟨hfollows, hlaid⟩, hrecords⟩

/-- A run succeeds whenever there are places that follow the rules. -/
theorem exists_placeAll_of_laid (hc : c.Records policy.overlap before)
    (h : policy.Laid env before rs ps) :
    ∃ c', policy.placeAll env c rs = .ok (ps, c') := by
  induction rs generalizing c before ps with
  | nil =>
      cases ps with
      | nil => exact ⟨c, rfl⟩
      | cons p ps => cases h
  | cons r rs ih =>
      cases ps with
      | nil => cases h
      | cons p ps =>
          obtain ⟨hfollows, hlaid⟩ := h
          rw [← hc.floor] at hfollows
          have hplace := (place_eq_ok_iff_follows (hc.floor_le _)).2 ⟨hfollows, rfl⟩
          obtain ⟨c', hrest⟩ := ih (records_of_follows hc hfollows) hlaid
          exact ⟨c', placeAll_cons_eq_ok_iff.2 ⟨p, _, ps, hplace, hrest, rfl⟩⟩

/-- A run that fails has placed some registers and stops at one that breaks a rule. -/
theorem refuses_of_placeAll_eq_error (hc : c.Records policy.overlap before)
    (h : policy.placeAll env c rs = .error e) :
    ∃ first r later ps, rs = first ++ r :: later ∧ policy.Laid env before first ps ∧
      policy.Refuses env (policy.overlap.reserved r.access (before ++ ps)) r e := by
  induction rs generalizing c before with
  | nil => cases h
  | cons r rs ih =>
      rw [placeAll_cons, bind_eq_error_iff] at h
      rcases h with hplace | ⟨⟨p, c₁⟩, hplace, h⟩
      · have hrefuses := (place_eq_error_iff_refuses (hc.floor_le _)).1 hplace
        refine ⟨[], r, rs, [], rfl, trivial, ?_⟩
        rwa [List.append_nil, ← hc.floor]
      · have hrest : policy.placeAll env c₁ rs = .error e := by
          rcases bind_eq_error_iff.1 h with hrest | ⟨_, _, hok⟩
          · exact hrest
          · cases hok
        obtain ⟨hfollows, rfl⟩ := (place_eq_ok_iff_follows (hc.floor_le _)).1 hplace
        obtain ⟨first, r', later, ps, rfl, hlaid, hrefuses⟩ :=
          ih (records_of_follows hc hfollows) hrest
        rw [List.append_assoc] at hrefuses
        rw [hc.floor] at hfollows
        exact ⟨r :: first, r', later, p :: ps, rfl, ⟨hfollows, hlaid⟩, hrefuses⟩

/-- A run stops at a register that breaks a rule, whatever follows it. -/
theorem placeAll_eq_error_of_refuses {first later : List Register}
    (hc : c.Records policy.overlap before) (hlaid : policy.Laid env before first ps)
    (hrefuses : policy.Refuses env (policy.overlap.reserved r.access (before ++ ps)) r e) :
    policy.placeAll env c (first ++ r :: later) = .error e := by
  obtain ⟨c₁, hrun⟩ := exists_placeAll_of_laid hc hlaid
  obtain ⟨-, hrecords⟩ := laid_of_placeAll_eq_ok hc hrun
  rw [← hrecords.floor] at hrefuses
  have hplace := (place_eq_error_iff_refuses (hrecords.floor_le _)).2 hrefuses
  rw [placeAll_append, hrun, ok_bind, placeAll_cons, hplace, error_bind, error_bind]

/-! ## Tables -/

/-- The cut into groups is kept. -/
theorem placedAs_of_placeGroups_eq_ok {groups : List (Group Placement)}
    (h : policy.placeGroups env c table = .ok (groups, c')) :
    List.Forall₂ Group.PlacedAs table groups := by
  induction table generalizing c groups with
  | nil =>
      cases h
      exact .nil
  | cons g rest ih =>
      obtain ⟨members, c₁, others, hmembers, hrest, rfl⟩ := placeGroups_cons_eq_ok_iff.1 h
      exact .cons ⟨rfl, rfl, forall₂_of_placeAll_eq_ok hmembers⟩ (ih hrest)

end Policy

/-- Groups with the same cut and the same members are the same. -/
theorem Group.eq_of_placedAs {table : Table} {gs hs : List (Group Placement)}
    (hgs : List.Forall₂ Group.PlacedAs table gs) (hhs : List.Forall₂ Group.PlacedAs table hs)
    (h : Group.flatten gs = Group.flatten hs) : gs = hs := by
  induction hgs generalizing hs with
  | nil =>
      cases hhs
      rfl
  | @cons g g' table gs hg hgs ih =>
      obtain ⟨h', hs, hh, hrest', rfl⟩ := List.forall₂_cons_left_iff.1 hhs
      have hlength := hg.members.length_eq.symm.trans hh.members.length_eq
      obtain ⟨hmembers, hrest⟩ := List.append_inj h hlength
      have hfirst : g' = h' := by
        obtain ⟨name, descr, members⟩ := g'
        obtain rfl : g.name = name := hg.name
        obtain rfl : g.descr = descr := hg.descr
        rw [show members = h'.members from hmembers, hh.name, hh.descr]
      rw [hfirst, ih hrest' hrest]

namespace Policy

variable {policy : Policy} {env : Environment} {table : Table} {map : AddressMap} {e : Error}

/-- The width of an address covers the greater cursor, and so the ends of all registers. -/
theorem isLeast_addrWidth {o : Overlap} {ps : List Placement} {c : Cursors}
    (hc : c.Records o ps) :
    IsLeast {w | ∀ p ∈ ps, p.stop ≤ 2 ^ w} (Block.ceilLog2 c.top) := by
  have hcovers : ∀ w, (∀ p ∈ ps, p.stop ≤ 2 ^ w) ↔ Block.ceilLog2 c.top ≤ w := by
    intro w
    rw [← hc.top_le_iff, Block.ceilLog2_le_iff]
  exact ⟨(hcovers _).2 (le_refl _), fun w hw => (hcovers w).1 hw⟩

/-- Places that follow the rules are those of a run over the groups of the table. -/
theorem exists_placeGroups_of_laid {ps : List Placement}
    (h : policy.Laid env [] (Group.flatten table) ps) :
    ∃ groups c', policy.placeGroups env {} table = .ok (groups, c') ∧
      Group.flatten groups = ps ∧ c'.Records policy.overlap ps := by
  have hstart := Cursors.records_nil policy.overlap
  obtain ⟨c', hrun⟩ := exists_placeAll_of_laid hstart h
  obtain ⟨-, hrecords⟩ := laid_of_placeAll_eq_ok hstart hrun
  rw [placeAll_flatten, bind_eq_ok_iff] at hrun
  obtain ⟨⟨groups, c₁⟩, hgroups, heq⟩ := hrun
  cases heq
  exact ⟨groups, c₁, hgroups, rfl, hrecords⟩

theorem allocate_eq_error_iff :
    policy.allocate env table = .error e ↔
      Group.flatten table = [] ∧ e = .configuration .emptyTable ∨
        policy.placeAll env {} (Group.flatten table) = .error e := by
  by_cases hempty : Group.flatten table = []
  · rw [allocate, if_pos (List.isEmpty_iff.2 hempty), hempty, placeAll_nil]
    simp [eq_comm]
  · rw [allocate, if_neg (by rwa [List.isEmpty_iff]), placeAll_flatten, bind_eq_error_iff,
      bind_eq_error_iff]
    simp [hempty]

/-- The allocator keeps the rules and nothing else. It places a table with registers exactly as the
rules do, one register after the other, and gives it the least address width that covers them all;
it succeeds whenever they leave a place for every register; and it fails exactly where the table has
no register, or with the error of the first register that breaks a rule. -/
theorem allocate_eq_iff (policy : Policy) (env : Environment) (table : Table) :
    (∀ map, policy.allocate env table = .ok map ↔
      Group.flatten table ≠ [] ∧ policy.Laid env [] (Group.flatten table) map.placements ∧
        List.Forall₂ Group.PlacedAs table map.groups ∧
          IsLeast {w | ∀ p ∈ map.placements, p.stop ≤ 2 ^ w} map.addrWidth) ∧
    ((∃ map, policy.allocate env table = .ok map) ↔
      Group.flatten table ≠ [] ∧ ∃ ps, policy.Laid env [] (Group.flatten table) ps) ∧
    ∀ e, policy.allocate env table = .error e ↔
      Group.flatten table = [] ∧ e = .configuration .emptyTable ∨
        ∃ first r later ps, Group.flatten table = first ++ r :: later ∧
          policy.Laid env [] first ps ∧
            policy.Refuses env (policy.overlap.reserved r.access ps) r e := by
  have hstart := Cursors.records_nil policy.overlap
  refine ⟨fun map => ⟨fun h => ?_, ?_⟩, ⟨?_, ?_⟩, fun e => ?_⟩
  · obtain ⟨hnonempty, groups, c, hgroups, rfl⟩ := allocate_eq_ok_iff.1 h
    obtain ⟨cursors, hrun, hwidth⟩ := placeAll_of_allocate_eq_ok h
    obtain ⟨hlaid, hrecords⟩ := laid_of_placeAll_eq_ok hstart hrun
    rw [hwidth]
    exact ⟨hnonempty, hlaid, placedAs_of_placeGroups_eq_ok hgroups, isLeast_addrWidth hrecords⟩
  · rintro ⟨hnonempty, hlaid, hplaced, hwidth⟩
    obtain ⟨groups, c, hgroups, hflatten, hrecords⟩ := exists_placeGroups_of_laid hlaid
    refine allocate_eq_ok_iff.2 ⟨hnonempty, groups, c, hgroups, ?_⟩
    have hcut := Group.eq_of_placedAs hplaced (placedAs_of_placeGroups_eq_ok hgroups) hflatten.symm
    rw [AddressMap.mk.injEq]
    exact ⟨hcut, hwidth.unique (isLeast_addrWidth hrecords)⟩
  · rintro ⟨map, h⟩
    obtain ⟨cursors, hrun, -⟩ := placeAll_of_allocate_eq_ok h
    exact ⟨(allocate_eq_ok_iff.1 h).1, _, (laid_of_placeAll_eq_ok hstart hrun).1⟩
  · rintro ⟨hnonempty, ps, hlaid⟩
    obtain ⟨groups, c, hgroups, -⟩ := exists_placeGroups_of_laid hlaid
    exact ⟨_, allocate_eq_ok_iff.2 ⟨hnonempty, groups, c, hgroups, rfl⟩⟩
  · rw [allocate_eq_error_iff]
    refine or_congr_right ⟨refuses_of_placeAll_eq_error hstart, ?_⟩
    rintro ⟨first, r, later, ps, hflatten, hlaid, hrefuses⟩
    rw [hflatten]
    exact placeAll_eq_error_of_refuses hstart hlaid hrefuses

end Policy

end RegisterBank
