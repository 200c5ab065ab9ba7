import RegisterBank.Allocation.Basic
import RegisterBank.Proofs.Arithmetic.Block
import RegisterBank.Proofs.Failure
import RegisterBank.Proofs.Register.Layout

/-!
# Runs of the allocator

`place_eq_ok_iff` says everything that one successful placement does: which checks it passed, what
it put where, and how it moved the cursors. A run over a list of registers is a chain of such
steps, and a run over groups is the run over their members, so statements about tables reduce to
statements about `placeAll`.
-/

namespace RegisterBank

namespace Policy

variable {policy : Policy} {env : Environment} {c c' : Cursors} {r : Register} {p : Placement}
  {table : Table} {groups : List (Group Placement)} {map : AddressMap}

/-- An address is the one that the register asks for, if it fits, or else the first boundary at or
after the floor. -/
theorem addressFor_eq_ok_iff {layout : Layout} {floor address : Nat} :
    policy.addressFor r layout floor = .ok address ↔
      (policy.request r = .ok (some address) ∧ layout.span ∣ address ∧ floor ≤ address) ∨
        policy.request r = .ok none ∧ Block.ceil? floor layout.addrWidth = some address := by
  rw [addressFor, bind_eq_ok_iff]
  constructor
  · rintro ⟨requested, hrequest, h⟩
    cases requested with
    | some wanted =>
        simp only [ite_error_eq_ok_iff] at h
        obtain ⟨haligned, hfloor, h⟩ := h
        obtain rfl : wanted = address := Except.ok.inj h
        exact .inl ⟨hrequest, Nat.dvd_of_mod_eq_zero (not_not.1 haligned), not_lt.1 hfloor⟩
    | none =>
        simp only at h
        split at h
        · rename_i boundary hceil
          obtain rfl : boundary = address := Except.ok.inj h
          exact .inr ⟨hrequest, hceil⟩
        · cases h
  · rintro (⟨hrequest, haligned, hfloor⟩ | ⟨hrequest, hceil⟩)
    · refine ⟨some address, hrequest, ?_⟩
      simp only [ite_error_eq_ok_iff]
      exact ⟨not_not.2 (Nat.mod_eq_zero_of_dvd haligned), not_lt.2 hfloor, trivial⟩
    · exact ⟨none, hrequest, by simp only [hceil]⟩

/-- Whichever way an address is found, it is a multiple of the span at or after the floor. -/
theorem addressFor_spec {layout : Layout} {floor address : Nat}
    (h : policy.addressFor r layout floor = .ok address) :
    layout.span ∣ address ∧ floor ≤ address := by
  rcases addressFor_eq_ok_iff.1 h with ⟨-, haligned, hfloor⟩ | ⟨-, hceil⟩
  · exact ⟨haligned, hfloor⟩
  · rw [layout.span_eq]
    exact (Block.ceil?_eq_some_iff.1 hceil).2.2.1

/-- What one placement does. -/
theorem place_eq_ok_iff :
    policy.place env c r = .ok (p, c') ↔
      ∃ layout address,
        Layout.of r env .max = .ok layout ∧
        policy.addressFor r layout (c.floor r.access) = .ok address ∧
        address + layout.span ≤ 2 ^ Layout.addrLimit ∧
        p = ⟨{ r with address := some address }, address, layout⟩ ∧
        c' = (c.advance r.access (address + layout.span)).settle policy.overlap := by
  rw [place, bind_eq_ok_iff]
  simp only [Nat.one_shiftLeft]
  constructor
  · rintro ⟨layout, hlayout, h⟩
    rw [bind_eq_ok_iff] at h
    obtain ⟨address, haddress, h⟩ := h
    split at h
    · rename_i hstop
      cases h
      exact ⟨layout, address, hlayout, haddress, hstop, rfl, rfl⟩
    · cases h
  · rintro ⟨layout, address, hlayout, haddress, hstop, rfl, rfl⟩
    refine ⟨layout, hlayout, ?_⟩
    rw [haddress, ok_bind]
    simp only [hstop, if_true]

theorem placeAll_nil : policy.placeAll env c [] = .ok ([], c) := rfl

theorem placeAll_cons (rest : List Register) :
    policy.placeAll env c (r :: rest) =
      policy.place env c r >>= fun x =>
        policy.placeAll env x.2 rest >>= fun y => .ok (x.1 :: y.1, y.2) := rfl

theorem placeAll_cons_eq_ok_iff {rest : List Register} {ps : List Placement} :
    policy.placeAll env c (r :: rest) = .ok (ps, c') ↔
      ∃ p c₁ qs, policy.place env c r = .ok (p, c₁) ∧
        policy.placeAll env c₁ rest = .ok (qs, c') ∧ ps = p :: qs := by
  rw [placeAll_cons, bind_eq_ok_iff]
  constructor
  · rintro ⟨⟨p, c₁⟩, hplace, h⟩
    rw [bind_eq_ok_iff] at h
    obtain ⟨⟨qs, c₂⟩, hrest, h⟩ := h
    cases h
    exact ⟨p, c₁, qs, hplace, hrest, rfl⟩
  · rintro ⟨p, c₁, qs, hplace, hrest, rfl⟩
    exact ⟨(p, c₁), hplace, by rw [hrest, ok_bind]⟩

/-- A run over an appended list goes on with the cursors that the first part has left. -/
theorem placeAll_append (xs ys : List Register) :
    policy.placeAll env c (xs ++ ys) =
      policy.placeAll env c xs >>= fun x =>
        policy.placeAll env x.2 ys >>= fun y => .ok (x.1 ++ y.1, y.2) := by
  induction xs generalizing c with
  | nil =>
      rw [List.nil_append, placeAll_nil, ok_bind]
      cases policy.placeAll env c ys <;> rfl
  | cons r xs ih =>
      rw [List.cons_append, placeAll_cons, placeAll_cons]
      cases policy.place env c r with
      | error e => rfl
      | ok x =>
          rw [ok_bind, ok_bind, ih]
          cases policy.placeAll env x.2 xs with
          | error e => rfl
          | ok y =>
              rw [ok_bind, ok_bind, ok_bind]
              cases policy.placeAll env y.2 ys <;> rfl

theorem placeGroups_cons (g : Group Register) :
    policy.placeGroups env c (g :: table) =
      policy.placeAll env c g.members >>= fun x =>
        policy.placeGroups env x.2 table >>= fun y =>
          .ok (⟨g.name, g.descr, x.1⟩ :: y.1, y.2) := rfl

theorem placeGroups_cons_eq_ok_iff {g : Group Register} :
    policy.placeGroups env c (g :: table) = .ok (groups, c') ↔
      ∃ members c₁ others, policy.placeAll env c g.members = .ok (members, c₁) ∧
        policy.placeGroups env c₁ table = .ok (others, c') ∧
        groups = ⟨g.name, g.descr, members⟩ :: others := by
  rw [placeGroups_cons, bind_eq_ok_iff]
  constructor
  · rintro ⟨⟨members, c₁⟩, hmembers, h⟩
    rw [bind_eq_ok_iff] at h
    obtain ⟨⟨others, c₂⟩, hothers, h⟩ := h
    cases h
    exact ⟨members, c₁, others, hmembers, hothers, rfl⟩
  · rintro ⟨members, c₁, others, hmembers, hothers, rfl⟩
    exact ⟨(members, c₁), hmembers, by rw [hothers, ok_bind]⟩

/-- The cut into groups does not matter to the run: its members are placed one after the other. -/
theorem placeAll_flatten (table : Table) :
    policy.placeAll env c (Group.flatten table) =
      policy.placeGroups env c table >>= fun x => .ok (Group.flatten x.1, x.2) := by
  induction table generalizing c with
  | nil => rfl
  | cons g rest ih =>
      rw [Group.flatten_cons, placeAll_append, placeGroups_cons]
      cases policy.placeAll env c g.members with
      | error e => rfl
      | ok x =>
          rw [ok_bind, ok_bind, ih]
          cases policy.placeGroups env x.2 rest <;> rfl

theorem allocate_eq_ok_iff :
    policy.allocate env table = .ok map ↔
      Group.flatten table ≠ [] ∧
        ∃ groups cursors, policy.placeGroups env {} table = .ok (groups, cursors) ∧
          map = ⟨groups, Block.ceilLog2 cursors.top⟩ := by
  rw [allocate, ite_error_eq_ok_iff, List.isEmpty_iff, bind_eq_ok_iff]
  constructor
  · rintro ⟨hnonempty, ⟨groups, cursors⟩, hgroups, h⟩
    cases h
    exact ⟨hnonempty, groups, cursors, hgroups, rfl⟩
  · rintro ⟨hnonempty, groups, cursors, hgroups, rfl⟩
    exact ⟨hnonempty, (groups, cursors), hgroups, rfl⟩

/-- A successful allocation is a run over all registers from address zero. -/
theorem placeAll_of_allocate_eq_ok (h : policy.allocate env table = .ok map) :
    ∃ cursors, policy.placeAll env {} (Group.flatten table) = .ok (map.placements, cursors) ∧
      map.addrWidth = Block.ceilLog2 cursors.top := by
  obtain ⟨-, groups, cursors, hgroups, rfl⟩ := allocate_eq_ok_iff.1 h
  refine ⟨cursors, ?_, rfl⟩
  rw [placeAll_flatten, hgroups, ok_bind]
  rfl

end Policy

end RegisterBank
