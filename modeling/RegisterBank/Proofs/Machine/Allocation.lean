import RegisterBank.Proofs.Allocation.Conformance
import RegisterBank.Proofs.Machine.Layout

/-!
# Allocation in machine words

No placement ends after the address space of `2 ^ 32` bytes, so neither cursor ever leaves it
(`Policy.Visits.inside`), and the next boundary of a span of at most `2 ^ 32` bytes is in it too.
Hence no allocation fails for want of an address (`Policy.allocate_ne_exhausted`), and in words of
64 bits nothing goes wrong (`Machine.yields_allocate`).
-/

namespace RegisterBank

/-! ## The cursors -/

namespace Cursors

variable {c : Cursors} {stop : Nat}

/-- Neither cursor is after the address space. -/
structure Inside (c : Cursors) : Prop where
  read : c.read ≤ 2 ^ 32
  write : c.write ≤ 2 ^ 32

theorem inside_default : Inside {} :=
  ⟨Nat.zero_le _, Nat.zero_le _⟩

theorem Inside.top (h : c.Inside) : c.top ≤ 2 ^ 32 := by
  rw [top_eq_max]
  exact max_le h.read h.write

theorem Inside.floor (h : c.Inside) (a : Access) : c.floor a ≤ 2 ^ 32 := by
  cases a with
  | read => exact h.read
  | write => exact h.write
  | readWrite => exact h.top

theorem Inside.advance (h : c.Inside) (a : Access) (hstop : stop ≤ 2 ^ 32) :
    (c.advance a stop).Inside := by
  cases a with
  | read => exact ⟨hstop, h.write⟩
  | write => exact ⟨h.read, hstop⟩
  | readWrite => exact ⟨hstop, hstop⟩

theorem Inside.settle (h : c.Inside) (o : Overlap) : (c.settle o).Inside := by
  cases o with
  | never => exact ⟨h.top, h.top⟩
  | acrossDirections => exact h

end Cursors

namespace Policy

variable {policy : Policy} {env : Environment} {c c' d : Cursors} {r : Register} {p : Placement}
  {rs : List Register} {ps : List Placement} {table : Table}

/-- The states that the cursors come to while registers are placed one after the other: before and
after each placement, and within one, where they have moved and are not yet settled. -/
inductive Visits (policy : Policy) (env : Environment) : Cursors → List Register → Cursors → Prop
  | here {c : Cursors} {rs : List Register} : Visits policy env c rs c
  | moved {c c' : Cursors} {r : Register} {rest : List Register} {p : Placement} :
      policy.place env c r = .ok (p, c') →
        Visits policy env c (r :: rest) (c.advance r.access p.stop)
  | later {c c' d : Cursors} {r : Register} {rest : List Register} {p : Placement} :
      policy.place env c r = .ok (p, c') → Visits policy env c' rest d →
        Visits policy env c (r :: rest) d

/-- The cursors with which a run ends are among those that it comes to. -/
theorem visits_of_placeAll_eq_ok (h : policy.placeAll env c rs = .ok (ps, c')) :
    policy.Visits env c rs c' := by
  induction rs generalizing c ps with
  | nil =>
      cases h
      exact .here
  | cons r rs ih =>
      obtain ⟨p, c₁, qs, hplace, hrest, rfl⟩ := placeAll_cons_eq_ok_iff.1 h
      exact .later hplace (ih hrest)

/-- A register ends in the address space, and the cursors that follow it are in it. -/
theorem inside_of_place_eq_ok (hc : c.Inside) (h : policy.place env c r = .ok (p, c')) :
    p.stop ≤ 2 ^ 32 ∧ c'.Inside := by
  obtain ⟨layout, address, -, -, hstop, rfl, rfl⟩ := place_eq_ok_iff.1 h
  exact ⟨hstop, (hc.advance r.access hstop).settle policy.overlap⟩

theorem Visits.inside (h : policy.Visits env c rs d) (hc : c.Inside) : d.Inside := by
  induction h with
  | here => exact hc
  | moved hplace => exact hc.advance _ (inside_of_place_eq_ok hc hplace).1
  | later hplace _ ih => exact ih (inside_of_place_eq_ok hc hplace).2

theorem inside_of_placeGroups_eq_ok {groups : List (Group Placement)} (hc : c.Inside)
    (h : policy.placeGroups env c table = .ok (groups, c')) : c'.Inside := by
  have hrun : policy.placeAll env c (Group.flatten table) = .ok (Group.flatten groups, c') := by
    rw [placeAll_flatten, h, ok_bind]
  exact (visits_of_placeAll_eq_ok hrun).inside hc

end Policy

section

variable {r : Register} {env : Environment} {mode : Mode} {name : String} {fault : PlacementFault}

theorem Formula.eval_ne_address {f : Formula} :
    f.eval env mode ≠ .error (.address name fault) := by
  unfold Formula.eval
  split
  · exact fun h => nomatch h
  · exact fun h => nomatch h

theorem Formula.evalCount_ne_address {f : Formula} :
    f.evalCount env mode ≠ .error (.address name fault) := by
  unfold Formula.evalCount
  split
  · rename_i e he
    rintro h
    cases h
    exact eval_ne_address he
  · split <;> exact fun h => nomatch h

/-- A register has its layout or not, whatever its address. -/
theorem Layout.of_ne_address : Layout.of r env mode ≠ .error (.address name fault) := by
  intro h
  rw [Layout.of, bind_eq_error_iff] at h
  rcases h with h | ⟨bits, -, h⟩
  · exact Formula.eval_ne_address h
  · split at h
    · cases h
    · rw [bind_eq_error_iff] at h
      rcases h with h | ⟨logItems, -, h⟩
      · exact Formula.evalCount_ne_address h
      · simp only at h
        split_ifs at h
        all_goals cases h

end

namespace Policy

variable {policy : Policy} {env : Environment} {c : Cursors} {r : Register} {rs : List Register}
  {table : Table} {name : String}

/-- A place is left for a register, or it is refused for another reason. -/
theorem place_ne_exhausted (hc : c.Inside) :
    policy.place env c r ≠ .error (.address name .exhausted) := by
  intro h
  have hrefuses := (place_eq_error_iff_refuses (hc.floor r.access)).1 h
  cases hrefuses with
  | layout hlayout => exact Layout.of_ne_address hlayout

theorem placeAll_ne_exhausted (hc : c.Inside) :
    policy.placeAll env c rs ≠ .error (.address name .exhausted) := by
  induction rs generalizing c with
  | nil => exact fun h => nomatch h
  | cons r rs ih =>
      intro h
      rw [placeAll_cons, bind_eq_error_iff] at h
      rcases h with hplace | ⟨⟨p, c₁⟩, hplace, h⟩
      · exact place_ne_exhausted hc hplace
      · rcases bind_eq_error_iff.1 h with hrest | ⟨_, _, hok⟩
        · exact ih (inside_of_place_eq_ok hc hplace).2 hrest
        · cases hok

theorem allocate_ne_exhausted :
    policy.allocate env table ≠ .error (.address name .exhausted) := by
  intro h
  rcases allocate_eq_error_iff.1 h with ⟨-, hempty⟩ | hrun
  · cases hempty
  · exact placeAll_ne_exhausted Cursors.inside_default hrun

end Policy

/-! ## The allocator in words -/

namespace Machine

open Checked

/-- The address of a register of a layout and its span, at or after `free`. -/
def addressFor (policy : Policy) (r : Register) (layout : Layout) (span free : Nat) :
    Checked Nat := do
  match ← policy.request r with
  | some address =>
    let address ← word? 64 address
    let rest ← mod? address span
    if rest ≠ 0 then throw (.address r.name (.unaligned address span))
    else if address < free then throw (.address r.name (.overlapping address free))
    else pure address
  | none =>
    match ← ceil? free layout.addrWidth with
    | some address => pure address
    | none => throw (.address r.name .exhausted)

/-- One past the last byte of a span, when it is not after the address space. A sum that is no word
is after it. -/
def checkedStop? (address span : Nat) : Option (Option Nat) := do
  let limit ← shiftLeft? 64 1 Layout.addrLimit
  some ((add? 64 address span).filter (· ≤ limit))

/-- Places one register and moves the cursors. -/
def place (policy : Policy) (env : Environment) (c : Cursors) (r : Register) :
    Checked (Placement × Cursors) := do
  let layout ← layoutOf r env .max
  let span ← span? layout
  let address ← addressFor policy r layout span (c.floor r.access)
  match ← checkedStop? address span with
  | some stop =>
    pure (⟨{ r with address := some address }, address, layout⟩,
      (c.advance r.access stop).settle policy.overlap)
  | none => throw (.address r.name (.outside address span))

def placeAll (policy : Policy) (env : Environment) :
    Cursors → List Register → Checked (List Placement × Cursors)
  | c, [] => pure ([], c)
  | c, r :: rest => do
    let (placement, c) ← place policy env c r
    let (placements, c) ← placeAll policy env c rest
    pure (placement :: placements, c)

def placeGroups (policy : Policy) (env : Environment) :
    Cursors → Table → Checked (List (Group Placement) × Cursors)
  | c, [] => pure ([], c)
  | c, g :: rest => do
    let (members, c) ← placeAll policy env c g.members
    let (groups, c) ← placeGroups policy env c rest
    pure (⟨g.name, g.descr, members⟩ :: groups, c)

/-- Places every register of a table. -/
def allocate (policy : Policy) (env : Environment) (table : Table) : Checked AddressMap :=
  if (Group.flatten table).isEmpty then throw (.configuration .emptyTable)
  else do
    let (groups, c) ← placeGroups policy env {} table
    let addrWidth ← ceilLog2? c.top
    pure ⟨groups, addrWidth⟩

variable {policy : Policy} {env : Environment} {c : Cursors} {r : Register} {rs : List Register}
  {table : Table}

theorem yields_addressFor {layout : Layout} {free : Nat} (hr : r.OfWords) (hfree : free < 2 ^ 64) :
    Yields (addressFor policy r layout layout.span free) (policy.addressFor r layout free) := by
  refine yields_given fun requested hrequest => ?_
  cases requested with
  | some address =>
      have haddress := hr.address address (Policy.request_eq_some_iff.1 hrequest).2
      refine yields_step (word?_eq haddress) ?_
      refine yields_step (mod?_eq layout.span_pos) ?_
      refine yields_ite (fun _ => yields_throw _) fun _ => ?_
      exact yields_ite (fun _ => yields_throw _) fun _ => yields_pure _
  | none =>
      refine yields_step (ceil?_eq hfree) ?_
      cases Block.ceil? free layout.addrWidth with
      | some address => exact yields_pure _
      | none => exact yields_throw _

theorem checkedStop?_eq (address span : Nat) :
    checkedStop? address span =
      some (if address + span ≤ 1 <<< Layout.addrLimit then some (address + span) else none) := by
  have hlimit : 1 <<< Layout.addrLimit < 2 ^ 64 := by decide
  refine step_eq (shiftLeft?_one_eq (by decide)) ?_
  by_cases hword : address + span < 2 ^ 64
  · rw [add?_eq hword]
    simp [Option.filter]
  · -- The sum is no word, and so it is after the address space.
    rw [add?, word?, if_neg hword, if_neg (by omega)]
    rfl

theorem yields_place (henv : env.OfWords) (hc : c.Inside) (hr : r.OfWords) :
    Yields (place policy env c r) (policy.place env c r) := by
  have hfree := hc.floor r.access
  refine (yields_layoutOf henv hr .max).bind fun layout hlayout => ?_
  refine yields_step (span?_eq (Policy.addrWidth_le_of_layout hlayout)) ?_
  refine (yields_addressFor hr (by omega)).bind fun address _ => ?_
  refine yields_step (checkedStop?_eq _ _) ?_
  by_cases hstop : address + layout.span ≤ 1 <<< Layout.addrLimit
  · simp only [hstop, if_true]
    exact yields_pure _
  · simp only [hstop, if_false]
    exact yields_throw _

theorem yields_placeAll (henv : env.OfWords) (hc : c.Inside) (hrs : ∀ r ∈ rs, r.OfWords) :
    Yields (placeAll policy env c rs) (policy.placeAll env c rs) := by
  induction rs generalizing c with
  | nil => exact yields_pure _
  | cons r rs ih =>
      rw [List.forall_mem_cons] at hrs
      refine (yields_place henv hc hrs.1).bind fun x hplace => ?_
      refine (ih (Policy.inside_of_place_eq_ok hc hplace).2 hrs.2).bind fun y _ => ?_
      exact yields_pure _

theorem yields_placeGroups (henv : env.OfWords) (hc : c.Inside)
    (htable : ∀ r ∈ Group.flatten table, r.OfWords) :
    Yields (placeGroups policy env c table) (policy.placeGroups env c table) := by
  induction table generalizing c with
  | nil => exact yields_pure _
  | cons g rest ih =>
      rw [Group.flatten_cons, List.forall_mem_append] at htable
      refine (yields_placeAll henv hc htable.1).bind fun x hmembers => ?_
      have hinside := (Policy.visits_of_placeAll_eq_ok hmembers).inside hc
      refine (ih hinside htable.2).bind fun y _ => ?_
      exact yields_pure _

/-- Nothing goes wrong in an allocation, also where it fails. -/
theorem yields_allocate (henv : env.OfWords) (htable : ∀ r ∈ Group.flatten table, r.OfWords) :
    Yields (allocate policy env table) (policy.allocate env table) := by
  refine yields_ite (fun _ => yields_throw _) fun _ => ?_
  refine (yields_placeGroups henv Cursors.inside_default htable).bind fun x hgroups => ?_
  have hinside := Policy.inside_of_placeGroups_eq_ok Cursors.inside_default hgroups
  refine yields_step (ceilLog2?_eq (hinside.top.trans_lt (by decide))) ?_
  exact yields_pure _

end Machine

end RegisterBank
