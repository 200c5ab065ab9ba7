import Mathlib.Order.CompletePartialOrder
import Mathlib.Order.Interval.Set.Disjoint
import RegisterBank.Proofs.Allocation.Run

/-!
# Placed registers keep apart

Two registers have to keep apart when they share an access direction, and without overlap always.
The allocator remembers no register, only its two cursors. What makes that enough is that a
placement never moves a cursor back and leaves the floor of every access that its register has to
keep apart from at or after its end; so whatever is placed later begins there or after it.

`allocate_separated` is the result for whole tables: every register stands at a multiple of its
span inside the 32-bit address space, and the byte ranges of registers that have to keep apart are
disjoint.
-/

namespace RegisterBank

/-- Whether registers of these two accesses have to keep apart. -/
def Overlap.Separates (o : Overlap) (a b : Access) : Prop :=
  a.Shares b ∨ o = .never

/-- The byte addresses that a register takes. -/
def Placement.range (p : Placement) : Set Nat :=
  Set.Ico p.address (p.address + p.layout.span)

/-- A register that stands where its declaration now says, on a boundary of its span, inside the
address space, in the layout of the greatest parameter values. -/
structure Placement.Seated (env : Environment) (p : Placement) : Prop where
  layout : Layout.of p.register env .max = .ok p.layout
  aligned : p.layout.span ∣ p.address
  pinned : p.register.address = some p.address
  inside : p.address + p.layout.span ≤ 2 ^ 32

namespace Cursors

variable {o : Overlap} {c : Cursors} {a b : Access} {stop : Nat}

/-- What holds of the cursors between two placements: without overlap they are equal. -/
def Settled (o : Overlap) (c : Cursors) : Prop :=
  o = .never → c.read = c.write

theorem settled_default (o : Overlap) : Settled o {} :=
  fun _ => rfl

theorem settled_settle (c : Cursors) (o : Overlap) : Settled o (c.settle o) := by
  intro h
  subst h
  rfl

/-- A placement at or after the floor of its access lowers the floor of no access. -/
theorem floor_le_floor_settle_advance (hc : Settled o c) (hstop : c.floor a ≤ stop) (b : Access) :
    c.floor b ≤ ((c.advance a stop).settle o).floor b := by
  cases o with
  | never =>
      have heq : c.read = c.write := hc rfl
      cases a <;> cases b <;> simp only [floor, advance, settle, top] at hstop ⊢ <;> grind
  | acrossDirections =>
      cases a <;> cases b <;> simp only [floor, advance, settle, top] at hstop ⊢ <;> grind

/-- A placement leaves the floor of every access that it has to keep apart from at its end or
after it. -/
theorem stop_le_floor_settle_advance (hsep : o.Separates a b) (c : Cursors) (stop : Nat) :
    stop ≤ ((c.advance a stop).settle o).floor b := by
  rcases hsep with hshares | rfl
  · cases o <;> cases a <;> cases b <;>
      simp only [Access.Shares, Access.reads, Access.writes] at hshares <;>
      simp only [floor, advance, settle, top] <;> grind
  · cases a <;> cases b <;> simp only [floor, advance, settle, top] <;> grind

end Cursors

namespace Policy

variable {policy : Policy} {env : Environment} {c c' : Cursors} {r : Register} {p : Placement}
  {rs : List Register} {ps : List Placement} {table : Table} {map : AddressMap}

/-- A placed register stands well, at or after the floor of its access. -/
theorem seated_of_place_eq_ok (h : policy.place env c r = .ok (p, c')) :
    p.Seated env ∧ c.floor p.register.access ≤ p.address := by
  obtain ⟨layout, address, hlayout, haddress, hstop, rfl, -⟩ := place_eq_ok_iff.1 h
  obtain ⟨haligned, hfloor⟩ := addressFor_spec haddress
  exact ⟨⟨hlayout, haligned, rfl, hstop⟩, hfloor⟩

/-- What one placement does to the floors that later registers meet. -/
theorem floor_of_place_eq_ok (hc : Cursors.Settled policy.overlap c)
    (h : policy.place env c r = .ok (p, c')) :
    Cursors.Settled policy.overlap c' ∧
      (∀ b, c.floor b ≤ c'.floor b) ∧
      ∀ b, policy.overlap.Separates p.register.access b →
        p.address + p.layout.span ≤ c'.floor b := by
  have hfloor := (seated_of_place_eq_ok h).2
  obtain ⟨layout, address, -, -, -, rfl, rfl⟩ := place_eq_ok_iff.1 h
  refine ⟨Cursors.settled_settle _ _, ?_, ?_⟩
  · exact Cursors.floor_le_floor_settle_advance hc (Nat.le_add_right_of_le hfloor)
  · intro b hsep
    exact Cursors.stop_le_floor_settle_advance hsep c _

theorem seated_of_placeAll_eq_ok (h : policy.placeAll env c rs = .ok (ps, c')) :
    ∀ p ∈ ps, p.Seated env := by
  induction rs generalizing c ps with
  | nil =>
      cases h
      simp
  | cons r rs ih =>
      obtain ⟨p, c₁, qs, hplace, hrest, rfl⟩ := placeAll_cons_eq_ok_iff.1 h
      rw [List.forall_mem_cons]
      exact ⟨(seated_of_place_eq_ok hplace).1, ih hrest⟩

/-- A run from some cursors places nothing before the floors that it has met. -/
theorem floor_le_of_placeAll_eq_ok (hc : Cursors.Settled policy.overlap c)
    (h : policy.placeAll env c rs = .ok (ps, c')) :
    ∀ p ∈ ps, c.floor p.register.access ≤ p.address := by
  induction rs generalizing c ps with
  | nil =>
      cases h
      simp
  | cons r rs ih =>
      obtain ⟨p, c₁, qs, hplace, hrest, rfl⟩ := placeAll_cons_eq_ok_iff.1 h
      obtain ⟨hc₁, hmono, -⟩ := floor_of_place_eq_ok hc hplace
      rw [List.forall_mem_cons]
      refine ⟨(seated_of_place_eq_ok hplace).2, ?_⟩
      intro q hq
      exact (hmono _).trans (ih hc₁ hrest q hq)

/-- Along a run, a register that has to keep apart from an earlier one begins at the earlier one's
end or after it. -/
theorem pairwise_of_placeAll_eq_ok (hc : Cursors.Settled policy.overlap c)
    (h : policy.placeAll env c rs = .ok (ps, c')) :
    ps.Pairwise fun p q => policy.overlap.Separates p.register.access q.register.access →
      p.address + p.layout.span ≤ q.address := by
  induction rs generalizing c ps with
  | nil =>
      cases h
      exact List.Pairwise.nil
  | cons r rs ih =>
      obtain ⟨p, c₁, qs, hplace, hrest, rfl⟩ := placeAll_cons_eq_ok_iff.1 h
      obtain ⟨hc₁, -, hstop⟩ := floor_of_place_eq_ok hc hplace
      refine List.Pairwise.cons ?_ (ih hc₁ hrest)
      intro q hq hsep
      exact (hstop _ hsep).trans (floor_le_of_placeAll_eq_ok hc₁ hrest q hq)

/-- Every register of an address map stands well, and any two of them that share an access
direction, or any two at all when nothing may overlap, take disjoint ranges of bytes. -/
theorem allocate_separated (h : policy.allocate env table = .ok map) :
    (∀ p ∈ map.placements, p.Seated env) ∧
      map.placements.Pairwise fun p q =>
        p.register.access.Shares q.register.access ∨ policy.overlap = .never →
          Disjoint p.range q.range := by
  obtain ⟨cursors, hrun, -⟩ := placeAll_of_allocate_eq_ok h
  refine ⟨seated_of_placeAll_eq_ok hrun, ?_⟩
  have hordered := pairwise_of_placeAll_eq_ok (Cursors.settled_default _) hrun
  refine hordered.imp ?_
  intro p q hpq hsep
  rw [Placement.range, Placement.range, Set.Ico_disjoint_Ico]
  exact (min_le_left _ _).trans ((hpq hsep).trans (le_max_right _ _))

/-- A table with addresses: an array that is only read lies over a register that is only written, a
register of both directions follows them, and the version register asks for a taken address. -/
def mixedTable : Table :=
  [⟨"main", "",
    [{ name := "ctrl", access := .write, width := .literal 32, address := some 8 },
      { name := "data", access := .read, width := .literal 8, address := some 8,
        logItems := .literal 2 }]⟩,
    ⟨"more", "",
      [{ name := "cfg", access := .readWrite, width := .literal 16, address := some 12 },
        { name := "Version", access := .read, width := .literal 16, address := some 8 }]⟩]

theorem allocate_separated_mixedTable :
    ∃ map, allocate ⟨false, .acrossDirections⟩ {} mixedTable = .ok map ∧
      (∀ p ∈ map.placements, p.Seated {}) ∧
      map.placements.Pairwise fun p q =>
        p.register.access.Shares q.register.access ∨ Overlap.acrossDirections = .never →
          Disjoint p.range q.range := by
  obtain ⟨map, hmap⟩ : ∃ map, allocate ⟨false, .acrossDirections⟩ {} mixedTable = .ok map :=
    ⟨_, rfl⟩
  exact ⟨map, hmap, allocate_separated hmap⟩

end Policy

end RegisterBank
