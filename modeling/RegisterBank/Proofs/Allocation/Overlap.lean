import Mathlib.Data.List.Forall2
import Mathlib.Order.MinMax
import RegisterBank.Proofs.Allocation.Rerun

/-!
# Overlap never costs addresses

A table that fits without overlap fits with it as well, and no register comes later. The two runs go
side by side: with overlap both cursors stay at or before those of the run without it
(`Cursors.Below`), so a register meets a lower floor, and from a lower floor it finds an address
where it found one before, and none that is later.

A register that asks for its address gets that address or none. So by hand, where every register but
the version register asks, overlap only decides which tables are accepted.
-/

namespace RegisterBank

variable {α β : Type}

/-- Groups of the same name and description with members that are related one by one. -/
structure Group.Related (R : α → β → Prop) (g : Group α) (h : Group β) : Prop where
  name : g.name = h.name
  descr : g.descr = h.descr
  members : List.Forall₂ R g.members h.members

/-- The same register in the same layout, at the same address or an earlier one. -/
structure Placement.NoLater (p q : Placement) : Prop where
  register : p.register = { q.register with address := some p.address }
  layout : p.layout = q.layout
  address : p.address ≤ q.address

namespace Cursors

variable {c d : Cursors} {a : Access} {stop later : Nat}

/-- Both cursors are at those of another pair or before them. -/
structure Below (c d : Cursors) : Prop where
  read : c.read ≤ d.read
  write : c.write ≤ d.write

theorem Below.refl (c : Cursors) : c.Below c :=
  ⟨Nat.le_refl _, Nat.le_refl _⟩

theorem top_eq_max (c : Cursors) : c.top = max c.read c.write :=
  (max_def c.read c.write).symm

theorem Below.top (h : c.Below d) : c.top ≤ d.top := by
  rw [top_eq_max, top_eq_max]
  exact max_le_max h.read h.write

theorem Below.floor (h : c.Below d) (a : Access) : c.floor a ≤ d.floor a := by
  cases a with
  | read => exact h.read
  | write => exact h.write
  | readWrite => exact h.top

theorem Below.advance (h : c.Below d) (a : Access) (hstop : stop ≤ later) :
    (c.advance a stop).Below (d.advance a later) := by
  cases a with
  | read => exact ⟨hstop, h.write⟩
  | write => exact ⟨h.read, hstop⟩
  | readWrite => exact ⟨hstop, hstop⟩

/-- Without overlap cursors only move on when they settle; with overlap they do not move. -/
theorem Below.settle (h : c.Below d) : (c.settle .acrossDirections).Below (d.settle .never) := by
  refine ⟨h.read.trans ?_, h.write.trans ?_⟩
  · exact (le_max_left _ _).trans_eq d.top_eq_max.symm
  · exact (le_max_right _ _).trans_eq d.top_eq_max.symm

theorem top_settle (c : Cursors) (o : Overlap) : (c.settle o).top = c.top := by
  cases o with
  | never => exact if_pos (Nat.le_refl _)
  | acrossDirections => rfl

/-- The greater cursor is the greatest end of all placements, since none of them moves back. -/
theorem top_advance (h : c.floor a ≤ stop) : (c.advance a stop).top = max c.top stop := by
  cases a <;> simp only [top_eq_max, advance, floor] at h ⊢ <;> omega

end Cursors

namespace Policy

variable {policy : Policy} {automatic : Bool} {env : Environment} {c c' d d' : Cursors}
  {r : Register} {p : Placement} {rs : List Register} {ps : List Placement} {table : Table}
  {groups : List (Group Placement)} {map : AddressMap}

/-- By hand, a register other than the version register asks for its address. -/
theorem request_ne_none (hmanual : policy.automatic = false) (hversion : r.isVersion = false) :
    policy.request r ≠ .ok none := by
  rw [request, hversion, hmanual]
  cases r.address <;> simp

/-- From a lower floor a register finds an address too, and none that is later. The address that it
asks for stays the same. -/
theorem exists_addressFor_of_le {layout : Layout} {floor later address : Nat} (hle : floor ≤ later)
    (h : policy.addressFor r layout later = .ok address) :
    ∃ earlier, policy.addressFor r layout floor = .ok earlier ∧ earlier ≤ address ∧
      (policy.request r ≠ .ok none → earlier = address) := by
  rcases addressFor_eq_ok_iff.1 h with ⟨hrequest, haligned, hfloor⟩ | ⟨hrequest, hceil⟩
  · have hasked := addressFor_eq_ok_iff.2 (.inl ⟨hrequest, haligned, hle.trans hfloor⟩)
    exact ⟨address, hasked, Nat.le_refl _, fun _ => rfl⟩
  · obtain ⟨earlier, hfound, hearlier⟩ := Block.exists_ceil?_of_le hle hceil
    have hchosen := addressFor_eq_ok_iff.2 (.inr ⟨hrequest, hfound⟩)
    exact ⟨earlier, hchosen, hearlier, fun hasks => absurd hrequest hasks⟩

/-- One register, placed with overlap from cursors that are no further than those without it. -/
theorem exists_place_of_below (hbelow : c.Below d)
    (h : place ⟨automatic, .never⟩ env d r = .ok (p, d')) :
    ∃ q c', place ⟨automatic, .acrossDirections⟩ env c r = .ok (q, c') ∧ q.NoLater p ∧
      c'.Below d' ∧ (automatic = false → r.isVersion = false → q = p) := by
  obtain ⟨layout, address, hlayout, haddress, hstop, rfl, rfl⟩ := place_eq_ok_iff.1 h
  -- What a register asks for does not depend on the overlap, so both runs find addresses alike.
  obtain ⟨earlier, hearlier, hle, hasked⟩ :=
    exists_addressFor_of_le (hbelow.floor r.access) haddress
  have hstops : earlier + layout.span ≤ address + layout.span := Nat.add_le_add_right hle _
  refine ⟨_, _,
    place_eq_ok_iff.2 ⟨layout, earlier, hlayout, hearlier, hstops.trans hstop, rfl, rfl⟩,
    ⟨rfl, rfl, hle⟩, (hbelow.advance _ hstops).settle, ?_⟩
  intro hmanual hversion
  rw [hasked (request_ne_none hmanual hversion)]

theorem exists_placeAll_of_below (hbelow : c.Below d)
    (h : placeAll ⟨automatic, .never⟩ env d rs = .ok (ps, d')) :
    ∃ qs c', placeAll ⟨automatic, .acrossDirections⟩ env c rs = .ok (qs, c') ∧
      List.Forall₂ Placement.NoLater qs ps ∧ c'.Below d' ∧
      (automatic = false → (∀ r ∈ rs, r.isVersion = false) → qs = ps) := by
  induction rs generalizing c d ps with
  | nil =>
      cases h
      exact ⟨[], c, rfl, .nil, hbelow, fun _ _ => rfl⟩
  | cons r rs ih =>
      obtain ⟨p, d₁, ps, hplace, hrest, rfl⟩ := placeAll_cons_eq_ok_iff.1 h
      obtain ⟨q, c₁, hplace', hfirst, hbelow₁, hsame⟩ := exists_place_of_below hbelow hplace
      obtain ⟨qs, c', hrest', hothers, hbelow', hsames⟩ := ih hbelow₁ hrest
      refine ⟨q :: qs, c', placeAll_cons_eq_ok_iff.2 ⟨q, c₁, qs, hplace', hrest', rfl⟩,
        .cons hfirst hothers, hbelow', ?_⟩
      intro hmanual hversions
      rw [List.forall_mem_cons] at hversions
      rw [hsame hmanual hversions.1, hsames hmanual hversions.2]

theorem exists_placeGroups_of_below (hbelow : c.Below d)
    (h : placeGroups ⟨automatic, .never⟩ env d table = .ok (groups, d')) :
    ∃ others c', placeGroups ⟨automatic, .acrossDirections⟩ env c table = .ok (others, c') ∧
      List.Forall₂ (Group.Related Placement.NoLater) others groups ∧ c'.Below d' ∧
      (automatic = false → (∀ r ∈ Group.flatten table, r.isVersion = false) → others = groups) := by
  induction table generalizing c d groups with
  | nil =>
      cases h
      exact ⟨[], c, rfl, .nil, hbelow, fun _ _ => rfl⟩
  | cons g rest ih =>
      obtain ⟨members, d₁, groups, hmembers, hrest, rfl⟩ := placeGroups_cons_eq_ok_iff.1 h
      obtain ⟨members', c₁, hmembers', hfirst, hbelow₁, hsame⟩ :=
        exists_placeAll_of_below hbelow hmembers
      obtain ⟨others, c', hrest', hothers, hbelow', hsames⟩ := ih hbelow₁ hrest
      refine ⟨_, c', placeGroups_cons_eq_ok_iff.2 ⟨members', c₁, others, hmembers', hrest', rfl⟩,
        .cons ⟨rfl, rfl, hfirst⟩ hothers, hbelow', ?_⟩
      intro hmanual hversions
      rw [Group.flatten_cons, List.forall_mem_append] at hversions
      rw [hsame hmanual hversions.1, hsames hmanual hversions.2]

/-- After a run the greater cursor is the greatest end of what has been placed. -/
theorem top_of_placeAll_eq_ok (h : policy.placeAll env c rs = .ok (ps, c')) :
    c'.top = ps.foldl (fun top p => max top p.stop) c.top := by
  induction rs generalizing c ps with
  | nil =>
      cases h
      rfl
  | cons r rs ih =>
      obtain ⟨p, c₁, ps, hplace, hrest, rfl⟩ := placeAll_cons_eq_ok_iff.1 h
      obtain ⟨layout, address, -, haddress, -, rfl, rfl⟩ := place_eq_ok_iff.1 hplace
      have hfloor := (addressFor_spec haddress).2.trans (Nat.le_add_right address layout.span)
      rw [ih hrest, List.foldl_cons, Cursors.top_settle, Cursors.top_advance hfloor]
      rfl

theorem addrWidth_of_allocate_eq_ok (h : policy.allocate env table = .ok map) :
    map.addrWidth = Block.ceilLog2 (map.placements.foldl (fun top p => max top p.stop) 0) := by
  obtain ⟨cursors, hrun, hwidth⟩ := placeAll_of_allocate_eq_ok h
  rw [hwidth, top_of_placeAll_eq_ok hrun]
  rfl

/-- A table that is placed without overlap is placed with it: its registers come no later, and the
address is no wider. By hand, and without a version register, nothing changes at all. -/
theorem exists_allocate_acrossDirections (h : allocate ⟨automatic, .never⟩ env table = .ok map) :
    ∃ overlaid, allocate ⟨automatic, .acrossDirections⟩ env table = .ok overlaid ∧
      List.Forall₂ (Group.Related Placement.NoLater) overlaid.groups map.groups ∧
      overlaid.addrWidth ≤ map.addrWidth ∧
      (automatic = false → (∀ r ∈ Group.flatten table, r.isVersion = false) → overlaid = map) := by
  obtain ⟨hnonempty, groups, cursors, hgroups, rfl⟩ := allocate_eq_ok_iff.1 h
  obtain ⟨others, c', hothers, hrelated, hbelow, hsame⟩ :=
    exists_placeGroups_of_below (Cursors.Below.refl {}) hgroups
  have hoverlaid : allocate ⟨automatic, .acrossDirections⟩ env table =
      .ok ⟨others, Block.ceilLog2 c'.top⟩ :=
    allocate_eq_ok_iff.2 ⟨hnonempty, others, c', hothers, rfl⟩
  refine ⟨_, hoverlaid, hrelated, Block.ceilLog2_mono hbelow.top, ?_⟩
  intro hmanual hversions
  obtain rfl := hsame hmanual hversions
  -- The width depends on nothing but the placed registers.
  have hwidth := addrWidth_of_allocate_eq_ok hoverlaid
  have hwidth' := addrWidth_of_allocate_eq_ok h
  rw [AddressMap.mk.injEq]
  exact ⟨rfl, hwidth.trans hwidth'.symm⟩

/-- A table with an address for every register, in order, and without a version register. -/
def orderedTable : Table :=
  [⟨"main", "",
    [{ name := "ctrl", access := .write, width := .literal 8, address := some 1 },
      { name := "data", access := .read, width := .literal 8, address := some 4,
        logItems := .literal 2 }]⟩,
    ⟨"more", "",
      [{ name := "cfg", access := .readWrite, width := .literal 16, address := some 10 }]⟩]

theorem exists_allocate_acrossDirections_tables :
    (∃ map overlaid, allocate ⟨true, .never⟩ {} gappedTable = .ok map ∧
      allocate ⟨true, .acrossDirections⟩ {} gappedTable = .ok overlaid ∧
      map.placements.map (·.address) = [0, 2, 16, 32] ∧
      List.Forall₂ (Group.Related Placement.NoLater) overlaid.groups map.groups ∧
      overlaid.addrWidth ≤ map.addrWidth) ∧
    ∃ map, allocate ⟨false, .never⟩ {} orderedTable = .ok map ∧
      allocate ⟨false, .acrossDirections⟩ {} orderedTable = .ok map := by
  constructor
  · obtain ⟨map, hmap, haddresses⟩ : ∃ map, allocate ⟨true, .never⟩ {} gappedTable = .ok map ∧
        map.placements.map (·.address) = [0, 2, 16, 32] := ⟨_, rfl, rfl⟩
    obtain ⟨overlaid, hoverlaid, hrelated, hwidth, -⟩ := exists_allocate_acrossDirections hmap
    exact ⟨map, overlaid, hmap, hoverlaid, haddresses, hrelated, hwidth⟩
  · obtain ⟨map, hmap⟩ : ∃ map, allocate ⟨false, .never⟩ {} orderedTable = .ok map := ⟨_, rfl⟩
    obtain ⟨overlaid, hoverlaid, -, -, hsame⟩ := exists_allocate_acrossDirections hmap
    rw [hsame rfl (by decide)] at hoverlaid
    exact ⟨map, hmap, hoverlaid⟩

end Policy

end RegisterBank
