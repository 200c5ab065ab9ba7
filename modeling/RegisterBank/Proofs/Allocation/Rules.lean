import RegisterBank.Proofs.Allocation.Overlap
import RegisterBank.Proofs.Allocation.Separation

/-!
# The rules of allocation

Where a register may stand, said without cursors. A register has to keep apart from some of the
registers before it, and `Overlap.reserved` is the largest end of these. From there on addresses are
free for it: by hand it has to ask for one of them, and otherwise it gets the least that is a
multiple of its span (`Policy.Gives`). `Placement.Follows` is everything that is asked of one
register, and `Policy.Refuses` the error of a register for which there is no such place.

Two cursors are enough to know all these ends, because none of them ever moves back
(`Cursors.Records`). So a register is placed exactly where the rules put it, and refused exactly
where they refuse it.
-/

namespace RegisterBank

namespace Overlap

variable {o : Overlap} {a : Access} {p : Placement} {ps : List Placement} {n : Nat}

instance (o : Overlap) (a b : Access) : Decidable (o.Separates a b) :=
  inferInstanceAs (Decidable (_ ∨ _))

/-- The largest end of the registers that have to keep apart from one of the given access, and zero
if there are none. -/
def reserved (o : Overlap) (a : Access) : List Placement → Nat
  | [] => 0
  | p :: ps =>
    if o.Separates p.register.access a then max p.stop (o.reserved a ps) else o.reserved a ps

theorem reserved_le_iff :
    o.reserved a ps ≤ n ↔ ∀ p ∈ ps, o.Separates p.register.access a → p.stop ≤ n := by
  induction ps with
  | nil => simp [reserved]
  | cons p ps ih =>
      rw [reserved, List.forall_mem_cons]
      split
      · rename_i hsep
        rw [max_le_iff, ih]
        exact and_congr_left' ⟨fun h _ => h, fun h => h hsep⟩
      · rename_i hsep
        rw [ih]
        exact (and_iff_right fun h => absurd h hsep).symm

theorem reserved_append_singleton :
    o.reserved a (ps ++ [p]) =
      if o.Separates p.register.access a then max (o.reserved a ps) p.stop
      else o.reserved a ps := by
  apply eq_of_forall_ge_iff
  intro n
  rw [reserved_le_iff, List.forall_mem_append, ← reserved_le_iff, List.forall_mem_singleton]
  split
  · rename_i hsep
    rw [max_le_iff]
    exact and_congr_right' ⟨fun h => h hsep, fun h _ => h⟩
  · rename_i hsep
    exact and_iff_left fun h => absurd h hsep

/-- Every register has to keep apart from those that are both read and written. -/
theorem separates_readWrite (o : Overlap) (a : Access) : o.Separates a .readWrite := by
  refine .inl ?_
  cases a <;> decide

end Overlap

namespace Cursors

variable {o : Overlap} {c : Cursors} {a : Access} {p : Placement} {ps : List Placement}
  {stop : Nat}

/-- The cursors after some registers have been placed in the address space: for every access the
floor is the largest end of the registers that have to keep apart from it. -/
structure Records (o : Overlap) (ps : List Placement) (c : Cursors) : Prop where
  settled : Settled o c
  floor : ∀ a, c.floor a = o.reserved a ps
  inside : ∀ p ∈ ps, p.stop ≤ 2 ^ 32

theorem records_nil (o : Overlap) : Records o [] {} where
  settled := settled_default o
  floor a := by cases a <;> rfl
  inside p hp := absurd hp List.not_mem_nil

/-- The cursors never leave the address space. -/
theorem Records.floor_le (hc : Records o ps c) (a : Access) : c.floor a ≤ 2 ^ 32 := by
  rw [hc.floor, Overlap.reserved_le_iff]
  exact fun p hp _ => hc.inside p hp

/-- A placement at or after the floor of its access moves the floors of those that it has to keep
apart from, and no others. -/
theorem floor_settle_advance (hc : Settled o c) (hstop : c.floor a ≤ stop) (b : Access) :
    ((c.advance a stop).settle o).floor b =
      if o.Separates a b then max (c.floor b) stop else c.floor b := by
  cases o with
  | never =>
      have heq : c.read = c.write := hc rfl
      have hsep : Overlap.never.Separates a b := .inr rfl
      rw [if_pos hsep]
      cases a <;> cases b <;> simp only [floor, advance, settle, top] at hstop ⊢ <;> grind
  | acrossDirections =>
      cases a <;> cases b <;>
        simp only [floor, advance, settle, top, Overlap.Separates, Access.Shares, Access.reads,
          Access.writes] at hstop ⊢ <;> grind

/-- The cursors record one more register that is placed at or after the floor of its access. -/
theorem Records.append_singleton (hc : Records o ps c)
    (hfloor : c.floor p.register.access ≤ p.address) (hinside : p.stop ≤ 2 ^ 32) :
    Records o (ps ++ [p]) ((c.advance p.register.access p.stop).settle o) where
  settled := settled_settle _ o
  floor b := by
    have hstop : c.floor p.register.access ≤ p.stop := hfloor.trans (Nat.le_add_right _ _)
    rw [floor_settle_advance hc.settled hstop, hc.floor, Overlap.reserved_append_singleton]
  inside q hq := by
    rcases List.mem_append.1 hq with hq | hq
    · exact hc.inside q hq
    · rw [List.mem_singleton.1 hq]
      exact hinside

/-- The greater cursor is at the largest end of all. -/
theorem Records.top_le_iff (hc : Records o ps c) {n : Nat} :
    c.top ≤ n ↔ ∀ p ∈ ps, p.stop ≤ n := by
  have htop : c.top = o.reserved .readWrite ps := hc.floor .readWrite
  rw [htop, Overlap.reserved_le_iff]
  refine forall₂_congr fun p _ => ?_
  exact ⟨fun h => h (o.separates_readWrite _), fun h _ => h⟩

end Cursors

namespace Policy

/-- The register has to ask for its address. -/
def ByHand (policy : Policy) (r : Register) : Prop :=
  policy.automatic = false ∧ r.isVersion = false

/-- The addresses that a register can have in a layout, where nothing before `free` is left. By
hand it is the one that the register asks for, if it is left and a multiple of the span; otherwise
it is the least that is, and only the version register may ask for one nevertheless. -/
inductive Gives (policy : Policy) (r : Register) (layout : Layout) (free : Nat) : Nat → Prop where
  | asked {address : Nat} :
      policy.ByHand r → r.address = some address → layout.span ∣ address → free ≤ address →
        Gives policy r layout free address
  | chosen {address : Nat} :
      r.isVersion = true ∨ policy.automatic = true ∧ r.address = none →
        IsLeast {n | layout.span ∣ n ∧ free ≤ n} address → Gives policy r layout free address

end Policy

/-- What is asked of a register at its place, where nothing before `free` is left. -/
structure Placement.Follows (policy : Policy) (env : Environment) (free : Nat) (r : Register)
    (p : Placement) : Prop where
  register : p.register = { r with address := some p.address }
  layout : Layout.of r env .max = .ok p.layout
  address : policy.Gives r p.layout free p.address
  inside : p.stop ≤ 2 ^ 32

namespace Policy

/-- The error of a register that cannot be placed, where nothing before `free` is left. Each cause
counts only where none of the causes before it applies. -/
inductive Refuses (policy : Policy) (env : Environment) (free : Nat) (r : Register) :
    Error → Prop where
  | layout {e : Error} : Layout.of r env .max = .error e → Refuses policy env free r e
  | unwanted {layout : Layout} {address : Nat} :
      Layout.of r env .max = .ok layout → policy.automatic = true → r.isVersion = false →
        r.address = some address → Refuses policy env free r (.address r.name (.unwanted address))
  | missing {layout : Layout} :
      Layout.of r env .max = .ok layout → policy.ByHand r → r.address = none →
        Refuses policy env free r (.address r.name .missing)
  | unaligned {layout : Layout} {address : Nat} :
      Layout.of r env .max = .ok layout → policy.ByHand r → r.address = some address →
        ¬ layout.span ∣ address →
          Refuses policy env free r (.address r.name (.unaligned address layout.span))
  | overlapping {layout : Layout} {address : Nat} :
      Layout.of r env .max = .ok layout → policy.ByHand r → r.address = some address →
        layout.span ∣ address → address < free →
          Refuses policy env free r (.address r.name (.overlapping address free))
  | outside {layout : Layout} {address : Nat} :
      Layout.of r env .max = .ok layout → policy.Gives r layout free address →
        2 ^ 32 < address + layout.span →
          Refuses policy env free r (.address r.name (.outside address layout.span))

variable {policy : Policy} {env : Environment} {c c' : Cursors} {r : Register} {p : Placement}
  {layout : Layout} {free address : Nat} {e : Error}

/-! ## One register -/

theorem request_eq_some_iff :
    policy.request r = .ok (some address) ↔ policy.ByHand r ∧ r.address = some address := by
  unfold request ByHand
  cases r.isVersion <;> cases policy.automatic <;> cases r.address <;> simp

theorem request_eq_none_iff :
    policy.request r = .ok none ↔
      r.isVersion = true ∨ policy.automatic = true ∧ r.address = none := by
  unfold request
  cases r.isVersion <;> cases policy.automatic <;> cases r.address <;> simp

theorem request_eq_error_iff :
    policy.request r = .error e ↔
      (∃ address, policy.automatic = true ∧ r.isVersion = false ∧ r.address = some address ∧
        e = .address r.name (.unwanted address)) ∨
      policy.ByHand r ∧ r.address = none ∧ e = .address r.name .missing := by
  unfold request ByHand
  cases r.isVersion <;> cases policy.automatic <;> cases r.address <;> simp [eq_comm]

theorem Gives.le (h : policy.Gives r layout free address) : free ≤ address := by
  cases h with
  | asked _ _ _ hfree => exact hfree
  | chosen _ hleast => exact hleast.1.2

/-- Below the end of the address space there is always a boundary left. -/
theorem ceil?_eq_some_iff_isLeast (hfree : free ≤ 2 ^ 32) (hwidth : layout.addrWidth ≤ 32) :
    Block.ceil? free layout.addrWidth = some address ↔
      IsLeast {n | layout.span ∣ n ∧ free ≤ n} address := by
  rw [Block.ceil?_eq_some_iff, layout.span_eq]
  refine ⟨fun h => h.2.2, fun h => ⟨by omega, ?_, h⟩⟩
  have hspan : 2 ^ layout.addrWidth ∣ 2 ^ 32 := Nat.pow_dvd_pow 2 hwidth
  exact (h.2 ⟨hspan, hfree⟩).trans_lt (by decide)

theorem addressFor_eq_ok_iff_gives (hfree : free ≤ 2 ^ 32) (hwidth : layout.addrWidth ≤ 32) :
    policy.addressFor r layout free = .ok address ↔ policy.Gives r layout free address := by
  rw [addressFor_eq_ok_iff, request_eq_some_iff, request_eq_none_iff,
    ceil?_eq_some_iff_isLeast hfree hwidth]
  constructor
  · rintro (⟨⟨hhand, hasked⟩, haligned, hleft⟩ | ⟨hchosen, hleast⟩)
    · exact .asked hhand hasked haligned hleft
    · exact .chosen hchosen hleast
  · rintro (⟨hhand, hasked, haligned, hleft⟩ | ⟨hchosen, hleast⟩)
    · exact .inl ⟨⟨hhand, hasked⟩, haligned, hleft⟩
    · exact .inr ⟨hchosen, hleast⟩

theorem addressFor_eq_error_iff (hfree : free ≤ 2 ^ 32) (hwidth : layout.addrWidth ≤ 32) :
    policy.addressFor r layout free = .error e ↔
      policy.request r = .error e ∨
      ∃ address, policy.ByHand r ∧ r.address = some address ∧
        (¬ layout.span ∣ address ∧ e = .address r.name (.unaligned address layout.span) ∨
          layout.span ∣ address ∧ address < free ∧
            e = .address r.name (.overlapping address free)) := by
  rw [addressFor, bind_eq_error_iff]
  refine or_congr_right ⟨?_, ?_⟩
  · rintro ⟨requested, hrequest, h⟩
    cases requested with
    | some wanted =>
        obtain ⟨hhand, hasked⟩ := request_eq_some_iff.1 hrequest
        refine ⟨wanted, hhand, hasked, ?_⟩
        rw [Nat.dvd_iff_mod_eq_zero]
        simp only at h
        split at h
        · rename_i hunaligned
          exact .inl ⟨hunaligned, (Except.error.inj h).symm⟩
        · rename_i haligned
          split at h
          · rename_i hbelow
            exact .inr ⟨not_not.1 haligned, hbelow, (Except.error.inj h).symm⟩
          · cases h
    | none =>
        -- A boundary is left, so a register that does not ask for its address gets one.
        obtain ⟨address, hleast⟩ : ∃ address, IsLeast {n | layout.span ∣ n ∧ free ≤ n} address := by
          rw [layout.span_eq]
          exact ⟨_, Block.isLeast_boundary free layout.addrWidth⟩
        have hceil := (ceil?_eq_some_iff_isLeast hfree hwidth).2 hleast
        simp only [hceil] at h
        cases h
  · rintro ⟨address, hhand, hasked, h⟩
    refine ⟨some address, request_eq_some_iff.2 ⟨hhand, hasked⟩, ?_⟩
    rw [Nat.dvd_iff_mod_eq_zero] at h
    rcases h with ⟨hunaligned, rfl⟩ | ⟨haligned, hbelow, rfl⟩
    · simp only [hunaligned, ne_eq, not_false_eq_true, if_true]
    · simp only [haligned, hbelow, ne_eq, not_true_eq_false, if_false, if_true]

theorem addrWidth_le_of_layout (h : Layout.of r env .max = .ok layout) :
    layout.addrWidth ≤ 32 := by
  obtain ⟨-, -, -, -, -, -, -, -, hwidth⟩ := Layout.of_eq_ok_iff.1 h
  exact hwidth

/-- What one placement puts where. -/
theorem place_eq_ok_iff_follows (hfree : c.floor r.access ≤ 2 ^ 32) :
    policy.place env c r = .ok (p, c') ↔
      p.Follows policy env (c.floor r.access) r ∧
        c' = (c.advance p.register.access p.stop).settle policy.overlap := by
  rw [place_eq_ok_iff]
  constructor
  · rintro ⟨layout, address, hlayout, haddress, hstop, rfl, rfl⟩
    have hwidth := addrWidth_le_of_layout hlayout
    exact ⟨⟨rfl, hlayout, (addressFor_eq_ok_iff_gives hfree hwidth).1 haddress, hstop⟩, rfl⟩
  · obtain ⟨register, address, layout⟩ := p
    rintro ⟨⟨hregister, hlayout, haddress, hstop⟩, rfl⟩
    have hwidth := addrWidth_le_of_layout hlayout
    obtain rfl : register = { r with address := some address } := hregister
    exact ⟨layout, address, hlayout, (addressFor_eq_ok_iff_gives hfree hwidth).2 haddress, hstop,
      rfl, rfl⟩

/-- When one placement fails, and why. -/
theorem place_eq_error_iff_refuses (hfree : c.floor r.access ≤ 2 ^ 32) :
    policy.place env c r = .error e ↔ policy.Refuses env (c.floor r.access) r e := by
  rw [place, bind_eq_error_iff]
  simp only [bind_eq_error_iff]
  constructor
  · rintro (hlayout | ⟨layout, hlayout, haddress | ⟨address, haddress, h⟩⟩)
    · exact .layout hlayout
    · have hwidth := addrWidth_le_of_layout hlayout
      rcases (addressFor_eq_error_iff hfree hwidth).1 haddress with
        hrequest | ⟨address, hhand, hasked, ⟨hunaligned, rfl⟩ | ⟨haligned, hbelow, rfl⟩⟩
      · rcases request_eq_error_iff.1 hrequest with
          ⟨address, hautomatic, hversion, hasked, rfl⟩ | ⟨hhand, hnone, rfl⟩
        · exact .unwanted hlayout hautomatic hversion hasked
        · exact .missing hlayout hhand hnone
      · exact .unaligned hlayout hhand hasked hunaligned
      · exact .overlapping hlayout hhand hasked haligned hbelow
    · have hwidth := addrWidth_le_of_layout hlayout
      have hgives := (addressFor_eq_ok_iff_gives hfree hwidth).1 haddress
      split at h
      · cases h
      · rename_i houtside
        cases h
        exact .outside hlayout hgives (not_le.1 houtside)
  · rintro (hlayout | ⟨hlayout, hautomatic, hversion, hasked⟩ | ⟨hlayout, hhand, hnone⟩ |
      ⟨hlayout, hhand, hasked, hunaligned⟩ | ⟨hlayout, hhand, hasked, haligned, hbelow⟩ |
      ⟨hlayout, hgives, houtside⟩)
    · exact .inl hlayout
    · have hwidth := addrWidth_le_of_layout hlayout
      refine .inr ⟨_, hlayout, .inl ((addressFor_eq_error_iff hfree hwidth).2 (.inl ?_))⟩
      exact request_eq_error_iff.2 (.inl ⟨_, hautomatic, hversion, hasked, rfl⟩)
    · have hwidth := addrWidth_le_of_layout hlayout
      refine .inr ⟨_, hlayout, .inl ((addressFor_eq_error_iff hfree hwidth).2 (.inl ?_))⟩
      exact request_eq_error_iff.2 (.inr ⟨hhand, hnone, rfl⟩)
    · have hwidth := addrWidth_le_of_layout hlayout
      refine .inr ⟨_, hlayout, .inl ((addressFor_eq_error_iff hfree hwidth).2 (.inr ?_))⟩
      exact ⟨_, hhand, hasked, .inl ⟨hunaligned, rfl⟩⟩
    · have hwidth := addrWidth_le_of_layout hlayout
      refine .inr ⟨_, hlayout, .inl ((addressFor_eq_error_iff hfree hwidth).2 (.inr ?_))⟩
      exact ⟨_, hhand, hasked, .inr ⟨haligned, hbelow, rfl⟩⟩
    · have hwidth := addrWidth_le_of_layout hlayout
      have haddress := (addressFor_eq_ok_iff_gives hfree hwidth).2 hgives
      exact .inr ⟨_, hlayout, .inr ⟨_, haddress, if_neg (not_le.2 houtside)⟩⟩

end Policy

end RegisterBank
