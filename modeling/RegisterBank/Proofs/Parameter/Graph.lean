import Mathlib.Data.Set.Finite.Basic
import Mathlib.Logic.Relation
import Mathlib.Order.WellFounded
import RegisterBank.Parameter.Resolution

/-!
# The graph of references

In each mode the parameters form a graph, with an edge from every parameter to each declared one
that its field mentions (`Parameter.Uses`). There are finitely many of them, so parameters that all
mention another of their own lead to a cycle, and without a cycle every chain of references has an
end.
-/

namespace RegisterBank

open Relation (ReflTransGen TransGen)

variable {α : Type} {r : α → α → Prop} {xs : List α}

/-- If every member of a list has a successor in it, every member leads to a cycle. -/
theorem exists_transGen_self_of_forall_exists (h : ∀ x ∈ xs, ∃ y ∈ xs, r x y) :
    ∀ x ∈ xs, ∃ y, ReflTransGen r x y ∧ TransGen r y y := by
  intro x hx
  by_contra hnone
  -- Without a cycle "comes later" is an order on what can be reached from `x` in the list, so there
  -- is a last member; but it has a successor too.
  let Reached := {y // y ∈ xs ∧ ReflTransGen r x y}
  have : Finite Reached := (xs.finite_toSet.subset fun y hy => hy.1).to_subtype
  let later : Reached → Reached → Prop := fun y z => TransGen r z.1 y.1
  have : IsTrans Reached later := ⟨fun _ _ _ hyz hzw => hzw.trans hyz⟩
  have : Std.Irrefl later := ⟨fun y hcycle => hnone ⟨y.1, y.2.2, hcycle⟩⟩
  have hwf : WellFounded later := Finite.wellFounded_of_trans_of_irrefl later
  obtain ⟨⟨y, hy, hxy⟩, -, hlast⟩ := hwf.has_min Set.univ ⟨⟨x, hx, .refl⟩, trivial⟩
  obtain ⟨z, hz, hyz⟩ := h y hy
  exact hlast ⟨z, hz, hxy.tail hyz⟩ trivial (.single hyz)

namespace Parameter

variable {params left : List Parameter} {mode : Mode} {p q : Parameter}

/-! ## References -/

/-- The field of the parameter for the mode mentions the other one, which is declared. -/
def Uses (params : List Parameter) (mode : Mode) (p q : Parameter) : Prop :=
  q ∈ params ∧ q.name ∈ p.references mode

/-- A field without mentions of the parameters that are left. -/
theorem mentions_eq_zero_iff : p.mentions left mode = 0 ↔
    ∀ name ∈ p.references mode, ∀ q ∈ left, q.name ≠ name := by
  simp [mentions, List.countP_eq_zero]

theorem mentions_ne_zero_iff (hleft : ∀ q ∈ left, q ∈ params) :
    p.mentions left mode ≠ 0 ↔ ∃ q ∈ left, p.Uses params mode q := by
  rw [Ne, mentions_eq_zero_iff]
  push Not
  constructor
  · rintro ⟨name, hname, q, hq, rfl⟩
    exact ⟨q, hq, hleft q hq, hname⟩
  · rintro ⟨q, hq, -, hname⟩
    exact ⟨q.name, hname, q, hq, rfl⟩

/-- The mentions of one parameter and those of the others. -/
theorem mentions_eq_add (mode : Mode) (hp : p ∈ left) (q : Parameter) :
    q.mentions left mode =
      q.mentions (left.filter (·.name != p.name)) mode + (q.references mode).count p.name := by
  unfold mentions
  induction q.references mode with
  | nil => rfl
  | cons name names ih =>
      rw [List.countP_cons, List.countP_cons, List.count_cons, ih]
      by_cases hname : name = p.name
      · subst hname
        have hfound : left.any (·.name == p.name) = true := List.any_eq_true.2 ⟨p, hp, by simp⟩
        have hnone : (left.filter (·.name != p.name)).any (·.name == p.name) = false := by simp
        rw [hfound, hnone, beq_self_eq_true, if_pos rfl, if_neg Bool.false_ne_true]
        omega
      · have hother : ∀ r : Parameter, (r.name != p.name && r.name == name) = (r.name == name) := by
          intro r
          by_cases hr : r.name = name
          · simp [hr, hname]
          · simp [hr]
        rw [List.any_filter, List.any_congr rfl hother, beq_eq_false_iff_ne.2 hname,
          if_neg Bool.false_ne_true]
        omega

/-! ## Cycles -/

/-- A cycle can be reached from the parameter. -/
def ReachesCycle (params : List Parameter) (mode : Mode) (p : Parameter) : Prop :=
  ∃ q, ReflTransGen (Uses params mode) p q ∧ TransGen (Uses params mode) q q

/-- The fields for the mode mention each other in a cycle. -/
def Cyclic (params : List Parameter) (mode : Mode) : Prop :=
  ∃ p ∈ params, TransGen (Uses params mode) p p

open Classical in
/-- The parameters from which a cycle can be reached, in order of declaration. -/
noncomputable def stuck (params : List Parameter) (mode : Mode) : List Parameter :=
  params.filter fun p => p.ReachesCycle params mode

theorem mem_stuck : p ∈ stuck params mode ↔ p ∈ params ∧ p.ReachesCycle params mode := by
  simp only [stuck, List.mem_filter, decide_eq_true_eq]

/-- On the way to a cycle there is a next parameter, from which it can be reached too. -/
theorem ReachesCycle.exists_uses (h : p.ReachesCycle params mode) :
    ∃ q, p.Uses params mode q ∧ q.ReachesCycle params mode := by
  obtain ⟨q, hpq, hcycle⟩ := h
  rcases ReflTransGen.cases_head hpq with rfl | ⟨next, hnext, hrest⟩
  · obtain ⟨next, hnext, hback⟩ := TransGen.head'_iff.1 hcycle
    exact ⟨next, hnext, p, hback, hcycle⟩
  · exact ⟨next, hnext, q, hrest, hcycle⟩

theorem Cyclic.exists_reachesCycle (h : Cyclic params mode) :
    ∃ p ∈ params, p.ReachesCycle params mode := by
  obtain ⟨p, hp, hcycle⟩ := h
  exact ⟨p, hp, p, .refl, hcycle⟩

theorem ReachesCycle.cyclic (h : p.ReachesCycle params mode) : Cyclic params mode := by
  obtain ⟨q, -, hcycle⟩ := h
  obtain ⟨before, -, huses⟩ := TransGen.tail'_iff.1 hcycle
  exact ⟨q, huses.1, hcycle⟩

/-- Something is stuck exactly where there is a cycle. -/
theorem stuck_eq_nil_iff : stuck params mode = [] ↔ ¬ Cyclic params mode := by
  rw [List.eq_nil_iff_forall_not_mem]
  constructor
  · intro hnone hcyclic
    obtain ⟨p, hp, hreaches⟩ := hcyclic.exists_reachesCycle
    exact hnone p (mem_stuck.2 ⟨hp, hreaches⟩)
  · intro hacyclic p hp
    exact hacyclic (mem_stuck.1 hp).2.cyclic

theorem Uses.exists_field (h : p.Uses params mode q) :
    ∃ formula, p.field mode = some formula := by
  have hmentions := h.2
  unfold references at hmentions
  cases hfield : p.field mode with
  | none =>
      rw [hfield] at hmentions
      cases hmentions
  | some formula => exact ⟨formula, rfl⟩

/-- Without a cycle every chain of references has an end. -/
theorem wellFounded_uses (h : ¬ Cyclic params mode) :
    WellFounded fun q p => Uses params mode p q := by
  classical
  rw [WellFounded.wellFounded_iff_has_min]
  intro ps ⟨p, hp⟩
  by_contra hnone
  push Not at hnone
  have hnext : ∀ q ∈ params.filter (· ∈ ps), ∃ next ∈ params.filter (· ∈ ps),
      Uses params mode q next := by
    intro q hq
    obtain ⟨next, hmem, huses⟩ := hnone q (of_decide_eq_true (List.mem_filter.1 hq).2)
    exact ⟨next, List.mem_filter.2 ⟨huses.1, decide_eq_true hmem⟩, huses⟩
  obtain ⟨q, hq, huses⟩ := hnone p hp
  have hcycle := exists_transGen_self_of_forall_exists hnext q
    (List.mem_filter.2 ⟨huses.1, decide_eq_true hq⟩)
  exact h (ReachesCycle.cyclic hcycle)

end Parameter

end RegisterBank
