import Mathlib.Data.List.Basic

/-!
# At most one of many

A decoder is a list of conditions of which at most one may hold at a time. When no two members of a
list can be chosen together, the choice is empty or one member; if a member is known to be chosen,
it is that one.
-/

namespace RegisterBank

variable {α : Type} {P : α → Prop} [DecidablePred P] {xs : List α} {x : α}

theorem length_filter_le_one (h : xs.Pairwise fun x y => ¬ (P x ∧ P y)) :
    (xs.filter P).length ≤ 1 := by
  have hchosen : ∀ y ∈ xs.filter P, P y := fun y hy => of_decide_eq_true (List.mem_filter.1 hy).2
  have hpairwise := h.filter P
  cases hlist : xs.filter P with
  | nil => simp
  | cons y ys =>
      cases ys with
      | nil => simp
      | cons z zs =>
          rw [hlist] at hchosen hpairwise
          have hyz := (List.pairwise_cons.1 hpairwise).1 z List.mem_cons_self
          exact absurd ⟨hchosen y (by simp), hchosen z (by simp)⟩ hyz

theorem filter_eq_singleton (h : xs.Pairwise fun x y => ¬ (P x ∧ P y)) (hx : x ∈ xs) (hP : P x) :
    xs.filter P = [x] := by
  have hmem : x ∈ xs.filter P := List.mem_filter.2 ⟨hx, decide_eq_true hP⟩
  have hlength := length_filter_le_one h
  obtain ⟨y, hy⟩ : ∃ y, xs.filter P = [y] := by
    rw [← List.length_eq_one_iff]
    exact Nat.le_antisymm hlength (List.length_pos_of_mem hmem)
  rw [hy, List.mem_singleton] at hmem
  rw [hy, hmem]

end RegisterBank
