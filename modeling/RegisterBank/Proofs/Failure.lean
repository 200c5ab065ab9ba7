import Mathlib.Data.List.Forall2
import Mathlib.Tactic.Basic

/-!
# Results of steps that may fail

Everything that can stop a build is an `Except`, and longer computations are chains of such steps.
A chain has a result exactly when every step has one, so a successful run can be taken apart from
its last step to its first.
-/

namespace RegisterBank

variable {ε α β : Type}

/-- Two steps in a row succeed exactly when the first one does and the second one does on its
result. -/
theorem bind_eq_ok_iff {x : Except ε α} {f : α → Except ε β} {b : β} :
    x >>= f = .ok b ↔ ∃ a, x = .ok a ∧ f a = .ok b := by
  cases x with
  | error e =>
      constructor
      · intro h
        cases h
      · rintro ⟨a, ha, -⟩
        cases ha
  | ok a =>
      constructor
      · intro h
        exact ⟨a, rfl, h⟩
      · rintro ⟨a', ha, hb⟩
        cases ha
        exact hb

/-- Two steps in a row fail exactly when the first one does, or the second one does on its
result. -/
theorem bind_eq_error_iff {x : Except ε α} {f : α → Except ε β} {e : ε} :
    x >>= f = .error e ↔ x = .error e ∨ ∃ a, x = .ok a ∧ f a = .error e := by
  cases x with
  | error e' =>
      constructor
      · intro h
        cases h
        exact .inl rfl
      · rintro (h | ⟨a, ha, -⟩)
        · cases h
          rfl
        · cases ha
  | ok a =>
      constructor
      · intro h
        exact .inr ⟨a, rfl, h⟩
      · rintro (h | ⟨a', ha, he⟩)
        · cases h
        · cases ha
          exact he

/-- A step behind a refusal succeeds exactly when nothing is refused and the step does. -/
theorem ite_error_eq_ok_iff {p : Prop} [Decidable p] {e : ε} {x : Except ε α} {a : α} :
    (if p then .error e else x) = .ok a ↔ ¬ p ∧ x = .ok a := by
  by_cases h : p
  · rw [if_pos h]
    constructor
    · intro he
      cases he
    · rintro ⟨hnot, -⟩
      exact absurd h hnot
  · rw [if_neg h]
    exact (and_iff_right h).symm

@[simp] theorem ok_bind (a : α) (f : α → Except ε β) : (Except.ok a >>= f) = f a := rfl

/-- A step for each member of a list succeeds exactly when each of the steps does. -/
theorem mapM_eq_ok_iff {f : α → Except ε β} {xs : List α} {ys : List β} :
    xs.mapM f = .ok ys ↔ List.Forall₂ (fun x y => f x = .ok y) xs ys := by
  induction xs generalizing ys with
  | nil =>
      rw [List.mapM_nil, List.forall₂_nil_left_iff]
      constructor
      · intro h
        cases h
        rfl
      · rintro rfl
        rfl
  | cons x xs ih =>
      simp only [List.mapM_cons, bind_eq_ok_iff, List.forall₂_cons_left_iff, ih]
      constructor
      · rintro ⟨y, hy, rest, hrest, h⟩
        cases h
        exact ⟨y, rest, hy, hrest, rfl⟩
      · rintro ⟨y, rest, hy, hrest, rfl⟩
        exact ⟨y, hy, rest, hrest, rfl⟩

/-- A step for each member gives the results that the members are related to, if each step does. -/
theorem mapM_eq_ok_of_forall₂ {R : α → β → Prop} {f : α → Except ε β} {xs : List α} {ys : List β}
    (h : List.Forall₂ R xs ys) (hf : ∀ y ∈ ys, ∀ x, R x y → f x = .ok y) : xs.mapM f = .ok ys := by
  rw [mapM_eq_ok_iff]
  induction h with
  | nil => exact .nil
  | cons hfirst _ ih =>
      rw [List.forall_mem_cons] at hf
      exact .cons (hf.1 _ hfirst) (ih hf.2)

theorem exists_of_mapM_eq_ok {f : α → Except ε β} {xs : List α} {ys : List β}
    (h : xs.mapM f = .ok ys) : ∀ x ∈ xs, ∃ y, f x = .ok y := by
  rw [mapM_eq_ok_iff] at h
  induction h with
  | nil => simp
  | cons hfirst _ ih =>
      rw [List.forall_mem_cons]
      exact ⟨⟨_, hfirst⟩, ih⟩

theorem exists_mem_of_mapM_eq_ok {f : α → Except ε β} {xs : List α} {ys : List β}
    (h : xs.mapM f = .ok ys) : ∀ y ∈ ys, ∃ x ∈ xs, f x = .ok y := by
  rw [mapM_eq_ok_iff] at h
  induction h with
  | nil => exact fun _ hy => absurd hy List.not_mem_nil
  | cons hfirst _ ih =>
      rw [List.forall_mem_cons]
      refine ⟨⟨_, List.mem_cons_self, hfirst⟩, fun y hy => ?_⟩
      obtain ⟨x, hx, heq⟩ := ih y hy
      exact ⟨x, List.mem_cons_of_mem _ hx, heq⟩

/-- What can be said of each result from its member can be said of all results in order. -/
theorem map_eq_of_mapM_eq_ok {γ : Type} {f : α → Except ε β} {g : β → γ} {k : α → γ} {xs : List α}
    {ys : List β} (h : xs.mapM f = .ok ys) (heq : ∀ x ∈ xs, ∀ y, f x = .ok y → g y = k x) :
    ys.map g = xs.map k := by
  rw [mapM_eq_ok_iff] at h
  induction h with
  | nil => rfl
  | cons hfirst _ ih =>
      rw [List.forall_mem_cons] at heq
      rw [List.map_cons, List.map_cons, heq.1 _ hfirst, ih heq.2]

@[simp] theorem error_bind (e : ε) (f : α → Except ε β) :
    ((Except.error e : Except ε α) >>= f) = .error e := rfl

end RegisterBank
