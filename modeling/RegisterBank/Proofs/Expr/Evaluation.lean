import Mathlib.Data.List.Forall2
import RegisterBank.Expr.Eval
import RegisterBank.Proofs.Failure

/-!
# What an evaluation consists of

A tree has a value exactly if the parts that decide it have values and its operator has one for
these. `Expr.induction` gives the arguments of a call as members of a list, so that no statement
about trees needs a second one about lists of trees.
-/

namespace RegisterBank.Expr

variable {scope : String → Lookup} {e a b c : Expr} {args : List Expr} {v : Int}
  {values : List Int} {text : String}

/-- Induction over trees. -/
@[elab_as_elim, induction_eliminator]
theorem induction {motive : Expr → Prop} (number : ∀ value, motive (.number value))
    (name : ∀ text, motive (.name text))
    (unary : ∀ op e, motive e → motive (.unary op e))
    (binary : ∀ op a b, motive a → motive b → motive (.binary op a b))
    (choose : ∀ c a b, motive c → motive a → motive b → motive (.choose c a b))
    (call : ∀ function args, (∀ arg ∈ args, motive arg) → motive (.call function args))
    (e : Expr) : motive e := by
  refine @Expr.rec motive (fun args => ∀ arg ∈ args, motive arg) number name unary binary choose
    call ?_ ?_ e
  · intro arg harg
    cases harg
  · intro head tail hhead htail
    rw [List.forall_mem_cons]
    exact ⟨hhead, htail⟩

theorem eval_name_eq_ok_iff : (name text).eval scope = .ok v ↔ scope text = .known v := by
  rw [eval]
  split <;> simp_all

theorem eval_unary_eq_ok_iff {op : UnaryOp} : (unary op e).eval scope = .ok v ↔
    ∃ x, e.eval scope = .ok x ∧ unaryValue op x = .ok v := by
  rw [eval, bind_eq_ok_iff]

theorem eval_binary_eq_ok_iff {op : BinaryOp} : (binary op a b).eval scope = .ok v ↔
    ∃ x y, a.eval scope = .ok x ∧ b.eval scope = .ok y ∧ binaryValue op x y = .ok v := by
  simp only [eval, bind_eq_ok_iff, exists_and_left]

theorem eval_choose_eq_ok_iff : (choose c a b).eval scope = .ok v ↔
    ∃ x, c.eval scope = .ok x ∧
      (x ≠ 0 ∧ a.eval scope = .ok v ∨ x = 0 ∧ b.eval scope = .ok v) := by
  rw [eval, bind_eq_ok_iff]
  refine exists_congr fun x => and_congr_right fun _ => ?_
  by_cases hx : x = 0
  · simp [hx]
  · simp [hx]

theorem eval_call_eq_ok_iff {function : String} : (call function args).eval scope = .ok v ↔
    ∃ values, evalAll scope args = .ok values ∧ callValue function values = .ok v := by
  rw [eval, bind_eq_ok_iff]

/-- A list of trees has values exactly if each of its trees has one. -/
theorem evalAll_eq_ok_iff : evalAll scope args = .ok values ↔
    List.Forall₂ (fun arg x => arg.eval scope = .ok x) args values := by
  induction args generalizing values with
  | nil =>
      rw [evalAll, Except.ok.injEq, List.forall₂_nil_left_iff]
      exact eq_comm
  | cons arg args ih =>
      simp only [evalAll, bind_eq_ok_iff, Except.ok.injEq, ih, List.forall₂_cons_left_iff]
      constructor
      · rintro ⟨x, hx, rest, hrest, rfl⟩
        exact ⟨x, rest, hx, hrest, rfl⟩
      · rintro ⟨x, rest, hx, hrest, rfl⟩
        exact ⟨x, hx, rest, hrest, rfl⟩

/-- What holds of the value of every tree in a list holds of all the values. -/
theorem forall_mem_of_evalAll {P : Int → Prop} (h : evalAll scope args = .ok values)
    (hP : ∀ arg ∈ args, ∀ x, arg.eval scope = .ok x → P x) : ∀ x ∈ values, P x := by
  rw [evalAll_eq_ok_iff] at h
  induction h with
  | nil =>
      intro x hx
      cases hx
  | cons hx _ ih =>
      rw [List.forall_mem_cons] at hP ⊢
      exact ⟨hP.1 _ hx, ih hP.2⟩

theorem mem_referencesAll : text ∈ referencesAll args ↔ ∃ arg ∈ args, text ∈ arg.references := by
  induction args with
  | nil => simp [referencesAll]
  | cons arg args ih => rw [referencesAll, List.mem_append, ih, List.exists_mem_cons_iff]

theorem evalAll_congr {scope scope' : String → Lookup}
    (h : ∀ arg ∈ args, arg.eval scope = arg.eval scope') :
    evalAll scope args = evalAll scope' args := by
  induction args with
  | nil => rfl
  | cons arg args ih =>
      rw [List.forall_mem_cons] at h
      rw [evalAll, evalAll, h.1, ih h.2]

/-- What a tree evaluates to depends only on the names that it mentions. -/
theorem eval_congr {scope scope' : String → Lookup}
    (h : ∀ text ∈ e.references, scope text = scope' text) : e.eval scope = e.eval scope' := by
  induction e with
  | number value => rfl
  | name text => rw [eval, eval, h text (List.mem_singleton_self text)]
  | unary op e ih => rw [eval, eval, ih h]
  | binary op a b iha ihb =>
      rw [references, List.forall_mem_append] at h
      rw [eval, eval, iha h.1, ihb h.2]
  | choose c a b ihc iha ihb =>
      rw [references, List.forall_mem_append, List.forall_mem_append] at h
      rw [eval, eval, ihc h.1, iha h.2.1, ihb h.2.2]
  | call function args ih =>
      have hargs : ∀ arg ∈ args, arg.eval scope = arg.eval scope' := by
        intro arg harg
        refine ih arg harg fun text htext => h text ?_
        rw [references]
        exact mem_referencesAll.2 ⟨arg, harg, htext⟩
      rw [eval, eval, evalAll_congr hargs]

theorem exists_evalAll_of_append {before after : List Expr}
    (h : evalAll scope (before ++ after) = .ok values) :
    ∃ values, evalAll scope before = .ok values := by
  have htake := List.forall₂_take before.length (evalAll_eq_ok_iff.1 h)
  rw [List.take_left] at htake
  exact ⟨_, evalAll_eq_ok_iff.2 htake⟩

end RegisterBank.Expr
