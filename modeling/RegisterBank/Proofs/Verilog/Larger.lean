import RegisterBank.Proofs.Expr.Formula
import RegisterBank.Proofs.Verilog.Width

/-!
# The larger of two formulas

The text for the larger of two widths is built from the texts of two formulas. It can always be read
as a formula. This has the larger value exactly where the comparison in it, read as a formula of its
own, chooses the larger one (`eval_larger_iff`). Nothing is put into parentheses, so this is sure
only for formulas that bind tightly enough, and fails for others.
-/

namespace RegisterBank.Verilog

open RegisterBank.Expr (Form)

variable {a b text : String} {f g : Formula} {env : Environment} {mode : Mode} {v x y : Int}

theorem hasValue_iff_eval (h : Formula.parse text = .ok f) :
    HasValue (env.lookup mode) text v ↔ f.eval env mode = .ok v := by
  have htree := (Formula.parse_tree_of_parse_eq_ok h).1
  rw [Formula.eval_eq_ok_iff]
  constructor
  · rintro ⟨e, he, hv⟩
    cases htree.symm.trans he
    exact hv
  · exact fun hv => ⟨f.tree, htree, hv⟩

/-- A choice between two values is the larger one exactly where it is made by the condition. -/
theorem choice_eq_max_iff {P : Int → Prop} :
    ((∃ w ≠ 0, P w ∧ max x y = x) ∨ P 0 ∧ max x y = y) ↔
      ∃ w, P w ∧ (y < x → w ≠ 0) ∧ (x < y → w = 0) := by
  rw [max_eq_left_iff, max_eq_right_iff]
  constructor
  · rintro (⟨w, hne, hw, hle⟩ | ⟨hzero, hle⟩)
    · exact ⟨w, hw, fun _ => hne, fun hlt => absurd hlt (not_lt.2 hle)⟩
    · exact ⟨0, hzero, fun hlt => absurd hlt (not_lt.2 hle), fun _ => rfl⟩
  · rintro ⟨w, hw, hleft, hright⟩
    by_cases hzero : w = 0
    · exact .inr ⟨hzero ▸ hw, not_lt.1 fun hlt => hleft hlt hzero⟩
    · exact .inl ⟨w, hzero, hw, not_lt.1 fun hlt => hzero (hright hlt)⟩

/-- The text for the larger of two formulas is a formula. It has the larger value exactly where the
texts are the same or the comparison of the two, as it reads without parentheses, has a value that
chooses the larger one. This is so wherever the first text binds as tightly as a comparison and the
second one more tightly. -/
theorem eval_larger_iff (hf : Formula.parse a = .ok f) (hg : Formula.parse b = .ok g)
    (hx : f.eval env mode = .ok x) (hy : g.eval env mode = .ok y) :
    ∃ result compared, Formula.parse (larger a b) = .ok result ∧
      Formula.parse (comparison a b) = .ok compared ∧
      (result.eval env mode = .ok (max x y) ↔
        a = b ∨ ∃ w, compared.eval env mode = .ok w ∧ (y < x → w ≠ 0) ∧ (x < y → w = 0)) ∧
      ((Form.expr 7 f.tree).WrittenAs a.toList → (Form.expr 8 g.tree).WrittenAs b.toList →
        result.eval env mode = .ok (max x y)) := by
  have ha := Expr.writtenAs_of_parse_eq_ok (Formula.parse_tree_of_parse_eq_ok hf).1
  have hb := Expr.writtenAs_of_parse_eq_ok (Formula.parse_tree_of_parse_eq_ok hg).1
  obtain ⟨whole, hwhole⟩ := exists_writtenAs_larger ha hb
  obtain ⟨joined, hjoined⟩ := exists_writtenAs_comparison ha hb
  have hresult := Formula.parse_eq_ok_of_writtenAs hwhole
  have hcompared := Formula.parse_eq_ok_of_writtenAs hjoined
  rw [← hasValue_iff_eval hf] at hx
  rw [← hasValue_iff_eval hg] at hy
  refine ⟨_, _, hresult, hcompared, ?_, ?_⟩
  · rw [← hasValue_iff_eval hresult]
    simp only [← hasValue_iff_eval hcompared]
    by_cases heq : a = b
    · obtain rfl : y = x := by
        subst heq
        exact hy.unique hx
      rw [larger, if_pos heq, max_self]
      exact iff_of_true hx (.inl heq)
    · rw [hasValue_larger_iff_of_ne heq ha hb, or_iff_right heq, ← choice_eq_max_iff, hx.iff_eq,
        hy.iff_eq]
  · intro hatight hbtight
    rw [← hasValue_iff_eval hresult]
    exact (hasValue_larger_iff_of_tight hatight hbtight hx hy).2 rfl

theorem parse_and : Formula.parse "A & 2" =
    .ok ⟨"A & 2", .binary .bitAnd (.name "A") (.number 2)⟩ :=
  Formula.parse_eq_ok_of_writtenAs (writtenAs_and_comparison.1.looser (Nat.zero_le 5))

theorem parse_one : Formula.parse "1" = .ok ⟨"1", .number 1⟩ :=
  Formula.parse_eq_ok_of_writtenAs
    ((Expr.writtenAs_toString (n := 1) (by decide)).looser (Nat.zero_le 13))

theorem eval_larger_iff_and_one :
    ∃ result, larger "A & 2" "1" = "((A & 2 > 1) ? A & 2 : 1)" ∧
      Formula.parse (larger "A & 2" "1") = .ok result ∧
      result.eval (({} : Environment).insert "A" 3) .value = .ok (max 2 1) := by
  have htwo : Formula.eval ⟨"A & 2", .binary .bitAnd (.name "A") (.number 2)⟩
      (({} : Environment).insert "A" 3) .value = .ok 2 := rfl
  obtain ⟨result, compared, hresult, hcompared, hvalue, -⟩ :=
    eval_larger_iff parse_and parse_one htwo rfl
  have hwhole := Formula.parse_eq_ok_of_writtenAs
    (writtenAs_and_comparison.2.looser (Nat.zero_le 5))
  cases hwhole.symm.trans hcompared
  exact ⟨result, by decide, hresult, hvalue.2 (.inr ⟨1, rfl, by decide, by decide⟩)⟩

/-- At 2 for `A` the comparison in `((A & 2 > 1) ? A & 2 : 1)` is `A & (2 > 1)`, which is 0, so the
text is 1 and not 2. -/
theorem not_forall_eval_larger :
    ¬ ∀ (a b : String) (f g : Formula) (env : Environment) (mode : Mode) (x y : Int),
      Formula.parse a = .ok f → Formula.parse b = .ok g →
      f.eval env mode = .ok x → g.eval env mode = .ok y →
      ∃ result, Formula.parse (larger a b) = .ok result ∧
        result.eval env mode = .ok (max x y) := by
  intro h
  let env := ({} : Environment).insert "A" 2
  obtain ⟨result, hresult, hvalue⟩ :=
    h "A & 2" "1" _ _ env .value 2 1 parse_and parse_one rfl rfl
  have hone : HasValue (env.lookup .value) "1" 1 := (hasValue_iff_eval parse_one).2 rfl
  have hcomparison : HasValue (env.lookup .value) (comparison "A & 2" "1") 0 :=
    (hasValue_iff writtenAs_and_comparison.2).2 rfl
  have hlarger : HasValue (env.lookup .value) (larger "A & 2" "1") 2 :=
    (hasValue_iff_eval hresult).2 hvalue
  rw [hasValue_larger_iff_of_ne (by decide) (writtenAs_and_comparison.1.looser (Nat.zero_le 5))
    (Expr.writtenAs_of_parse_eq_ok (Formula.parse_tree_of_parse_eq_ok parse_one).1)] at hlarger
  rcases hlarger with ⟨w, hne, hw, -⟩ | ⟨-, htwo⟩
  · exact hne (hw.unique hcomparison)
  · exact absurd (htwo.unique hone) (by decide)

end RegisterBank.Verilog
