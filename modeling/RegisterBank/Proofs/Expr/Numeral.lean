import RegisterBank.Proofs.Expr.Evaluation
import RegisterBank.Proofs.Expr.Token.Decimal

/-!
# Integers written into expressions

There are no negative numbers among the tokens, so the text by which a negative integer is shown is
an operator before a number. `numeral` is the tree of a shown integer. It binds as tightly as a
sign, which is one level looser than a number.
-/

namespace RegisterBank.Expr

variable {digits cs : List Char} {n : Nat} {v : Int}

/-- The tree of the text by which an integer is shown. -/
def numeral : Int → Expr
  | .ofNat n => .number n
  | .negSucc n => .unary .negate (.number (n + 1 : Nat))

theorem inRange_neg_natCast (h : Word.InRange n) : Word.InRange (-(n : Int)) := by
  unfold Word.InRange Word.least Word.greatest at *
  omega

theorem eval_negate_number {scope : String → Lookup} (h : Word.InRange n) :
    (unary .negate (.number n)).eval scope = .ok (-(n : Int)) := by
  refine eval_unary_eq_ok_iff.2 ⟨n, rfl, ?_⟩
  rw [unaryValue, inRange, Word.check?, if_pos (inRange_neg_natCast h)]

theorem eval_numeral (h : Word.InRange v.natAbs) (scope : String → Lookup) :
    (numeral v).eval scope = .ok v := by
  cases v with
  | ofNat n => rfl
  | negSucc n => exact eval_negate_number h

/-- Digits with a minus sign, which gaps may surround. -/
theorem writtenAs_minus (hn : Text.natural? 10 digits = some n) (hrange : Word.InRange n)
    (h : Spaced ('-' :: digits) cs) :
    (Form.expr 12 (.unary .negate (.number n))).WrittenAs cs := by
  obtain ⟨before, after, hbefore, hafter, rfl⟩ := h
  have hsign : Spaced UnaryOp.negate.sign (before ++ ['-']) :=
    ⟨before, [], hbefore, isGap_nil, by simp [UnaryOp.sign]⟩
  have hdigits : Spaced digits (digits ++ after) := ⟨[], after, isGap_nil, hafter, rfl⟩
  have hnumber : (Form.expr 13 (.number n)).WrittenAs (digits ++ after) :=
    .number (isNumber_of_natural? hn hrange) hdigits
  have hall := Form.WrittenAs.signed hsign (.tighter hnumber)
  rwa [List.append_assoc, List.singleton_append, ← List.cons_append] at hall

/-- The text by which an integer is shown is a text of its numeral. -/
theorem writtenAs_numeral (hrange : Word.InRange v.natAbs) (h : Spaced (toString v).toList cs) :
    (Form.expr 12 (numeral v)).WrittenAs cs := by
  cases v with
  | ofNat n =>
      rw [toList_toString_ofNat] at h
      exact .tighter (.number (isNumber_of_natural? (natural?_toDigits n) hrange) h)
  | negSucc n =>
      rw [toList_toString_negSucc] at h
      exact writtenAs_minus (natural?_toDigits (n + 1)) hrange h

end RegisterBank.Expr
