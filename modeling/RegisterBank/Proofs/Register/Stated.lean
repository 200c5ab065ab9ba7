import RegisterBank.Build
import RegisterBank.Module.Description
import RegisterBank.Proofs.Expr.Formula
import RegisterBank.Proofs.Expr.Token.Decimal
import RegisterBank.Proofs.Module.Registers

/-!
# Formulas with a text of their own

A formula of a register was read from a text or is a plain word, and so are the formulas of the
registers that are added to a table. Its text is then a text of its tree, wherever the formula has a
value that is not negative (`Formula.Stated.writtenAs`); this is what the hardware text relies on
when it takes the text for the tree.
-/

namespace RegisterBank

open RegisterBank.Expr (Form)

/-- The formula was read from a text, or is a word. -/
def Formula.Stated (f : Formula) : Prop :=
  (∃ text, Formula.parse text = .ok f) ∨ ∃ v, Word.InRange v ∧ f = Formula.literal v

theorem Formula.Stated.writtenAs {f : Formula} {scope : String → Lookup} {v : Int} (h : f.Stated)
    (hv : f.tree.eval scope = .ok v) (hnonneg : 0 ≤ v) :
    (Form.expr 0 f.tree).WrittenAs f.source.toList := by
  rcases h with ⟨text, htext⟩ | ⟨w, hw, rfl⟩
  · exact writtenAs_of_parse_eq_ok htext
  · obtain rfl : w = v := Except.ok.inj hv
    lift w to Nat using hnonneg
    exact (Expr.writtenAs_toString hw).looser (Nat.zero_le 13)

/-- A formula whose text is a text of its tree and has no blanks at its ends was read from it. -/
theorem Formula.stated_of_writtenAs {f : Formula}
    (h : (Form.expr 0 f.tree).WrittenAs f.source.toList) (htrim : Text.trim f.source = f.source) :
    f.Stated := by
  refine .inl ⟨f.source, ?_⟩
  rw [parse_eq_ok_of_writtenAs h, htrim]

theorem Formula.stated_literal {v : Int} (hv : Word.InRange v) : (Formula.literal v).Stated :=
  .inr ⟨v, hv, rfl⟩

/-- The width and the depth of the register were read or are words. -/
structure Register.Stated (r : Register) : Prop where
  width : r.width.Stated
  logItems : r.logItems.Stated

def Module.Stated (m : Module) : Prop :=
  ∀ r ∈ Group.flatten m.groups, r.Stated

/-- All registers of a build have stated formulas if the declared ones have. -/
theorem Module.Stated.of_mem_placements {m : Module} {b : Build} (hm : m.Stated)
    (h : Build.ofModule m = .ok b) : ∀ p ∈ b.placements, p.register.Stated := by
  refine Build.forall_mem_placements hm ?_ ?_ ?_ h
  · intro r hr
    simp only [interruptGroup, List.mem_cons, List.not_mem_nil, or_false] at hr
    rcases hr with rfl | rfl | rfl <;>
      exact ⟨Formula.stated_literal (by decide), Formula.stated_literal (by decide)⟩
  · exact fun packed => ⟨Formula.stated_literal (by decide), Formula.stated_literal (by decide)⟩
  · exact fun r address hr => ⟨hr.width, hr.logItems⟩

/-! ## Described formulas -/

/-- An integer is a word. -/
def Quantity.IsWord : Quantity → Prop
  | .integer v => Word.InRange v
  | .text _ => True

theorem Quantity.stated_of_formula_eq_ok {q : Quantity} {f : Formula} (hq : q.IsWord)
    (h : q.formula = .ok f) : f.Stated := by
  cases q with
  | integer v =>
      cases h
      exact Formula.stated_literal hq
  | text text => exact .inl ⟨text, h⟩

end RegisterBank
