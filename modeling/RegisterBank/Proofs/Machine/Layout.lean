import RegisterBank.Proofs.Expr.Faithful
import RegisterBank.Proofs.Machine.Word
import RegisterBank.Proofs.Parameter.Words
import RegisterBank.Proofs.Register.Layout

/-!
# Layouts in machine words

A computation in machine words has an error or a result, unless one of its operations goes wrong;
`Checked.Yields` says that none does. In the layout of a register nothing goes wrong, whether the
register is refused or not (`yields_layoutOf`). All that this needs is that the values of its
formulas are signed words.
-/

namespace RegisterBank

/-- Every number that is stated for a register is a word. -/
structure Register.OfWords (r : Register) : Prop where
  width : r.width.tree.OfWords
  logItems : r.logItems.tree.OfWords
  reset : r.reset < 2 ^ 64
  address : ∀ address, r.address = some address → address < 2 ^ 64

namespace Machine

/-- A computation in machine words; it is `none` where an operation goes wrong. -/
abbrev Checked (α : Type) := ExceptT Error Option α

namespace Checked

variable {α β : Type}

/-- No operation goes wrong, and this is what comes out. -/
def Yields (x : Checked α) (y : Except Error α) : Prop :=
  x.run = some y

theorem yields_pure (a : α) : Yields (pure a) (.ok a) := rfl

theorem yields_throw (e : Error) : Yields (throw e : Checked α) (.error e) := rfl

theorem yields_lift {x : Option α} {a : α} (hx : x = some a) : Yields (liftM x) (.ok a) := by
  subst hx
  rfl

/-- An operation that goes well, and what is made of its result. -/
theorem yields_step {x : Option α} {a : α} {f : α → Checked β} {z : Except Error β}
    (hx : x = some a) (hf : Yields (f a) z) : Yields (liftM x >>= f) z := by
  subst hx
  exact hf

theorem Yields.bind {x : Checked α} {y : Except Error α} {f : α → Checked β}
    {g : α → Except Error β} (hx : Yields x y) (hf : ∀ a, y = .ok a → Yields (f a) (g a)) :
    Yields (x >>= f) (y >>= g) := by
  obtain rfl : x = some y := hx
  cases y with
  | error e => rfl
  | ok a => exact hf a rfl

/-- A part of the computation that does no arithmetic. -/
theorem yields_given {y : Except Error α} {f : α → Checked β} {g : α → Except Error β}
    (hf : ∀ a, y = .ok a → Yields (f a) (g a)) : Yields (liftM y >>= f) (y >>= g) :=
  Yields.bind rfl hf

theorem yields_ite {p : Prop} [Decidable p] {x x' : Checked α} {y y' : Except Error α}
    (h : p → Yields x y) (h' : ¬ p → Yields x' y') :
    Yields (if p then x else x') (if p then y else y') := by
  split
  · exact h ‹_›
  · exact h' ‹_›

end Checked

open Checked

/-- The bytes that hold an item of so many bits. -/
def wholeBytes? (bits : Nat) : Option Nat := do
  let bytes ← divCeil? bits 8
  some (if bytes = 3 then 4 else bytes)

/-- The layout of a register in a mode. -/
def layoutOf (r : Register) (env : Environment) (mode : Mode) : Checked Layout := do
  let bits ← r.width.eval env mode
  if bits < 1 then
    throw (.configuration (.registerWidth r.name bits mode))
  else
    let bits ← unsigned? 64 bits
    let bytes ← wholeBytes? bits
    let logItems ← r.logItems.evalCount env mode
    let logItems ← word? 64 logItems
    if logItems > Layout.depthLimit then
      throw (.configuration (.depth r.name logItems))
    else
      let logItems ← word? 32 logItems
      if r.auto ∧ logItems > Layout.instantiatedLimit then
        throw (.configuration (.instantiatedDepth r.name logItems Layout.instantiatedLimit))
      else
        let logBytes ← ceilLog2? bytes
        let addrWidth ← add? 32 logItems logBytes
        if addrWidth > Layout.addrLimit then
          throw (.configuration (.span r.name addrWidth Layout.addrLimit))
        else pure ⟨bytes, logItems, addrWidth⟩

def items? (layout : Layout) : Option Nat :=
  shiftLeft? 64 1 layout.logItems

/-- The bytes reserved for all items. -/
def span? (layout : Layout) : Option Nat :=
  shiftLeft? 64 1 layout.addrWidth

theorem wholeBytes?_eq {bits : Nat} (h : bits < 2 ^ 64) :
    wholeBytes? bits = some (Layout.wholeBytes bits) :=
  step_eq (divCeil?_eq h (by decide)) rfl

theorem wholeBytes_lt {bits : Nat} (h : bits < 2 ^ 64) : Layout.wholeBytes bits < 2 ^ 64 := by
  unfold Layout.wholeBytes
  split <;> omega

/-- The logarithm of a word is no greater than its width. -/
theorem ceilLog2_le {n : Nat} (h : n < 2 ^ 64) : Block.ceilLog2 n ≤ 64 :=
  Block.ceilLog2_le_iff.2 h.le

theorem items?_eq {layout : Layout} (h : layout.logItems ≤ 32) :
    items? layout = some layout.items :=
  shiftLeft?_one_eq (by omega)

theorem span?_eq {layout : Layout} (h : layout.addrWidth ≤ 32) : span? layout = some layout.span :=
  shiftLeft?_one_eq (by omega)

variable {r : Register} {env : Environment} {mode : Mode} {f : Formula} {v : Int} {n : Nat}

theorem inRange_of_eval_eq_ok (henv : env.OfWords) (hf : f.tree.OfWords)
    (h : f.eval env mode = .ok v) : Word.InRange v :=
  Expr.eval_inRange (henv mode) hf (Formula.eval_eq_ok_iff.1 h)

theorem lt_of_evalCount_eq_ok (henv : env.OfWords) (hf : f.tree.OfWords)
    (h : f.evalCount env mode = .ok n) : n < 2 ^ 63 :=
  Word.inRange_natCast.1 (inRange_of_eval_eq_ok henv hf (Formula.evalCount_eq_ok_iff.1 h))

/-- Nothing goes wrong in the layout of a register, also where it is refused. -/
theorem yields_layoutOf (henv : env.OfWords) (hr : r.OfWords) (mode : Mode) :
    Yields (layoutOf r env mode) (Layout.of r env mode) := by
  refine yields_given fun bits hbits => ?_
  refine yields_ite (fun _ => yields_throw _) fun hpositive => ?_
  have hword : bits < 2 ^ 63 := by
    have hrange := inRange_of_eval_eq_ok henv hr.width hbits
    unfold Word.InRange Word.greatest at hrange
    omega
  have hbytes : Layout.wholeBytes bits.toNat < 2 ^ 64 := wholeBytes_lt (by omega)
  refine yields_step (unsigned?_eq (by omega) (by omega)) ?_
  refine yields_step (wholeBytes?_eq (by omega)) ?_
  refine yields_given fun logItems hitems => ?_
  have hcount := lt_of_evalCount_eq_ok henv hr.logItems hitems
  refine yields_step (word?_eq (by omega)) ?_
  refine yields_ite (fun _ => yields_throw _) fun hdepth => ?_
  have hdepth : logItems ≤ 32 := not_lt.1 hdepth
  refine yields_step (word?_eq (by omega)) ?_
  refine yields_ite (fun _ => yields_throw _) fun _ => ?_
  have hlog := ceilLog2_le hbytes
  refine yields_step (ceilLog2?_eq hbytes) ?_
  refine yields_step (add?_eq (by omega)) ?_
  exact yields_ite (fun _ => yields_throw _) fun _ => yields_pure _

end Machine

end RegisterBank
