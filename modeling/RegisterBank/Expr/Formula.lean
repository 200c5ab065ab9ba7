import RegisterBank.Error
import RegisterBank.Expr.Parser
import RegisterBank.Expr.Substitution
import RegisterBank.Parameter.Environment

/-!
# Formulas

A `Formula` is an expression together with the text it was written as. The text goes into generated
hardware where a width must stay symbolic; the tree is evaluated where a number is needed.
-/

namespace RegisterBank

/-- An expression with its text. -/
structure Formula where
  source : String
  tree : Expr
  deriving Repr, Inhabited

namespace Formula

/-- The formula that a text states. Blanks around it are not kept. -/
def parse (text : String) : Except Error Formula :=
  match Expr.parse text.toList with
  | .ok tree => .ok ⟨Text.trim text, tree⟩
  | .error offset => .error (.expression text text (.malformed offset))

def literal (value : Int) : Formula :=
  ⟨toString value, .number value⟩

/-- The value of a formula that is a plain integer. -/
def literal? (f : Formula) : Option Int :=
  f.tree.literal?

/-- The parameter names that the formula mentions. -/
def references (f : Formula) : List String :=
  f.tree.references

/-- The error of a formula that has no value. It shows the text as far as it could be
substituted. -/
def failure (f : Formula) (env : Environment) (mode : Mode) (fault : EvalFault) : Error :=
  .expression f.source (String.ofList (Expr.substitute (env.lookup mode) f.source.toList))
    (.evaluation mode fault)

def eval (f : Formula) (env : Environment) (mode : Mode) : Except Error Int :=
  match f.tree.eval (env.lookup mode) with
  | .ok v => .ok v
  | .error fault => .error (f.failure env mode fault)

/-- The value of a formula that has to be a count. -/
def evalCount (f : Formula) (env : Environment) (mode : Mode) : Except Error Nat :=
  match f.eval env mode with
  | .error e => .error e
  | .ok v => if 0 ≤ v then .ok v.toNat else .error (.expression f.source (toString v) .negative)

end Formula

end RegisterBank
