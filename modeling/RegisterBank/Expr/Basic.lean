/-!
# Parameter expressions

Widths and depths of registers may be written in terms of the parameters of a module. An `Expr` is
the tree of such an expression: integers, parameter names, the operators of the hardware language
with their usual signs, a choice `c ? a : b`, and calls of a few functions. `references` lists the
names that the value of a tree can depend on.
-/

namespace RegisterBank

/-- The operators with one operand, written before it. -/
inductive UnaryOp where
  | negate
  | not
  | invert
  deriving DecidableEq, Repr

/-- The operators with two operands. -/
inductive BinaryOp where
  | power
  | multiply
  | divide
  | remainder
  | add
  | subtract
  | shiftLeft
  | shiftRight
  | less
  | lessEqual
  | greater
  | greaterEqual
  | equal
  | notEqual
  | bitAnd
  | bitXor
  | bitOr
  | and
  | or
  deriving DecidableEq, Repr

/-- The tree of an expression. The name of a call keeps the marker it was written with, a dollar
sign or a backtick; a parameter name has lost its backticks. -/
inductive Expr where
  | number (value : Int)
  | name (text : String)
  | unary (op : UnaryOp) (operand : Expr)
  | binary (op : BinaryOp) (left right : Expr)
  | choose (condition yes no : Expr)
  | call (function : String) (arguments : List Expr)
  deriving Repr, Inhabited

namespace Expr

/-- The backtick that marks the use of a macro in hardware text. -/
def macroMark : Char := '\x60'

mutual

/-- The parameter names in the tree, from left to right, repeated as often as they occur. -/
def references : Expr → List String
  | number _ => []
  | name text => [text]
  | unary _ e => e.references
  | binary _ a b => a.references ++ b.references
  | choose c a b => c.references ++ (a.references ++ b.references)
  | call _ args => referencesAll args

/-- The parameter names in a list of trees. -/
def referencesAll : List Expr → List String
  | [] => []
  | e :: rest => e.references ++ referencesAll rest

end

/-- The value of a tree that is a plain integer. -/
def literal? : Expr → Option Int
  | number value => some value
  | _ => none

end Expr

end RegisterBank
