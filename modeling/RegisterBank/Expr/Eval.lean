import RegisterBank.Arithmetic.Block
import RegisterBank.Arithmetic.Word
import RegisterBank.Expr.Basic
import RegisterBank.Parameter.Mode
import RegisterBank.Text.Case

/-!
# Evaluation of expressions

`Expr.eval` computes the value of a tree in signed 64-bit words. Operands are evaluated from left to
right and all of them, also where the first one already decides `&&` or `||`; of the two branches
of a choice only the chosen one is evaluated. An `EvalFault` names the first cause for which there
is no value.
-/

namespace RegisterBank

/-- The reasons for which an expression has no value. -/
inductive EvalFault where
  /-- The result is no signed 64-bit value. -/
  | overflow
  | divisionByZero
  | modulusByZero
  /-- An exponent that is negative or not below `2 ^ 32`. -/
  | exponent (value : Int)
  /-- A shift amount that is negative or not below `2 ^ 32`. -/
  | shiftAmount (value : Int)
  | unavailable (name : String)
  | undefined (name : String)
  | logOfNegative (value : Int)
  | oneArgument (function : String)
  | noArguments (function : String)
  | unknownFunction (function : String)
  deriving DecidableEq, Repr

namespace EvalFault

/-- The fault in words; `mode` is the mode of the evaluation. -/
def message (mode : Mode) : EvalFault → String
  | overflow => "arithmetic overflow"
  | divisionByZero => "division by zero"
  | modulusByZero => "modulus by zero"
  | exponent value => s!"invalid exponent {value}"
  | shiftAmount value => s!"invalid shift amount {value}"
  | unavailable name => s!"parameter `{name}` has no {mode.word} value"
  | undefined name => s!"`{name}` is not a defined parameter"
  | logOfNegative value => s!"clog2 of negative value {value}"
  | oneArgument function => s!"`{function}` takes one argument"
  | noArguments function => s!"`{function}` needs arguments"
  | unknownFunction function => s!"unknown function `{function}`"

end EvalFault

namespace Expr

/-- The value, or an overflow when no word represents it. -/
def inRange (v : Int) : Except EvalFault Int :=
  match Word.check? v with
  | some v => .ok v
  | none => .error .overflow

/-- One for a true statement, zero for a false one. -/
def truth (b : Bool) : Int :=
  if b then 1 else 0

/-- A count for a power or a shift: between zero and `2 ^ 32 - 1`. -/
def count? (v : Int) : Option Nat :=
  if 0 ≤ v ∧ v < UInt32.size then some v.toNat else none

/-- The value of an operator with one operand. -/
def unaryValue (op : UnaryOp) (v : Int) : Except EvalFault Int :=
  match op with
  | .negate => inRange (-v)
  | .not => .ok (truth (v == 0))
  | .invert => .ok (Word.bitNot v)

/-- The word `a` shifted by `f` when the amount `b` is below the width of a word. -/
def shifted (f : Int → Nat → Int) (a b : Int) : Except EvalFault Int :=
  match count? b with
  | none => .error (.shiftAmount b)
  | some s => if s < 64 then .ok (f a s) else .error .overflow

/-- The value of an operator with two operands. Division truncates toward zero, and a remainder has
the sign of the dividend. -/
def binaryValue (op : BinaryOp) (a b : Int) : Except EvalFault Int :=
  match op with
  | .power =>
    match count? b with
    | none => .error (.exponent b)
    | some n =>
      match Word.pow? a n with
      | some v => .ok v
      | none => .error .overflow
  | .multiply => inRange (a * b)
  | .divide => if b = 0 then .error .divisionByZero else inRange (a.tdiv b)
  | .remainder =>
    if b = 0 then .error .modulusByZero
    else if a = Word.least ∧ b = -1 then .error .overflow
    else .ok (a.tmod b)
  | .add => inRange (a + b)
  | .subtract => inRange (a - b)
  | .shiftLeft => shifted Word.shiftLeft a b
  | .shiftRight => shifted Word.shiftRight a b
  | .less => .ok (truth (a < b))
  | .lessEqual => .ok (truth (a ≤ b))
  | .greater => .ok (truth (a > b))
  | .greaterEqual => .ok (truth (a ≥ b))
  | .equal => .ok (truth (a == b))
  | .notEqual => .ok (truth (a != b))
  | .bitAnd => .ok (Word.bitAnd a b)
  | .bitXor => .ok (Word.bitXor a b)
  | .bitOr => .ok (Word.bitOr a b)
  | .and => .ok (truth (a != 0 && b != 0))
  | .or => .ok (truth (a != 0 || b != 0))

/-- The functions that an expression can call. -/
inductive Function where
  /-- The rounded-up logarithm to base two. -/
  | log
  | greatest
  | least
  deriving DecidableEq, Repr

/-- The function that a call names. Leading markers and the case of ASCII letters do not count. -/
def function? (written : String) : Option Function :=
  let bare := written.toList.dropWhile fun c => c == '$' || c == macroMark
  let word := String.ofList (bare.map Char.toLower)
  if word = "clog2" then some .log
  else if word = "iob_max" ∨ word = "max" then some .greatest
  else if word = "iob_min" ∨ word = "min" then some .least
  else none

/-- The larger of two values. -/
def larger (a b : Int) : Int :=
  if a ≤ b then b else a

/-- The smaller of two values. -/
def smaller (a b : Int) : Int :=
  if a ≤ b then a else b

def callValue (written : String) (args : List Int) : Except EvalFault Int :=
  match function? written, args with
  | some .log, [n] =>
    if n < 0 then .error (.logOfNegative n) else .ok (Block.ceilLog2 n.toNat)
  | some .log, _ => .error (.oneArgument written)
  | some .greatest, first :: rest => .ok (rest.foldl larger first)
  | some .least, first :: rest => .ok (rest.foldl smaller first)
  | some _, [] => .error (.noArguments written)
  | none, _ => .error (.unknownFunction written)

mutual

/-- The value of a tree, where `scope` says what each name stands for. -/
def eval (scope : String → Lookup) : Expr → Except EvalFault Int
  | number value => .ok value
  | name text =>
    match scope text with
    | .known value => .ok value
    | .unavailable => .error (.unavailable text)
    | .undefined => .error (.undefined text)
  | unary op e => do
    let v ← e.eval scope
    unaryValue op v
  | binary op a b => do
    let x ← a.eval scope
    let y ← b.eval scope
    binaryValue op x y
  | choose c a b => do
    let v ← c.eval scope
    if v ≠ 0 then a.eval scope else b.eval scope
  | call function args => do
    let values ← evalAll scope args
    callValue function values

/-- The values of a list of trees, up to the first fault. -/
def evalAll (scope : String → Lookup) : List Expr → Except EvalFault (List Int)
  | [] => .ok []
  | e :: rest => do
    let v ← e.eval scope
    let values ← evalAll scope rest
    .ok (v :: values)

end

end Expr

end RegisterBank
