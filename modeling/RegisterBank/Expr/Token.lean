import RegisterBank.Arithmetic.Word
import RegisterBank.Expr.Basic
import RegisterBank.Text.Blank
import RegisterBank.Text.Numeral

/-!
# Tokens of expressions

The pieces that an expression is written with: numbers, names, and the signs of operators. Each
reader looks at the front of the remaining characters and, when its piece stands there, answers with
the piece and the characters after it. Gaps between tokens are skipped by `skipGaps`; none may
stand inside a token.
-/

namespace RegisterBank.Expr

/-- The characters after a leading gap. -/
def skipGaps (cs : List Char) : List Char :=
  cs.dropWhile Text.isGap

/-- The characters after those of `front`, when the text begins with them. -/
def after? : (front cs : List Char) → Option (List Char)
  | [], cs => some cs
  | _ :: _, [] => none
  | f :: front, c :: cs => if f = c then after? front cs else none

theorem after?_append (front cs : List Char) : after? front (front ++ cs) = some cs := by
  induction front with
  | nil => rfl
  | cons f front ih => simp [after?, ih]

theorem after?_eq_some_iff {front cs rest : List Char} :
    after? front cs = some rest ↔ cs = front ++ rest := by
  induction front generalizing cs with
  | nil => simp [after?]
  | cons f front ih =>
    cases cs with
    | nil => simp [after?]
    | cons c cs =>
      by_cases h : f = c
      · simp [after?, h, ih]
      · simp [after?, h, Ne.symm h]

/-- The characters after a sign with gaps on both sides. -/
def sign? (sign : List Char) (cs : List Char) : Option (List Char) :=
  (after? sign (skipGaps cs)).map skipGaps

/-- The apostrophe of a literal with a base. -/
def baseMark : Char := '\x27'

/-- A hexadecimal digit or an underscore. -/
def isBasedDigit (c : Char) : Bool :=
  (Text.digitValue? c).isSome || c == '_'

/-- A letter, a digit or an underscore, of ASCII. -/
def isWordChar (c : Char) : Bool :=
  c.isAlphanum || c == '_'

/-- A character that a name can begin with. -/
def isWordStart (c : Char) : Bool :=
  c.isAlpha || c == '_'

/-- A character that may stand before a name: the mark of a macro or of a system function. -/
def isMarker (c : Char) : Bool :=
  c == macroMark || c == '$'

/-- The number that digits denote in a base, underscores left out, when a word represents it. -/
def digitsValue? (base : Nat) (digits : List Char) : Option Int :=
  match Text.natural? base (digits.filter (· != '_')) with
  | some n => Word.check? n
  | none => none

/-- The base that the letter after an apostrophe stands for. -/
def baseOf? (letter : Char) : Option Nat :=
  if letter = 'h' ∨ letter = 'H' then some 16
  else if letter = 'd' ∨ letter = 'D' then some 10
  else if letter = 'b' ∨ letter = 'B' then some 2
  else if letter = 'o' ∨ letter = 'O' then some 8
  else none

/-- The number of a row of digits at the front. -/
def rowOfDigits? (base : Nat) (isDigit : Char → Bool) (cs : List Char) :
    Option (Int × List Char) :=
  (digitsValue? base (cs.takeWhile isDigit)).map fun v => (v, cs.dropWhile isDigit)

/-- A literal with a base, such as `16'h0100` or `'b1`. Its size does not matter. -/
def basedNumber? (cs : List Char) : Option (Int × List Char) :=
  match cs.dropWhile Char.isDigit with
  | mark :: letter :: rest =>
    if mark = baseMark then
      match baseOf? letter with
      | some base => rowOfDigits? base isBasedDigit rest
      | none => none
    else none
  | _ => none

/-- A hexadecimal literal such as `0xFF`. -/
def hexNumber? : List Char → Option (Int × List Char)
  | '0' :: letter :: rest =>
    if letter = 'x' ∨ letter = 'X' then rowOfDigits? 16 isBasedDigit rest else none
  | _ => none

def decimalNumber? (cs : List Char) : Option (Int × List Char) :=
  rowOfDigits? 10 Char.isDigit cs

/-- A number at the front. Where a longer form has no value, a shorter one is taken. -/
def number? (cs : List Char) : Option (Int × List Char) :=
  match basedNumber? cs with
  | some answer => some answer
  | none =>
    match hexNumber? cs with
    | some answer => some answer
    | none => decimalNumber? cs

/-- A name at the front, with its marker if it has one. -/
def word? : List Char → Option (List Char × List Char)
  | [] => none
  | c :: rest =>
    if isMarker c then
      match rest with
      | [] => none
      | d :: _ =>
        if isWordStart d then
          some (c :: rest.takeWhile isWordChar, rest.dropWhile isWordChar)
        else none
    else if isWordStart c then
      some (c :: rest.takeWhile isWordChar, rest.dropWhile isWordChar)
    else none

/-- The parameter that a written name stands for: its backticks are dropped. -/
def parameterOf (word : List Char) : String :=
  String.ofList (word.dropWhile (· == macroMark))

/-- An operator with two operands as it is written. `notBefore` is a character that must not follow,
because it would make a longer sign. -/
structure Operator where
  op : BinaryOp
  sign : List Char
  notBefore : Option Char := none

/-- The characters after the operator's sign. -/
def Operator.after? (o : Operator) (cs : List Char) : Option (List Char) :=
  match Expr.after? o.sign cs with
  | some rest => if o.notBefore.isSome ∧ rest.head? = o.notBefore then none else some rest
  | none => none

/-- The operators that group to the left, by levels, the loosest first. -/
def leftLevels : List (List Operator) :=
  [[{ op := .or, sign := ['|', '|'] }],
    [{ op := .and, sign := ['&', '&'] }],
    [{ op := .bitOr, sign := ['|'], notBefore := '|' }],
    [{ op := .bitXor, sign := ['^'] }],
    [{ op := .bitAnd, sign := ['&'], notBefore := '&' }],
    [{ op := .equal, sign := ['=', '='] }, { op := .notEqual, sign := ['!', '='] }],
    [{ op := .lessEqual, sign := ['<', '='] }, { op := .greaterEqual, sign := ['>', '='] },
      { op := .less, sign := ['<'], notBefore := '<' },
      { op := .greater, sign := ['>'], notBefore := '>' }],
    [{ op := .shiftLeft, sign := ['<', '<'] }, { op := .shiftRight, sign := ['>', '>'] }],
    [{ op := .add, sign := ['+'] }, { op := .subtract, sign := ['-'] }],
    [{ op := .multiply, sign := ['*'], notBefore := '*' }, { op := .divide, sign := ['/'] },
      { op := .remainder, sign := ['%'] }]]

/-- The first of the operators whose sign stands at the front, gaps around it skipped. -/
def operator? (ops : List Operator) (cs : List Char) : Option (BinaryOp × List Char) :=
  ops.findSome? fun o => (o.after? (skipGaps cs)).map fun rest => (o.op, skipGaps rest)

/-- The operator with one operand whose sign stands at the front, gaps around it skipped. An
exclamation mark before an equals sign is the start of another sign. -/
def unaryOperator? (cs : List Char) : Option (UnaryOp × List Char) :=
  match skipGaps cs with
  | '-' :: rest => some (.negate, skipGaps rest)
  | '~' :: rest => some (.invert, skipGaps rest)
  | '!' :: rest => if rest.head? = some '=' then none else some (.not, skipGaps rest)
  | _ => none

end RegisterBank.Expr
