import Mathlib.Data.Nat.Digits.Defs
import RegisterBank.Expr.Token

/-!
# The grammar of expressions

Which texts are expressions, and of which tree, said without a reader. A text is a row of tokens.
Space, tab, carriage return and line feed may stand before and after every token (`Spaced`) and
nowhere inside one.

The levels of the grammar count from `0`, the loosest, to `13`, the tightest:

* `0` is the choice `c ? a : b`. Its condition is of level `1`, so a choice nests to the right.
* `1` to `10` are `||`, `&&`, `|`, `^`, `&`, equality, order, shifts, sums and products. The left
  operand is of the operator's own level and the right one of the next, so they group to the left.
* `11` is `**`, which groups to the right.
* `12` are the signs `-`, `!` and `~` before an operand.
* `13` are numbers, names, calls and expressions in parentheses.

Whatever is of a tighter level is of every looser one (`Form.WrittenAs.looser`). What holds of the
texts of expressions alone is proved by `Form.WrittenAs.expr_induction`. A reader of this grammar
needs no rule for the longest token: no two tokens of which one could run into the other ever stand
side by side.
-/

namespace RegisterBank

/-- How the operator is written. -/
def UnaryOp.sign : UnaryOp → List Char
  | .negate => ['-']
  | .not => ['!']
  | .invert => ['~']

/-- How the operator is written. -/
def BinaryOp.sign : BinaryOp → List Char
  | .power => ['*', '*']
  | .multiply => ['*']
  | .divide => ['/']
  | .remainder => ['%']
  | .add => ['+']
  | .subtract => ['-']
  | .shiftLeft => ['<', '<']
  | .shiftRight => ['>', '>']
  | .less => ['<']
  | .lessEqual => ['<', '=']
  | .greater => ['>']
  | .greaterEqual => ['>', '=']
  | .equal => ['=', '=']
  | .notEqual => ['!', '=']
  | .bitAnd => ['&']
  | .bitXor => ['^']
  | .bitOr => ['|']
  | .and => ['&', '&']
  | .or => ['|', '|']

/-- How tightly the operator binds. -/
def BinaryOp.level : BinaryOp → Nat
  | .or => 1
  | .and => 2
  | .bitOr => 3
  | .bitXor => 4
  | .bitAnd => 5
  | .equal | .notEqual => 6
  | .less | .lessEqual | .greater | .greaterEqual => 7
  | .shiftLeft | .shiftRight => 8
  | .add | .subtract => 9
  | .multiply | .divide | .remainder => 10
  | .power => 11

namespace Expr

/-- Any row of spaces, tabs, carriage returns and line feeds. -/
def IsGap (cs : List Char) : Prop :=
  ∀ c ∈ cs, Text.isGap c = true

/-- A token with any gaps around it. -/
def Spaced (token cs : List Char) : Prop :=
  ∃ before after, IsGap before ∧ IsGap after ∧ cs = before ++ (token ++ after)

/-- The digits denote `n` in a base. Underscores among them do not count. -/
def Denotes (base : Nat) (digits : List Char) (n : Nat) : Prop :=
  ∃ values : List Nat, values ≠ [] ∧ (∀ v ∈ values, v < base) ∧
    (digits.filter (· != '_')).map Text.digitValue? = values.map some ∧
    n = Nat.ofDigits base values.reverse

/-- The letters that name the base of a literal. -/
def baseLetters : List (Char × Nat) :=
  [('h', 16), ('H', 16), ('d', 10), ('D', 10), ('b', 2), ('B', 2), ('o', 8), ('O', 8)]

/-- The texts of the number `n`, which a word has to hold. The size before the apostrophe of a
literal with a base may be missing and does not matter. -/
inductive IsNumber (n : Nat) : List Char → Prop where
  | decimal {digits : List Char} :
      (∀ c ∈ digits, c.isDigit = true) → Denotes 10 digits n → Word.InRange n → IsNumber n digits
  | hexadecimal {letter : Char} {digits : List Char} :
      letter = 'x' ∨ letter = 'X' → Denotes 16 digits n → Word.InRange n →
        IsNumber n ('0' :: letter :: digits)
  | based {size : List Char} {letter : Char} {base : Nat} {digits : List Char} :
      (∀ c ∈ size, c.isDigit = true) → (letter, base) ∈ baseLetters →
        Denotes base digits n → Word.InRange n →
          IsNumber n (size ++ baseMark :: letter :: digits)

/-- A letter or underscore followed by letters, digits and underscores, all of ASCII. -/
def IsName (cs : List Char) : Prop :=
  ∃ c rest, cs = c :: rest ∧ isWordStart c = true ∧ ∀ d ∈ rest, isWordChar d = true

/-- The texts of a name and the parameter that each stands for. The backtick is a mark that is
dropped, the dollar sign a part of the name. -/
inductive IsWord : List Char → String → Prop where
  | plain {name : List Char} : IsName name → IsWord name (String.ofList name)
  | backtick {name : List Char} :
      IsName name → IsWord (macroMark :: name) (String.ofList name)
  | dollar {name : List Char} : IsName name → IsWord ('$' :: name) (String.ofList ('$' :: name))

/-- What a piece of text can be. -/
inductive Form where
  /-- An expression of a level. -/
  | expr (level : Nat) (tree : Expr)
  /-- The arguments of a call, between its parentheses. -/
  | arguments (trees : List Expr)
  /-- Arguments of a call after the first one, with the commas before them. -/
  | further (trees : List Expr)

/-- The rules of the grammar. -/
inductive Form.WrittenAs : Form → List Char → Prop where
  | tighter {level : Nat} {e : Expr} {cs : List Char} :
      WrittenAs (.expr (level + 1) e) cs → WrittenAs (.expr level e) cs
  | choose {condition yes no : Expr} {cs question ys colon ns : List Char} :
      WrittenAs (.expr 1 condition) cs → Spaced ['?'] question →
        WrittenAs (.expr 0 yes) ys → Spaced [':'] colon → WrittenAs (.expr 0 no) ns →
          WrittenAs (.expr 0 (.choose condition yes no))
            (cs ++ (question ++ (ys ++ (colon ++ ns))))
  | leftward {op : BinaryOp} {left right : Expr} {ls sign rs : List Char} :
      op ≠ .power → WrittenAs (.expr op.level left) ls → Spaced op.sign sign →
        WrittenAs (.expr (op.level + 1) right) rs →
          WrittenAs (.expr op.level (.binary op left right)) (ls ++ (sign ++ rs))
  | power {base exponent : Expr} {bs sign es : List Char} :
      WrittenAs (.expr 12 base) bs → Spaced BinaryOp.power.sign sign →
        WrittenAs (.expr 11 exponent) es →
          WrittenAs (.expr 11 (.binary .power base exponent)) (bs ++ (sign ++ es))
  | signed {op : UnaryOp} {operand : Expr} {sign cs : List Char} :
      Spaced op.sign sign → WrittenAs (.expr 12 operand) cs →
        WrittenAs (.expr 12 (.unary op operand)) (sign ++ cs)
  | number {n : Nat} {token cs : List Char} :
      IsNumber n token → Spaced token cs → WrittenAs (.expr 13 (.number n)) cs
  | name {text : String} {word cs : List Char} :
      IsWord word text → Spaced word cs → WrittenAs (.expr 13 (.name text)) cs
  | call {text : String} {word ws opening as closing : List Char} {args : List Expr} :
      IsWord word text → Spaced word ws → Spaced ['('] opening →
        WrittenAs (.arguments args) as → Spaced [')'] closing →
          WrittenAs (.expr 13 (.call (String.ofList word) args))
            (ws ++ (opening ++ (as ++ closing)))
  | parentheses {e : Expr} {opening cs closing : List Char} :
      Spaced ['('] opening → WrittenAs (.expr 0 e) cs → Spaced [')'] closing →
        WrittenAs (.expr 13 e) (opening ++ (cs ++ closing))
  | noArguments : WrittenAs (.arguments []) []
  | firstArgument {e : Expr} {args : List Expr} {cs as : List Char} :
      WrittenAs (.expr 0 e) cs → WrittenAs (.further args) as →
        WrittenAs (.arguments (e :: args)) (cs ++ as)
  | noFurther : WrittenAs (.further []) []
  | nextArgument {e : Expr} {args : List Expr} {comma cs as : List Char} :
      Spaced [','] comma → WrittenAs (.expr 0 e) cs → WrittenAs (.further args) as →
        WrittenAs (.further (e :: args)) (comma ++ (cs ++ as))

theorem Form.WrittenAs.looser {level tighter : Nat} {e : Expr} {cs : List Char}
    (h : (Form.expr tighter e).WrittenAs cs) (hle : level ≤ tighter) :
    (Form.expr level e).WrittenAs cs := by
  induction hle using Nat.decreasingInduction with
  | self => exact h
  | of_succ k hk ih => exact .tighter ih

/-- Induction on the texts of expressions. It says nothing of the arguments of a call. -/
theorem Form.WrittenAs.expr_induction
    {motive : {level : Nat} → {e : Expr} → {cs : List Char} →
      (Form.expr level e).WrittenAs cs → Prop}
    (tighter : ∀ {level : Nat} {e : Expr} {cs : List Char}
      (h : (Form.expr (level + 1) e).WrittenAs cs), motive h → motive h.tighter)
    (choose : ∀ {condition yes no : Expr} {cs question ys colon ns : List Char}
      (hcondition : (Form.expr 1 condition).WrittenAs cs) (hquestion : Spaced ['?'] question)
      (hyes : (Form.expr 0 yes).WrittenAs ys) (hcolon : Spaced [':'] colon)
      (hno : (Form.expr 0 no).WrittenAs ns), motive hcondition → motive hyes → motive hno →
        motive (.choose hcondition hquestion hyes hcolon hno))
    (leftward : ∀ {op : BinaryOp} {left right : Expr} {ls sign rs : List Char}
      (hop : op ≠ .power) (hleft : (Form.expr op.level left).WrittenAs ls)
      (hsign : Spaced op.sign sign) (hright : (Form.expr (op.level + 1) right).WrittenAs rs),
        motive hleft → motive hright → motive (.leftward hop hleft hsign hright))
    (power : ∀ {base exponent : Expr} {bs sign es : List Char}
      (hbase : (Form.expr 12 base).WrittenAs bs) (hsign : Spaced BinaryOp.power.sign sign)
      (hexponent : (Form.expr 11 exponent).WrittenAs es),
        motive hbase → motive hexponent → motive (.power hbase hsign hexponent))
    (signed : ∀ {op : UnaryOp} {operand : Expr} {sign cs : List Char}
      (hsign : Spaced op.sign sign) (hoperand : (Form.expr 12 operand).WrittenAs cs),
        motive hoperand → motive (.signed hsign hoperand))
    (number : ∀ {n : Nat} {token cs : List Char} (htoken : IsNumber n token)
      (hspaced : Spaced token cs), motive (.number htoken hspaced))
    (name : ∀ {text : String} {word cs : List Char} (hword : IsWord word text)
      (hspaced : Spaced word cs), motive (.name hword hspaced))
    (call : ∀ {text : String} {word ws opening as closing : List Char} {args : List Expr}
      (hword : IsWord word text) (hspaced : Spaced word ws) (hopening : Spaced ['('] opening)
      (hargs : (Form.arguments args).WrittenAs as) (hclosing : Spaced [')'] closing),
        motive (.call hword hspaced hopening hargs hclosing))
    (parentheses : ∀ {e : Expr} {opening cs closing : List Char}
      (hopening : Spaced ['('] opening) (he : (Form.expr 0 e).WrittenAs cs)
      (hclosing : Spaced [')'] closing), motive he →
        motive (.parentheses hopening he hclosing))
    {level : Nat} {e : Expr} {cs : List Char} (h : (Form.expr level e).WrittenAs cs) :
    motive h := by
  suffices ∀ {form : Form} {cs : List Char} (h : form.WrittenAs cs),
      match form, h with
      | .expr _ _, h => motive h
      | _, _ => True from this h
  intro form cs h
  induction h with
  | tighter h ih => exact tighter h ih
  | choose hcondition hquestion hyes hcolon hno ihcondition ihyes ihno =>
      exact choose hcondition hquestion hyes hcolon hno ihcondition ihyes ihno
  | leftward hop hleft hsign hright ihleft ihright =>
      exact leftward hop hleft hsign hright ihleft ihright
  | power hbase hsign hexponent ihbase ihexponent =>
      exact power hbase hsign hexponent ihbase ihexponent
  | signed hsign hoperand ih => exact signed hsign hoperand ih
  | number htoken hspaced => exact number htoken hspaced
  | name hword hspaced => exact name hword hspaced
  | call hword hspaced hopening hargs hclosing =>
      exact call hword hspaced hopening hargs hclosing
  | parentheses hopening he hclosing ih => exact parentheses hopening he hclosing ih
  | noArguments => trivial
  | firstArgument => trivial
  | noFurther => trivial
  | nextArgument => trivial

end Expr

end RegisterBank
