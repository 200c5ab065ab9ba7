import RegisterBank.Expr.Token

/-!
# Reading expressions

`Expr.parse` reads a whole text as an expression. From loose to tight the grammar is: the choice
`c ? a : b`, which nests to the right; the levels of `leftLevels`, which group to the left; `**`,
which groups to the right; the signs `-`, `!` and `~` before an operand; and numbers, names, calls
and expressions in parentheses.

A reader has three outcomes. `parsed` carries the tree and the characters after it. `absent` says
that no expression begins here, so that another reading may be tried. `broken` says that one has
begun and cannot be completed: after an operator an operand must follow, and nothing else is tried.
The last two carry the characters at which reading stopped, which is where a message points.

The readers call each other to a depth bounded by the length of the text; `parse` gives them that
depth, so it never runs out.
-/

namespace RegisterBank.Expr

/-- What a reader found. -/
inductive Outcome (α : Type) where
  | parsed (value : α) (rest : List Char)
  | absent (rest : List Char)
  | broken (rest : List Char)

namespace Outcome

variable {α β : Type}

/-- Reads on after a found value. -/
def andThen (o : Outcome α) (next : α → List Char → Outcome β) : Outcome β :=
  match o with
  | parsed value rest => next value rest
  | absent rest => absent rest
  | broken rest => broken rest

/-- The outcome where a value has to be found. -/
def required : Outcome α → Outcome α
  | absent rest => broken rest
  | o => o

@[simp] theorem andThen_parsed (value : α) (rest : List Char)
    (next : α → List Char → Outcome β) :
    (parsed value rest).andThen next = next value rest := rfl

@[simp] theorem andThen_absent (rest : List Char) (next : α → List Char → Outcome β) :
    (absent rest : Outcome α).andThen next = absent rest := rfl

@[simp] theorem andThen_broken (rest : List Char) (next : α → List Char → Outcome β) :
    (broken rest : Outcome α).andThen next = broken rest := rfl

@[simp] theorem required_parsed (value : α) (rest : List Char) :
    (parsed value rest).required = parsed value rest := rfl

@[simp] theorem required_absent (rest : List Char) :
    (absent rest : Outcome α).required = broken rest := rfl

@[simp] theorem required_broken (rest : List Char) :
    (broken rest : Outcome α).required = broken rest := rfl

theorem andThen_eq_parsed_iff {o : Outcome α} {next : α → List Char → Outcome β} {b : β}
    {rest : List Char} :
    o.andThen next = parsed b rest ↔ ∃ a r, o = parsed a r ∧ next a r = parsed b rest := by
  cases o with
  | parsed a r => exact ⟨fun h => ⟨a, r, rfl, h⟩, fun ⟨_, _, h, hn⟩ => by cases h; exact hn⟩
  | absent r => simp
  | broken r => simp

theorem required_eq_parsed_iff {o : Outcome α} {a : α} {rest : List Char} :
    o.required = parsed a rest ↔ o = parsed a rest := by
  cases o <;> simp

end Outcome

mutual

/-- A whole expression: a chain of operators, or a choice of which it is the condition. -/
def choice : Nat → List Char → Outcome Expr
  | 0, cs => .broken cs
  | n + 1, cs =>
    (chain n leftLevels cs).andThen fun condition rest =>
      match sign? ['?'] rest with
      | none => .parsed condition rest
      | some rest =>
        (choice n rest).required.andThen fun yes rest =>
          match sign? [':'] rest with
          | none => .broken (skipGaps rest)
          | some rest =>
            (choice n rest).required.andThen fun no rest =>
              .parsed (.choose condition yes no) rest

/-- Operands joined by the operators of the given levels. -/
def chain : Nat → List (List Operator) → List Char → Outcome Expr
  | 0, _, cs => .broken cs
  | n + 1, [], cs => power n cs
  | n + 1, ops :: tighter, cs => (chain n tighter cs).andThen (chainRest n ops tighter)

/-- What follows the first operand of a level: further operators with their operands. -/
def chainRest : Nat → List Operator → List (List Operator) → Expr → List Char → Outcome Expr
  | 0, _, _, _, cs => .broken cs
  | n + 1, ops, tighter, left, cs =>
    match operator? ops cs with
    | none => .parsed left cs
    | some (op, rest) =>
      (chain n tighter rest).required.andThen fun right rest =>
        chainRest n ops tighter (.binary op left right) rest

/-- An operand, or one raised to a power. -/
def power : Nat → List Char → Outcome Expr
  | 0, cs => .broken cs
  | n + 1, cs =>
    (signed n cs).andThen fun base rest =>
      match sign? ['*', '*'] rest with
      | none => .parsed base rest
      | some rest =>
        (power n rest).required.andThen fun exponent rest =>
          .parsed (.binary .power base exponent) rest

/-- An operand with any number of signs before it. -/
def signed : Nat → List Char → Outcome Expr
  | 0, cs => .broken cs
  | n + 1, cs =>
    match unaryOperator? cs with
    | none => primary n cs
    | some (op, rest) =>
      (signed n rest).required.andThen fun operand rest => .parsed (.unary op operand) rest

/-- A number, a name, a call or an expression in parentheses, with gaps around it. -/
def primary : Nat → List Char → Outcome Expr
  | 0, cs => .broken cs
  | n + 1, cs =>
    match number? (skipGaps cs) with
    | some (value, rest) => .parsed (.number value) (skipGaps rest)
    | none =>
      match word? (skipGaps cs) with
      | some (word, rest) =>
        match arguments n rest with
        | .parsed args rest => .parsed (.call (String.ofList word) args) (skipGaps rest)
        | .absent _ => .parsed (.name (parameterOf word)) (skipGaps rest)
        | .broken rest => .broken rest
      | none =>
        match skipGaps cs with
        | '(' :: rest =>
          (choice n rest).andThen fun e rest =>
            match sign? [')'] rest with
            | none => .absent (skipGaps rest)
            | some rest => .parsed e rest
        | cs => .absent cs

/-- The arguments of a call, in parentheses. -/
def arguments : Nat → List Char → Outcome (List Expr)
  | 0, cs => .broken cs
  | n + 1, cs =>
    match skipGaps cs with
    | '(' :: rest =>
      (firstArgument n rest).andThen fun args rest =>
        match sign? [')'] rest with
        | none => .absent rest
        | some rest => .parsed args rest
    | _ => .absent cs

/-- Arguments separated by commas, or none. -/
def firstArgument : Nat → List Char → Outcome (List Expr)
  | 0, cs => .broken cs
  | n + 1, cs =>
    match choice n cs with
    | .parsed e rest => (moreArguments n rest).andThen fun args rest => .parsed (e :: args) rest
    | .absent _ => .parsed [] cs
    | .broken rest => .broken rest

/-- Further arguments, each after a comma. A comma without one is left unread. -/
def moreArguments : Nat → List Char → Outcome (List Expr)
  | 0, cs => .broken cs
  | n + 1, cs =>
    match sign? [','] cs with
    | none => .parsed [] cs
    | some rest =>
      match choice n rest with
      | .parsed e rest => (moreArguments n rest).andThen fun args rest => .parsed (e :: args) rest
      | .absent _ => .parsed [] cs
      | .broken rest => .broken rest

end

/-- The number of bytes of the characters in UTF-8. -/
def byteSize : List Char → Nat
  | [] => 0
  | c :: cs => c.utf8Size + byteSize cs

/-- A depth that the readers cannot exceed: fewer than twenty calls lead from one character to the
next. -/
def depth (cs : List Char) : Nat :=
  20 * (cs.length + 1)

/-- The expression that the whole text is, or else the byte offset at which reading stopped. -/
def parse (cs : List Char) : Except Nat Expr :=
  match choice (depth cs) cs with
  | .parsed e rest =>
    if (skipGaps rest).isEmpty then .ok e else .error (byteSize cs - byteSize (skipGaps rest))
  | .absent rest => .error (byteSize cs - byteSize rest)
  | .broken rest => .error (byteSize cs - byteSize rest)

end RegisterBank.Expr
