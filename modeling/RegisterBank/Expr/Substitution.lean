import RegisterBank.Expr.Token
import RegisterBank.Parameter.Mode

/-!
# Showing how far an expression got

When an expression has no value, the message shows its text with every known parameter replaced by
its value. `substitute` works on the text: numbers, calls and unknown names stay as they are
written.
-/

namespace RegisterBank.Expr

/-- A character that continues a literal. -/
def isLiteralChar (c : Char) : Bool :=
  isWordChar c || c == baseMark

/-- What a written name is replaced by. The name of a call, which an opening parenthesis follows,
stays. -/
def replaced (scope : String → Lookup) (word rest : List Char) : List Char :=
  match scope (parameterOf word) with
  | .known v =>
    if (rest.find? fun c => !Text.isBlank c) = some '(' then word else (toString v).toList
  | _ => word

/-- The text with the names of known parameters replaced by their values. -/
def substitute (scope : String → Lookup) : List Char → List Char
  | [] => []
  | c :: rest =>
    if c.isDigit || c == baseMark || c == '$' then
      c :: rest.takeWhile isLiteralChar ++ substitute scope (rest.dropWhile isLiteralChar)
    else if c == macroMark || isWordStart c then
      replaced scope (c :: rest.takeWhile isWordChar) (rest.dropWhile isWordChar) ++
        substitute scope (rest.dropWhile isWordChar)
    else c :: substitute scope rest
termination_by cs => cs.length
decreasing_by
  all_goals
    have literal := (List.dropWhile_sublist (l := rest) isLiteralChar).length_le
    have word := (List.dropWhile_sublist (l := rest) isWordChar).length_le
    simp only [List.length_cons]
    omega

end RegisterBank.Expr
