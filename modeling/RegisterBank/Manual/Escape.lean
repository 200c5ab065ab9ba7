/-!
# TeX text

Inside a table cell TeX gives seven characters of plain text a meaning of their own. They are
escaped by a backslash before them; every other character stands as it is.
-/

namespace RegisterBank.Manual

/-- The characters that a backslash makes plain. -/
def isSpecial (c : Char) : Bool :=
  c == '_' || c == '&' || c == '%' || c == '$' || c == '#' || c == '\x7b' || c == '\x7d'

/-- The characters with a backslash before each special one. -/
def escapeChars : List Char → List Char
  | [] => []
  | c :: rest => if isSpecial c then '\\' :: c :: escapeChars rest else c :: escapeChars rest

/-- The text with a backslash before each special character. -/
def escape (s : String) : String :=
  String.ofList (escapeChars s.toList)

theorem escapeChars_append (s t : List Char) :
    escapeChars (s ++ t) = escapeChars s ++ escapeChars t := by
  induction s with
  | nil => rfl
  | cons c s ih =>
    by_cases h : isSpecial c <;> simp [escapeChars, h, ih]

end RegisterBank.Manual
