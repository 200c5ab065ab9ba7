import RegisterBank.Text.Invisible

/-!
# Characters in messages

A message that points at one unexpected character shows it between apostrophes. Characters that
could not be seen there are shown by their number.
-/

namespace RegisterBank.Text

/-- Whether a message shows the character by its number. -/
def isInvisible (c : Char) : Bool :=
  invisibleRanges.any fun (first, last) => first ≤ c.toNat && c.toNat ≤ last

/-- The character as it stands between apostrophes. -/
def escaped (c : Char) : String :=
  if c = '\x00' then "\\0"
  else if c = '\t' then "\\t"
  else if c = '\n' then "\\n"
  else if c = '\r' then "\\r"
  else if c = '\x27' then "\\'"
  else if c = '\\' then "\\\\"
  else if isInvisible c then
    "\\u\x7b" ++ String.ofList (Nat.toDigits 16 c.toNat) ++ "\x7d"
  else String.singleton c

/-- The character between apostrophes. -/
def quoted (c : Char) : String :=
  "'" ++ escaped c ++ "'"

end RegisterBank.Text
