import RegisterBank.Text.Case.Capitals

/-!
# Letter case

Macro names are written in capitals by the full Unicode mapping, where one letter may become
several (`ß` becomes `SS`). Names are compared, and fixed words read, with the case of ASCII
letters ignored and every other character kept.
-/

namespace RegisterBank.Text

/-- The capital form of one character; a character without one stands for itself. -/
def capital (c : Char) : List Char :=
  let n := c.toNat
  if n < 0x80 then [c.toUpper]
  else match capitalExpansions.lookup n with
    | some codes => codes.map Char.ofNat
    | none =>
      match capitalRuns.find? (·.holds n) with
      | some run => [Char.ofNat (n + run.shift).toNat]
      | none => [c]

def capitals (s : String) : String :=
  String.ofList (s.toList.flatMap capital)

def asciiLower (s : String) : String :=
  String.ofList (s.toList.map Char.toLower)

def asciiUpper (s : String) : String :=
  String.ofList (s.toList.map Char.toUpper)

/-- Whether two texts differ at most in the case of ASCII letters. -/
def sameIgnoringCase (s t : String) : Bool :=
  asciiLower s == asciiLower t

end RegisterBank.Text
