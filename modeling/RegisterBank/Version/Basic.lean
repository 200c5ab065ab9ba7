/-!
# Module versions

A version has a major, a minor and a patch number, and may name a pre-release and a build. The
version register of a module shows the first two of them: `packed` writes each as two decimal
digits, a digit to a nibble, which is possible for numbers below one hundred.
-/

namespace RegisterBank

/-- The version of a module. An empty text stands for an absent pre-release or build. -/
structure Version where
  major : Nat
  minor : Nat
  patch : Nat
  preRelease : String := ""
  build : String := ""
  deriving DecidableEq, Repr

namespace Version

def text (v : Version) : String :=
  s!"{v.major}.{v.minor}.{v.patch}"
    ++ (if v.preRelease = "" then "" else "-" ++ v.preRelease)
    ++ (if v.build = "" then "" else "+" ++ v.build)

/-- A number below one hundred as two decimal digits, one to a nibble. -/
def nibbles (n : Nat) : Nat :=
  n / 10 * 16 + n % 10

/-- The value of the version register, where two digits suffice for both numbers. -/
def packed? (v : Version) : Option Nat :=
  if v.major ≤ 99 ∧ v.minor ≤ 99 then some (nibbles v.major * 256 + nibbles v.minor) else none

end Version

end RegisterBank
