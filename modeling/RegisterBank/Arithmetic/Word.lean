/-!
# Signed 64-bit words

A value of an expression is an integer between `-2 ^ 63` and `2 ^ 63 - 1`. Sums, products and
powers are computed exactly and then checked, so they have no answer outside that range; the bit
operations act on the two's-complement word of 64 bits. `shiftLeft` keeps the low 64 bits of the
shifted word.
-/

namespace RegisterBank.Word

/-- The least signed 64-bit value, `-2 ^ 63`. -/
def least : Int := -9223372036854775808

/-- The greatest signed 64-bit value, `2 ^ 63 - 1`. -/
def greatest : Int := 9223372036854775807

/-- The integers that a signed 64-bit word represents. -/
def InRange (v : Int) : Prop :=
  least ≤ v ∧ v ≤ greatest

instance (v : Int) : Decidable (InRange v) :=
  inferInstanceAs (Decidable (_ ∧ _))

/-- The value itself, when a word represents it. -/
def check? (v : Int) : Option Int :=
  if InRange v then some v else none

/-- The power `a ^ n`, when a word represents it. A base of magnitude at most one repeats its powers
with period two, and any other base leaves the range long before the exponent `64`. -/
def pow? (a : Int) (n : Nat) : Option Int :=
  if n < 64 then check? (a.pow n)
  else if a.natAbs ≤ 1 then check? (a.pow (n % 2 + 2))
  else none

/-- Bitwise "and" of the two words. -/
def bitAnd (a b : Int) : Int :=
  (BitVec.ofInt 64 a &&& BitVec.ofInt 64 b).toInt

/-- Bitwise "or" of the two words. -/
def bitOr (a b : Int) : Int :=
  (BitVec.ofInt 64 a ||| BitVec.ofInt 64 b).toInt

/-- Bitwise "exclusive or" of the two words. -/
def bitXor (a b : Int) : Int :=
  (BitVec.ofInt 64 a ^^^ BitVec.ofInt 64 b).toInt

/-- All bits of the word inverted. -/
def bitNot (a : Int) : Int :=
  (~~~ BitVec.ofInt 64 a).toInt

/-- The word moved left by `s` places; bits that leave the word are lost. -/
def shiftLeft (a : Int) (s : Nat) : Int :=
  (BitVec.ofInt 64 a <<< s).toInt

/-- The word moved right by `s` places, its sign repeated from the left. -/
def shiftRight (a : Int) (s : Nat) : Int :=
  ((BitVec.ofInt 64 a).sshiftRight s).toInt

end RegisterBank.Word
