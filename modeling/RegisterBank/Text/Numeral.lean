/-!
# Written numbers

Reading of natural numbers in bases up to sixteen and of signed decimal numbers, and the padded
hexadecimal form of addresses. A number has at least one digit; a sign is read only where
`signed?` and `unsigned?` say so. Decimal numbers are written by `toString`.
-/

namespace RegisterBank.Text

/-- The value of a digit, letters of either case counting from ten. -/
def digitValue? (c : Char) : Option Nat :=
  if '0' ≤ c ∧ c ≤ '9' then some (c.toNat - '0'.toNat)
  else if 'a' ≤ c ∧ c ≤ 'f' then some (c.toNat - 'a'.toNat + 10)
  else if 'A' ≤ c ∧ c ≤ 'F' then some (c.toNat - 'A'.toNat + 10)
  else none

/-- The value of a digit that belongs to the base. -/
def digitOf? (base : Nat) (c : Char) : Option Nat :=
  (digitValue? c).filter (· < base)

/-- Continues a number `n` by further digits. -/
def extend? (base : Nat) : Nat → List Char → Option Nat
  | n, [] => some n
  | n, c :: cs =>
    match digitOf? base c with
    | some d => extend? base (base * n + d) cs
    | none => none

/-- The number that a nonempty row of digits denotes. -/
def natural? (base : Nat) : List Char → Option Nat
  | [] => none
  | cs => extend? base 0 cs

/-- A decimal number that may carry a plus sign. -/
def unsigned? : List Char → Option Nat
  | '+' :: cs => natural? 10 cs
  | cs => natural? 10 cs

/-- A decimal number that may carry a sign. -/
def signed? : List Char → Option Int
  | '-' :: cs => (natural? 10 cs).map fun n => -(n : Int)
  | '+' :: cs => (natural? 10 cs).map Int.ofNat
  | cs => (natural? 10 cs).map Int.ofNat

/-- The number in lower-case hexadecimal digits, at least four. -/
def hexAddress (n : Nat) : String :=
  let digits := Nat.toDigits 16 n
  String.ofList (List.replicate (4 - digits.length) '0' ++ digits)

/-- The text followed by spaces up to `width` characters. -/
def padRight (width : Nat) (s : String) : String :=
  s ++ String.ofList (List.replicate (width - s.length) ' ')

end RegisterBank.Text
