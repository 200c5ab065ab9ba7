import RegisterBank.Arithmetic.Word
import RegisterBank.Text.Numeral
import RegisterBank.Toml.Value

/-!
# Numbers of TOML

Integers in four bases and floats. Single underscores may stand between digits. An integer fits in
64 bits; a decimal one has no superfluous zeros and may have a sign, and the others have neither
sign. A float has a fraction or an exponent or both, or is an infinity or no number; written with
digits, it is not so great that the nearest double is the infinity.
-/

namespace RegisterBank.Toml

/-- The digits of a base at the front, without the single underscores between them. -/
def digits? (base : Nat) : List Char → Option (List Char × List Char)
  | [] => none
  | [c] => if (Text.digitOf? base c).isSome then some ([c], []) else none
  | c :: next :: rest =>
    if (Text.digitOf? base c).isNone then none
    else if next = '_' then (digits? base rest).map fun (cs, rest) => (c :: cs, rest)
    else if (Text.digitOf? base next).isSome then
      (digits? base (next :: rest)).map fun (cs, rest) => (c :: cs, rest)
    else some ([c], next :: rest)

/-- The digits of a whole decimal number at the front: a zero, or digits that begin with none. -/
def whole? : List Char → Option (List Char × List Char)
  | '0' :: rest => some (['0'], rest)
  | cs => digits? 10 cs

/-- The digits of a fraction, none where no point comes next. -/
def fraction? : List Char → Option (List Char × List Char)
  | '.' :: rest => digits? 10 rest
  | cs => some ([], cs)

/-- Whether a minus sign stands at the front, and the characters after a sign. -/
def sign : List Char → Bool × List Char
  | '-' :: rest => (true, rest)
  | '+' :: rest => (false, rest)
  | cs => (false, cs)

/-- The integer with a sign and a magnitude. -/
def signed (negative : Bool) (n : Nat) : Int :=
  if negative then -(n : Int) else n

/-- The exponent, when the letter of one comes next. -/
def exponent? (cs : List Char) : Option (Option Int × List Char) :=
  let afterLetter (rest : List Char) : Option (Option Int × List Char) := do
    let (negative, rest) := sign rest
    let (digits, rest) ← digits? 10 rest
    let n ← Text.natural? 10 digits
    return (some (signed negative n), rest)
  match cs with
  | 'e' :: rest => afterLetter rest
  | 'E' :: rest => afterLetter rest
  | cs => some (none, cs)

/-- The least number that is nearer to the double after the greatest finite one than to that one, or
as near. -/
def overflowBound : Nat := 1 <<< 1024 - 1 <<< 970

/-- Whether the nearest double of `mantissa * 10 ^ exponent` is the infinity, where the mantissa has
at most `length` digits. Exponents that decide on their own are not raised to. -/
def isInfinite (mantissa length : Nat) (exponent : Int) : Bool :=
  if mantissa = 0 ∨ length + exponent < 309 then false
  else if exponent ≥ 309 then true
  else if exponent ≥ 0 then overflowBound ≤ mantissa * Nat.pow 10 exponent.toNat
  else overflowBound * Nat.pow 10 (-exponent).toNat ≤ mantissa

/-- An infinity or no number, in letters. -/
def special? : List Char → Option (List Char)
  | 'i' :: 'n' :: 'f' :: rest => some rest
  | 'n' :: 'a' :: 'n' :: rest => some rest
  | _ => none

/-- The characters of a text before those that are left of it. -/
def consumed (cs rest : List Char) : String :=
  String.ofList (cs.take (cs.length - rest.length))

/-- The integer in digits of a base, after the letter of the base. -/
def basedInteger? (base : Nat) (cs : List Char) : Option (Value × List Char) := do
  let (digits, rest) ← digits? base cs
  let n ← Text.natural? base digits
  let v ← Word.check? n
  return (.integer v, rest)

/-- The decimal number at the front, with or without a fraction and an exponent. -/
def decimal? (cs : List Char) : Option (Value × List Char) := do
  let (negative, afterSign) := sign cs
  let (whole, rest) ← whole? afterSign
  let (fraction, rest) ← fraction? rest
  let (exponent, rest) ← exponent? rest
  let mantissa ← Text.natural? 10 (whole ++ fraction)
  if fraction = [] ∧ exponent = none then
    let v ← Word.check? (signed negative mantissa)
    return (.integer v, rest)
  else if !negative && isInfinite mantissa (whole ++ fraction).length
      (exponent.getD 0 - fraction.length) then none
  else return (.other (consumed cs rest), rest)

def number? (cs : List Char) : Option (Value × List Char) :=
  match cs with
  | '0' :: 'x' :: digits => basedInteger? 16 digits
  | '0' :: 'o' :: digits => basedInteger? 8 digits
  | '0' :: 'b' :: digits => basedInteger? 2 digits
  | _ =>
    match special? (sign cs).2 with
    | some rest => some (.other (consumed cs rest), rest)
    | none => decimal? cs

end RegisterBank.Toml
