import RegisterBank.Text.Numeral

/-!
# Dates and times of TOML

A moment is a date, a time of day, or a date with a time and perhaps the offset of the time from the
universal one. Dates follow the calendar with its leap years, a minute may have a leap second, and
the second may have a fraction. `moment?` answers with the characters after the moment.
-/

namespace RegisterBank.Toml

/-- The number in two digits, when it lies within bounds. -/
def twoDigits? (low high : Nat) : List Char → Option (Nat × List Char)
  | a :: b :: rest =>
    match Text.natural? 10 [a, b] with
    | some n => if low ≤ n ∧ n ≤ high then some (n, rest) else none
    | none => none
  | _ => none

/-- The characters after a given one. -/
def after? (c : Char) : List Char → Option (List Char)
  | first :: rest => if first = c then some rest else none
  | [] => none

def isLeapYear (year : Nat) : Bool :=
  year % 4 == 0 && (year % 100 != 0 || year % 400 == 0)

def daysInMonth (year month : Nat) : Nat :=
  if month = 2 then if isLeapYear year then 29 else 28
  else if month = 4 ∨ month = 6 ∨ month = 9 ∨ month = 11 then 30
  else 31

/-- A month and a day after the year they belong to. -/
def monthAndDay? (year : Nat) (cs : List Char) : Option (List Char) := do
  let (month, rest) ← twoDigits? 1 12 cs
  let rest ← after? '-' rest
  let (_, rest) ← twoDigits? 1 (daysInMonth year month) rest
  return rest

/-- Hours and minutes with a colon between them. -/
def hoursAndMinutes? (cs : List Char) : Option (List Char) := do
  let (_, rest) ← twoDigits? 0 23 cs
  let rest ← after? ':' rest
  let (_, rest) ← twoDigits? 0 59 rest
  return rest

/-- The fraction of a second, where one comes next. -/
def secondFraction? : List Char → Option (List Char)
  | '.' :: c :: rest => if c.isDigit then some (rest.dropWhile Char.isDigit) else none
  | ['.'] => none
  | cs => some cs

def time? (cs : List Char) : Option (List Char) := do
  let rest ← hoursAndMinutes? cs
  let rest ← after? ':' rest
  let (_, rest) ← twoDigits? 0 60 rest
  secondFraction? rest

/-- The offset of a time, where one comes next. -/
def offset? : List Char → Option (List Char)
  | 'Z' :: rest => some rest
  | 'z' :: rest => some rest
  | '+' :: rest => hoursAndMinutes? rest
  | '-' :: rest => hoursAndMinutes? rest
  | cs => some cs

/-- Whether hours come next, as at the front of a time. -/
def beginsTime : List Char → Bool
  | a :: b :: ':' :: _ => a.isDigit && b.isDigit
  | _ => false

/-- The time of a date with its offset, where one comes next. -/
def timeOfDate? : List Char → Option (List Char)
  | c :: rest =>
    if (c = 'T' ∨ c = 't' ∨ c = ' ') ∧ beginsTime rest then (time? rest).bind offset?
    else some (c :: rest)
  | [] => some []

/-- Whether a year comes next, as at the front of a date. -/
def beginsDate : List Char → Bool
  | a :: b :: c :: d :: '-' :: _ => a.isDigit && b.isDigit && c.isDigit && d.isDigit
  | _ => false

/-- A date with or without a time. -/
def date? : List Char → Option (List Char)
  | a :: b :: c :: d :: '-' :: rest => do
    let year ← Text.natural? 10 [a, b, c, d]
    let rest ← monthAndDay? year rest
    timeOfDate? rest
  | _ => none

/-- A date or a time of day. -/
def moment? (cs : List Char) : Option (List Char) :=
  if beginsDate cs then date? cs else time? cs

end RegisterBank.Toml
