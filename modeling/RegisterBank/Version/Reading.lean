import RegisterBank.Text.Blank
import RegisterBank.Text.Numeral
import RegisterBank.Text.Pieces
import RegisterBank.Text.Quoted
import RegisterBank.Version.Basic

/-!
# Reading versions

A full version is `major.minor.patch`, then a pre-release after a hyphen, then a build after a plus
sign. The numbers have no leading zeros and fit in 64 bits; pre-release and build are rows of
identifiers separated by points, each of ASCII letters, digits and hyphens, and a numeric identifier
of a pre-release has no leading zero. Module descriptions may leave out the patch number and may
begin with the letter V.
-/

namespace RegisterBank.Version

/-- The parts of a version that a fault can be found in. -/
inductive Part where
  | major
  | minor
  | patch
  | preRelease
  | build
  deriving DecidableEq, Repr

def Part.name : Part → String
  | major => "major version number"
  | minor => "minor version number"
  | patch => "patch version number"
  | preRelease => "pre-release identifier"
  | build => "build metadata"

/-- The reasons for which a text is no version. -/
inductive Fault where
  | empty
  | ended (part : Part)
  | unexpected (c : Char) (part : Part)
  | unexpectedAfter (c : Char) (part : Part)
  | leadingZero (part : Part)
  | tooLarge (part : Part)
  | emptySegment (part : Part)
  deriving DecidableEq, Repr

def Fault.message : Fault → String
  | empty => "empty string, expected a semver version"
  | ended part => s!"unexpected end of input while parsing {part.name}"
  | unexpected c part => s!"unexpected character {Text.quoted c} while parsing {part.name}"
  | unexpectedAfter c part => s!"unexpected character {Text.quoted c} after {part.name}"
  | leadingZero part => s!"invalid leading zero in {part.name}"
  | tooLarge part => s!"value of {part.name} exceeds u64::MAX"
  | emptySegment part => s!"empty identifier segment in {part.name}"

/-- The number at the front and the characters after it. -/
def number (part : Part) (cs : List Char) : Except Fault (Nat × List Char) :=
  match cs.takeWhile Char.isDigit with
  | [] =>
    match cs with
    | [] => .error (.ended part)
    | c :: _ => .error (.unexpected c part)
  | d :: ds =>
    if d = '0' ∧ ds ≠ [] then .error (.leadingZero part)
    else
      match Text.natural? 10 (d :: ds) with
      | some n =>
        if n < UInt64.size then .ok (n, cs.dropWhile Char.isDigit) else .error (.tooLarge part)
      | none => .error (.tooLarge part)

def point (part : Part) : List Char → Except Fault (List Char)
  | [] => .error (.ended part)
  | c :: rest => if c = '.' then .ok rest else .error (.unexpectedAfter c part)

/-- The first fault of a row of identifiers. -/
def segmentFault? (part : Part) : List (List Char) → Option Fault
  | [] => none
  | piece :: pieces =>
    if piece = [] then some (.emptySegment part)
    else if part = .preRelease ∧ piece.all Char.isDigit ∧ piece.length > 1
        ∧ piece.head? = some '0' then
      some (.leadingZero part)
    else segmentFault? part pieces

/-- A character of identifiers, or a point between them. -/
def isIdentifierChar (c : Char) : Bool :=
  c.isAlphanum || c == '-' || c == '.'

/-- The identifiers that follow a mark, when the mark stands at the front, and the rest. -/
def identifiers (part : Part) (mark : Char) (cs : List Char) :
    Except Fault (String × List Char) :=
  match cs with
  | [] => .ok ("", [])
  | c :: rest =>
    if c = mark then
      let row := rest.takeWhile isIdentifierChar
      match segmentFault? part (Text.pieces '.' row) with
      | some fault => .error fault
      | none => .ok (String.ofList row, rest.dropWhile isIdentifierChar)
    else .ok ("", cs)

/-- The last part that a version with these identifiers has. -/
def lastPart (preRelease build : String) : Part :=
  if build ≠ "" then .build else if preRelease ≠ "" then .preRelease else .patch

def parse (cs : List Char) : Except Fault Version :=
  if cs = [] then .error .empty
  else do
    let (major, cs) ← number .major cs
    let cs ← point .major cs
    let (minor, cs) ← number .minor cs
    let cs ← point .minor cs
    let (patch, cs) ← number .patch cs
    let (preRelease, cs) ← identifiers .preRelease '-' cs
    let (build, cs) ← identifiers .build '+' cs
    match cs with
    | [] => .ok { major, minor, patch, preRelease, build }
    | c :: _ => .error (.unexpectedAfter c (lastPart preRelease build))

/-- The version that a module description states: blanks around it and letters V before it do not
count, and a missing patch number is zero. -/
def ofDescription (s : String) : Except Fault Version :=
  let bare := (Text.trimChars s.toList).dropWhile fun c => c == 'V' || c == 'v'
  parse (if bare.count '.' = 1 then bare ++ ['.', '0'] else bare)

end RegisterBank.Version
