/-!
# Lines that mention ports

A line of hardware text is kept in pieces, so that the ports of the owning module that it mentions
can be listed. The line itself is the pieces one after the other.
-/

namespace RegisterBank.Verilog

inductive Piece where
  | text (written : String)
  /-- The name of a port. -/
  | port (name : String)
  deriving DecidableEq, Repr

def Piece.written : Piece → String
  | text written => written
  | port name => name

def Piece.port? : Piece → Option String
  | text _ => none
  | port name => some name

/-- A line in pieces. -/
abbrev Phrase := List Piece

namespace Phrase

/-- A line that mentions no port. -/
def plain (line : String) : Phrase :=
  [.text line]

def line (phrase : Phrase) : String :=
  String.join (phrase.map Piece.written)

/-- The ports that the line mentions. -/
def ports (phrase : Phrase) : List String :=
  phrase.filterMap Piece.port?

@[simp] theorem line_plain (line : String) : (plain line).line = line := by
  simp [plain, Phrase.line, Piece.written]

@[simp] theorem line_append (p q : Phrase) : line (p ++ q) = p.line ++ q.line := by
  simp [line]

@[simp] theorem ports_plain (line : String) : (plain line).ports = [] := rfl

@[simp] theorem ports_append (p q : Phrase) : ports (p ++ q) = p.ports ++ q.ports := by
  simp [ports]

end Phrase

end RegisterBank.Verilog
