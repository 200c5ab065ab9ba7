import RegisterBank.TextFile

/-!
# Lines of headers

A header is a list of lines, some of which define a name. The names that a header defines can be
listed from its lines; how a definition is written depends on the language of the header.
-/

namespace RegisterBank.Header

/-- A name and what it stands for. -/
structure Definition where
  name : String
  value : String
  deriving DecidableEq, Repr

inductive Line where
  | plain (text : String)
  | define (definition : Definition)
  deriving DecidableEq, Repr

namespace Line

def definition? : Line → Option Definition
  | plain _ => none
  | define d => some d

/-- The line as it is written, where `write` writes a definition. -/
def text (write : Definition → String) : Line → String
  | plain text => text
  | define d => write d

end Line

def definitions (lines : List Line) : List Definition :=
  lines.filterMap Line.definition?

def file (name : String) (write : Definition → String) (lines : List Line) : TextFile :=
  .ofLines name (lines.map (Line.text write))

namespace Definition

def hardwareMacro (d : Definition) : String :=
  s!"`define {d.name} {d.value}"

/-- The definition as a local parameter of the hardware language. -/
def localParameter (d : Definition) : String :=
  s!"localparam {d.name} = {d.value};"

/-- The definition as a macro of C. A name without a value is only marked as defined. -/
def softwareMacro (d : Definition) : String :=
  if d.value = "" then s!"#define {d.name}" else s!"#define {d.name} {d.value}"

end Definition

@[simp] theorem definitions_nil : definitions [] = [] := rfl

@[simp] theorem definitions_plain (text : String) (lines : List Line) :
    definitions (.plain text :: lines) = definitions lines := rfl

@[simp] theorem definitions_define (d : Definition) (lines : List Line) :
    definitions (.define d :: lines) = d :: definitions lines := rfl

@[simp] theorem definitions_append (lines others : List Line) :
    definitions (lines ++ others) = definitions lines ++ definitions others := by
  simp [definitions]

theorem definitions_map_define (ds : List Definition) : definitions (ds.map .define) = ds := by
  induction ds with
  | nil => rfl
  | cons d ds ih => simp [ih]

end RegisterBank.Header
