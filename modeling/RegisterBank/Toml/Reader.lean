import RegisterBank.Toml.Moment
import RegisterBank.Toml.Number
import RegisterBank.Toml.Text
import RegisterBank.Toml.Tree

/-!
# Reading TOML

`Toml.read` reads a document line by line into a tree and answers with its root table. A key may be
bare or quoted, and dotted; a value is a string, a number, a boolean, a date or time, an array or an
inline table. Arrays may run over several lines and have comments in them, inline tables may not.
Keys of too many parts and values that are nested too deeply are refused.
-/

namespace RegisterBank.Toml

/-- The characters after spaces and tabs. -/
def skipSpaces (cs : List Char) : List Char :=
  cs.dropWhile isSpace

/-- The characters after a comment, when one stands at the front and has no control characters. The
line break after it is left. -/
def skipComment? : List Char → Option (List Char)
  | '#' :: rest =>
    match rest.dropWhile isTextChar with
    | [] => some []
    | '\n' :: rest => some ('\n' :: rest)
    | '\r' :: '\n' :: rest => some ('\n' :: rest)
    | _ => none
  | cs => some cs

/-- The characters after spaces, line breaks and comments, whose number `limit` bounds. -/
def skipLines? : (limit : Nat) → List Char → Option (List Char)
  | 0, _ => none
  | limit + 1, cs =>
    match skipSpaces cs with
    | '\n' :: rest => skipLines? limit rest
    | '\r' :: '\n' :: rest => skipLines? limit rest
    | '#' :: rest =>
      match skipComment? ('#' :: rest) with
      | some rest => skipLines? limit rest
      | none => none
    | rest => some rest

/-- A character of a key without quotes. -/
def isBareChar (c : Char) : Bool :=
  c.isAlphanum || c == '_' || c == '-'

def simpleKey? (cs : List Char) : Option (String × List Char) :=
  match cs with
  | '\x22' :: rest => (basicText rest).map fun (text, rest) => (String.ofList text, rest)
  | '\x27' :: rest => (literalText rest).map fun (text, rest) => (String.ofList text, rest)
  | _ =>
    match cs.takeWhile isBareChar with
    | [] => none
    | text => some (String.ofList text, cs.dropWhile isBareChar)

/-- The greatest number of parts in a dotted key, and of brackets around a value. -/
def depthLimit : Nat := 79

/-- A dotted key of at most so many parts. -/
def keyUpTo? : (parts : Nat) → List Char → Option (List String × List Char)
  | 0, _ => none
  | parts + 1, cs =>
    match simpleKey? (skipSpaces cs) with
    | none => none
    | some (part, rest) =>
      match skipSpaces rest with
      | '.' :: rest => (keyUpTo? parts rest).map fun (others, rest) => (part :: others, rest)
      | rest => some ([part], rest)

/-- The parts of a dotted key. -/
def key? : List Char → Option (List String × List Char) :=
  keyUpTo? depthLimit

/-- The value without brackets at the front. -/
def scalar? (cs : List Char) : Option (Value × List Char) :=
  match cs with
  | '\x22' :: _ => (string? cs).map fun (text, rest) => (.string (String.ofList text), rest)
  | '\x27' :: _ => (string? cs).map fun (text, rest) => (.string (String.ofList text), rest)
  | 't' :: 'r' :: 'u' :: 'e' :: rest => some (.boolean true, rest)
  | 'f' :: 'a' :: 'l' :: 's' :: 'e' :: rest => some (.boolean false, rest)
  | _ =>
    if beginsDate cs || beginsTime cs then
      (moment? cs).map fun rest => (.other (consumed cs rest), rest)
    else number? cs

/-- The items of an array up to its closing bracket, whose number `limit` bounds. -/
def items? (item? : List Char → Option (Value × List Char)) :
    (limit : Nat) → List Char → Option (List Value × List Char)
  | 0, _ => none
  | limit + 1, cs =>
    match skipLines? (cs.length + 1) cs with
    | none => none
    | some (']' :: rest) => some ([], rest)
    | some cs =>
      match item? cs with
      | none => none
      | some (item, rest) =>
        match skipLines? (rest.length + 1) rest with
        | some (',' :: rest) =>
          (items? item? limit rest).map fun (items, rest) => (item :: items, rest)
        | some (']' :: rest) => some ([item], rest)
        | _ => none

/-- The entries of an inline table up to its closing brace, whose number `limit` bounds, put after
the entries before them. -/
def entries? (value? : List Char → Option (Value × List Char)) :
    (limit : Nat) → Node.Entries → List Char → Option (Node.Entries × List Char)
  | 0, _, _ => none
  | limit + 1, before, cs =>
    match key? cs with
    | some (path, '=' :: rest) =>
      match value? (skipSpaces rest) with
      | none => none
      | some (value, rest) =>
        match Node.assign path value before with
        | none => none
        | some entries =>
          match skipSpaces rest with
          | ',' :: rest => entries? value? limit entries rest
          | '\x7d' :: rest => some (entries, rest)
          | _ => none
    | _ => none

/-- The value at the front, with brackets nested at most `depth` times. -/
def valueUpTo? : (depth : Nat) → List Char → Option (Value × List Char)
  | 0, cs => scalar? cs
  | depth + 1, cs =>
    match cs with
    | '[' :: rest =>
      (items? (valueUpTo? depth) (rest.length + 1) rest).map fun (items, rest) =>
        (.array items, rest)
    | '\x7b' :: rest =>
      match skipSpaces rest with
      | '\x7d' :: rest => some (.table [], rest)
      | rest =>
        (entries? (valueUpTo? depth) (rest.length + 1) [] rest).map fun (nodes, rest) =>
          (.table (Node.values nodes), rest)
    | _ => scalar? cs

def value? : List Char → Option (Value × List Char) :=
  valueUpTo? depthLimit

/-- One line of a document. -/
inductive Statement where
  | blank
  /-- `key = value` in the current table. -/
  | assign (path : List String) (value : Value)
  /-- `[key]` -/
  | table (path : List String)
  /-- `[[key]]` -/
  | item (path : List String)

/-- The statement at the front of a line. -/
def statement? (cs : List Char) : Option (Statement × List Char) :=
  match skipSpaces cs with
  | [] => some (.blank, [])
  | '\n' :: rest => some (.blank, '\n' :: rest)
  | '\r' :: rest => some (.blank, '\r' :: rest)
  | '#' :: rest => some (.blank, '#' :: rest)
  | '[' :: '[' :: rest =>
    match key? rest with
    | some (path, ']' :: ']' :: rest) => some (.item path, rest)
    | _ => none
  | '[' :: rest =>
    match key? rest with
    | some (path, ']' :: rest) => some (.table path, rest)
    | _ => none
  | cs =>
    match key? cs with
    | some (path, '=' :: rest) =>
      (value? (skipSpaces rest)).map fun (value, rest) => (.assign path value, rest)
    | _ => none

/-- The characters after the end of a line, where only a comment may stand before it. -/
def endOfLine? (cs : List Char) : Option (List Char) :=
  match skipComment? (skipSpaces cs) with
  | some [] => some []
  | some ('\n' :: rest) => some rest
  | some ('\r' :: '\n' :: rest) => some rest
  | _ => none

/-- The statements of the lines, whose number `limit` bounds. -/
def statements? : (limit : Nat) → List Char → Option (List Statement)
  | _, [] => some []
  | 0, _ => none
  | limit + 1, cs =>
    match statement? cs with
    | none => none
    | some (statement, rest) =>
      match endOfLine? rest with
      | none => none
      | some rest => (statements? limit rest).map (statement :: ·)

/-- The tree after the statements, where `current` is the path of the current table. -/
def build? (current : List String) (root : Node.Entries) : List Statement → Option Node.Entries
  | [] => some root
  | .blank :: rest => build? current root rest
  | .assign path value :: rest =>
    match Node.within current (Node.assign path value) root with
    | some root => build? current root rest
    | none => none
  | .table path :: rest =>
    match Node.openTable path root with
    | some root => build? path root rest
    | none => none
  | .item path :: rest =>
    match Node.openItem path root with
    | some root => build? path root rest
    | none => none

/-- The characters after a byte order mark. -/
def afterMark : List Char → List Char
  | '\ufeff' :: rest => rest
  | cs => cs

/-- The root table of a document, when the text is one. -/
def read (text : String) : Option (List (String × Value)) :=
  let cs := afterMark text.toList
  match statements? cs.length cs with
  | none => none
  | some statements => (build? [] [] statements).map Node.values

end RegisterBank.Toml
