import RegisterBank.Text.Numeral

/-!
# Strings of TOML

The four forms of strings. A basic string stands between quotes and has escapes; a literal string
stands between apostrophes and has none. Both have a form with three marks on each side that may run
over several lines: the line break after the opening marks does not count, every line break is a
line feed, and up to two marks may stand right before the closing ones. Control characters are
refused in all of them.
-/

namespace RegisterBank.Toml

/-- The apostrophe that encloses literal strings. -/
def literalMark : Char := '\x27'

/-- The quotation mark that encloses basic strings. -/
def basicMark : Char := '\x22'

/-- A tab, or a character that is no control character. -/
def isTextChar (c : Char) : Bool :=
  c == '\t' || (c.toNat ≥ 0x20 && c.toNat ≠ 0x7F)

def isSpace (c : Char) : Bool :=
  c == ' ' || c == '\t'

/-- The character that one letter after a backslash stands for. -/
def shortEscape? (c : Char) : Option Char :=
  if c = 'b' then some '\x08'
  else if c = 't' then some '\t'
  else if c = 'n' then some '\n'
  else if c = 'f' then some '\x0c'
  else if c = 'r' then some '\r'
  else if c = basicMark then some basicMark
  else if c = '\\' then some '\\'
  else none

/-- The character with the code point that hexadecimal digits write. -/
def codeEscape? (digits : List Char) : Option Char :=
  match Text.natural? 16 digits with
  | some n => if h : n.isValidChar then some (Char.ofNatAux n h) else none
  | none => none

/-- Whether a line break comes next after spaces. -/
def breaksLine (cs : List Char) : Bool :=
  match cs.dropWhile isSpace with
  | '\n' :: _ => true
  | '\r' :: '\n' :: _ => true
  | _ => false

/-- Puts a character before the text that was read after it. -/
def prepend (c : Char) (r : Option (List Char × List Char)) : Option (List Char × List Char) :=
  r.map fun (text, rest) => (c :: text, rest)

/-- The marks, two at most, that stand between the text and the closing marks. -/
def closing (mark : Char) : List Char → List Char × List Char
  | a :: b :: rest =>
    if a = mark then if b = mark then ([mark, mark], rest) else ([mark], b :: rest)
    else ([], a :: b :: rest)
  | [a] => if a = mark then ([mark], []) else ([], [a])
  | [] => ([], [])

/-- The text of a basic string on one line, after its opening mark. -/
def basicText : List Char → Option (List Char × List Char)
  | [] => none
  | '\\' :: 'u' :: a :: b :: c :: d :: rest =>
    match codeEscape? [a, b, c, d] with
    | some ch => prepend ch (basicText rest)
    | none => none
  | '\\' :: 'U' :: a :: b :: c :: d :: e :: f :: g :: h :: rest =>
    match codeEscape? [a, b, c, d, e, f, g, h] with
    | some ch => prepend ch (basicText rest)
    | none => none
  | '\\' :: c :: rest =>
    match shortEscape? c with
    | some ch => prepend ch (basicText rest)
    | none => none
  | c :: rest =>
    if c = basicMark then some ([], rest)
    else if isTextChar c then prepend c (basicText rest)
    else none

/-- The text of a literal string on one line, after its opening mark. -/
def literalText : List Char → Option (List Char × List Char)
  | [] => none
  | c :: rest =>
    if c = literalMark then some ([], rest)
    else if isTextChar c then prepend c (literalText rest)
    else none

/-- The text of a basic string of several lines. While `skipping`, spaces and line breaks do not
count: a backslash at the end of a line joins it with the next text. -/
def basicLines (skipping : Bool) : List Char → Option (List Char × List Char)
  | [] => none
  | '\r' :: '\n' :: rest =>
    if skipping then basicLines true rest else prepend '\n' (basicLines false rest)
  | '\n' :: rest => if skipping then basicLines true rest else prepend '\n' (basicLines false rest)
  | '\\' :: 'u' :: a :: b :: c :: d :: rest =>
    match codeEscape? [a, b, c, d] with
    | some ch => prepend ch (basicLines false rest)
    | none => none
  | '\\' :: 'U' :: a :: b :: c :: d :: e :: f :: g :: h :: rest =>
    match codeEscape? [a, b, c, d, e, f, g, h] with
    | some ch => prepend ch (basicLines false rest)
    | none => none
  | '\\' :: c :: rest =>
    if breaksLine (c :: rest) then basicLines true (c :: rest)
    else
      match shortEscape? c with
      | some ch => prepend ch (basicLines false rest)
      | none => none
  | '\x22' :: '\x22' :: '\x22' :: rest => some (closing basicMark rest)
  | c :: rest =>
    if skipping && isSpace c then basicLines true rest
    else if isTextChar c then prepend c (basicLines false rest)
    else none

/-- The text of a literal string of several lines. -/
def literalLines : List Char → Option (List Char × List Char)
  | [] => none
  | '\r' :: '\n' :: rest => prepend '\n' (literalLines rest)
  | '\n' :: rest => prepend '\n' (literalLines rest)
  | '\x27' :: '\x27' :: '\x27' :: rest => some (closing literalMark rest)
  | c :: rest => if isTextChar c then prepend c (literalLines rest) else none

/-- The characters after one line break. -/
def afterBreak : List Char → List Char
  | '\n' :: rest => rest
  | '\r' :: '\n' :: rest => rest
  | cs => cs

def string? : List Char → Option (List Char × List Char)
  | '\x22' :: '\x22' :: '\x22' :: rest => basicLines false (afterBreak rest)
  | '\x22' :: rest => basicText rest
  | '\x27' :: '\x27' :: '\x27' :: rest => literalLines (afterBreak rest)
  | '\x27' :: rest => literalText rest
  | _ => none

end RegisterBank.Toml
