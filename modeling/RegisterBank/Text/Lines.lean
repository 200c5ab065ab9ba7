/-!
# Lines of text

A generated text is a list of lines; in the file each line ends with a line feed, the last one
included. In a list of the hardware language, entries stand on lines of their own with remarks
between them, and every entry but the last is followed by a comma.
-/

namespace RegisterBank.Text

/-- The text of a list of lines, a line feed after each. -/
def unlines (lines : List String) : String :=
  String.join (lines.map (· ++ "\n"))

@[simp] theorem unlines_nil : unlines [] = "" := by
  simp [unlines]

@[simp] theorem unlines_cons (line : String) (lines : List String) :
    unlines (line :: lines) = line ++ "\n" ++ unlines lines := by
  simp [unlines]

@[simp] theorem unlines_append (lines others : List String) :
    unlines (lines ++ others) = unlines lines ++ unlines others := by
  simp [unlines]

/-- A line of a list: an entry, or a remark that is none. -/
inductive ListLine where
  | remark (text : String)
  | entry (text : String)
  deriving DecidableEq, Repr

def ListLine.isEntry : ListLine → Bool
  | remark _ => false
  | entry _ => true

/-- The lines of a list, a comma after each entry that another entry follows. -/
def punctuated : List ListLine → List String
  | [] => []
  | .remark text :: rest => text :: punctuated rest
  | .entry text :: rest =>
    (if rest.any ListLine.isEntry then text ++ "," else text) :: punctuated rest

@[simp] theorem length_punctuated (lines : List ListLine) :
    (punctuated lines).length = lines.length := by
  induction lines with
  | nil => rfl
  | cons line rest ih => cases line <;> simp [punctuated, ih]

end RegisterBank.Text
