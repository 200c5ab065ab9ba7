import RegisterBank.Text.Pieces

/-!
# Paths

A path is a text of names with slashes between them. A path that begins with a slash starts at the
root, every other one at the working directory. `Path.names` lists the names in the text; among them
an empty name and a single point stand for the place reached so far, and two points for the
directory around it. What a path leads to is a place. Paths and names have a greatest length.
-/

namespace RegisterBank.Workspace

/-- The names on the way to a place, from the working directory or, after a slash, from the root.
They are plain, except that two points for each directory around the working directory may come
first. -/
abbrev Place := List String

def rootName : String := "/"

/-- The name that leads to the directory around a place. -/
def aboveName : String := ".."

namespace Path

/-- The greatest number of bytes in a path. -/
def lengthLimit : Nat := 4095

/-- The greatest number of bytes in a name. -/
def nameLimit : Nat := 255

/-- Whether a text can be a path: it is not too long and has no null character. -/
def isUsable (text : String) : Bool :=
  text.utf8ByteSize ≤ lengthLimit && text.toList.all (· != '\x00')

def names (text : String) : List String :=
  (Text.pieces '/' text.toList).map String.ofList

/-- The names in the text of a path that lead from one place to another. -/
def parts (text : String) : List String :=
  (names text).filter fun name => name != "" && name != "."

/-- The names in the text of a path without the slashes at its end. -/
def trimmedNames (text : String) : List String :=
  ((names text).reverse.dropWhile (· == "")).reverse

def start (text : String) : Place :=
  if text.toList.head? = some '/' then [rootName] else []

/-- The text of a name inside a directory. A name that begins with a slash stands for itself. -/
def join (directory name : String) : String :=
  if name.toList.head? = some '/' ∨ directory = "" then name
  else if directory.toList.getLast? = some '/' then directory ++ name
  else directory ++ "/" ++ name

/-- The directory around a place. -/
def above (place : Place) : Place :=
  if place = [rootName] then place
  else if place.all (· == aboveName) then place ++ [aboveName]
  else place.dropLast

/-- The place that a name leads to from another place. -/
def step (place : Place) (name : String) : Place :=
  if name = "" ∨ name = "." then place
  else if name = aboveName then above place
  else place ++ [name]

end Path

end RegisterBank.Workspace
