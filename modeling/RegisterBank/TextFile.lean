import RegisterBank.Text.Lines

/-!
# Generated files

A generated file has a name and its contents; where it is put is decided elsewhere.
-/

namespace RegisterBank

structure TextFile where
  name : String
  contents : String
  deriving DecidableEq, Repr

def TextFile.ofLines (name : String) (lines : List String) : TextFile :=
  ⟨name, Text.unlines lines⟩

end RegisterBank
