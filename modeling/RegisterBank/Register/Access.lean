import RegisterBank.Error
import RegisterBank.Text.Blank

/-!
# Access directions

Software may read a register, write it, or both. Two registers share a direction when both can be
read or both can be written; only then do they compete for addresses in every build.
-/

namespace RegisterBank

/-- The access direction of a register as software sees it. -/
inductive Access where
  | read
  | write
  | readWrite
  deriving DecidableEq, Repr

namespace Access

/-- Whether software can read the register. -/
def reads : Access → Bool
  | read => true
  | write => false
  | readWrite => true

/-- Whether software can write the register. -/
def writes : Access → Bool
  | read => false
  | write => true
  | readWrite => true

/-- The code of the direction in descriptions and tables. -/
def code : Access → String
  | read => "R"
  | write => "W"
  | readWrite => "RW"

/-- The direction that a code stands for. Blanks around it and the case of its letters do not
count, and both orders of the two letters mean the same. -/
def parse (text : String) : Except Error Access :=
  let code := Text.asciiUpper (Text.trim text)
  if code = "R" then .ok read
  else if code = "W" then .ok write
  else if code = "RW" ∨ code = "WR" then .ok readWrite
  else .error (.configuration (.access text))

/-- Whether both directions can be read or both can be written. -/
def Shares (a b : Access) : Prop :=
  (a.reads = true ∧ b.reads = true) ∨ (a.writes = true ∧ b.writes = true)

instance (a b : Access) : Decidable (Shares a b) :=
  inferInstanceAs (Decidable (_ ∨ _))

end Access

end RegisterBank
