import RegisterBank.Expr.Formula
import RegisterBank.Register.Access

/-!
# Registers and groups

A register is declared with its width and the depth of its array as formulas. Registers stand in
named groups, which keep their order of declaration; a table is a list of groups. The groups of
declared and of placed registers are the same type `Group` over different members.
-/

namespace RegisterBank

structure Register where
  name : String
  access : Access
  /-- The width of one item in bits. -/
  width : Formula
  reset : Nat := 0
  /-- The address that the declaration asks for. -/
  address : Option Nat := none
  /-- The logarithm to base two of the number of items. -/
  logItems : Formula := .literal 0
  /-- Whether the register file itself holds the value. -/
  auto : Bool := true
  descr : String := ""
  deriving Repr

/-- The name of the register that shows the module version. -/
def versionName : String := "version"

/-- Whether the register is the version register, in any case of its letters. -/
def Register.isVersion (r : Register) : Bool :=
  Text.sameIgnoringCase r.name versionName

/-- Members that are declared and documented together. -/
structure Group (α : Type) where
  name : String
  descr : String
  members : List α
  deriving Repr

namespace Group

variable {α β : Type}

/-- The group with every member replaced. -/
def map (f : α → β) (g : Group α) : Group β :=
  ⟨g.name, g.descr, g.members.map f⟩

/-- The members of all groups in order. -/
def flatten (groups : List (Group α)) : List α :=
  groups.flatMap (·.members)

@[simp] theorem flatten_nil : flatten ([] : List (Group α)) = [] := rfl

@[simp] theorem flatten_cons (g : Group α) (groups : List (Group α)) :
    flatten (g :: groups) = g.members ++ flatten groups := rfl

@[simp] theorem flatten_append (gs hs : List (Group α)) :
    flatten (gs ++ hs) = flatten gs ++ flatten hs := by
  simp [flatten]

theorem flatten_map (f : α → β) (groups : List (Group α)) :
    flatten (groups.map (map f)) = (flatten groups).map f := by
  induction groups with
  | nil => rfl
  | cons g groups ih => simp [ih, map]

end Group

/-- Groups of declared registers, in order. -/
abbrev Table := List (Group Register)

end RegisterBank
