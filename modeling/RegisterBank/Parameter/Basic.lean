import RegisterBank.Expr.Formula

/-!
# Parameters

A parameter is a named quantity of the hardware configuration. Each of its three fields, the default
and the least and the greatest legal value, is a formula that may mention other parameters, or is
marked as not available.
-/

namespace RegisterBank

structure Parameter where
  name : String
  fields : PerMode (Option Formula)
  descr : String := ""
  deriving Repr

namespace Parameter

def field (p : Parameter) (mode : Mode) : Option Formula :=
  p.fields.get mode

/-- The parameter names that the field for a mode mentions. -/
def references (p : Parameter) (mode : Mode) : List String :=
  match p.field mode with
  | some formula => formula.references
  | none => []

/-- The formula of a field, where an empty text, `NA` and `ND` mean that there is none. -/
def fieldOf (text : String) : Except Error (Option Formula) :=
  let bare := Text.trim text
  if bare = "NA" ∨ bare = "ND" ∨ bare = "" then .ok none
  else (Formula.parse bare).map some

/-- The parameter with the given field texts. -/
def ofTexts (name value min max descr : String) : Except Error Parameter := do
  let value ← fieldOf value
  let min ← fieldOf min
  let max ← fieldOf max
  .ok { name, fields := ⟨value, min, max⟩, descr }

end Parameter

end RegisterBank
