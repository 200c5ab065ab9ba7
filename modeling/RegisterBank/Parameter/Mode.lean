/-!
# Valuation modes

A parameter has up to three numeric fields. The mode of an evaluation says which of them stands for
the parameter: its default value, its least or its greatest legal value. Space is reserved with the
greatest values, so that the hardware fits every configuration.
-/

namespace RegisterBank

/-- Which numeric field of each parameter an evaluation uses. -/
inductive Mode where
  /-- The default value. -/
  | value
  /-- The least legal value. -/
  | min
  /-- The greatest legal value. -/
  | max
  deriving DecidableEq, Repr

namespace Mode

/-- Every mode, in the order in which parameters are resolved. -/
def all : List Mode :=
  [value, min, max]

/-- The word for the mode in messages. -/
def word : Mode → String
  | value => "value"
  | min => "min"
  | max => "max"

end Mode

/-- What a name stands for in one mode. -/
inductive Lookup where
  | known (value : Int)
  /-- The parameter is declared, and its field for the mode has no value. -/
  | unavailable
  | undefined
  deriving DecidableEq, Repr

end RegisterBank
