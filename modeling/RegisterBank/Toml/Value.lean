/-!
# TOML values

The data of a TOML document. The keys of a table keep their order.
-/

namespace RegisterBank.Toml

inductive Value where
  | string (text : String)
  | integer (value : Int)
  | boolean (value : Bool)
  /-- A float or a date, as it is written. -/
  | other (text : String)
  | array (items : List Value)
  | table (entries : List (String × Value))
  deriving Repr, Inhabited

end RegisterBank.Toml
