/-!
# TOML values

The values that a TOML document can hold.  Floating-point numbers and dates only say that they are
such, because no setting has one.
-/

namespace Fieldbus

/-- A TOML value. -/
inductive Toml where
  | string (text : String)
  | integer (value : Int)
  | float
  | boolean (value : Bool)
  | datetime
  | array (items : List Toml)
  | table (members : List (String × Toml))
  deriving Repr

end Fieldbus
