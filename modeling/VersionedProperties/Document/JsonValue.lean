import VersionedProperties.Error
import VersionedProperties.Numeral.Real

/-!
# JSON values

The values that a JSON document denotes. The members of an object are listed by first occurrence of
their names, each with its last value.
-/

namespace VersionedProperties.Json

/-- A JSON value. -/
inductive Value where
  | null
  | boolean (b : Bool)
  | integer (n : Int)
  | real (x : Binary64)
  | string (t : Text)
  | array (elements : List Value)
  | object (members : List (Text × Value))

namespace Value

/-- The kind of a value. -/
def kind : Value → ValueKind
  | .null => .null
  | .boolean _ => .boolean
  | .integer _ => .integer
  | .real _ => .real
  | .string _ => .string
  | .array _ => .array
  | .object _ => .object

/-- The text of a scalar. -/
def scalarText? : Value → Option Text
  | .boolean b => some (if b then "true" else "false")
  | .integer n => some (Numeral.writeInteger n)
  | .real x => some (Numeral.writeReal x)
  | .string t => some t
  | _ => none

end Value

end VersionedProperties.Json
