import VersionedProperties.Error
import VersionedProperties.Numeral.Real
import VersionedProperties.Text.LetterCase

/-!
# Typed values

Properties hold texts. A value of another type is stored as its text: truth values as `true` and
`false`, numbers by their decimal text, and the member of an enumeration by its name in lower case.
A default is declared by the full text of its value, which for a member names the enumeration too.
-/

namespace VersionedProperties

/-- A value that can be stored in a property. -/
inductive TypedValue where
  | text (t : Text)
  | boolean (b : Bool)
  | integer (n : Int)
  | real (x : Binary64)
  | member (name : Text)
  deriving DecidableEq

namespace TypedValue

/-- The integer of a text. -/
def ofIntegerText (t : Text) : Except Error TypedValue :=
  ((Numeral.readInteger 10 t).map .integer).mapError .numeral

/-- The real number of a text. -/
def ofRealText (t : Text) : Except Error TypedValue :=
  ((Numeral.readReal t).map .real).mapError .numeral

/-- The enumeration of the members that are given as values. -/
def enumeration : Text := "Value"

/-- The text under which a value is stored. -/
def stored : TypedValue → Except Error Text
  | .text t => .ok t
  | .boolean b => .ok (if b then "true" else "false")
  | .integer n => (Numeral.writeInteger? n).mapError .numeral
  | .real x => .ok (Numeral.writeReal x)
  | .member name => .ok (Text.lower name)

/-- The text under which a value that may be absent is stored. -/
def stored? : Option TypedValue → Except Error Text
  | some v => v.stored
  | none => .error (.missingValue .given)

/-- The text of a value that a key declares as its default. -/
def declared : TypedValue → Text
  | .text t => t
  | .boolean b => if b then "True" else "False"
  | .integer n => Numeral.writeInteger n
  | .real x => Numeral.writeReal x
  | .member name => enumeration ++ "." ++ name

/-- A value as shown in messages. -/
def shown : TypedValue → Text
  | .text t => t.quoted
  | .member name => "<" ++ enumeration ++ "." ++ name ++ ": 1>"
  | v => v.declared

/-- A value that may be absent as shown in messages. -/
def shown? : Option TypedValue → Text
  | some v => v.shown
  | none => "None"

/-- The name of the kind of a value that may be absent. -/
def kindName : Option TypedValue → Text
  | none => ValueKind.null.name
  | some (.text _) => ValueKind.string.name
  | some (.boolean _) => ValueKind.boolean.name
  | some (.integer _) => ValueKind.integer.name
  | some (.real _) => ValueKind.real.name
  | some (.member _) => enumeration

/-- Whether a value counts as none: it is absent, false, a zero or the empty text. -/
def isVoid : Option TypedValue → Bool
  | none => true
  | some (.text t) => t = []
  | some (.boolean b) => !b
  | some (.integer n) => n = 0
  | some (.real x) => x.isZero
  | some (.member _) => false

end TypedValue

end VersionedProperties
