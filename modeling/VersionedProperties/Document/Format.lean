import VersionedProperties.Document.JsonText
import VersionedProperties.Document.PropertiesText

/-!
# Formats

A format reads and writes mappings of names to values. The comment and the time of writing have a
place in properties text only.
-/

namespace VersionedProperties

/-- How a mapping is written as a text. -/
inductive Format where
  /-- Properties text, with or without a timestamp. -/
  | properties (timestamp : Bool)
  /-- A JSON object, on one line or with an indentation. -/
  | json (indent : Option Int)
  deriving DecidableEq

namespace Format

/-- The mapping that a text holds. -/
def decode (f : Format) (t : Text) : Except Error (Mapping Text Text) :=
  match f with
  | .properties _ => (PropertiesText.decode t).mapError .format
  | .json _ => Json.decode t

/-- The text of a mapping. -/
def encode (f : Format) (now : Timestamp) (values : Mapping Text Text) (comment : Option Text) :
    Text :=
  match f with
  | .properties timestamp =>
    PropertiesText.encode values comment (if timestamp then some now else none)
  | .json indent => Json.encode values indent

end Format

end VersionedProperties
