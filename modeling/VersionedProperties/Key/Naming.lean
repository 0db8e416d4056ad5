import VersionedProperties.Error
import VersionedProperties.Mapping
import VersionedProperties.Text.LetterCase

/-!
# Keys and property names

Keys are the members of an enumeration; each may declare a default. The name of the property of a
key is the member name in lower case with its underscores replaced by a separator, and a name leads
back to a key by upper case and underscores. A key is given by its member name.
-/

namespace VersionedProperties

/-- A key, by the name of its member. -/
abbrev Key := Text

/-- Why some uses of keys fail, where they do. -/
structure KeyFaults where
  /-- Looking up by keys, as for their views. -/
  lookup : Option Error := none
  /-- Telling the names of keys. -/
  name : Option Error := none
  /-- Telling the defaults of keys. -/
  default : Option Error := none
  /-- Describing keys. -/
  description : Option Error := none
  deriving DecidableEq

/-- An enumeration of keys with the defaults they declare. -/
structure KeyType where
  name : Text
  members : List (Key × Option Text)
  /-- The names by whose places the keys are numbered. -/
  numbered : List Key := members.map Prod.fst
  faults : KeyFaults := {}
  deriving DecidableEq

namespace KeyType

/-- The keys in the order of their declaration. -/
def keys (t : KeyType) : List Key := t.members.map Prod.fst

/-- The number of a key, from one on. -/
def number (t : KeyType) (k : Key) : Nat := t.numbered.idxOf k + 1

/-- A key in words. -/
def describe (t : KeyType) (k : Key) : Text :=
  "<" ++ t.name ++ "." ++ k ++ ": " ++ Text.ofString (toString (t.number k)) ++ ">"

/-- The fault of telling the names and the defaults of all keys. -/
def tellingFault? (t : KeyType) : Option Error :=
  if t.members = [] then none else t.faults.default <|> t.faults.name

end KeyType

/-- A way between keys and property names. -/
structure Naming where
  type : KeyType
  separator : Text
  deriving DecidableEq

namespace Naming

/-- The naming with a point as separator. -/
def standard (type : KeyType) : Naming := ⟨type, "."⟩

/-- The property name of a key. -/
def nameOf (n : Naming) (k : Key) : Text := Text.replace "_" n.separator (Text.lower k)

/-- The key of a property name. -/
def keyOf (n : Naming) (name : Text) : Except Error Key :=
  let k := Text.replace n.separator "_" (Text.upper name)
  if k ∈ n.type.keys then .ok k else .error (.noKey n.type.name name)

/-- A naming in words. -/
def describe (n : Naming) : Text :=
  "EnumTranslator(" ++ n.type.name ++ ", separator=" ++ n.separator.quoted ++ ")"

/-- The declared defaults by property name. -/
def defaults (n : Naming) : Mapping Text Text :=
  Mapping.ofList (n.type.members.filterMap fun m => m.2.map (n.nameOf m.1, ·))

end Naming

end VersionedProperties
