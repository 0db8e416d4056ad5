import VersionedProperties.Key.Value
import VersionedProperties.Mapping

/-!
# Attributes of enumerations

Beside its members an enumeration has attributes: names with values, and possibly one slot, which no
member fills. Members are made and used through attributes of fixed names. Where one of these names
is given a value, or is the name of the slot, what needs it fails; the functions here say how.
-/

namespace VersionedProperties

/-- What an enumeration has under a name. -/
inductive Attribute where
  | value (v : Option TypedValue)
  /-- A place that no member fills. -/
  | slot
  deriving DecidableEq

/-- The attributes of an enumeration. -/
structure Attributes where
  /-- The name of the enumeration. -/
  owner : Text
  values : Mapping Text (Option TypedValue) := .empty
  slot : Option Text := none
  deriving DecidableEq

namespace Attributes

/-- The attribute of a name. -/
def find? (a : Attributes) (name : Text) : Option Attribute :=
  match a.values.find? name with
  | some v => some (.value v)
  | none => if a.slot = some name then some .slot else none

/-- The fault of a value in place of an operation. -/
def notOperation (v : Option TypedValue) : EnumerationError :=
  .notOperation (TypedValue.kindName v)

/-- The greatest number of bytes of the name of an enumeration that a message shows. -/
def shownSize : Nat := 200

/-- The name of the enumeration as messages show it. -/
def shownOwner (a : Attributes) : Text := Utf8.fitting shownSize a.owner

/-- The fault of a name that a member does not have. -/
def noAttribute (a : Attributes) (name : Text) : EnumerationError := .noAttribute a.shownOwner name

/-- The fault of a look-up of a name that a member does not have. The attribute `__getattr__` is
asked first. -/
def notFound (a : Attributes) (name : Text) : EnumerationError :=
  match a.values.find? "__getattr__" with
  | some v => notOperation v
  | none => a.noAttribute name

/-- The fault of a look-up of a name, if it is the slot. -/
def slotFault? (a : Attributes) (name : Text) : Option EnumerationError :=
  if a.slot = some name then some (a.notFound name) else none

/-- The fault of the use of an operation. -/
def operationFault? (a : Attributes) (name : Text) : Option EnumerationError :=
  match a.find? name with
  | none => none
  | some (.value v) => some (notOperation v)
  | some .slot => some (a.notFound name)

/-- The fault of making a member, which is absent if the operation is. -/
def makingFault? (a : Attributes) : Option EnumerationError :=
  match a.values.find? "__new__" with
  | some (some v) => some (notOperation (some v))
  | _ => none

/-- The fault of setting what a member holds. -/
def settingFault? (a : Attributes) : Option EnumerationError :=
  match a.find? "__setattr__" with
  | none => none
  | some (.value v) => some (notOperation v)
  | some .slot => some (a.noAttribute "__setattr__")

/-- The fault of asking for what a member may hold. -/
def askingFault? (a : Attributes) : Option EnumerationError :=
  (a.values.find? "__getattr__").map notOperation

/-- The fault of looking up what a member holds. -/
def readingFault? (a : Attributes) : Option EnumerationError := a.operationFault? "__getattribute__"

/-- The fault of completing a member. -/
def completionFault? (a : Attributes) : Option EnumerationError := a.operationFault? "__init__"

/-- The fault of looking up by members. Members that are compared otherwise than usual cannot be
looked up by unless they say how. -/
def hashFault? (a : Attributes) : Option EnumerationError :=
  match a.find? "__hash__" with
  | some (.value (some v)) => some (notOperation (some v))
  | some _ => some (.notHashable a.shownOwner)
  | none => if (a.find? "__eq__").isSome then some (.notHashable a.shownOwner) else none

/-- The fault of telling the name of a member. -/
def nameFault? (a : Attributes) : Option EnumerationError := a.slotFault? "name"

/-- The fault of telling the default of a member. -/
def defaultFault? (a : Attributes) : Option EnumerationError := a.slotFault? "default_value"

/-- The fault of describing a member. -/
def descriptionFault? (a : Attributes) : Option EnumerationError :=
  match a.values.find? "__repr__", a.find? "__class__" with
  | some v, _ => some (notOperation v)
  | none, none => none
  | none, some .slot => some (a.notFound "__class__")
  | none, some (.value (some (.member _))) => some (.noAttribute TypedValue.enumeration "__name__")
  | none, some (.value v) => some (.noAttribute (TypedValue.kindName v) "_value_repr_")

end Attributes

end VersionedProperties
