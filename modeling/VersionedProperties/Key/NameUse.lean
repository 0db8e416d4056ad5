import VersionedProperties.Text.Basic

/-!
# What declared names stand for

A name that is declared in an enumeration is a member, unless its underscores say otherwise. A name
in two underscores at each end, or with the private prefix of the enumeration, belongs to the
enumeration itself. One in one underscore at each end is reserved, save for a few: two of these rule
which of the other names become members and in which order they have to come.
-/

namespace VersionedProperties

/-- What a declared name stands for. -/
inductive NameUse where
  | member
  /-- A part of the enumeration beside its members. -/
  | attribute
  /-- The names that are left out. -/
  | exclusion
  /-- The names of the members in order. -/
  | order
  | reserved
  deriving DecidableEq

namespace NameUse

/-- The underscore. -/
def underscore : CodePoint := .scalar '_'

/-- Whether a name is the private prefix of an enumeration followed by more, and does not end in two
underscores. -/
def isPrivate (enumeration name : Text) : Bool :=
  match Text.after? ("_" ++ enumeration ++ "__") name with
  | some (_ :: _) => (Text.after? "__" name.reverse).isNone
  | _ => false

/-- Whether a name is a word with `n` underscores, and no more, at each end. -/
def isFramed (n : Nat) (name : Text) : Bool :=
  2 * n < name.length &&
    (name.takeWhile (· = underscore)).length = n &&
    (name.reverse.takeWhile (· = underscore)).length = n

/-- The name that stands for a name inside of an enumeration: one with two underscores in front, but
not at the end, is made private. -/
def privateName (enumeration name : Text) : Text :=
  let stem := enumeration.dropWhile (· = underscore)
  if (Text.after? "__" name).isNone ∨ (Text.after? "__" name.reverse).isSome ∨ stem = [] then name
  else "_" ++ stem ++ name

/-- The name under which other names are left out. -/
def exclusionName : Text := "_ignore_"

/-- The name under which the order of the members is given. -/
def orderName : Text := "_order_"

/-- Another spelling of `orderName`. -/
def orderAlias : Text := "__order__"

/-- The names in one underscore at each end that enumerations themselves can have. -/
def attributeNames : List Text :=
  ["_generate_next_value_", "_numeric_repr_", "_missing_", "_iter_member_",
    "_iter_member_by_value_", "_iter_member_by_def_"]

/-- What a name stands for in an enumeration. -/
def ofName (enumeration name : Text) : NameUse :=
  if isPrivate enumeration name then .attribute
  else if name = exclusionName then .exclusion
  else if name = orderName ∨ name = orderAlias then .order
  else if isFramed 1 name then if name ∈ attributeNames then .attribute else .reserved
  else if isFramed 2 name then .attribute
  else .member

end NameUse

end VersionedProperties
