import VersionedProperties.Key.Draft

/-!
# Enumerations

An enumeration is declared by the names of its members. A value names a member in any letter case,
with blanks around it.
-/

namespace VersionedProperties

/-- An enumeration that values can be members of. -/
structure Enumeration where
  name : Text
  members : List Text
  deriving DecidableEq

namespace Enumeration

/-- The enumeration that names declare. -/
def declare (name : Text) (names : List Text) : Except Error Enumeration :=
  match Draft.ofNames name names with
  | .error e => .error (.enumeration e)
  | .ok d => .ok ⟨name, d.members⟩

/-- The member that a value names, in any letter case. -/
def parse (e : Enumeration) (value : Text) : Except Error Text :=
  let name := Text.upper (Text.trim value)
  if name ∈ e.members then .ok name else .error (.notMember value e.name)

end Enumeration

/-- The member of a name, as a value. -/
def TypedValue.ofMemberName (name : Text) : Except Error TypedValue :=
  match Enumeration.declare TypedValue.enumeration [name] with
  | .error e => .error e
  | .ok e => if name ∈ e.members then .ok (.member name) else .error (.undeclared name)

end VersionedProperties
