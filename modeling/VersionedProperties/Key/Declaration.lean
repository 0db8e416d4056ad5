import VersionedProperties.Key.Enumeration
import VersionedProperties.Key.Naming

/-!
# Declarations of keys

The keys of an enumeration are declared one after the other, each with a default or without. The
keys are numbered by their places. In a plain enumeration no key has a default, and the names that
are no keys count too. The attributes declared beside the keys tell which uses of keys fail.
-/

namespace VersionedProperties.KeyType

/-- The faults of keys with attributes. -/
def faultsOf (a : Attributes) : KeyFaults where
  lookup := a.hashFault?.map .enumeration
  name := a.nameFault?.map .enumeration
  default := a.defaultFault?.map .enumeration
  description := a.descriptionFault?.map .enumeration

/-- The enumeration of keys that declarations make. -/
def declare (name : Text) (plain : Bool) (declarations : List (Key × Option TypedValue)) :
    Except Error KeyType :=
  let names := declarations.map Prod.fst
  if plain then
    match Draft.ofNames name names with
    | .error e => .error (.enumeration e)
    | .ok d => .ok ⟨name, d.members.map (·, none), names, faultsOf (d.attributes name)⟩
  else
    match Draft.ofDeclarations name .byMember declarations with
    | .error e => .error (.enumeration e)
    | .ok d =>
      let default (k : Key) : Option Text := ((d.values.find? k).bind id).map TypedValue.declared
      .ok ⟨name, d.members.map fun k => (k, default k), d.members, faultsOf (d.attributes name)⟩

end VersionedProperties.KeyType
