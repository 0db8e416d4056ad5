import VersionedProperties.Text.Basic

/-!
# Events

An event tells what has happened, to the property of one key or to all properties.
-/

namespace VersionedProperties

/-- What has happened. -/
inductive EventKind where
  | loaded
  | saved
  | changed
  | reset
  deriving DecidableEq

namespace EventKind

/-- All kinds. -/
def all : List EventKind := [.loaded, .saved, .changed, .reset]

/-- The name of a kind. -/
def name : EventKind → Text
  | .loaded => "loaded"
  | .saved => "saved"
  | .changed => "changed"
  | .reset => "reset"

/-- The kind of a name. -/
def ofName? (name : Text) : Option EventKind := all.find? (·.name = name)

end EventKind

/-- Something that happened to the property of a key, or without a key to all properties. -/
structure Event where
  kind : EventKind
  key : Option Text
  deriving DecidableEq

/-- Whether an event concerns all properties. -/
def Event.isGlobal (e : Event) : Bool := e.key.isNone

end VersionedProperties
