import VersionedProperties.Key.Value
import VersionedProperties.Manager.Reading
import VersionedProperties.Storage.Command

/-!
# Commands on a manager

A run of a manager is a list of commands on it, on its store, on its listeners and on the files. A
subscription carries the script that the listener runs when it is called, so commands nest. Each
subscription adds a limit to the number of script runs; `Command.runs` is the sum of all limits in a
command.
-/

namespace VersionedProperties.Manager

/-- An operation on the property of a key. -/
inductive PropertyCommand where
  | get
  | raw
  | default
  | defaultRaw
  | boolean
  | integer
  | real
  | member (e : Enumeration)
  | isDefault
  | isModified
  | dependsOn (other : Key)
  | referenceAt (position : Int)
  | set (value : Option TypedValue)
  | save (value : Option TypedValue)
  | reset
  | undo
  | redo
  | canUndo
  | canRedo
  /-- An operation that is given something unreadable. It fails and does nothing. -/
  | invalid (e : Error)

/-- A question about a view. -/
inductive ViewQuestion where
  | name
  | key
  /-- Whether the view belongs to the manager. -/
  | owner
  | description

/-- An operation on a manager. -/
inductive Command where
  | load
  | reload
  | save
  /-- A reload that is scheduled; its event is fired when it is done. -/
  | scheduleReload
  /-- A save that is scheduled; its event is fired when it is done. -/
  | scheduleSave
  | close
  | property (key : Key) (c : PropertyCommand)
  | resetAll
  | isModified
  | keySet
  | properties
  | autoTrim
  | setAutoTrim (b : Bool)
  | savingDefaults
  | setSavingDefaults (b : Bool)
  | comment
  | setComment (comment : Option Text)
  | path
  | format
  | evaluator
  /-- A value set in the store itself, without load and event. -/
  | storeSet (name : Text) (value : Option Text)
  /-- A default made current in the store itself, without load and event. -/
  | storeReset (name : Text)
  | storeHistory (name : Text)
  /-- An operation through the view of a key. -/
  | view (key : Key) (c : PropertyCommand)
  | askView (key : Key) (question : ViewQuestion)
  | sameView (first second : Key)
  /-- A listener subscribed, to all events or to the view of a key. What it does is settled when it
  is first named: it runs the script as often as the limit allows, and only at events of a kind with
  the given name if there is one. -/
  | listen (listener : Text) (place : Option Key) (script : List Command) (limit : Int)
      (only : Option Text)
  | unlisten (listener : Text) (place : Option Key)
  /-- Whether the workers of the caller take work. -/
  | externalUsable
  | disk (c : Disk.Command)
  /-- An error raised by a listener. -/
  | raise (message : Text)

/-- What an operation answers. -/
inductive Answer where
  | nothing
  | flag (b : Bool)
  | value (t : Option Text)
  | integer (n : Int)
  | real (x : Binary64)
  | member (name : Text)
  | reference (r : Option Reference)
  | keys (keys : List Key)
  | values (m : Mapping Text Text)
  | history (h : Option (History Text))
  | format (f : Format)
  | evaluator (e : Evaluator)
  | disk (a : Disk.Answer)

mutual

/-- The number of script runs that the subscriptions in a command allow. -/
def Command.runs : Command → Nat
  | .listen _ _ script limit _ => limit.toNat + runsOfAll script
  | _ => 0

/-- The number of script runs that the subscriptions in a script allow. -/
def runsOfAll : List Command → Nat
  | [] => 0
  | c :: rest => c.runs + runsOfAll rest

end

end VersionedProperties.Manager
