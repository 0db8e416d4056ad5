import VersionedProperties.Cache.Keyed
import VersionedProperties.Cache.Single
import VersionedProperties.Event.Registry
import VersionedProperties.Key.Naming
import VersionedProperties.Options
import VersionedProperties.Reference.Evaluation
import VersionedProperties.Storage.Backing
import VersionedProperties.Store.Basic

/-!
# Managers

A manager gives access by key to a store that is kept in a file. It has subscribers: listeners, and
the views of single keys, each with listeners of its own. The state of a manager is all that is
here; the file itself, and what listeners do, are outside.
-/

namespace VersionedProperties

/-- The workers that read and write files. -/
inductive Workers where
  /-- Workers that belong to the manager, which closes them. -/
  | own (closed : Bool)
  /-- Workers of the caller, which stay open. -/
  | external
  deriving DecidableEq

/-- Whether workers take work. -/
def Workers.areOpen : Workers → Bool
  | .own closed => !closed
  | .external => true

/-- Workers after the manager has been closed. -/
def Workers.close : Workers → Workers
  | .own _ => .own true
  | .external => .external

/-- What a manager hands its events to. -/
inductive Subscriber where
  | listener (name : Text)
  | view (key : Key)
  deriving DecidableEq

/-- A store kept in a file, with access by key. -/
structure Manager where
  path : Path
  naming : Naming
  evaluator : Evaluator
  format : Format
  store : Store
  /-- Whether the file is loaded at the first access. -/
  autoLoad : Bool
  /-- Whether values are trimmed when they are read. -/
  autoTrim : Bool
  /-- The comment at the top of the file. -/
  comment : Option Text := none
  workers : Workers
  subscribers : Registry Subscriber := {}
  /-- The listeners of the views that have been asked for. -/
  views : Mapping Key (Registry Text) := Mapping.empty
  /-- Expanded values by name and trimming. -/
  valueCache : KeyedCache (Text × Bool) (Option Text)
  /-- The names known to the store. -/
  nameCache : SingleCache (List Text)

namespace Manager

/-- A manager of the file at a path, which is not read yet. -/
def create (o : Options) (path : Path) (defaults : Mapping Text Text) (naming : Naming)
    (evaluator : Option Evaluator) (format : Option Format) (workers : Workers) : Manager where
  path := path
  naming := naming
  evaluator := evaluator.getD (.ofOptions o none none)
  format := format.getD (.properties true)
  store := .create defaults o.savingDefaults o.historyLimit
  autoLoad := o.autoLoad
  autoTrim := o.autoTrim
  workers := workers
  valueCache := { enabled := !o.disableValueCache }
  nameCache := { enabled := !o.disableValueCache }

/-- A manager with defaults that may be absent. -/
def create? (o : Options) (path : Path) (defaults : Mapping Text (Option Text)) (naming : Naming)
    (evaluator : Option Evaluator) (format : Option Format) (workers : Workers) :
    Except Error Manager :=
  match defaults.present with
  | .ok defaults => .ok (create o path defaults naming evaluator format workers)
  | .error name => .error (.missingValue (.default name))

/-- A manager whose defaults are those in a file, or else those that the keys declare. Without a
format, the path tells it. -/
def open? (tree : FileTree) (o : Options) (path : Path) (naming : Naming)
    (evaluator : Option Evaluator) (defaultsPath : Option Path) (format : Option Format)
    (workers : Workers) : Except Error Manager :=
  let defaults :=
    match defaultsPath with
    | some p => tree.readDefaults p none
    | none =>
      match naming.type.tellingFault? with
      | some e => .error e
      | none => .ok naming.defaults
  defaults.map fun defaults =>
    create o path defaults naming evaluator (some (format.getD (.ofPath path))) workers

/-- The listeners of the view of a key. -/
def listenersOf (m : Manager) (k : Key) : Registry Text := (m.views.find? k).getD {}

/-- The manager with a view of a key, which subscribes when it is first asked for. -/
def withView (m : Manager) (k : Key) : Manager :=
  if m.views.contains k then m
  else { m with views := m.views.insert k {}, subscribers := m.subscribers.add (.view k) }

/-- The manager with a listener subscribed, to all events or to the view of a key. -/
def addListener (m : Manager) (name : Text) : Option Key → Manager
  | none => { m with subscribers := m.subscribers.add (.listener name) }
  | some k =>
    let m := m.withView k
    { m with views := m.views.insert k ((m.listenersOf k).add name) }

/-- The manager with a listener no longer subscribed, to all events or to the view of a key. -/
def removeListener (m : Manager) (name : Text) : Option Key → Manager
  | none => { m with subscribers := m.subscribers.remove (.listener name) }
  | some k =>
    let m := m.withView k
    { m with views := m.views.insert k ((m.listenersOf k).remove name) }

/-- A view in words. -/
def describeView (m : Manager) (k : Key) : Text :=
  "ManagedProperty(" ++ m.naming.type.describe k ++ ")"

end Manager

end VersionedProperties
