import VersionedProperties.Manager.Command

/-!
# Sessions of a manager

In a session a manager works on a disk, and its listeners react to events. The operations of a
session are given a way to call listeners; each changes the manager first and then fires its event,
if there is one. Loading and saving are work for the workers. Whoever waits for that work gets
errors of other kinds wrapped, and the event is fired to him; work that is scheduled fires its event
in a callback, and inside a callback work is done on the spot, whether the workers are open or not.
-/

namespace VersionedProperties.Manager

/-- What a listener does when it is called. -/
structure Reaction where
  script : List Command
  /-- The most runs of the script. -/
  limit : Int
  /-- The name of the kind of event that it reacts to; every kind, if there is none. -/
  only : Option Text

/-- A call of a listener, with the answers to its script if it ran one. -/
structure Call where
  listener : Text
  event : Event
  answers : Option (List (Except Error Answer))

/-- A manager at work on a disk. -/
structure Session where
  manager : Manager
  disk : Disk
  /-- Whether a callback of scheduled work is running. -/
  inCallback : Bool := false
  reactions : Mapping Text Reaction := Mapping.empty
  /-- The number of script runs of each listener so far. -/
  runs : Mapping Text Nat := Mapping.empty
  /-- The calls of listeners in the order in which they began. -/
  log : List Call := []

/-- How a listener is called with an event. -/
abbrev Calling := Text → Event → Session → Except Error Unit × Session

namespace Session

/-- The session with another store. -/
def withStore (s : Session) (store : Store) : Session :=
  { s with manager := { s.manager with store := store } }

/-- The session in which a listener has a reaction, unless it has one already. -/
def withReaction (s : Session) (listener : Text) (r : Reaction) : Session :=
  if s.reactions.contains listener then s
  else { s with reactions := s.reactions.insert listener r }

/-- The outcome of a computation that touches the manager only. -/
def withManager {α : Type} (s : Session) (r : α × Manager) : α × Session :=
  (r.1, { s with manager := r.2 })

/-- An event handed to a subscriber. A view without listeners does not ask whether the event
concerns it. -/
def deliver (call : Calling) (event : Event) : Subscriber → Session → Except Error Unit × Session
  | .listener name, s => call name event s
  | .view k, s =>
    let listeners := s.manager.listenersOf k
    if listeners.members.isEmpty || !s.manager.isRelevant k event then (.ok (), s)
    else (.ok (), listeners.fire (fun name => call name event) s)

/-- An event fired. -/
def fire (call : Calling) (s : Session) (event : Event) : Session :=
  s.manager.subscribers.fire (deliver call event) s

/-- The session with another store, and with an event fired if anything changed. -/
def settle (call : Calling) (s : Session) (changed : Bool) (store : Store) (event : Event) :
    Session :=
  if changed then (s.withStore store).fire call event else s.withStore store

/-- The file read and its values put in place of those of the store. -/
def takeFile (s : Session) : Except Error Unit × Session :=
  match s.disk.tree.readMapping s.manager.path s.manager.format with
  | .error e => (.error e, s)
  | .ok values => (.ok (), s.withStore (s.manager.store.load values))

/-- The values of the store written to the file. -/
def writeFile (s : Session) : Except Error Unit × Session :=
  let m := s.manager
  let (outcome, store, disk) := m.store.save fun values store =>
    let (r, disk) := s.disk.writeMapping m.path m.format values m.comment
    (r, store, disk)
  (outcome.map fun _ => (), { s.withStore store with disk := disk })

/-- Whether work is done: by the workers, or on the spot inside a callback. -/
def takesWork (s : Session) : Bool := s.inCallback || s.manager.workers.areOpen

/-- An error met during an action on the file, as the one who waits for the action gets it. -/
def wrap (s : Session) (action : FileAction) (e : Error) : Error :=
  if e.isPropertyError then e else .failed action s.manager.path.toText e

/-- Work that is waited for, and its event. -/
def await (call : Calling) (action : FileAction) (kind : EventKind)
    (work : Session → Except Error Unit × Session) (s : Session) : Except Error Unit × Session :=
  if s.takesWork then
    match work s with
    | (.ok (), s) => (.ok (), s.fire call ⟨kind, none⟩)
    | (.error e, s) => (.error (s.wrap action e), s)
  else (.error .workersClosed, s)

/-- Work that is scheduled, followed until its callback has fired the event. -/
def schedule (call : Calling) (kind : EventKind) (work : Session → Except Error Unit × Session)
    (s : Session) : Except Error Unit × Session :=
  if s.takesWork then
    match work s with
    | (.ok (), s) =>
      (.ok (), { { s with inCallback := true }.fire call ⟨kind, none⟩ with
        inCallback := s.inCallback })
    | (.error e, s) => (.error e, s)
  else (.error .workersClosed, s)

/-- The file loaded, unless a load has completed. -/
def load (call : Calling) (s : Session) : Except Error Unit × Session :=
  if s.manager.store.loaded then (.ok (), s) else s.await call .loading .loaded takeFile

/-- The file loaded if this is done at the first access. -/
def ensureLoaded (call : Calling) (s : Session) : Except Error Unit × Session :=
  if s.manager.store.loaded then (.ok (), s)
  else if s.manager.autoLoad then s.load call
  else (.error (.notLoaded s.manager.path.toText), s)

/-- An operation on a store that has been loaded. -/
def onceLoaded {α : Type} (call : Calling) (operation : Session → Except Error α × Session)
    (s : Session) : Except Error α × Session :=
  match s.ensureLoaded call with
  | (.ok (), s) => operation s
  | (.error e, s) => (.error e, s)

/-- The file read again, waited for. -/
def reload (call : Calling) : Session → Except Error Unit × Session :=
  await call .reloading .loaded takeFile

/-- The file read again, scheduled. -/
def scheduleReload (call : Calling) : Session → Except Error Unit × Session :=
  schedule call .loaded takeFile

/-- The values saved, waited for. -/
def save (call : Calling) : Session → Except Error Unit × Session :=
  onceLoaded call (await call .saving .saved writeFile)

/-- The values saved, scheduled. -/
def scheduleSave (call : Calling) : Session → Except Error Unit × Session :=
  onceLoaded call (schedule call .saved writeFile)

/-- A value set for a key. -/
def set (call : Calling) (k : Key) (value : Option TypedValue) (s : Session) :
    Except Error Bool × Session :=
  match TypedValue.stored? value with
  | .error e => (.error e, s)
  | .ok text =>
    s.onceLoaded call fun s =>
      let (changed, store) := s.manager.store.set (s.manager.nameOf k) text
      (.ok changed, s.settle call changed store ⟨.changed, some k⟩)

/-- A value set for a key and all values saved. -/
def saveProperty (call : Calling) (k : Key) (value : Option TypedValue) (s : Session) :
    Except Error Unit × Session :=
  match s.set call k value with
  | (.ok _, s) => s.save call
  | (.error e, s) => (.error e, s)

/-- The default of a key made current. -/
def reset (call : Calling) (k : Key) : Session → Except Error Bool × Session :=
  onceLoaded call fun s =>
    let (changed, store) := s.manager.store.resetToDefault (s.manager.nameOf k)
    (.ok changed, s.settle call changed store ⟨.reset, some k⟩)

/-- Every default made current. -/
def resetAll (call : Calling) : Session → Except Error Bool × Session :=
  onceLoaded call fun s =>
    let (changed, store) := s.manager.store.resetAll
    (.ok changed, s.settle call changed store ⟨.reset, none⟩)

/-- A step in the history of a key. The answer is the value after it. -/
def travel (call : Calling) (k : Key) (step : Store → Text → Option Text × Store) :
    Session → Except Error (Option Text) × Session :=
  onceLoaded call fun s =>
    let name := s.manager.nameOf k
    let before := s.manager.store.get name
    let (after, store) := step s.manager.store name
    (.ok after, s.settle call (after ≠ before) store ⟨.changed, some k⟩)

/-- One value back for a key. -/
def undo (call : Calling) (k : Key) : Session → Except Error (Option Text) × Session :=
  travel call k Store.undo

/-- One value forward for a key. -/
def redo (call : Calling) (k : Key) : Session → Except Error (Option Text) × Session :=
  travel call k Store.redo

/-- A question to the manager about values that have been loaded. -/
def query (call : Calling) {α : Type} (f : Manager → Except Error α × Manager) :
    Session → Except Error α × Session :=
  onceLoaded call fun s => s.withManager (f s.manager)

end Session

end VersionedProperties.Manager
