import VersionedProperties.Manager.Session

/-!
# Runs of a manager

A run performs commands one after the other. Listeners that react run scripts of commands
themselves, so that calls nest; the limits of the subscriptions bound how deep. Each step of a run
shows its answer, the calls of listeners in the order in which they began, and the store.
-/

namespace VersionedProperties.Manager

/-- An outcome as an answer, beside the session. -/
def answered {α : Type} (f : α → Answer) (r : Except Error α × Session) :
    Except Error Answer × Session :=
  (r.1.map f, r.2)

/-- What is done with a key, which must be declared. -/
def withKey (s : Session) (k : Key) (f : Session → Except Error Answer × Session) :
    Except Error Answer × Session :=
  if k ∈ s.manager.naming.type.keys then f s else (.error (.undeclared k), s)

/-- What is done through the view of a key, which comes into being if it is asked for the first
time. -/
def throughView (s : Session) (k : Key) (f : Session → Except Error Answer × Session) :
    Except Error Answer × Session :=
  withKey s k fun s =>
    match s.manager.naming.type.faults.lookup with
    | some e => (.error e, s)
    | none => f { s with manager := s.manager.withView k }

/-- What is done where listeners subscribe: at the manager or at the view of a key. -/
def atPlace (s : Session) (place : Option Key) (f : Session → Except Error Answer × Session) :
    Except Error Answer × Session :=
  match place with
  | none => f s
  | some k => throughView s k f

/-- An operation on the property of a key. -/
def performProperty (call : Calling) (k : Key) (s : Session) :
    PropertyCommand → Except Error Answer × Session
  | .get => answered .value (s.query call fun m => m.get k)
  | .raw => answered .value (s.query call fun m => (.ok (m.raw k), m))
  | .default => answered .value (s.query call fun m => (m.defaultValue k, m))
  | .defaultRaw => (.ok (.value (s.manager.defaultRaw k)), s)
  | .boolean => answered .flag (s.query call fun m => m.getBoolean k)
  | .integer => answered .integer (s.query call fun m => m.getInteger k)
  | .real => answered .real (s.query call fun m => m.getReal k)
  | .member e => answered .member (s.query call fun m => m.getMember k e)
  | .isDefault => answered .flag (s.query call fun m => (m.isDefault k, m))
  | .isModified => answered .flag (s.query call fun m => (.ok (m.store.isModified (m.nameOf k)), m))
  | .dependsOn other => withKey s other fun s =>
    answered .flag (s.query call fun m => (.ok (m.dependsOn k other), m))
  | .referenceAt position =>
    answered .reference (s.query call fun m => (.ok (m.referenceAt k position), m))
  | .set value => answered .flag (s.set call k value)
  | .save value => answered (fun _ => .nothing) (s.saveProperty call k value)
  | .reset => answered .flag (s.reset call k)
  | .undo => answered .value (s.undo call k)
  | .redo => answered .value (s.redo call k)
  | .canUndo => answered .flag (s.query call fun m => (.ok (m.store.canUndo (m.nameOf k)), m))
  | .canRedo => answered .flag (s.query call fun m => (.ok (m.store.canRedo (m.nameOf k)), m))
  | .invalid e => (.error e, s)

/-- An operation on the property of a key whose name cannot be told, with the fault. What comes
before the name is needed is done. -/
def failProperty (call : Calling) (fault : Error) (s : Session) :
    PropertyCommand → Except Error Answer × Session
  | .defaultRaw => (.error fault, s)
  | .invalid e => (.error e, s)
  | .set value | .save value =>
    match TypedValue.stored? value with
    | .error e => (.error e, s)
    | .ok _ => s.query call fun m => (.error fault, m)
  | .dependsOn other => withKey s other fun s => s.query call fun m => (.error fault, m)
  | _ => s.query call fun m => (.error fault, m)

/-- An operation on the property of a key, if the name of the key can be told. -/
def useProperty (call : Calling) (k : Key) (s : Session) (c : PropertyCommand) :
    Except Error Answer × Session :=
  match s.manager.naming.type.faults.name with
  | some fault => failProperty call fault s c
  | none => performProperty call k s c

/-- The answer to a question about the view of a key. -/
def answerView (m : Manager) (k : Key) (question : ViewQuestion) : Except Error Answer :=
  let faults := m.naming.type.faults
  let orFault (fault : Option Error) (a : Answer) : Except Error Answer :=
    match fault with
    | some e => .error e
    | none => .ok a
  match question with
  | .name => orFault faults.name (.value (some (m.nameOf k)))
  | .key => orFault faults.name (.value (some k))
  | .owner => .ok (.flag true)
  | .description => orFault faults.description (.value (some (m.describeView k)))

/-- A command performed, with a way to call listeners: its answer, or an error, and the session
after it. -/
def perform (call : Calling) (s : Session) : Command → Except Error Answer × Session
  | .load => answered (fun _ => .nothing) (s.load call)
  | .reload => answered (fun _ => .nothing) (s.reload call)
  | .save => answered (fun _ => .nothing) (s.save call)
  | .scheduleReload => answered (fun _ => .flag true) (s.scheduleReload call)
  | .scheduleSave => answered (fun _ => .flag true) (s.scheduleSave call)
  | .close =>
    (.ok .nothing, { s with manager := { s.manager with workers := s.manager.workers.close } })
  | .property k c => withKey s k fun s => useProperty call k s c
  | .resetAll => answered .flag (s.resetAll call)
  | .isModified => answered .flag (s.query call fun m => (.ok m.store.anyModified, m))
  | .keySet => answered .keys (s.query call fun m => m.keySet)
  | .properties => answered .values (s.query call fun m => (.ok (m.store.snapshot true), m))
  | .autoTrim => (.ok (.flag s.manager.autoTrim), s)
  | .setAutoTrim b => (.ok .nothing, { s with manager := { s.manager with autoTrim := b } })
  | .savingDefaults => (.ok (.flag s.manager.store.savingDefaults), s)
  | .setSavingDefaults b =>
    (.ok .nothing, s.withStore { s.manager.store with savingDefaults := b })
  | .comment => (.ok (.value s.manager.comment), s)
  | .setComment comment =>
    (.ok .nothing, { s with manager := { s.manager with comment := comment } })
  | .path => (.ok (.value (some s.manager.path.toText)), s)
  | .format => (.ok (.format s.manager.format), s)
  | .evaluator => (.ok (.evaluator s.manager.evaluator), s)
  | .storeSet name value =>
    let (changed, store) := s.manager.store.set? name value
    (changed.map .flag, s.withStore store)
  | .storeReset name =>
    let (changed, store) := s.manager.store.resetToDefault name
    (.ok (.flag changed), s.withStore store)
  | .storeHistory name => (.ok (.history (s.manager.store.history? name)), s)
  | .view k c => throughView s k fun s => useProperty call k s c
  | .askView k question => throughView s k fun s => (answerView s.manager k question, s)
  | .sameView first second => throughView s first fun s => throughView s second fun s =>
    (.ok (.flag (first = second)), s)
  | .listen listener place script limit only =>
    atPlace (s.withReaction listener ⟨script, limit, only⟩) place fun s =>
      (.ok .nothing, { s with manager := s.manager.addListener listener place })
  | .unlisten listener place => atPlace s place fun s =>
    if s.reactions.contains listener then
      (.ok .nothing, { s with manager := s.manager.removeListener listener place })
    else (.error (.undeclared listener), s)
  | .externalUsable => (.ok (.flag (s.manager.workers = .external)), s)
  | .disk c =>
    let (answer, disk) := s.disk.perform c
    (answer.map .disk, { s with disk := disk })
  | .raise message => (.error (.raised message), s)

/-- A script performed: the answers, and an error if the script raises one. Other errors are
answers, and the script goes on. -/
def performScript (call : Calling) :
    List Command → Session → List (Except Error Answer) × Except Error Unit × Session
  | [], s => ([], .ok (), s)
  | .raise message :: _, s => ([], .error (.raised message), s)
  | c :: rest, s =>
    let (answer, s) := perform call s c
    let (answers, outcome, s) := performScript call rest s
    (answer :: answers, outcome, s)

namespace Session

/-- The number of script runs of a listener so far. -/
def runsOf (s : Session) (listener : Text) : Nat := (s.runs.find? listener).getD 0

/-- The session after a call has been noted. -/
def note (s : Session) (call : Call) : Session := { s with log := s.log ++ [call] }

/-- The script that a listener runs at an event, if it runs one. -/
def script? (s : Session) (listener : Text) (event : Event) : Option (List Command) :=
  match s.reactions.find? listener with
  | none => none
  | some r =>
    if s.runsOf listener < r.limit ∧ (r.only = none ∨ r.only = some event.kind.name) then
      some r.script
    else none

/-- The session in which a script of a listener begins: the run is counted, nothing is noted yet. -/
def beginRun (s : Session) (listener : Text) : Session :=
  { s with runs := s.runs.insert listener (s.runsOf listener + 1), log := [] }

/-- The number of script runs that the subscriptions so far allow, those in the scripts included. -/
def allowedRuns (s : Session) : Nat :=
  s.reactions.entries.foldl (fun n e => n + (e.2.limit.toNat + runsOfAll e.2.script)) 0

end Session

/-- A listener called, where calls may nest to a depth. What its script notes follows its own. -/
def callWithin : (depth : Nat) → Calling
  | 0 => fun listener event s => (.ok (), s.note ⟨listener, event, none⟩)
  | depth + 1 => fun listener event s =>
    match s.script? listener event with
    | none => (.ok (), s.note ⟨listener, event, none⟩)
    | some script =>
      let (answers, outcome, inner) := performScript (callWithin depth) script (s.beginRun listener)
      (outcome, { inner with log := s.log ++ ⟨listener, event, some answers⟩ :: inner.log })

namespace Session

/-- A command performed in a session whose listeners react. Each script run is allowed by a
subscription in the session or in the command, and a call without a run nests no further, so the
number of allowed runs bounds how deep calls nest. -/
def perform (s : Session) (c : Command) : Except Error Answer × Session :=
  Manager.perform (callWithin (s.allowedRuns + c.runs + 1)) s c

/-- What one step of a run shows: the answer, the calls of listeners, and the store after it. -/
structure Report where
  answer : Except Error Answer
  calls : List Call
  store : Store

/-- One step of a run. -/
def step (s : Session) (c : Command) : Report × Session :=
  let (answer, s) := { s with log := [] }.perform c
  (⟨answer, s.log, s.manager.store⟩, s)

/-- A run: commands performed one after the other. -/
def run (s : Session) : List Command → List Report × Session
  | [] => ([], s)
  | c :: rest =>
    let (report, s) := s.step c
    let (reports, s) := s.run rest
    (report :: reports, s)

end Session

end VersionedProperties.Manager
