import VersionedProperties.Error
import VersionedProperties.Event.Registry
import VersionedProperties.Mapping

/-!
# Sessions of a registry

In a session, commands are run on a registry whose listeners react: a called listener is noted in
the log and runs its script, as often as its limit allows. Scripts may subscribe and unsubscribe,
fire events and raise errors, so calls nest. Each run of a script uses up one of finitely many, and
the sum of the limits bounds how deep calls can nest.
-/

namespace VersionedProperties.Registry

/-- An operation in a session. -/
inductive Command where
  | add (listener : Text)
  | remove (listener : Text)
  | contains (listener : Text)
  | fire (kind : Text) (key : Option Text)
  | raise (message : Text)
  deriving DecidableEq

/-- What an operation answers. -/
inductive Answer where
  | nothing
  | flag (b : Bool)
  deriving DecidableEq

/-- What a listener does when it is called, and how often. -/
structure Reaction where
  script : List Command
  limit : Int
  deriving DecidableEq

/-- A call of a listener. -/
structure Call where
  listener : Text
  event : Event
  deriving DecidableEq

/-- A registry with the number of script runs of each listener and the log of calls. -/
structure Session where
  registry : Registry Text := {}
  runs : Mapping Text Nat := Mapping.empty
  log : List Call := []
  deriving DecidableEq

namespace Session

/-- The number of script runs of a listener so far. -/
def runsOf (s : Session) (listener : Text) : Nat := (s.runs.find? listener).getD 0

/-- The session after a call has been noted. -/
def note (s : Session) (listener : Text) (event : Event) : Session :=
  { s with log := s.log ++ [⟨listener, event⟩] }

/-- The session after a script run has been counted. -/
def countRun (s : Session) (listener : Text) : Session :=
  { s with runs := s.runs.insert listener (s.runsOf listener + 1) }

end Session

/-- How a listener is called with an event. -/
abbrev Calling := Text → Event → Session → Except Error Unit × Session

/-- What is done with a listener, which must be declared. -/
def withListener (reactions : Mapping Text Reaction) (s : Session) (listener : Text)
    (f : Session → Except Error Answer × Session) : Except Error Answer × Session :=
  if reactions.contains listener then f s else (.error (.undeclared listener), s)

/-- A command performed, with the reactions of the listeners and a way to call them. -/
def perform (reactions : Mapping Text Reaction) (call : Calling) (s : Session) :
    Command → Except Error Answer × Session
  | .add listener => withListener reactions s listener fun s =>
    (.ok .nothing, { s with registry := s.registry.add listener })
  | .remove listener => withListener reactions s listener fun s =>
    (.ok .nothing, { s with registry := s.registry.remove listener })
  | .contains listener => withListener reactions s listener fun s =>
    (.ok (.flag (s.registry.contains listener)), s)
  | .fire kind key =>
    match EventKind.ofName? kind with
    | none => (.error (.unknownEvent kind), s)
    | some kind => (.ok .nothing, s.registry.fire (fun l => call l ⟨kind, key⟩) s)
  | .raise message => (.error (.raised message), s)

/-- A script performed up to the first error. -/
def performScript (reactions : Mapping Text Reaction) (call : Calling) :
    List Command → Session → Except Error Unit × Session
  | [], s => (.ok (), s)
  | c :: rest, s =>
    match perform reactions call s c with
    | (.error e, s) => (.error e, s)
    | (.ok _, s) => performScript reactions call rest s

/-- A listener called, where calls may nest to a depth. -/
def callWithin (reactions : Mapping Text Reaction) : (depth : Nat) → Calling
  | 0 => fun listener event s => (.ok (), s.note listener event)
  | depth + 1 => fun listener event s =>
    let s := s.note listener event
    match reactions.find? listener with
    | none => (.ok (), s)
    | some r =>
      if s.runsOf listener < r.limit then
        performScript reactions (callWithin reactions depth) r.script (s.countRun listener)
      else (.ok (), s)

/-- The sum of the limits, which bounds the number of script runs. -/
def totalRuns (reactions : Mapping Text Reaction) : Nat :=
  reactions.entries.foldl (fun n e => n + e.2.limit.toNat) 0

/-- A listener called. Scripts run at most `totalRuns` times, and a call without a run nests no
further. -/
def call (reactions : Mapping Text Reaction) : Calling :=
  callWithin reactions (totalRuns reactions + 1)

/-- A command performed in a session whose listeners have the given reactions. -/
def Session.perform (reactions : Mapping Text Reaction) (s : Session) (c : Command) :
    Except Error Answer × Session :=
  Registry.perform reactions (call reactions) s c

end VersionedProperties.Registry
