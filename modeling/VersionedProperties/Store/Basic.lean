import VersionedProperties.History
import VersionedProperties.Mapping

/-!
# The store

The store keeps a history for every tracked name, and the default values, which never change. Its
token counts changes: it moves on exactly when a current value or the set of tracked names may have
changed, so that whatever was computed under one token is still right while the token is the same.

Loading replaces the tracked values and keeps the histories of names that stay. Saving hands the
values that are to be kept to a sink; the sink may itself work on the store, and only when it
returns are all histories marked as saved.
-/

namespace VersionedProperties

/-- Properties with their defaults and histories. -/
structure Store where
  defaults : Mapping Text Text
  /-- Whether values equal to their default are saved. -/
  savingDefaults : Bool
  historyLimit : Int
  histories : Mapping Text (History Text)
  token : Nat
  /-- Whether a load has completed. -/
  loaded : Bool
  deriving DecidableEq

namespace Store

/-- A store that tracks the names with a default. -/
def create (defaults : Mapping Text Text) (savingDefaults : Bool) (historyLimit : Int) : Store where
  defaults := defaults
  savingDefaults := savingDefaults
  historyLimit := historyLimit
  histories := defaults.mapEntries fun _ value => .start historyLimit value
  token := 0
  loaded := false

/-- A store with defaults that may be absent. -/
def create? (defaults : Mapping Text (Option Text)) (savingDefaults : Bool) (historyLimit : Int) :
    Except Error Store :=
  match defaults.present with
  | .ok defaults => .ok (create defaults savingDefaults historyLimit)
  | .error name => .error (.missingValue (.default name))

/-- The history of a name. -/
def history? (s : Store) (name : Text) : Option (History Text) := s.histories.find? name

/-- The current value of a name. -/
def get (s : Store) (name : Text) : Option Text := (s.history? name).map History.current

/-- The default value of a name. -/
def getDefault (s : Store) (name : Text) : Option Text := s.defaults.find? name

/-- Whether a name is tracked. -/
def contains (s : Store) (name : Text) : Bool := s.histories.contains name

/-- The number of tracked names. -/
def size (s : Store) : Nat := s.histories.size

/-- Whether the current value of a name differs from its saved value. -/
def isModified (s : Store) (name : Text) : Bool :=
  match s.history? name with
  | some h => h.isModified
  | none => false

/-- Whether any current value differs from its saved value. -/
def anyModified (s : Store) : Bool := s.histories.entries.any fun e => e.2.isModified

/-- The names that are tracked or have a default. -/
def keyNames (s : Store) : List Text :=
  s.histories.keys ++ s.defaults.keys.filter (· ∉ s.histories.keys)

/-- The current values; those equal to their default can be left out. -/
def snapshot (s : Store) (includeDefaults : Bool) : Mapping Text Text :=
  s.histories.filterMap fun name h =>
    if !includeDefaults && s.getDefault name == some h.current then none else some h.current

/-- Whether a step back is possible for a name. -/
def canUndo (s : Store) (name : Text) : Bool :=
  match s.history? name with
  | some h => h.canUndo
  | none => false

/-- Whether a step forward is possible for a name. -/
def canRedo (s : Store) (name : Text) : Bool :=
  match s.history? name with
  | some h => h.canRedo
  | none => false

/-- The store after a change: other histories and the next token. -/
def changed (s : Store) (histories : Mapping Text (History Text)) : Store :=
  { s with histories := histories, token := s.token + 1 }

/-- A value made current. The answer tells whether anything changed; an unknown name starts a
history of its own. -/
def set (s : Store) (name value : Text) : Bool × Store :=
  match s.history? name with
  | none => (true, s.changed (s.histories.insert name (.start s.historyLimit value)))
  | some h =>
    if h.accepts value then (true, s.changed (s.histories.insert name (h.push value)))
    else (false, s)

/-- A value that may be absent made current. -/
def set? (s : Store) (name : Text) : Option Text → Except Error Bool × Store
  | some value => let (changed, s) := s.set name value; (.ok changed, s)
  | none => (.error (.missingValue (.assigned name)), s)

/-- The default made current. A name without default is no longer tracked. -/
def resetToDefault (s : Store) (name : Text) : Bool × Store :=
  match s.getDefault name with
  | some value => s.set name value
  | none => if s.contains name then (true, s.changed (s.histories.erase name)) else (false, s)

/-- Histories with those of missing names added, started at their defaults. -/
def withMissing (limit : Int) (defaults : List (Text × Text))
    (histories : Mapping Text (History Text)) : Mapping Text (History Text) :=
  defaults.foldl
    (fun hs e => if hs.contains e.1 then hs else hs.insert e.1 (.start limit e.2)) histories

/-- Every default made current, and every other name no longer tracked. -/
def resetAll (s : Store) : Bool × Store :=
  let dropped := s.histories.entries.any fun e =>
    match s.getDefault e.1 with
    | some value => e.2.accepts value
    | none => true
  let added := s.defaults.keys.any fun name => !s.contains name
  if dropped || added then
    let kept := s.histories.filterMap fun name h => (s.getDefault name).map h.push
    (true, s.changed (withMissing s.historyLimit s.defaults.entries kept))
  else (false, s)

/-- One value back. The answer is the current value after it. -/
def undo (s : Store) (name : Text) : Option Text × Store :=
  match s.history? name with
  | none => (none, s)
  | some h =>
    if h.canUndo then (some h.undo.current, s.changed (s.histories.insert name h.undo))
    else (some h.current, s)

/-- One value forward. The answer is the current value after it. -/
def redo (s : Store) (name : Text) : Option Text × Store :=
  match s.history? name with
  | none => (none, s)
  | some h =>
    if h.canRedo then (some h.redo.current, s.changed (s.histories.insert name h.redo))
    else (some h.current, s)

/-- A value made current and saved for a name. -/
def syncEntry (limit : Int) (histories : Mapping Text (History Text)) (e : Text × Text) :
    Mapping Text (History Text) :=
  match histories.find? e.1 with
  | none => histories.insert e.1 (.start limit e.2)
  | some h => histories.insert e.1 (h.sync e.2)

/-- The values of a source put in place of the tracked ones: names in neither the source nor the
defaults are dropped, the others are synced to their value in the source or else to their
default. -/
def load (s : Store) (source : Mapping Text Text) : Store :=
  let kept := s.histories.filter fun name _ => source.contains name || s.defaults.contains name
  let absent := s.defaults.entries.filter fun e => !source.contains e.1
  let histories := (absent ++ source.entries).foldl (syncEntry s.historyLimit) kept
  { s.changed histories with loaded := true }

/-- A load from a source whose values may be absent. -/
def load? (s : Store) (source : Mapping Text (Option Text)) : Except Error Unit × Store :=
  match source.present with
  | .ok source => (.ok (), s.load source)
  | .error name => (.error (.missingValue (.loaded name)), s)

/-- The store after a save: all histories marked as saved. -/
def commit (s : Store) : Store := s.changed (s.histories.mapEntries fun _ h => h.markSynced)

/-- The values that are to be kept handed to a sink. The sink works on the store and on a state of
its own. When it returns, the answer is the values it was given; when it fails, nothing is marked as
saved. -/
def save {σ : Type} (s : Store)
    (sink : Mapping Text Text → Store → Except Error Unit × Store × σ) :
    Except Error (Mapping Text Text) × Store × σ :=
  let values := s.snapshot s.savingDefaults
  match sink values s with
  | (.ok (), s, state) => (.ok values, s.commit, state)
  | (.error e, s, state) => (.error e, s, state)

end Store

end VersionedProperties
