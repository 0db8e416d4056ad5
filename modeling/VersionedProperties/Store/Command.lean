import VersionedProperties.Store.Basic

/-!
# Commands on a store

A run of a store is a list of commands. A save carries the commands that its sink runs on the same
store, so commands nest; each is performed by recursion on the command.
-/

namespace VersionedProperties.Store

/-- An operation on a store. -/
inductive Command where
  | get (name : Text)
  | getDefault (name : Text)
  | hasDefault (name : Text)
  | contains (name : Text)
  | history (name : Text)
  | isModified (name : Option Text)
  | keyNames
  | defaults
  | snapshot (includeDefaults : Bool)
  | set (name : Text) (value : Option Text)
  | resetToDefault (name : Text)
  | resetAll
  | undo (name : Text)
  | redo (name : Text)
  | canUndo (name : Text)
  | canRedo (name : Text)
  | load (source : Mapping Text (Option Text))
  | savingDefaults
  | setSavingDefaults (b : Bool)
  /-- A save whose sink runs a script and then fails, if a failure is given. -/
  | save (script : List Command) (failure : Option Text)

/-- What an operation answers. -/
inductive Answer where
  | nothing
  | flag (b : Bool)
  | value (t : Option Text)
  | history (h : Option (History Text))
  | names (names : List Text)
  | values (m : Mapping Text Text)
  /-- The values given to the sink, the answers to its script, and how the save ended. -/
  | saved (given : Mapping Text Text) (answers : List (Except Error Answer))
      (outcome : Except Error (Mapping Text Text))

/-- An answer that tells whether something changed, beside the store. -/
def withFlag (r : Bool × Store) : Except Error Answer × Store := (.ok (.flag r.1), r.2)

/-- An answer that is a value, beside the store. -/
def withValue (r : Option Text × Store) : Except Error Answer × Store := (.ok (.value r.1), r.2)

mutual

/-- A command performed: its answer, or an error, and the store after it. -/
def perform : Command → Store → Except Error Answer × Store
  | .get name, s => (.ok (.value (s.get name)), s)
  | .getDefault name, s => (.ok (.value (s.getDefault name)), s)
  | .hasDefault name, s => (.ok (.flag (s.defaults.contains name)), s)
  | .contains name, s => (.ok (.flag (s.contains name)), s)
  | .history name, s => (.ok (.history (s.history? name)), s)
  | .isModified (some name), s => (.ok (.flag (s.isModified name)), s)
  | .isModified none, s => (.ok (.flag s.anyModified), s)
  | .keyNames, s => (.ok (.names s.keyNames), s)
  | .defaults, s => (.ok (.values s.defaults), s)
  | .snapshot includeDefaults, s => (.ok (.values (s.snapshot includeDefaults)), s)
  | .set name value, s =>
    let (r, s) := s.set? name value
    (r.map .flag, s)
  | .resetToDefault name, s => withFlag (s.resetToDefault name)
  | .resetAll, s => withFlag s.resetAll
  | .undo name, s => withValue (s.undo name)
  | .redo name, s => withValue (s.redo name)
  | .canUndo name, s => (.ok (.flag (s.canUndo name)), s)
  | .canRedo name, s => (.ok (.flag (s.canRedo name)), s)
  | .load source, s =>
    let (r, s) := s.load? source
    (r.map fun _ => .nothing, s)
  | .savingDefaults, s => (.ok (.flag s.savingDefaults), s)
  | .setSavingDefaults b, s => (.ok .nothing, { s with savingDefaults := b })
  | .save script failure, s =>
    let (outcome, s, given, answers) := s.save fun values s =>
      let (answers, s) := performAll script s
      (match failure with | some text => .error (.raised text) | none => .ok (),
        s, values, answers)
    (.ok (.saved given answers outcome), s)

/-- Commands performed one after the other. -/
def performAll : List Command → Store → List (Except Error Answer) × Store
  | [], s => ([], s)
  | c :: rest, s =>
    let (answer, s) := perform c s
    let (answers, s) := performAll rest s
    (answer :: answers, s)

end

end VersionedProperties.Store
