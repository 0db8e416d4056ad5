import VersionedProperties.Store.Command

/-!
# Runs as changes

Whatever commands do to a store comes down to a few changes, taken one after the other. A question
changes nothing, and neither does a command that is refused. A save changes what the script of its
sink changes, and after it, unless the sink fails, marks all histories as saved.

The stores between the changes are the moments of a run, those in the middle of a save included.
-/

namespace VersionedProperties.Store

/-- A change of a store. -/
inductive Change where
  | set (name value : Text)
  | resetToDefault (name : Text)
  | resetAll
  | undo (name : Text)
  | redo (name : Text)
  | load (source : Mapping Text Text)
  /-- All histories marked as saved. -/
  | commit
  | setSavingDefaults (b : Bool)

/-- A store after a change. -/
def apply (s : Store) : Change → Store
  | .set name value => (s.set name value).2
  | .resetToDefault name => (s.resetToDefault name).2
  | .resetAll => s.resetAll.2
  | .undo name => (s.undo name).2
  | .redo name => (s.redo name).2
  | .load source => s.load source
  | .commit => s.commit
  | .setSavingDefaults b => { s with savingDefaults := b }

/-- A store after changes. -/
def after (s : Store) (changes : List Change) : Store := changes.foldl apply s

theorem after_nil (s : Store) : s.after [] = s := rfl

theorem after_cons (s : Store) (c : Change) (changes : List Change) :
    s.after (c :: changes) = (s.apply c).after changes := rfl

theorem after_append (s : Store) (earlier later : List Change) :
    s.after (earlier ++ later) = (s.after earlier).after later :=
  List.foldl_append

mutual

/-- The changes that a command makes. -/
def Command.changes : Command → List Change
  | .get _ | .getDefault _ | .hasDefault _ | .contains _ | .history _ | .isModified _
  | .keyNames | .defaults | .snapshot _ | .canUndo _ | .canRedo _ | .savingDefaults => []
  | .set _ none => []
  | .set name (some value) => [.set name value]
  | .resetToDefault name => [.resetToDefault name]
  | .resetAll => [.resetAll]
  | .undo name => [.undo name]
  | .redo name => [.redo name]
  | .load source =>
    match source.present with
    | .ok source => [.load source]
    | .error _ => []
  | .setSavingDefaults b => [.setSavingDefaults b]
  | .save script none => allChanges script ++ [.commit]
  | .save script (some _) => allChanges script

/-- The changes that commands make one after the other. -/
def allChanges : List Command → List Change
  | [] => []
  | c :: rest => c.changes ++ allChanges rest

end

mutual

theorem perform_snd : ∀ (c : Command) (s : Store), (perform c s).2 = s.after c.changes
  | .get _, s | .getDefault _, s | .hasDefault _, s | .contains _, s | .history _, s
  | .isModified (some _), s | .isModified none, s | .keyNames, s | .defaults, s | .snapshot _, s
  | .canUndo _, s | .canRedo _, s | .savingDefaults, s | .set _ none, s => by
      rw [perform, Command.changes]
      rfl
  | .set _ (some _), s | .resetToDefault _, s | .resetAll, s | .undo _, s | .redo _, s
  | .setSavingDefaults _, s => by
      rw [perform, Command.changes]
      rfl
  | .load source, s => by
      rw [perform, Command.changes, load?]
      cases source.present <;> rfl
  | .save script none, s => by
      rw [perform, Command.changes, save, after_append, ← performAll_snd script s]
      rfl
  | .save script (some _), s => by
      rw [perform, Command.changes, save, ← performAll_snd script s]

theorem performAll_snd : ∀ (commands : List Command) (s : Store),
    (performAll commands s).2 = s.after (allChanges commands)
  | [], s => by rw [performAll, allChanges, after_nil]
  | c :: rest, s => by
      rw [performAll, allChanges, after_append, ← perform_snd c s, ← performAll_snd rest]

end

end VersionedProperties.Store
