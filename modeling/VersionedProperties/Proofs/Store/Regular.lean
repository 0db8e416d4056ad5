import VersionedProperties.Proofs.History.Neighbours
import VersionedProperties.Proofs.Store.Effect

/-!
# Stores that runs reach

In a store that a run reaches, every history is in range, has the limit of the store, and has no
value next to itself. A new store is of this kind, and every change keeps it so: a history comes
into being with one value, and from then on is only edited.
-/

namespace VersionedProperties

/-- What holds of a history from its start on. -/
structure History.IsRegular (limit : Int) (h : History Text) : Prop where
  inRange : h.InRange
  limit_eq : h.limit = limit
  neighboursDiffer : h.NeighboursDiffer

theorem History.isRegular_start (limit : Int) (value : Text) :
    (start limit value).IsRegular limit :=
  ⟨inRange_start limit value, rfl, neighboursDiffer_start limit value⟩

theorem History.IsRegular.edit {limit : Int} {h : History Text} (hr : h.IsRegular limit)
    (e : Edit Text) : (h.edit e).2.IsRegular limit where
  inRange := inRange_edit hr.inRange e
  limit_eq := by rw [limit_edit, hr.limit_eq]
  neighboursDiffer := neighboursDiffer_edit hr.inRange hr.neighboursDiffer e

namespace Store

/-- All histories are regular under the limit of the store. -/
def IsRegular (s : Store) : Prop :=
  ∀ name h, s.history? name = some h → h.IsRegular s.historyLimit

theorem Effect.isRegular_onHistory {limit : Int} {history? : Option (History Text)}
    (hr : ∀ h, history? = some h → h.IsRegular limit) (effect : Effect) :
    ∀ h, effect.onHistory limit history? = some h → h.IsRegular limit := by
  intro h hh
  cases effect with
  | keep => exact hr h hh
  | drop => cases hh
  | edit e =>
      cases history? with
      | some h₀ =>
          cases hh
          exact (hr h₀ rfl).edit e
      | none =>
          obtain ⟨value, _, rfl⟩ := Option.map_eq_some_iff.1 hh
          exact History.isRegular_start limit value

/-- What no change changes. -/
def frame (s : Store) : Mapping Text Text × Int := (s.defaults, s.historyLimit)

theorem Edited.frame {s next : Store} {name : Text} {e : History.Edit Text}
    (h : s.Edited name e next) : next.frame = s.frame := by
  cases h <;> rfl

variable (s : Store)

theorem frame_apply (c : Change) : (s.apply c).frame = s.frame := by
  cases c with
  | set name value => exact (s.edited_set name value).frame
  | resetToDefault name =>
      simp only [apply, resetToDefault]
      split
      · exact (s.edited_set name _).frame
      · split <;> rfl
  | resetAll =>
      simp only [apply, resetAll]
      split <;> rfl
  | undo name => exact (s.edited_undo name).frame
  | redo name => exact (s.edited_redo name).frame
  | load source => rfl
  | commit => rfl
  | setSavingDefaults b => rfl

theorem defaults_apply (c : Change) : (s.apply c).defaults = s.defaults :=
  congrArg Prod.fst (s.frame_apply c)

theorem historyLimit_apply (c : Change) : (s.apply c).historyLimit = s.historyLimit :=
  congrArg Prod.snd (s.frame_apply c)

theorem frame_after (changes : List Change) : (s.after changes).frame = s.frame := by
  induction changes generalizing s with
  | nil => rfl
  | cons c changes ih => rw [after_cons, ih, frame_apply]

theorem defaults_after (changes : List Change) : (s.after changes).defaults = s.defaults :=
  congrArg Prod.fst (s.frame_after changes)

theorem historyLimit_after (changes : List Change) :
    (s.after changes).historyLimit = s.historyLimit :=
  congrArg Prod.snd (s.frame_after changes)

variable {s}

theorem IsRegular.apply (hs : s.IsRegular) (c : Change) : (s.apply c).IsRegular := by
  intro name h hh
  rw [historyLimit_apply]
  rw [history?_apply] at hh
  exact Effect.isRegular_onHistory (hs name) _ h hh

theorem IsRegular.after (hs : s.IsRegular) (changes : List Change) :
    (s.after changes).IsRegular := by
  induction changes generalizing s with
  | nil => exact hs
  | cons c changes ih => exact ih (hs.apply c)

theorem history?_create (defaults : Mapping Text Text) (savingDefaults : Bool) (limit : Int)
    (name : Text) :
    (create defaults savingDefaults limit).history? name =
      (defaults.find? name).map (History.start limit) :=
  Mapping.find?_mapEntries _ defaults name

theorem isRegular_create (defaults : Mapping Text Text) (savingDefaults : Bool) (limit : Int) :
    (create defaults savingDefaults limit).IsRegular := by
  intro name h hh
  rw [history?_create] at hh
  obtain ⟨value, _, rfl⟩ := Option.map_eq_some_iff.1 hh
  exact History.isRegular_start limit value

end Store

end VersionedProperties
