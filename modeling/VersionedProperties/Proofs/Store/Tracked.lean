import VersionedProperties.Proofs.Store.Regular

/-!
# What a store never loses

A name with a default is tracked from the beginning and stays so, since only names without default
are ever dropped; and a store that has been loaded stays loaded.
-/

namespace VersionedProperties

namespace Store

/-- Every name with a default is tracked. -/
def TracksDefaults (s : Store) : Prop :=
  ∀ name value, s.getDefault name = some value → s.contains name = true

variable {s : Store}

theorem tracksDefaults_create (defaults : Mapping Text Text) (savingDefaults : Bool) (limit : Int) :
    (create defaults savingDefaults limit).TracksDefaults := by
  intro name value hvalue
  have hdefault : defaults.find? name = some value := hvalue
  rw [contains_eq_isSome, history?_create, hdefault]
  rfl

/-- Only a name without default is ever dropped. -/
theorem isSome_onHistory {limit : Int} {history? : Option (History Text)}
    (hh : history?.isSome = true) {effect : Effect} (heffect : effect ≠ .drop) :
    (effect.onHistory limit history?).isSome = true := by
  obtain ⟨h, rfl⟩ := Option.isSome_iff_exists.1 hh
  cases effect with
  | keep => rfl
  | drop => exact absurd rfl heffect
  | edit e => rfl

theorem effect_ne_drop {default? : Text → Option Text} {name value : Text}
    (hvalue : default? name = some value) (c : Change) : c.effect default? name ≠ .drop := by
  have honly : ∀ (effect : Effect) (changed : Text), effect ≠ .drop →
      effect.only changed name ≠ .drop := by
    intro effect changed h
    unfold Effect.only
    split
    · exact h
    · exact Effect.noConfusion
  cases c with
  | set changed value => exact honly _ _ Effect.noConfusion
  | resetToDefault changed =>
      rw [Change.effect, hvalue]
      exact honly _ _ Effect.noConfusion
  | resetAll =>
      rw [Change.effect, hvalue]
      exact Effect.noConfusion
  | undo changed => exact honly _ _ Effect.noConfusion
  | redo changed => exact honly _ _ Effect.noConfusion
  | load source =>
      rw [Change.effect, hvalue]
      cases source.find? name <;> exact Effect.noConfusion
  | commit => exact Effect.noConfusion
  | setSavingDefaults b => exact Effect.noConfusion

theorem TracksDefaults.apply (hs : s.TracksDefaults) (c : Change) :
    (s.apply c).TracksDefaults := by
  intro name value hvalue
  rw [getDefault, defaults_apply] at hvalue
  have hcontains := hs name value hvalue
  rw [contains_eq_isSome] at hcontains ⊢
  rw [history?_apply]
  exact isSome_onHistory hcontains (effect_ne_drop hvalue c)

theorem TracksDefaults.after (hs : s.TracksDefaults) (changes : List Change) :
    (s.after changes).TracksDefaults := by
  induction changes generalizing s with
  | nil => exact hs
  | cons c changes ih => exact ih (hs.apply c)

/-! Runs of commands -/

theorem IsRegular.performAll (hs : s.IsRegular) (commands : List Command) :
    (performAll commands s).2.IsRegular := by
  rw [performAll_snd]
  exact hs.after _

theorem TracksDefaults.performAll (hs : s.TracksDefaults) (commands : List Command) :
    (performAll commands s).2.TracksDefaults := by
  rw [performAll_snd]
  exact hs.after _

theorem frame_performAll (commands : List Command) (s : Store) :
    (performAll commands s).2.frame = s.frame := by
  rw [performAll_snd, frame_after]

theorem defaults_performAll (commands : List Command) (s : Store) :
    (performAll commands s).2.defaults = s.defaults :=
  congrArg Prod.fst (frame_performAll commands s)

theorem historyLimit_performAll (commands : List Command) (s : Store) :
    (performAll commands s).2.historyLimit = s.historyLimit :=
  congrArg Prod.snd (frame_performAll commands s)

/-! Loaded stores -/

theorem Edited.loaded_eq {next : Store} {name : Text} {e : History.Edit Text}
    (h : s.Edited name e next) : next.loaded = s.loaded := by
  cases h <;> rfl

theorem loaded_apply (hs : s.loaded = true) (c : Change) : (s.apply c).loaded = true := by
  cases c with
  | set name value => exact (s.edited_set name value).loaded_eq.trans hs
  | resetToDefault name =>
      simp only [apply, resetToDefault]
      split
      · exact (s.edited_set name _).loaded_eq.trans hs
      · split <;> exact hs
  | resetAll =>
      simp only [apply, resetAll]
      split <;> exact hs
  | undo name => exact (s.edited_undo name).loaded_eq.trans hs
  | redo name => exact (s.edited_redo name).loaded_eq.trans hs
  | load source => rfl
  | commit => exact hs
  | setSavingDefaults b => exact hs

theorem loaded_after (hs : s.loaded = true) (changes : List Change) :
    (s.after changes).loaded = true := by
  induction changes generalizing s with
  | nil => exact hs
  | cons c changes ih => exact ih (loaded_apply hs c)

end Store

end VersionedProperties
