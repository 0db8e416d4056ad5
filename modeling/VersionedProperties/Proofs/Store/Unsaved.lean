import VersionedProperties.Proofs.Store.Ledger
import VersionedProperties.Proofs.Store.Tracked
import VersionedProperties.Proofs.Store.Version

/-!
# What an unmodified store says

Right after a load or a commit no value is modified. Edits leave the saved values of the names that
stay tracked, and bring no name back or new into the store unless a value is set for an unknown one.
So if no value is modified after such edits, every value that is left is the one that was saved; a
name without default that has been reset is not among them, and nothing tells of it.
-/

namespace VersionedProperties.Store

variable {s next last : Store}

theorem current_of_unmodified (hs : s.anyModified = false) {name : Text} {h : History Text}
    (hh : s.history? name = some h) : h.current = h.savedValue := by
  by_contra hne
  have hmodified : s.anyModified = true :=
    anyModified_iff.2 ⟨name, isModified_iff.2 ⟨h, hh, hne⟩⟩
  rw [hs] at hmodified
  cases hmodified

theorem unmodified_of_settles (hs : s.IsRegular) {c : Change} (hc : c.settles = true) :
    (s.apply c).anyModified = false := by
  rw [← Bool.not_eq_true, anyModified_iff]
  rintro ⟨name, hmodified⟩
  obtain ⟨h, hh, hne⟩ := isModified_iff.1 hmodified
  have hsaved := savedValue_apply hs c hh
  rw [if_pos (.inl hc)] at hsaved
  exact hne hsaved.symm

/-- The names of the second store are tracked by the first, with the same saved values. -/
def KeepsSaved (s next : Store) : Prop :=
  ∀ name h, next.history? name = some h →
    ∃ h₀, s.history? name = some h₀ ∧ h.savedValue = h₀.savedValue

theorem KeepsSaved.refl (s : Store) : s.KeepsSaved s :=
  fun _ h hh => ⟨h, hh, rfl⟩

theorem KeepsSaved.trans (h : s.KeepsSaved next) (h' : next.KeepsSaved last) :
    s.KeepsSaved last := by
  intro name h₂ hh₂
  obtain ⟨h₁, hh₁, hsame⟩ := h' name h₂ hh₂
  obtain ⟨h₀, hh₀, hsame₀⟩ := h name h₁ hh₁
  exact ⟨h₀, hh₀, hsame.trans hsame₀⟩

/-- An edit that sets values of known names only. -/
def Change.IsKnownEdit (s : Store) (c : Change) : Prop :=
  c.isEdit = true ∧ ∀ name value, c = .set name value → s.contains name = true

theorem contains_of_knownEdit (htracks : s.TracksDefaults) {c : Change} (hc : c.IsKnownEdit s)
    {name : Text} (hname : (s.apply c).contains name = true) : s.contains name = true := by
  by_contra huntracked
  have hnone : s.history? name = none := by simpa [contains_eq_isSome] using huntracked
  have hdefault : s.getDefault name = none := by
    cases hdefault : s.getDefault name with
    | none => rfl
    | some value => exact absurd (htracks name value hdefault) huntracked
  rw [contains_eq_isSome, history?_apply, hnone] at hname
  cases c with
  | set changed value =>
      have hne : name ≠ changed := by
        rintro rfl
        exact huntracked (hc.2 name value rfl)
      rw [Change.effect, Effect.only_of_ne hne] at hname
      cases hname
  | resetToDefault changed =>
      rw [Change.effect, hdefault, Effect.toValue, Effect.only] at hname
      split at hname <;> cases hname
  | resetAll =>
      rw [Change.effect, hdefault] at hname
      cases hname
  | undo changed =>
      rw [Change.effect, Effect.only] at hname
      split at hname <;> cases hname
  | redo changed =>
      rw [Change.effect, Effect.only] at hname
      split at hname <;> cases hname
  | load source => cases hc.1
  | commit => cases hc.1
  | setSavingDefaults b => cases hc.1

theorem keepsSaved_apply (hs : s.IsRegular) (htracks : s.TracksDefaults) {c : Change}
    (hc : c.IsKnownEdit s) : s.KeepsSaved (s.apply c) := by
  intro name h hh
  have hcontains : s.contains name = true := by
    apply contains_of_knownEdit htracks hc
    rw [contains_eq_isSome, hh]
    rfl
  have hsettles : c.settles = false := by
    cases c <;> first | rfl | cases hc.1
  have hsaved := savedValue_apply hs c hh
  rwa [hsettles, hcontains, if_neg (by simp)] at hsaved

/-- Where neither store is modified, the values of the second are among those of the first. -/
theorem KeepsSaved.get_eq (h : s.KeepsSaved next) (hs : s.anyModified = false)
    (hnext : next.anyModified = false) {name value : Text} (hvalue : next.get name = some value) :
    s.get name = some value := by
  obtain ⟨h₁, hh₁, rfl⟩ := Option.map_eq_some_iff.1 hvalue
  obtain ⟨h₀, hh₀, hsame⟩ := h name h₁ hh₁
  rw [get, hh₀, Option.map_some, current_of_unmodified hs hh₀, ← hsame,
    ← current_of_unmodified hnext hh₁]

/-- Neither store being modified, they have the same values just if no name has been lost. -/
theorem KeepsSaved.get_eq_iff (h : s.KeepsSaved next) (hs : s.anyModified = false)
    (hnext : next.anyModified = false) :
    next.get = s.get ↔ ∀ name, s.contains name = true → next.contains name = true := by
  constructor
  · intro hsame name hname
    rwa [contains_eq_isSome_get, hsame, ← contains_eq_isSome_get]
  · intro hkept
    funext name
    cases hvalue : next.get name with
    | some value => exact (h.get_eq hs hnext hvalue).symm
    | none =>
        cases hvalue₀ : s.get name with
        | none => rfl
        | some value =>
            have hlost := hkept name (by rw [contains_eq_isSome_get, hvalue₀]; rfl)
            rw [contains_eq_isSome_get, hvalue] at hlost
            cases hlost

end VersionedProperties.Store
