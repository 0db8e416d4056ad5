import VersionedProperties.Proofs.Store.Ledger
import VersionedProperties.Proofs.Store.Tracked

/-!
# Values that survive a restart

A load gives every name its value in the source, or else its default. The values that are handed
over to be saved leave out some that are equal to their default, and every name with a default is
tracked, so what is saved and the defaults together are the current values. A store with the same
defaults that loads them has the same values, whatever it held before.
-/

namespace VersionedProperties.Store

variable {s t : Store}

/-- After a load each name has its value in the source, or else its default. -/
theorem get_load (hs : s.IsRegular) (source : Mapping Text Text) (name : Text) :
    (s.load source).get name = (source.find? name).or (s.getDefault name) := by
  rw [get, history?_load]
  cases (source.find? name).or (s.getDefault name) with
  | none => rfl
  | some value =>
      cases hh : s.history? name with
      | none => rfl
      | some h => exact congrArg some (History.current_push (hs name h hh).inRange value)

theorem get_commit (s : Store) : s.commit.get = s.get := by
  funext name
  rw [get, history?_commit, Option.map_map]
  rfl

theorem find?_snapshot_all (s : Store) : (s.snapshot true).find? = s.get := by
  funext name
  rw [find?_snapshot]
  cases s.get name <;> rfl

/-- What is saved and the defaults together are the current values. -/
theorem find?_snapshot_or_default (hs : s.TracksDefaults) (includeDefaults : Bool) (name : Text) :
    ((s.snapshot includeDefaults).find? name).or (s.getDefault name) = s.get name := by
  rw [find?_snapshot]
  cases hvalue : s.get name with
  | none =>
      cases hdefault : s.getDefault name with
      | none => rfl
      | some value =>
          have htracked := hs name value hdefault
          rw [contains_eq_isSome] at htracked
          rw [get, Option.map_eq_none_iff] at hvalue
          rw [hvalue] at htracked
          cases htracked
  | some value =>
      cases includeDefaults with
      | true => rfl
      | false =>
          by_cases hdefault : s.getDefault name = some value
          · simp [Option.filter, hdefault]
          · simp [Option.filter, hdefault]

/-- A store that loads what another with the same defaults has saved has the same values. -/
theorem get_load_snapshot (ht : t.IsRegular) (hs : s.TracksDefaults)
    (hdefaults : t.defaults = s.defaults) {includeDefaults : Bool} {source : Mapping Text Text}
    (hsource : ∀ name, source.find? name = (s.snapshot includeDefaults).find? name) :
    (t.load source).get = s.get := by
  funext name
  have hdefault : t.getDefault name = s.getDefault name := by
    rw [getDefault, getDefault, hdefaults]
  rw [get_load ht, hsource, hdefault, find?_snapshot_or_default hs]

end VersionedProperties.Store
