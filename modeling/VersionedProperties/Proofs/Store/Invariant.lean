import VersionedProperties.Proofs.Store.Ledger
import VersionedProperties.Proofs.Store.Tracked

/-!
# What holds at every moment of a run

A run takes a new store through its changes one after the other. The stores that it passes are its
moments, and those in the middle of a save are among them, since the sink works on the store too.
At every moment the defaults and the limit are those of the beginning, each name with a default is
tracked, and so the names that a store knows are the ones it tracks. Once loaded, a store remains
so.
-/

namespace VersionedProperties.Store

/-- What holds of every store that has begun with the given defaults and limit. -/
structure Invariant (defaults : Mapping Text Text) (limit : Int) (s : Store) : Prop where
  defaults_eq : s.defaults = defaults
  limit_eq : s.historyLimit = limit
  limits_eq : ∀ name h, s.history? name = some h → h.limit = limit
  tracked : ∀ name, defaults.contains name = true → s.contains name = true
  valued : ∀ name, defaults.contains name = true → s.get name ≠ none
  mem_keyNames_iff : ∀ name, name ∈ s.keyNames ↔ s.contains name = true

variable {s : Store}

theorem TracksDefaults.contains_of_default (hs : s.TracksDefaults) {name : Text}
    (hname : s.defaults.contains name = true) : s.contains name = true := by
  obtain ⟨value, hvalue⟩ := Option.isSome_iff_exists.1 hname
  exact hs name value hvalue

theorem get_ne_none {name : Text} (hname : s.contains name = true) : s.get name ≠ none := by
  rwa [← Option.isSome_iff_ne_none, ← contains_eq_isSome_get]

/-- The invariant comes down to what every single change keeps. -/
theorem invariant_of (hregular : s.IsRegular) (htracks : s.TracksDefaults) :
    s.Invariant s.defaults s.historyLimit where
  defaults_eq := rfl
  limit_eq := rfl
  limits_eq name h hh := (hregular name h hh).limit_eq
  tracked _ hname := htracks.contains_of_default hname
  valued _ hname := get_ne_none (htracks.contains_of_default hname)
  mem_keyNames_iff name := by
    rw [mem_keyNames]
    exact ⟨fun h => h.elim id htracks.contains_of_default, .inl⟩

theorem invariant_after_create (defaults : Mapping Text Text) (savingDefaults : Bool) (limit : Int)
    (changes : List Change) :
    ((create defaults savingDefaults limit).after changes).Invariant defaults limit := by
  have hinvariant := invariant_of
    ((isRegular_create defaults savingDefaults limit).after changes)
    ((tracksDefaults_create defaults savingDefaults limit).after changes)
  rwa [defaults_after, historyLimit_after] at hinvariant

/-- The invariant holds at every moment of a run, and what has been loaded at one moment is loaded
at every later one. -/
theorem invariant_throughout (defaults : Mapping Text Text) (savingDefaults : Bool) (limit : Int)
    (commands : List Command) :
    let first := create defaults savingDefaults limit
    let changes := allChanges commands
    (performAll commands first).2 = first.after changes ∧
      (∀ moment, moment <+: changes → (first.after moment).Invariant defaults limit) ∧
      ∀ earlier later, earlier <+: later → later <+: changes →
        (first.after earlier).loaded = true → (first.after later).loaded = true := by
  intro first changes
  refine ⟨performAll_snd commands first, ?_, ?_⟩
  · intro moment _
    exact invariant_after_create defaults savingDefaults limit moment
  · rintro earlier _ ⟨between, rfl⟩ _ hloaded
    rw [after_append]
    exact loaded_after hloaded between

/-- A run with a save whose sink loads, drops a name, saves in vain and loads in vain. -/
def nestedSaveRun : List Command :=
  [.save [.load (.ofList [("b", some "2")]), .save [.resetToDefault "b"] (some "disk full"),
    .load (.ofList [("a", none)])] none, .resetAll]

theorem invariant_throughout_nestedSaveRun :
    let first := create (.ofList [(("a" : Text), ("1" : Text))]) false 3
    let changes := allChanges nestedSaveRun
    let inside := first.after (changes.take 2)
    inside.contains "b" = false ∧ inside.get "a" ≠ none ∧
      (("a" : Text) ∈ inside.keyNames ↔ inside.contains "a" = true) ∧
      (first.after (changes.take 1)).loaded = true ∧ (first.after changes).loaded = true := by
  intro first changes inside
  obtain ⟨-, hinvariant, hloaded⟩ :=
    invariant_throughout (.ofList [(("a" : Text), ("1" : Text))]) false 3 nestedSaveRun
  have hinside := hinvariant (changes.take 2) (List.take_prefix 2 changes)
  have hearly : (first.after (changes.take 1)).loaded = true := by decide +kernel
  exact ⟨by decide +kernel, hinside.valued "a" (by decide), hinside.mem_keyNames_iff "a", hearly,
    hloaded (changes.take 1) changes (List.take_prefix 1 changes) List.prefix_rfl hearly⟩

end VersionedProperties.Store
