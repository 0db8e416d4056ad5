import VersionedProperties.Proofs.Store.Invariant
import VersionedProperties.Proofs.Store.Restart
import VersionedProperties.Proofs.Store.Unsaved

/-!
# Loading as replacement

A load puts the defaults, overlaid with the source, in place of whatever the store held. Nothing is
modified afterwards. Histories of names that stay are kept, so that one step back takes a name from
its loaded value to the value before, unless a history has room for a single value only. A source
that lacks a value is refused as a whole.
-/

namespace VersionedProperties.Store

variable {s : Store}

theorem isModified_of_unmodified (hs : s.anyModified = false) (name : Text) :
    s.isModified name = false := by
  rw [← Bool.not_eq_true] at hs ⊢
  exact fun hmodified => hs (anyModified_iff.2 ⟨name, hmodified⟩)

theorem find?_snapshot_load (hs : s.IsRegular) (source : Mapping Text Text) :
    ((s.load source).snapshot true).find? = (s.defaults.overlay source).find? := by
  funext name
  rw [find?_snapshot_all, get_load hs, Mapping.find?_overlay]
  rfl

/-- A store knows the names that it has values for. -/
theorem TracksDefaults.mem_keyNames_iff (hs : s.TracksDefaults) {name : Text} :
    name ∈ s.keyNames ↔ name ∈ (s.snapshot true).keys := by
  have hvalues : (s.snapshot true).contains name = s.contains name := by
    rw [Mapping.contains, find?_snapshot_all, contains_eq_isSome_get]
  rw [← Mapping.contains_iff, hvalues, mem_keyNames]
  exact ⟨fun h => h.elim id hs.contains_of_default, .inl⟩

theorem mem_keyNames_load (hs : s.IsRegular) (htracks : s.TracksDefaults)
    (source : Mapping Text Text) (name : Text) :
    name ∈ (s.load source).keyNames ↔ name ∈ (s.defaults.overlay source).keys := by
  have hload : (s.load source).TracksDefaults := htracks.apply (.load source)
  rw [hload.mem_keyNames_iff, ← Mapping.contains_iff, ← Mapping.contains_iff, Mapping.contains,
    Mapping.contains, find?_snapshot_load hs]

/-- A load syncs the history of a name that it leaves tracked to the loaded value. -/
theorem history?_load_of_get (hs : s.IsRegular) {source : Mapping Text Text} {name value : Text}
    {h : History Text} (hh : s.history? name = some h)
    (hvalue : (s.load source).get name = some value) :
    (s.load source).history? name = some (h.sync value) := by
  rw [get_load hs] at hvalue
  rw [history?_load, hvalue, hh]
  rfl

/-- A step back after a load gives the value before, if the limit leaves room for it. -/
theorem undo_load (hs : s.IsRegular) {source : Mapping Text Text} {name before loaded : Text}
    (hbefore : s.get name = some before) (hloaded : (s.load source).get name = some loaded)
    (hne : loaded ≠ before) :
    (s.historyLimit ≠ 1 → ((s.load source).undo name).1 = some before ∧
      ((s.load source).undo name).2.get name = some before) ∧
    (s.historyLimit = 1 → (s.load source).canUndo name = false) := by
  obtain ⟨h, hh, rfl⟩ := Option.map_eq_some_iff.1 hbefore
  have hregular := hs name h hh
  have hsynced := history?_load_of_get hs hh hloaded
  constructor
  · intro hlimit
    rw [← hregular.limit_eq] at hlimit
    have hundone := ((s.load source).edited_undo name).history? name
    rw [Effect.only_self, hsynced] at hundone
    have hget : ((s.load source).undo name).2.get name = some h.current := by
      rw [get, hundone]
      exact congrArg some (History.current_undo_sync hregular.inRange hne hlimit)
    exact ⟨((s.load source).undo_fst name).trans hget, hget⟩
  · intro hlimit
    rw [← hregular.limit_eq] at hlimit
    rw [canUndo, hsynced]
    exact History.canUndo_sync_of_limit_one hregular.inRange hne hlimit

theorem load?_of_present {source : Mapping Text (Option Text)} {values : Mapping Text Text}
    (h : source.present = .ok values) (s : Store) : s.load? source = (.ok (), s.load values) := by
  rw [load?, h]

theorem load?_of_absent {source : Mapping Text (Option Text)} {name : Text}
    (h : source.present = .error name) (s : Store) :
    s.load? source = (.error (.missingValue (.loaded name)), s) := by
  rw [load?, h]

/-- In every store that a run reaches, a load of values succeeds and leaves the defaults overlaid
with the source, and nothing else; no property is modified, and the store counts as loaded. Where it
changes the value of a name that was tracked, one step back gives the value before, unless the limit
is one; then there is no step back. A source in which a value is absent is refused for the name of
such a value, and the store remains as it was. -/
theorem load_replaces (defaults : Mapping Text Text) (savingDefaults : Bool) (limit : Int)
    (commands : List Command) :
    let s := (performAll commands (create defaults savingDefaults limit)).2
    (∀ source : Mapping Text Text,
      let given := source.mapEntries fun _ value => some value
      let t := (s.load? given).2
      (s.load? given).1 = .ok () ∧
      (t.snapshot true).find? = (defaults.overlay source).find? ∧
      (∀ name, name ∈ t.keyNames ↔ name ∈ (defaults.overlay source).keys) ∧
      t.anyModified = false ∧ (∀ name, t.isModified name = false) ∧ t.loaded = true ∧
      ∀ name before loaded, s.get name = some before → t.get name = some loaded →
        loaded ≠ before →
        (limit ≠ 1 → (t.undo name).1 = some before ∧ (t.undo name).2.get name = some before) ∧
        (limit = 1 → t.canUndo name = false)) ∧
    ∀ source : Mapping Text (Option Text), (∃ name, source.find? name = some none) →
      ∃ name, source.find? name = some none ∧
        s.load? source = (.error (.missingValue (.loaded name)), s) := by
  intro s
  have hregular : s.IsRegular :=
    (isRegular_create defaults savingDefaults limit).performAll commands
  have htracks : s.TracksDefaults :=
    (tracksDefaults_create defaults savingDefaults limit).performAll commands
  have hdefaults : s.defaults = defaults := defaults_performAll commands _
  have hlimit : s.historyLimit = limit := historyLimit_performAll commands _
  constructor
  · intro source given t
    have hload : s.load? given = (.ok (), s.load source) :=
      load?_of_present source.present_mapEntries_some s
    have ht : t = s.load source := congrArg Prod.snd hload
    have hunmodified : (s.load source).anyModified = false :=
      unmodified_of_settles hregular (c := .load source) rfl
    rw [ht, hload]
    refine ⟨rfl, ?_, ?_, hunmodified, isModified_of_unmodified hunmodified, rfl, ?_⟩
    · rw [find?_snapshot_load hregular, hdefaults]
    · intro name
      rw [mem_keyNames_load hregular htracks, hdefaults]
    · intro name before loaded hbefore hloaded hne
      rw [← hlimit]
      exact undo_load hregular hbefore hloaded hne
  · rintro source ⟨name, hname⟩
    obtain ⟨first, hfirst, habsent⟩ := Mapping.present_of_absent hname
    exact ⟨first, hfirst, load?_of_absent habsent s⟩

/-- A run after which `b` has a value in front of its current one. -/
def steppedBackRun : List Command :=
  [.set "a" (some "2"), .set "b" (some "x"), .set "b" (some "y"), .undo "b"]

theorem load_replaces_steppedBackRun :
    let s := (performAll steppedBackRun (create (.ofList [(("a" : Text), ("1" : Text))]) false 2)).2
    let t := (s.load? (.ofList [("b", some "z")])).2
    (s.get "b" = some "x" ∧ t.get "b" = some "z" ∧ (t.undo "b").1 = some "x") ∧
      t.anyModified = false ∧ (("a" : Text) ∈ t.keyNames ∧ ("c" : Text) ∉ t.keyNames) ∧
      ∃ name, s.load? (.ofList [("c", none)]) = (.error (.missingValue (.loaded name)), s) := by
  intro s t
  obtain ⟨hvalues, habsent⟩ :=
    load_replaces (.ofList [(("a" : Text), ("1" : Text))]) false 2 steppedBackRun
  obtain ⟨-, -, hknown, hunmodified, -, -, hundo⟩ := hvalues (.ofList [("b", "z")])
  have hbefore : s.get "b" = some "x" := by decide +kernel
  have hloaded : t.get "b" = some "z" := by decide +kernel
  have hstep := (hundo "b" "x" "z" hbefore hloaded (by decide)).1 (by decide)
  obtain ⟨name, -, hrefused⟩ := habsent (.ofList [("c", none)]) ⟨"c", by decide⟩
  exact ⟨⟨hbefore, hloaded, hstep.1⟩, hunmodified,
    ⟨(hknown "a").2 (by decide), fun h => absurd ((hknown "c").1 h) (by decide)⟩, name, hrefused⟩

end VersionedProperties.Store
