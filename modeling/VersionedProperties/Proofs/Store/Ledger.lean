import VersionedProperties.Proofs.Store.Regular

/-!
# The store against a ledger

A ledger is the reference for what a store does: it holds the defaults and a timeline for every name
that is tracked, and a change is made by letting each name have its effect, with no regard to the
others. `Store.ledger` reads a store as a ledger. Under this reading every change of the store is
the change of the ledger, so whatever can be seen of a store after a run is what the ledger shows.

The saved value of a name is the one it had when it last came to be tracked, was loaded or was
saved (`settledValue`), and its entries are values it has had since it was last untracked.
-/

namespace VersionedProperties

/-- What can be seen of properties. -/
@[ext] structure StoreView where
  get : Text → Option Text
  contains : Text → Prop
  isKeyName : Text → Prop
  snapshot : (includeDefaults : Bool) → Text → Option Text
  canUndo : Text → Prop
  canRedo : Text → Prop
  isModified : Text → Prop
  anyModified : Prop

/-- Defaults, and a timeline for every name that is tracked. -/
@[ext] structure Ledger where
  limit : Int
  defaults : Text → Option Text
  timelines : Text → Option (Timeline Text)

/-- The timeline of a name after an effect. -/
def Store.Effect.onTimeline (limit : Int) (timeline? : Option (Timeline Text)) :
    Store.Effect → Option (Timeline Text)
  | .keep => timeline?
  | .drop => none
  | .edit e =>
    match timeline? with
    | some z => some (z.edit limit e).2
    | none => e.value?.map Timeline.start

namespace Ledger

/-- A ledger that tracks the names with a default. -/
def start (defaults : Mapping Text Text) (limit : Int) : Ledger where
  limit := limit
  defaults := defaults.find?
  timelines name := (defaults.find? name).map Timeline.start

/-- A ledger after a change. -/
def apply (l : Ledger) (c : Store.Change) : Ledger :=
  { l with timelines := fun name =>
      (c.effect l.defaults name).onTimeline l.limit (l.timelines name) }

/-- A ledger after changes. -/
def after (l : Ledger) (changes : List Store.Change) : Ledger := changes.foldl apply l

/-- What can be seen of a ledger. -/
def view (l : Ledger) : StoreView where
  get name := (l.timelines name).map Timeline.current
  contains name := (l.timelines name).isSome
  isKeyName name := (l.timelines name).isSome ∨ (l.defaults name).isSome
  snapshot includeDefaults name :=
    ((l.timelines name).map Timeline.current).filter fun value =>
      includeDefaults || l.defaults name != some value
  canUndo name := ∃ z, l.timelines name = some z ∧ z.past ≠ []
  canRedo name := ∃ z, l.timelines name = some z ∧ z.future ≠ []
  isModified name := ∃ z, l.timelines name = some z ∧ z.current ≠ z.saved
  anyModified := ∃ name z, l.timelines name = some z ∧ z.current ≠ z.saved

end Ledger

namespace Store

/-- What can be seen of a store. -/
def view (s : Store) : StoreView where
  get := s.get
  contains name := s.contains name = true
  isKeyName name := name ∈ s.keyNames
  snapshot includeDefaults := (s.snapshot includeDefaults).find?
  canUndo name := s.canUndo name = true
  canRedo name := s.canRedo name = true
  isModified name := s.isModified name = true
  anyModified := s.anyModified = true

/-- A store read as a ledger. -/
def ledger (s : Store) : Ledger where
  limit := s.historyLimit
  defaults := s.getDefault
  timelines name := (s.history? name).map History.timeline

theorem timelines_ledger (s : Store) (name : Text) :
    s.ledger.timelines name = (s.history? name).map History.timeline := rfl

theorem ledger_create (defaults : Mapping Text Text) (savingDefaults : Bool) (limit : Int) :
    (create defaults savingDefaults limit).ledger = Ledger.start defaults limit := by
  apply Ledger.ext
  · rfl
  · rfl
  · funext name
    rw [timelines_ledger, history?_create, Option.map_map]
    rfl

/-! Changes -/

theorem Effect.map_timeline_onHistory {limit : Int} {history? : Option (History Text)}
    (hr : ∀ h, history? = some h → h.IsRegular limit) (effect : Effect) :
    (effect.onHistory limit history?).map History.timeline =
      effect.onTimeline limit (history?.map History.timeline) := by
  cases effect with
  | keep => rfl
  | drop => rfl
  | edit e =>
      cases history? with
      | some h =>
          have hh := hr h rfl
          have hstep := congrArg Prod.snd (History.timeline_edit hh.inRange e)
          rw [hh.limit_eq] at hstep
          exact congrArg some hstep
      | none => cases e <;> rfl

variable {s : Store}

theorem ledger_apply (hs : s.IsRegular) (c : Change) : (s.apply c).ledger = s.ledger.apply c := by
  apply Ledger.ext
  · exact s.historyLimit_apply c
  · funext name
    change (s.apply c).getDefault name = s.getDefault name
    rw [getDefault, defaults_apply, getDefault]
  · funext name
    rw [timelines_ledger, history?_apply, Effect.map_timeline_onHistory (hs name)]
    rfl

theorem ledger_after (hs : s.IsRegular) (changes : List Change) :
    (s.after changes).ledger = s.ledger.after changes := by
  induction changes generalizing s with
  | nil => rfl
  | cons c changes ih =>
      rw [after_cons, ih (hs.apply c), ledger_apply hs]
      rfl

/-! What can be seen -/

theorem isModified_iff {name : Text} :
    s.isModified name = true ↔ ∃ h, s.history? name = some h ∧ h.current ≠ h.savedValue := by
  rw [isModified]
  cases s.history? name with
  | none => simp
  | some h => simp [History.isModified]

theorem anyModified_iff : s.anyModified = true ↔ ∃ name, s.isModified name = true := by
  rw [anyModified, List.any_eq_true]
  constructor
  · rintro ⟨⟨name, h⟩, he, hm⟩
    refine ⟨name, ?_⟩
    have hh : s.history? name = some h := Mapping.find?_eq_some_iff.2 he
    rw [isModified, hh]
    exact hm
  · rintro ⟨name, hm⟩
    rw [isModified] at hm
    split at hm
    · rename_i h hh
      exact ⟨(name, h), Mapping.find?_eq_some_iff.1 hh, hm⟩
    · cases hm

theorem mem_keyNames {name : Text} :
    name ∈ s.keyNames ↔ s.contains name = true ∨ s.defaults.contains name = true := by
  rw [keyNames, List.mem_append, List.mem_filter, contains, Mapping.contains_iff,
    Mapping.contains_iff, decide_eq_true_eq]
  by_cases hname : name ∈ s.histories.keys
  · simp [hname]
  · simp [hname]

theorem find?_snapshot (includeDefaults : Bool) (name : Text) :
    (s.snapshot includeDefaults).find? name =
      (s.get name).filter fun value => includeDefaults || s.getDefault name != some value := by
  rw [snapshot, Mapping.find?_filterMap, get, history?]
  cases s.histories.find? name with
  | none => rfl
  | some h => cases includeDefaults <;> simp [Option.filter, bne]

theorem canUndo_iff (hs : s.IsRegular) {name : Text} :
    s.canUndo name = true ↔ ∃ z, s.ledger.timelines name = some z ∧ z.past ≠ [] := by
  rw [canUndo, timelines_ledger]
  cases hh : s.history? name with
  | none => simp
  | some h =>
      have hview := congrArg HistoryView.canUndo (History.view_timeline (hs name h hh).inRange)
      have hcan : h.canUndo = !h.timeline.past.isEmpty := hview.symm
      simp [hcan]

theorem canRedo_iff (hs : s.IsRegular) {name : Text} :
    s.canRedo name = true ↔ ∃ z, s.ledger.timelines name = some z ∧ z.future ≠ [] := by
  rw [canRedo, timelines_ledger]
  cases hh : s.history? name with
  | none => simp
  | some h =>
      have hview := congrArg HistoryView.canRedo (History.view_timeline (hs name h hh).inRange)
      have hcan : h.canRedo = !h.timeline.future.isEmpty := hview.symm
      simp [hcan]

theorem isModified_iff_timeline {name : Text} :
    s.isModified name = true ↔ ∃ z, s.ledger.timelines name = some z ∧ z.current ≠ z.saved := by
  rw [isModified_iff]
  constructor
  · rintro ⟨h, hh, hne⟩
    refine ⟨h.timeline, ?_, hne⟩
    rw [timelines_ledger, hh]
    rfl
  · rintro ⟨z, hz, hne⟩
    obtain ⟨h, hh, rfl⟩ := Option.map_eq_some_iff.1 hz
    exact ⟨h, hh, hne⟩

theorem view_ledger (hs : s.IsRegular) : s.view = s.ledger.view := by
  have hget : s.get = s.ledger.view.get := by
    funext name
    change (s.history? name).map _ = ((s.history? name).map _).map _
    rw [Option.map_map]
    rfl
  have htracked (name : Text) : s.contains name = (s.ledger.timelines name).isSome := by
    rw [timelines_ledger, Option.isSome_map, contains_eq_isSome]
  apply StoreView.ext
  · exact hget
  · funext name
    exact congrArg (· = true) (htracked name)
  · funext name
    apply propext
    change name ∈ s.keyNames ↔ (s.ledger.timelines name).isSome = true ∨ _
    rw [← htracked]
    exact mem_keyNames
  · funext includeDefaults name
    change (s.snapshot includeDefaults).find? name = _
    rw [find?_snapshot, hget]
    rfl
  · funext name
    exact propext (canUndo_iff hs)
  · funext name
    exact propext (canRedo_iff hs)
  · funext name
    exact propext isModified_iff_timeline
  · apply propext
    change s.anyModified = true ↔ _
    rw [anyModified_iff]
    exact exists_congr fun name => isModified_iff_timeline

/-! Saved values -/

/-- Whether a change marks what it leaves as saved. -/
def Change.settles : Change → Bool
  | .load _ => true
  | .commit => true
  | _ => false

/-- The value that a name had when it last came to be tracked, was loaded or was saved, in a run of
changes; `settled` is that value before the run. -/
def settledValue (s : Store) (name : Text) (settled : Option Text) : List Change → Option Text
  | [] => settled
  | c :: rest =>
    (s.apply c).settledValue name
      (if c.settles = true ∨ s.contains name = false then (s.apply c).get name else settled) rest

/-- An effect saves the value of a name just if `settles` says so, or drops the name. -/
def Effect.Saves (settles : Bool) : Effect → Prop
  | .keep => settles = false
  | .drop => True
  | .edit e => e.saves = settles

theorem Effect.saves_push (value? : Option Text) : (Effect.toValue .push value?).Saves false := by
  cases value? with
  | none => trivial
  | some value => exact rfl

theorem Effect.saves_sync (value? : Option Text) : (Effect.toValue .sync value?).Saves true := by
  cases value? with
  | none => trivial
  | some value => exact rfl

theorem Effect.saves_only (effect : Effect) (h : effect.Saves false) (changed name : Text) :
    (effect.only changed name).Saves false := by
  unfold only
  split
  · exact h
  · rfl

theorem Change.saves_effect (c : Change) (default? : Text → Option Text) (name : Text) :
    (c.effect default? name).Saves c.settles := by
  cases c with
  | set changed value => exact Effect.saves_only (.edit (.push value)) rfl changed name
  | resetToDefault changed => exact Effect.saves_only _ (Effect.saves_push _) changed name
  | resetAll => exact Effect.saves_push (default? name)
  | undo changed => exact Effect.saves_only (.edit .undo) rfl changed name
  | redo changed => exact Effect.saves_only (.edit .redo) rfl changed name
  | load source => exact Effect.saves_sync _
  | commit => rfl
  | setSavingDefaults b => rfl

theorem savedValue_apply (hs : s.IsRegular) (c : Change) {name : Text} {h : History Text}
    (hh : (s.apply c).history? name = some h) :
    if c.settles = true ∨ s.contains name = false then h.savedValue = h.current
    else ∃ h₀, s.history? name = some h₀ ∧ h.savedValue = h₀.savedValue := by
  have hsaves := c.saves_effect s.getDefault name
  rw [history?_apply] at hh
  rw [contains_eq_isSome]
  cases heffect : c.effect s.getDefault name with
  | keep =>
      rw [heffect] at hsaves hh
      have hkept : s.history? name = some h := hh
      have hsettles : c.settles = false := hsaves
      rw [hsettles, hkept]
      simp
  | drop =>
      rw [heffect] at hh
      cases hh
  | edit e =>
      rw [heffect] at hsaves hh
      cases hbefore : s.history? name with
      | none =>
          rw [hbefore] at hh
          obtain ⟨value, _, rfl⟩ := Option.map_eq_some_iff.1 hh
          simp
          rfl
      | some h₀ =>
          rw [hbefore] at hh
          cases hh
          cases hsettles : c.settles with
          | true =>
              have hsaved : e.saves = true := by rw [← hsettles, ← hsaves]
              simpa using History.savedValue_edit_of_saves hsaved
          | false =>
              have hsaved : e.saves = false := by rw [← hsettles, ← hsaves]
              simpa using
                History.savedValue_edit_of_not_saves (hs name h₀ hbefore).inRange hsaved

theorem settledValue_after (hs : s.IsRegular) (name : Text) {settled : Option Text}
    (hsettled : ∀ h, s.history? name = some h → settled = some h.savedValue)
    (changes : List Change) {h : History Text} (hh : (s.after changes).history? name = some h) :
    s.settledValue name settled changes = some h.savedValue := by
  induction changes generalizing s settled with
  | nil => exact hsettled h hh
  | cons c changes ih =>
      rw [settledValue]
      apply ih (hs.apply c) _ hh
      intro h₁ hh₁
      -- What is carried along: the settled value is the saved one while the name is tracked.
      have hstep := savedValue_apply hs c hh₁
      split
      · rename_i hcase
        rw [if_pos hcase] at hstep
        rw [get, hh₁, hstep]
        rfl
      · rename_i hcase
        rw [if_neg hcase] at hstep
        obtain ⟨h₀, hh₀, hsame⟩ := hstep
        rw [hsettled h₀ hh₀, hsame]

/-! Entries -/

theorem mem_entries_apply (hs : s.IsRegular) (c : Change) {name value : Text} {h : History Text}
    (hh : (s.apply c).history? name = some h) (hv : value ∈ h.entries) :
    (∃ h₀, s.history? name = some h₀ ∧ value ∈ h₀.entries) ∨
      (s.apply c).get name = some value := by
  have hget : (s.apply c).get name = some h.current := by
    rw [get, hh]
    rfl
  rw [hget]
  rw [history?_apply] at hh
  cases heffect : c.effect s.getDefault name with
  | keep =>
      rw [heffect] at hh
      exact .inl ⟨h, hh, hv⟩
  | drop =>
      rw [heffect] at hh
      cases hh
  | edit e =>
      rw [heffect] at hh
      cases hbefore : s.history? name with
      | none =>
          rw [hbefore] at hh
          obtain ⟨first, _, rfl⟩ := Option.map_eq_some_iff.1 hh
          rw [List.mem_singleton.1 hv]
          exact .inr rfl
      | some h₀ =>
          rw [hbefore] at hh
          cases hh
          rcases History.mem_entries_edit (hs name h₀ hbefore).inRange hv with hold | hcurrent
          · exact .inl ⟨h₀, rfl, hold⟩
          · exact .inr (congrArg some hcurrent.symm)

/-- After a run, a value among the entries of a name either was there before, or was the current
value at some moment of the run. -/
theorem mem_entries_after (hs : s.IsRegular) (changes : List Change) {name value : Text}
    {h : History Text} (hh : (s.after changes).history? name = some h) (hv : value ∈ h.entries) :
    (∃ h₀, s.history? name = some h₀ ∧ value ∈ h₀.entries) ∨
      ∃ i, (s.after (changes.take i)).get name = some value := by
  induction changes generalizing s with
  | nil => exact .inl ⟨h, hh, hv⟩
  | cons c changes ih =>
      rcases ih (hs.apply c) hh with ⟨h₁, hh₁, hv₁⟩ | ⟨i, hi⟩
      · rcases mem_entries_apply hs c hh₁ hv₁ with hbefore | hnow
        · exact .inl hbefore
        · exact .inr ⟨1, hnow⟩
      · exact .inr ⟨i + 1, hi⟩

/-- A store cannot be told from the ledger of its run. The saved value of a name is the value that
it had when it last came to be tracked, was loaded or was saved, and a name that was untracked at
some moment has no value in its history from before. -/
theorem view_performAll_create (defaults : Mapping Text Text) (savingDefaults : Bool)
    (limit : Int) (commands : List Command) :
    let first := create defaults savingDefaults limit
    let changes := allChanges commands
    let last := (performAll commands first).2
    let l := (Ledger.start defaults limit).after changes
    last.view = l.view ∧
      (∀ name z, l.timelines name = some z →
        first.settledValue name (first.get name) changes = some z.saved) ∧
      ∀ earlier later, changes = earlier ++ later → ∀ name,
        (first.after earlier).contains name = false →
        ∀ h, last.history? name = some h → ∀ value ∈ h.entries,
          ∃ i, (first.after (earlier ++ later.take i)).get name = some value := by
  intro first changes last l
  have hs : first.IsRegular := isRegular_create defaults savingDefaults limit
  have hlast : last = first.after changes := performAll_snd commands first
  have hledger : last.ledger = l := by
    rw [hlast, ledger_after hs, ledger_create]
  refine ⟨?_, ?_, ?_⟩
  · rw [← hledger]
    apply view_ledger
    rw [hlast]
    exact hs.after changes
  · intro name z hz
    rw [← hledger] at hz
    obtain ⟨h, hh, rfl⟩ := Option.map_eq_some_iff.1 hz
    rw [hlast] at hh
    apply settledValue_after hs name _ changes hh
    intro h₀ hh₀
    rw [get, hh₀]
    rw [history?_create] at hh₀
    obtain ⟨value, _, rfl⟩ := Option.map_eq_some_iff.1 hh₀
    rfl
  · intro earlier later hsplit name huntracked h hh value hv
    rw [hlast, hsplit, after_append] at hh
    rcases mem_entries_after (hs.after earlier) later hh hv with ⟨h₀, hh₀, _⟩ | ⟨i, hi⟩
    · rw [contains_eq_isSome, hh₀] at huntracked
      cases huntracked
    · refine ⟨i, ?_⟩
      rw [after_append]
      exact hi

/-- A run in which `b` is removed and comes back, and the last save fails. -/
def removalRun : List Command :=
  [.set "b" (some "x"), .set "b" (some "y"), .save [] none, .resetToDefault "b",
    .set "b" (some "z"), .set "a" (some "2"), .save [] (some "disk full")]

theorem view_performAll_create_removalRun :
    let first := create (.ofList [(("a" : Text), ("1" : Text))]) false 3
    let changes := allChanges removalRun
    let last := (performAll removalRun first).2
    let l := (Ledger.start (.ofList [(("a" : Text), ("1" : Text))]) 3).after changes
    last.view = l.view ∧
      l.timelines "a" = some ⟨["1"], "2", [], "1"⟩ ∧
      first.settledValue "a" (first.get "a") changes = some "1" ∧
      (first.after (changes.take 4)).contains "b" = false ∧
      last.history? "b" = some (.start 3 "z") ∧
      ∃ i, (first.after (changes.take 4 ++ (changes.drop 4).take i)).get "b" = some "z" := by
  intro first changes last l
  obtain ⟨hview, hsaved, hfresh⟩ :=
    view_performAll_create (.ofList [(("a" : Text), ("1" : Text))]) false 3 removalRun
  have htimeline : l.timelines "a" = some ⟨["1"], "2", [], "1"⟩ := by rfl
  have huntracked : (first.after (changes.take 4)).contains "b" = false := by decide +kernel
  have hhistory : last.history? "b" = some (.start 3 "z") := by decide +kernel
  have hsplit : changes = changes.take 4 ++ changes.drop 4 :=
    (List.take_append_drop 4 changes).symm
  exact ⟨hview, htimeline, hsaved "a" _ htimeline, huntracked, hhistory,
    hfresh _ _ hsplit "b" huntracked _ hhistory "z" List.mem_cons_self⟩

end Store

end VersionedProperties
