import VersionedProperties.Proofs.Mapping
import VersionedProperties.Proofs.Store.Change

/-!
# Changes name by name

A store treats its names apart: what a change does to the history of a name depends on the change,
on the default of the name and on this history, and on nothing else in the store. `Change.effect` is
what a change means for one name, `history?_apply` says that the store does just that.
-/

namespace VersionedProperties

namespace History

/-- The value that a step gives, if it gives one. -/
def Edit.value? {α : Type} : Edit α → Option α
  | .push value => some value
  | .sync value => some value
  | .undo => none
  | .redo => none
  | .markSynced => none

/-- Whether a step may change a history. -/
def Edit.moves {α : Type} [DecidableEq α] (h : History α) : Edit α → Bool
  | .push value => h.accepts value
  | .sync _ => true
  | .undo => h.canUndo
  | .redo => h.canRedo
  | .markSynced => true

theorem edit_of_not_moves {α : Type} [DecidableEq α] {h : History α} {e : Edit α}
    (he : e.moves h = false) : (h.edit e).2 = h := by
  cases e with
  | push value =>
      have hv : value = h.current := by simpa [Edit.moves, accepts] using he
      rw [edit, push, if_pos hv]
  | sync value => cases he
  | undo =>
      have hcan : ¬ h.canUndo = true := Bool.eq_false_iff.1 he
      rw [edit, undo, if_neg hcan]
  | redo =>
      have hcan : ¬ h.canRedo = true := Bool.eq_false_iff.1 he
      rw [edit, redo, if_neg hcan]
  | markSynced => cases he

end History

namespace Store

/-- What becomes of one name. -/
inductive Effect where
  | keep
  /-- The name is no longer tracked. -/
  | drop
  /-- A step of the history. A name that is not tracked starts a history with the value that the
  step gives, and remains untracked if it gives none. -/
  | edit (e : History.Edit Text)

/-- The history of a name after an effect. -/
def Effect.onHistory (limit : Int) (history? : Option (History Text)) :
    Effect → Option (History Text)
  | .keep => history?
  | .drop => none
  | .edit e =>
    match history? with
    | some h => some (h.edit e).2
    | none => e.value?.map (History.start limit)

/-- What a name with a default becomes by a step to it; a name without default is dropped. -/
def Effect.toValue (edit : Text → History.Edit Text) : Option Text → Effect
  | some value => .edit (edit value)
  | none => .drop

/-- What becomes of a name by an effect that is on one name only. -/
def Effect.only (effect : Effect) (changed name : Text) : Effect :=
  if name = changed then effect else .keep

/-- What a change means for one name. -/
def Change.effect (default? : Text → Option Text) (name : Text) : Change → Effect
  | .set changed value => (Effect.edit (.push value)).only changed name
  | .resetToDefault changed => (Effect.toValue .push (default? name)).only changed name
  | .resetAll => .toValue .push (default? name)
  | .undo changed => (Effect.edit .undo).only changed name
  | .redo changed => (Effect.edit .redo).only changed name
  | .load source => .toValue .sync ((source.find? name).or (default? name))
  | .commit => .edit .markSynced
  | .setSavingDefaults _ => .keep

theorem Effect.only_self (name : Text) (effect : Effect) : effect.only name name = effect :=
  if_pos rfl

theorem Effect.only_of_ne {changed name : Text} (h : name ≠ changed) (effect : Effect) :
    effect.only changed name = .keep :=
  if_neg h

theorem history?_changed (s : Store) (histories : Mapping Text (History Text)) (name : Text) :
    (s.changed histories).history? name = histories.find? name := rfl

theorem contains_eq_isSome (s : Store) (name : Text) :
    s.contains name = (s.history? name).isSome := rfl

theorem contains_eq_isSome_get (s : Store) (name : Text) :
    s.contains name = (s.get name).isSome := by
  rw [contains_eq_isSome, get, Option.isSome_map]

/-- The store after a step of the history of one name: only a step that may change the history is
taken, and a name that is not tracked starts a history if the step gives a value. -/
inductive Edited (s : Store) (name : Text) (e : History.Edit Text) : Store → Prop
  | unknown (hh : s.history? name = none) (hv : e.value? = none) : Edited s name e s
  | created {value : Text} (hh : s.history? name = none) (hv : e.value? = some value) :
      Edited s name e (s.changed (s.histories.insert name (.start s.historyLimit value)))
  | still {h : History Text} (hh : s.history? name = some h) (hm : e.moves h = false) :
      Edited s name e s
  | moved {h : History Text} (hh : s.history? name = some h) (hm : e.moves h = true) :
      Edited s name e (s.changed (s.histories.insert name (h.edit e).2))

variable (s : Store)

theorem edited_set (name value : Text) : s.Edited name (.push value) (s.set name value).2 := by
  unfold set
  split
  · exact .created ‹_› rfl
  · split
    · exact .moved ‹_› ‹_›
    · exact .still ‹_› (Bool.eq_false_iff.2 ‹_›)

theorem edited_undo (name : Text) : s.Edited name .undo (s.undo name).2 := by
  unfold undo
  split
  · exact .unknown ‹_› rfl
  · split
    · exact .moved ‹_› ‹_›
    · exact .still ‹_› (Bool.eq_false_iff.2 ‹_›)

theorem edited_redo (name : Text) : s.Edited name .redo (s.redo name).2 := by
  unfold redo
  split
  · exact .unknown ‹_› rfl
  · split
    · exact .moved ‹_› ‹_›
    · exact .still ‹_› (Bool.eq_false_iff.2 ‹_›)

variable {s}

/-- A step for one name has its effect on this name and none on others. -/
theorem Edited.history? {next : Store} {changed : Text} {e : History.Edit Text}
    (h : s.Edited changed e next) (name : Text) :
    next.history? name =
      ((Effect.edit e).only changed name).onHistory s.historyLimit (s.history? name) := by
  by_cases hname : name = changed
  · subst hname
    rw [Effect.only_self]
    cases h with
    | unknown hh hv => rw [hh, Effect.onHistory, hv, Option.map_none]
    | created hh hv =>
        rw [history?_changed, Mapping.find?_insert, if_pos rfl, hh, Effect.onHistory, hv]
        rfl
    | still hh hm => rw [hh, Effect.onHistory, History.edit_of_not_moves hm]
    | moved hh hm =>
        rw [history?_changed, Mapping.find?_insert, if_pos rfl, hh]
        rfl
  · rw [Effect.only_of_ne hname]
    cases h with
    | unknown => rfl
    | created =>
        rw [history?_changed, Mapping.find?_insert, if_neg hname]
        rfl
    | still => rfl
    | moved =>
        rw [history?_changed, Mapping.find?_insert, if_neg hname]
        rfl

variable (s)

theorem undo_fst (name : Text) : (s.undo name).1 = (s.undo name).2.get name := by
  unfold undo get
  cases hh : s.history? name with
  | none => simp [hh]
  | some h =>
      dsimp only
      split
      · simp [history?_changed, Mapping.find?_insert]
      · simp [hh]

theorem redo_fst (name : Text) : (s.redo name).1 = (s.redo name).2.get name := by
  unfold redo get
  cases hh : s.history? name with
  | none => simp [hh]
  | some h =>
      dsimp only
      split
      · simp [history?_changed, Mapping.find?_insert]
      · simp [hh]

theorem history?_resetToDefault (changed name : Text) :
    (s.resetToDefault changed).2.history? name =
      ((Effect.toValue .push (s.getDefault name)).only changed name).onHistory s.historyLimit
        (s.history? name) := by
  unfold resetToDefault
  by_cases hname : name = changed
  · subst hname
    rw [Effect.only_self]
    cases hdefault : s.getDefault name with
    | some value =>
        dsimp only
        rw [(s.edited_set name value).history?, Effect.only_self]
        rfl
    | none =>
        dsimp only
        split
        · rw [history?_changed, Mapping.find?_erase, if_pos rfl]
          rfl
        · rename_i hcontains
          have hnone : s.history? name = none := by
            simpa [contains_eq_isSome] using hcontains
          rw [hnone]
          rfl
  · rw [Effect.only_of_ne hname]
    cases s.getDefault changed with
    | some value =>
        dsimp only
        rw [(s.edited_set changed value).history?, Effect.only_of_ne hname]
    | none =>
        dsimp only
        split
        · rw [history?_changed, Mapping.find?_erase, if_neg hname]
          rfl
        · rfl

/-! Resetting everything -/

theorem find?_withMissing (limit : Int) (defaults : List (Text × Text))
    (histories : Mapping Text (History Text)) (name : Text) :
    (withMissing limit defaults histories).find? name =
      (histories.find? name).or
        (((defaults.find? (·.1 = name)).map Prod.snd).map (History.start limit)) := by
  induction defaults generalizing histories with
  | nil => simp [withMissing]
  | cons e rest ih =>
      have hstep : withMissing limit (e :: rest) histories =
          withMissing limit rest (if histories.contains e.1 then histories
            else histories.insert e.1 (.start limit e.2)) := rfl
      rw [hstep, ih]
      by_cases hname : e.1 = name
      · subst hname
        by_cases hc : histories.contains e.1 = true
        · rw [if_pos hc]
          obtain ⟨h, hh⟩ := Option.isSome_iff_exists.1 hc
          rw [hh]
          rfl
        · rw [if_neg hc, Mapping.find?_insert, if_pos rfl]
          have hnone : histories.find? e.1 = none := by simpa [Mapping.contains] using hc
          rw [hnone]
          simp
      · rw [List.find?_cons_of_neg (by simpa using hname)]
        split
        · rfl
        · rw [Mapping.find?_insert, if_neg (Ne.symm hname)]

/-- Where nothing is dropped or added, every default is current already. -/
theorem history?_of_unchanged
    (hdropped : s.histories.entries.any (fun e =>
      match s.getDefault e.1 with
      | some value => e.2.accepts value
      | none => true) = false)
    (hadded : s.defaults.keys.any (fun name => !s.contains name) = false) (name : Text) :
    s.history? name =
      (Effect.toValue .push (s.getDefault name)).onHistory s.historyLimit (s.history? name) := by
  rw [List.any_eq_false] at hdropped hadded
  cases hh : s.history? name with
  | some h =>
      have hentry := hdropped (name, h) (Mapping.find?_eq_some_iff.1 hh)
      cases hdefault : s.getDefault name with
      | some value =>
          rw [hdefault] at hentry
          have hstill : (History.Edit.push value).moves h = false := Bool.eq_false_iff.2 hentry
          rw [Effect.toValue, Effect.onHistory, History.edit_of_not_moves hstill]
      | none =>
          rw [hdefault] at hentry
          exact absurd rfl hentry
  | none =>
      cases hdefault : s.getDefault name with
      | some value =>
          have hkey : name ∈ s.defaults.keys := by
            apply Mapping.contains_iff.1
            rw [Mapping.contains]
            exact Option.isSome_of_eq_some hdefault
          have hcontains := hadded name hkey
          simp [contains_eq_isSome, hh] at hcontains
      | none => rfl

theorem history?_resetAll (name : Text) :
    s.resetAll.2.history? name =
      (Effect.toValue .push (s.getDefault name)).onHistory s.historyLimit (s.history? name) := by
  unfold resetAll
  dsimp only
  split
  · rw [history?_changed, find?_withMissing, Mapping.find?_filterMap]
    have hdefault : (s.defaults.entries.find? (·.1 = name)).map Prod.snd = s.getDefault name := rfl
    have hhistory : s.histories.find? name = s.history? name := rfl
    rw [hdefault, hhistory]
    cases s.getDefault name with
    | none => cases s.history? name <;> rfl
    | some value => cases s.history? name <;> rfl
  · rename_i hsame
    rw [Bool.or_eq_true, not_or] at hsame
    exact s.history?_of_unchanged (Bool.eq_false_iff.2 hsame.1) (Bool.eq_false_iff.2 hsame.2) name

/-! Loading -/

theorem find?_syncEntry (limit : Int) (histories : Mapping Text (History Text)) (e : Text × Text)
    (name : Text) :
    (syncEntry limit histories e).find? name =
      if name = e.1 then
        Effect.onHistory limit (histories.find? name) (.edit (.sync e.2))
      else histories.find? name := by
  unfold syncEntry
  split
  · rename_i hnone
    rw [Mapping.find?_insert]
    split
    · rename_i hname
      rw [hname, hnone]
      rfl
    · rfl
  · rename_i h hsome
    rw [Mapping.find?_insert]
    split
    · rename_i hname
      rw [hname, hsome]
      rfl
    · rfl

theorem find?_foldl_syncEntry (limit : Int) {entries : List (Text × Text)}
    (hnodup : (entries.map Prod.fst).Nodup) (histories : Mapping Text (History Text))
    (name : Text) :
    (entries.foldl (syncEntry limit) histories).find? name =
      ((entries.find? (·.1 = name)).map Prod.snd).elim (histories.find? name) fun value =>
        Effect.onHistory limit (histories.find? name) (.edit (.sync value)) :=
  Mapping.find?_foldl (fun value history? => Effect.onHistory limit history? (.edit (.sync value)))
    (find?_syncEntry limit) hnodup histories name

/-- The defaults that a source lacks. -/
def lackedDefaults (source : Mapping Text Text) : Mapping Text Text :=
  s.defaults.filter fun name _ => !source.contains name

theorem nodup_lackedDefaults_append (source : Mapping Text Text) :
    (((s.lackedDefaults source).entries ++ source.entries).map Prod.fst).Nodup := by
  rw [List.map_append, List.nodup_append]
  refine ⟨(s.lackedDefaults source).nodup_keys, source.nodup_keys, ?_⟩
  intro name hlacked other hsource heq
  subst heq
  obtain ⟨e, he, rfl⟩ := List.mem_map.1 hlacked
  have hmissing : (!source.contains e.1) = true := (List.mem_filter.1 he).2
  rw [Mapping.contains_iff.2 hsource] at hmissing
  cases hmissing

theorem find?_lackedDefaults_append (source : Mapping Text Text) (name : Text) :
    (((s.lackedDefaults source).entries ++ source.entries).find? (·.1 = name)).map Prod.snd =
      (source.find? name).or (s.getDefault name) := by
  rw [List.find?_append, Option.map_or]
  change ((s.lackedDefaults source).find? name).or (source.find? name) = _
  rw [lackedDefaults, Mapping.find?_filter, Mapping.contains]
  change ((s.getDefault name).filter _).or _ = _
  cases source.find? name <;> cases s.getDefault name <;> rfl

theorem history?_load (source : Mapping Text Text) (name : Text) :
    (s.load source).history? name =
      (Effect.toValue .sync ((source.find? name).or (s.getDefault name))).onHistory s.historyLimit
        (s.history? name) := by
  let kept := s.histories.filter fun name _ => source.contains name || s.defaults.contains name
  have hload : (s.load source).history? name =
      (((s.lackedDefaults source).entries ++ source.entries).foldl (syncEntry s.historyLimit)
        kept).find? name := rfl
  rw [hload, find?_foldl_syncEntry s.historyLimit (s.nodup_lackedDefaults_append source),
    find?_lackedDefaults_append, Mapping.find?_filter]
  have hdefault : s.defaults.find? name = s.getDefault name := rfl
  have hhistory : s.histories.find? name = s.history? name := rfl
  rw [Mapping.contains, Mapping.contains, hdefault, hhistory]
  cases source.find? name <;> cases s.getDefault name <;> cases s.history? name <;> rfl

theorem history?_commit (name : Text) :
    s.commit.history? name = (s.history? name).map History.markSynced := by
  rw [commit, history?_changed, Mapping.find?_mapEntries]
  rfl

/-! All changes -/

/-- After a change, each name has the history that the change means for it. -/
theorem history?_apply (c : Change) (name : Text) :
    (s.apply c).history? name =
      (c.effect s.getDefault name).onHistory s.historyLimit (s.history? name) := by
  cases c with
  | set changed value => exact (s.edited_set changed value).history? name
  | resetToDefault changed => exact s.history?_resetToDefault changed name
  | resetAll => exact s.history?_resetAll name
  | undo changed => exact (s.edited_undo changed).history? name
  | redo changed => exact (s.edited_redo changed).history? name
  | load source => exact s.history?_load source name
  | commit =>
      rw [apply, history?_commit]
      cases s.history? name <;> rfl
  | setSavingDefaults b => rfl

end Store

end VersionedProperties
