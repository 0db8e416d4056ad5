import VersionedProperties.Proofs.Store.Regular
import VersionedProperties.Proofs.Store.Token

/-!
# The token as a version

Along a run the token never falls, and at two moments with the same token the store has the same
histories, so that the token stands for all current values. A single edit moves the token by one if
it changes something, and else leaves the store as it is. For steps back and forward this rests on
neighbouring entries of a history being different: a step that is possible changes the value.
-/

namespace VersionedProperties

/-- A step that may change a history changes its current value, unless it is one that saves. -/
theorem History.IsRegular.current_edit_ne {limit : Int} {h : History Text}
    (hr : h.IsRegular limit) {e : Edit Text} (hm : e.moves h = true) (he : e.saves = false) :
    (h.edit e).2.current ≠ h.current := by
  cases e with
  | push value =>
      have hne : value ≠ h.current := of_decide_eq_true hm
      rwa [← current_push hr.inRange value] at hne
  | sync value => cases he
  | undo => exact current_undo_ne hr.inRange hr.neighboursDiffer hm
  | redo => exact current_redo_ne hr.neighboursDiffer hm
  | markSynced => cases he

namespace Store

/-- Some current value, or the set of tracked names, is another one in the next store. -/
def Differs (s next : Store) : Prop :=
  ∃ name, next.get name ≠ s.get name ∨ next.contains name ≠ s.contains name

/-- Whether a change is an edit: a value set or reset, or a step back or forward. -/
def Change.isEdit : Change → Bool
  | .set _ _ => true
  | .resetToDefault _ => true
  | .resetAll => true
  | .undo _ => true
  | .redo _ => true
  | _ => false

variable {s next : Store} {name : Text}

theorem differs_iff : s.Differs next ↔ next.get ≠ s.get := by
  constructor
  · rintro ⟨name, hget | htracked⟩ hsame
    · exact hget (congrFun hsame name)
    · rw [contains_eq_isSome_get, contains_eq_isSome_get, hsame] at htracked
      exact htracked rfl
  · intro hne
    obtain ⟨name, hname⟩ := Function.ne_iff.1 hne
    exact ⟨name, .inl hname⟩

theorem not_differs_self (s : Store) : ¬ s.Differs s := by
  rintro ⟨name, hget | hcontains⟩
  · exact hget rfl
  · exact hcontains rfl

theorem differs_of_current {h h' : History Text} (hh : s.history? name = some h)
    (hh' : next.history? name = some h') (hne : h'.current ≠ h.current) : s.Differs next := by
  refine ⟨name, .inl ?_⟩
  rw [get, get, hh, hh']
  exact fun heq => hne (Option.some.inj heq)

theorem differs_of_tracked (name : Text)
    (hne : (next.history? name).isSome ≠ (s.history? name).isSome) : s.Differs next :=
  ⟨name, .inr hne⟩

/-- Either nothing happened, or the token moved on by one and something is different. -/
def Moved (s next : Store) : Prop :=
  next = s ∨ next.token = s.token + 1 ∧ s.Differs next

theorem Moved.token_eq (h : s.Moved next) (hdiffers : s.Differs next) :
    next.token = s.token + 1 := by
  rcases h with rfl | ⟨htoken, _⟩
  · exact absurd hdiffers (not_differs_self _)
  · exact htoken

theorem Moved.eq_of_not_differs (h : s.Moved next) (hnot : ¬ s.Differs next) : next = s := by
  rcases h with hsame | ⟨_, hdiffers⟩
  · exact hsame
  · exact absurd hdiffers hnot

theorem Moved.differs_of_ne (h : s.Moved next) (hne : next ≠ s) : s.Differs next := by
  rcases h with hsame | ⟨_, hdiffers⟩
  · exact absurd hsame hne
  · exact hdiffers

theorem moved_of_edited (hs : s.IsRegular) {e : History.Edit Text} (h : s.Edited name e next)
    (he : e.saves = false) : s.Moved next := by
  have hhistory := h.history? name
  rw [Effect.only_self] at hhistory
  cases h with
  | unknown => exact .inl rfl
  | created hh hv =>
      refine .inr ⟨rfl, differs_of_tracked name ?_⟩
      rw [hhistory, hh, Effect.onHistory, hv]
      simp
  | still => exact .inl rfl
  | moved hh hm =>
      rw [hh] at hhistory
      exact .inr ⟨rfl, differs_of_current hh hhistory ((hs name _ hh).current_edit_ne hm he)⟩

theorem moved_resetToDefault (hs : s.IsRegular) (name : Text) :
    s.Moved (s.resetToDefault name).2 := by
  unfold resetToDefault
  split
  · exact moved_of_edited hs (s.edited_set name _) rfl
  · split
    · rename_i hcontains
      refine .inr ⟨rfl, differs_of_tracked name ?_⟩
      rw [history?_changed, Mapping.find?_erase, if_pos rfl, ← contains_eq_isSome, hcontains]
      exact Bool.false_ne_true
    · exact .inl rfl

theorem differs_resetAll_of_tracked (hs : s.IsRegular) {h : History Text}
    (hh : s.history? name = some h)
    (hdrop : (match s.getDefault name with
      | some value => h.accepts value
      | none => true) = true) : s.Differs s.resetAll.2 := by
  have hhistory := s.history?_resetAll name
  rw [hh] at hhistory
  cases hdefault : s.getDefault name with
  | some value =>
      rw [hdefault] at hhistory hdrop
      have hne := (hs name h hh).current_edit_ne (e := .push value) hdrop rfl
      exact differs_of_current hh hhistory hne
  | none =>
      apply differs_of_tracked name
      rw [hhistory, hdefault, hh]
      exact Bool.false_ne_true

theorem differs_resetAll_of_untracked (hname : name ∈ s.defaults.keys)
    (hcontains : s.contains name = false) : s.Differs s.resetAll.2 := by
  have hhistory := s.history?_resetAll name
  have hnone : s.history? name = none := by simpa [contains_eq_isSome] using hcontains
  obtain ⟨value, hvalue⟩ := Option.isSome_iff_exists.1 (Mapping.contains_iff.2 hname)
  have hdefault : s.getDefault name = some value := hvalue
  apply differs_of_tracked name
  rw [hhistory, hdefault, hnone]
  exact Bool.noConfusion

theorem differs_resetAll (hs : s.IsRegular) (hchanged : s.resetAll.1 = true) :
    s.Differs s.resetAll.2 := by
  have hreason := hchanged
  unfold resetAll at hreason
  dsimp only at hreason
  split at hreason
  · rename_i hcase
    rcases Bool.or_eq_true_iff.1 hcase with hdropped | hadded
    · obtain ⟨e, he, hdrop⟩ := List.any_eq_true.1 hdropped
      exact differs_resetAll_of_tracked hs (Mapping.find?_eq_some_iff.2 he) hdrop
    · obtain ⟨name, hname, hcontains⟩ := List.any_eq_true.1 hadded
      exact differs_resetAll_of_untracked hname (by simpa using hcontains)
  · cases hreason

theorem resetAll_of_unchanged (s : Store) (h : s.resetAll.1 = false) : s.resetAll.2 = s := by
  unfold resetAll at h ⊢
  dsimp only at h ⊢
  split at h
  · cases h
  · rename_i hsame
    rw [if_neg hsame]

theorem moved_resetAll (hs : s.IsRegular) : s.Moved s.resetAll.2 := by
  cases hchanged : s.resetAll.1 with
  | false => exact .inl (s.resetAll_of_unchanged hchanged)
  | true =>
      refine .inr ⟨?_, differs_resetAll hs hchanged⟩
      rw [token_resetAll, hchanged]
      rfl

theorem moved_apply (hs : s.IsRegular) {c : Change} (hc : c.isEdit = true) :
    s.Moved (s.apply c) := by
  cases c with
  | set name value => exact moved_of_edited hs (s.edited_set name value) rfl
  | resetToDefault name => exact moved_resetToDefault hs name
  | resetAll => exact moved_resetAll hs
  | undo name => exact moved_of_edited hs (s.edited_undo name) rfl
  | redo name => exact moved_of_edited hs (s.edited_redo name) rfl
  | load source => cases hc
  | commit => cases hc
  | setSavingDefaults b => cases hc

/-! Moments -/

/-- Either the token is the same and with it all histories, or it has grown. -/
def Versioned (s next : Store) : Prop :=
  next.token = s.token ∧ next.histories = s.histories ∨ s.token < next.token

theorem Follows.versioned (h : next.Follows s) : s.Versioned next := by
  rcases h with rfl | hlt
  · exact .inl ⟨rfl, rfl⟩
  · exact .inr hlt

theorem versioned_apply (s : Store) (c : Change) : s.Versioned (s.apply c) := by
  cases c with
  | set name value => exact (s.follows_set name value).versioned
  | resetToDefault name => exact (s.follows_resetToDefault name).versioned
  | resetAll => exact s.follows_resetAll.versioned
  | undo name => exact (s.follows_undo name).versioned
  | redo name => exact (s.follows_redo name).versioned
  | load source => exact (s.follows_load source).versioned
  | commit => exact s.follows_commit.versioned
  | setSavingDefaults b => exact .inl ⟨rfl, rfl⟩

theorem Versioned.trans {last : Store} (h : s.Versioned next) (h' : next.Versioned last) :
    s.Versioned last := by
  rcases h with ⟨htoken, hsame⟩ | hlt
  · rcases h' with ⟨htoken', hsame'⟩ | hlt'
    · exact .inl ⟨htoken'.trans htoken, hsame'.trans hsame⟩
    · exact .inr (htoken ▸ hlt')
  · rcases h' with ⟨htoken', _⟩ | hlt'
    · exact .inr (htoken'.symm ▸ hlt)
    · exact .inr (hlt.trans hlt')

theorem versioned_after (s : Store) (changes : List Change) : s.Versioned (s.after changes) := by
  induction changes generalizing s with
  | nil => exact .inl ⟨rfl, rfl⟩
  | cons c changes ih => exact (s.versioned_apply c).trans (ih (s.apply c))

/-- The store after the first changes of a run. -/
def moment (s : Store) (changes : List Change) (i : Nat) : Store := s.after (changes.take i)

theorem versioned_moment (s : Store) (changes : List Change) {i j : Nat} (hij : i ≤ j) :
    (s.moment changes i).Versioned (s.moment changes j) := by
  have hsplit : s.moment changes j = (s.moment changes i).after ((changes.take j).drop i) := by
    have htake : changes.take i = (changes.take j).take i := by
      rw [List.take_take, Nat.min_eq_left hij]
    rw [moment, moment, htake, ← after_append, List.take_append_drop]
  rw [hsplit]
  exact versioned_after _ _

/-- Moments with the same token have the same histories, whichever of them is the earlier one. -/
theorem histories_eq_of_token_eq (s : Store) (changes : List Change) {i j : Nat}
    (htoken : (s.moment changes i).token = (s.moment changes j).token) :
    (s.moment changes i).histories = (s.moment changes j).histories := by
  wlog hij : i ≤ j generalizing i j
  · exact (this htoken.symm (Nat.le_of_not_le hij)).symm
  rcases s.versioned_moment changes hij with ⟨_, hsame⟩ | hlt
  · exact hsame.symm
  · exact absurd htoken hlt.ne

theorem snapshot_eq (hdefaults : next.defaults = s.defaults)
    (hhistories : next.histories = s.histories) (includeDefaults : Bool) :
    next.snapshot includeDefaults = s.snapshot includeDefaults := by
  have hget : next.getDefault = s.getDefault := by
    funext name
    rw [getDefault, hdefaults, getDefault]
  rw [snapshot, snapshot, hhistories, hget]

/-- Along a run the token never falls, and where it is the same, so are all histories and with them
all values. An edit at any moment moves the token by one if it changes a current value or the
tracked names, and else leaves the store as it is. -/
theorem token_moment (defaults : Mapping Text Text) (savingDefaults : Bool) (limit : Int)
    (commands : List Command) :
    let first := create defaults savingDefaults limit
    let changes := allChanges commands
    (performAll commands first).2 = first.moment changes changes.length ∧
      (∀ i j, i ≤ j → (first.moment changes i).token ≤ (first.moment changes j).token) ∧
      (∀ i j, (first.moment changes i).token = (first.moment changes j).token →
        (first.moment changes i).histories = (first.moment changes j).histories ∧
        (first.moment changes i).get = (first.moment changes j).get ∧
        (first.moment changes i).snapshot = (first.moment changes j).snapshot) ∧
      ∀ i c, c.isEdit = true →
        let s := first.moment changes i
        (s.Differs (s.apply c) → (s.apply c).token = s.token + 1) ∧
          (¬ s.Differs (s.apply c) → s.apply c = s) := by
  intro first changes
  refine ⟨?_, ?_, ?_, ?_⟩
  · rw [moment, List.take_length]
    exact performAll_snd commands first
  · intro i j hij
    rcases first.versioned_moment changes hij with ⟨htoken, _⟩ | hlt
    · exact htoken.ge
    · exact hlt.le
  · intro i j htoken
    have hhistories := first.histories_eq_of_token_eq changes htoken
    have hdefaults : (first.moment changes i).defaults = (first.moment changes j).defaults := by
      rw [moment, moment, defaults_after, defaults_after]
    refine ⟨hhistories, ?_, ?_⟩
    · funext name
      rw [get, get, history?, history?, hhistories]
    · funext includeDefaults
      exact snapshot_eq hdefaults hhistories includeDefaults
  · intro i c hc s
    have hs : s.IsRegular := (isRegular_create defaults savingDefaults limit).after _
    have hmoved := moved_apply hs hc
    exact ⟨hmoved.token_eq, hmoved.eq_of_not_differs⟩

/-- A run with a save whose sink changes the store and then fails. -/
def failedSaveRun : List Command :=
  [.save [.set "a" (some "2"), .undo "a"] (some "disk full"), .redo "a", .setSavingDefaults true]

theorem token_moment_failedSaveRun :
    let first := create (.ofList [(("a" : Text), ("1" : Text))]) false 100
    let changes := allChanges failedSaveRun
    let s := first.moment changes 3
    (first.moment changes 1).token ≤ s.token ∧
      s.token = (first.moment changes 4).token ∧
      s.histories = (first.moment changes 4).histories ∧
      s.Differs (s.apply (.undo "a")) ∧ (s.apply (.undo "a")).token = s.token + 1 ∧
      ¬ s.Differs (s.apply (.redo "a")) ∧ s.apply (.redo "a") = s := by
  intro first changes s
  obtain ⟨_, hordered, hsame, hedit⟩ :=
    token_moment (.ofList [(("a" : Text), ("1" : Text))]) false 100 failedSaveRun
  have htoken : s.token = (first.moment changes 4).token := by decide +kernel
  have hdiffers : s.Differs (s.apply (.undo "a")) := ⟨"a", .inl (by decide +kernel)⟩
  have hnot : ¬ s.Differs (s.apply (.redo "a")) := by
    have hstay : s.apply (.redo "a") = s := by decide +kernel
    rw [hstay]
    exact s.not_differs_self
  exact ⟨hordered 1 3 (by decide), htoken, (hsame 3 4 htoken).1, hdiffers,
    (hedit 3 (.undo "a") rfl).1 hdiffers, hnot, (hedit 3 (.redo "a") rfl).2 hnot⟩

end Store

end VersionedProperties
