import VersionedProperties.Proofs.Manager.FailedAction

/-!
# The errors of loads and saves

A load hands one task to the workers, and so does a save, after the load that it begins with if
nothing has been loaded (`HandsOver`). What goes wrong in an action is that a task is refused or
fails, or that nothing has been loaded for a save and the manager does not load by itself (`Meets`).
Whoever waits for the action gets the error of a task as a property error: it is one, or it is the
cause of one (`Surfaces`). Closed workers refuse a task before anybody waits for it, and their error
gets through as it is. It is no property error, and no other error gets through like this.
-/

namespace VersionedProperties.Manager

/-- The command that does an action on the file and waits for it. -/
def Command.ofAction : FileAction → Command
  | .loading => .load
  | .reloading => .reload
  | .saving => .save

/-- An error surfaces as a property error: as itself if it is one, and otherwise as the cause of an
error that tells the action and the path. -/
structure Surfaces (path : Text) (phase : FileAction) (cause e : Error) : Prop where
  property : e.isPropertyError = true
  itself : cause.isPropertyError = true → e = cause
  wrapped : cause.isPropertyError = false → e = .failed phase path cause

theorem not_surfaces_workersClosed {path : Text} {phase : FileAction} {cause : Error} :
    ¬ Surfaces path phase cause .workersClosed :=
  fun h => Bool.false_ne_true h.property

namespace Session

variable {call : Calling} {s t : Session} {action phase : FileAction} {cause e : Error}

section Tasks

/-- The task of an action. -/
def task : FileAction → Session → Except Error Unit × Session
  | .loading | .reloading => takeFile
  | .saving => writeFile

/-- In the course of an action, the task of an action is handed to the workers: its own, or that of
the load that a save begins with. The session is the one at this time. -/
inductive HandsOver (call : Calling) (s : Session) : FileAction → FileAction → Session → Prop where
  | loading (hs : s.manager.store.loaded = false) : HandsOver call s .loading .loading s
  | reloading : HandsOver call s .reloading .reloading s
  | firstLoad (hs : s.manager.store.loaded = false) (hauto : s.manager.autoLoad = true) :
      HandsOver call s .saving .loading s
  | saving {t : Session} (ht : s.ensureLoaded call = (.ok (), t)) :
      HandsOver call s .saving .saving t

/-- What goes wrong in an action, with the action in whose course it does. -/
inductive Meets (call : Calling) (s : Session) : FileAction → FileAction → Error → Prop where
  | notLoaded (hs : s.manager.store.loaded = false) (hauto : s.manager.autoLoad = false) :
      Meets call s .saving .saving (.notLoaded s.manager.path.toText)
  | refused {action phase : FileAction} {t : Session} (h : HandsOver call s action phase t)
      (ht : t.takesWork = false) : Meets call s action phase .workersClosed
  | failed {action phase : FileAction} {t : Session} {cause : Error}
      (h : HandsOver call s action phase t) (ht : t.takesWork = true)
      (hcause : (task phase t).1 = .error cause) : Meets call s action phase cause

/-- A task of an action is handed to workers that do not take it. -/
def Refused (call : Calling) (s : Session) (action : FileAction) : Prop :=
  ∃ phase t, HandsOver call s action phase t ∧ t.takesWork = false

/-- What the one who waits for a task gets if it is refused or fails. -/
inductive Raises (t : Session) (phase : FileAction) : Error → Prop where
  | refused (ht : t.takesWork = false) : Raises t phase .workersClosed
  | failed {cause : Error} (ht : t.takesWork = true) (hcause : (task phase t).1 = .error cause) :
      Raises t phase (t.wrap phase cause)

theorem surfaces_wrap (s : Session) (phase : FileAction) (cause : Error) :
    Surfaces s.manager.path.toText phase cause (s.wrap phase cause) := by
  unfold wrap
  cases hcause : cause.isPropertyError with
  | true => exact ⟨hcause, fun _ => rfl, fun h => nomatch hcause.symm.trans h⟩
  | false => exact ⟨rfl, fun h => (nomatch hcause.symm.trans h), fun _ => rfl⟩

theorem path_of_task_error (h : task phase s = (.error e, t)) :
    t.manager.path = s.manager.path := by
  cases phase with
  | loading | reloading => rw [takeFile_error h]
  | saving =>
      obtain ⟨disk, -, rfl⟩ := writeFile_error h
      rfl

theorem await_task_fst (call : Calling) (phase : FileAction) (kind : EventKind) (t : Session) :
    (t.await call phase kind (task phase)).1 =
      if t.takesWork then (task phase t).1.mapError (t.wrap phase) else .error .workersClosed := by
  unfold await
  split
  · split <;> rename_i htask <;> rw [htask]
    · rfl
    · rw [wrap, path_of_task_error htask]
      rfl
  · rfl

theorem await_task_error_iff (call : Calling) (phase : FileAction) (kind : EventKind) :
    (t.await call phase kind (task phase)).1 = .error e ↔ t.Raises phase e := by
  rw [await_task_fst]
  constructor
  · intro h
    split at h
    · rename_i ht
      cases hcause : (task phase t).1 with
      | ok _ =>
          rw [hcause] at h
          cases h
      | error cause =>
          rw [hcause] at h
          cases h
          exact .failed ht hcause
    · rename_i ht
      cases h
      exact .refused (Bool.eq_false_iff.2 ht)
  · intro h
    cases h with
    | refused ht => rw [if_neg (Bool.eq_false_iff.1 ht)]
    | failed ht hcause =>
        rw [if_pos ht, hcause]
        rfl

end Tasks

section Actions

theorem load_error_iff :
    (s.load call).1 = .error e ↔ s.manager.store.loaded = false ∧ s.Raises .loading e := by
  unfold load
  cases s.manager.store.loaded with
  | true => simp
  | false =>
      have hawait : (s.await call .loading .loaded takeFile).1 = .error e ↔ s.Raises .loading e :=
        await_task_error_iff call .loading .loaded
      simpa using hawait

theorem ensureLoaded_error_iff :
    (s.ensureLoaded call).1 = .error e ↔ s.manager.store.loaded = false ∧
      (s.manager.autoLoad = false ∧ e = .notLoaded s.manager.path.toText ∨
        s.manager.autoLoad = true ∧ s.Raises .loading e) := by
  unfold ensureLoaded
  cases hs : s.manager.store.loaded with
  | true => simp
  | false =>
      cases s.manager.autoLoad with
      | true => simp [load_error_iff, hs]
      | false => simp [eq_comm]

theorem save_error_iff :
    (s.save call).1 = .error e ↔ (s.ensureLoaded call).1 = .error e ∨
      ∃ t, s.ensureLoaded call = (.ok (), t) ∧ t.Raises .saving e := by
  unfold save onceLoaded
  rcases s.ensureLoaded call with ⟨_ | _, t⟩
  · simp
  · have hawait : (t.await call .saving .saved writeFile).1 = .error e ↔ t.Raises .saving e :=
      await_task_error_iff call .saving .saved
    simpa using hawait

theorem answered_error_iff {α : Type} {f : α → Answer} {r : Except Error α × Session} :
    (answered f r).1 = .error e ↔ r.1 = .error e := by
  rcases r with ⟨_ | _, _⟩
  · simp [answered, Except.map]
  · simp [answered, Except.map]

/-- An action fails because it may not load what it needs, or because of a task. -/
theorem perform_ofAction_error_iff :
    (Manager.perform call s (.ofAction action)).1 = .error e ↔
      (action = .saving ∧ s.manager.store.loaded = false ∧ s.manager.autoLoad = false ∧
        e = .notLoaded s.manager.path.toText) ∨
      ∃ phase t, HandsOver call s action phase t ∧ t.Raises phase e := by
  constructor
  · intro h
    cases action with
    | loading =>
        obtain ⟨hs, hraises⟩ := load_error_iff.1 (answered_error_iff.1 h)
        exact .inr ⟨.loading, s, .loading hs, hraises⟩
    | reloading =>
        have hraises := (await_task_error_iff call .reloading .loaded).1 (answered_error_iff.1 h)
        exact .inr ⟨.reloading, s, .reloading, hraises⟩
    | saving =>
        rcases save_error_iff.1 (answered_error_iff.1 h) with hload | ⟨t, ht, hraises⟩
        · obtain ⟨hs, ⟨hauto, rfl⟩ | ⟨hauto, hraises⟩⟩ := ensureLoaded_error_iff.1 hload
          · exact .inl ⟨rfl, hs, hauto, rfl⟩
          · exact .inr ⟨.loading, s, .firstLoad hs hauto, hraises⟩
        · exact .inr ⟨.saving, t, .saving ht, hraises⟩
  · rintro (⟨rfl, hs, hauto, rfl⟩ | ⟨phase, t, hover, hraises⟩)
    · exact answered_error_iff.2
        (save_error_iff.2 (.inl (ensureLoaded_error_iff.2 ⟨hs, .inl ⟨hauto, rfl⟩⟩)))
    · cases hover with
      | loading hs => exact answered_error_iff.2 (load_error_iff.2 ⟨hs, hraises⟩)
      | reloading =>
          exact answered_error_iff.2 ((await_task_error_iff call .reloading .loaded).2 hraises)
      | firstLoad hs hauto =>
          exact answered_error_iff.2
            (save_error_iff.2 (.inl (ensureLoaded_error_iff.2 ⟨hs, .inr ⟨hauto, hraises⟩⟩)))
      | saving ht => exact answered_error_iff.2 (save_error_iff.2 (.inr ⟨t, ht, hraises⟩))

theorem HandsOver.path (hcall : LeadingCalling call) (h : HandsOver call s action phase t) :
    t.manager.path = s.manager.path := by
  cases h with
  | loading | reloading | firstLoad => rfl
  | saving ht =>
      have hleads := leads_ensureLoaded hcall s
      rw [ht] at hleads
      exact hleads.path_naming.1

/-- An action on the file that fails raises a property error, which is the error that it has met or
has it for its cause, exactly if no task of it is refused. -/
theorem surfaces_iff_not_refused (depth : Nat)
    (h : (Manager.perform (callWithin depth) s (.ofAction action)).1 = .error e) :
    ∃ phase cause, Meets (callWithin depth) s action phase cause ∧
      (Surfaces s.manager.path.toText phase cause e ↔ ¬ Refused (callWithin depth) s action) := by
  have hcall := leadingCalling_callWithin depth
  have hproper : e.isPropertyError = true → ¬ Refused (callWithin depth) s action := by
    rintro hproper ⟨phase, t, hover, ht⟩
    have hclosed := perform_ofAction_error_iff.2 (.inr ⟨phase, t, hover, .refused ht⟩)
    cases h.symm.trans hclosed
    cases hproper
  rcases perform_ofAction_error_iff.1 h with ⟨rfl, hs, hauto, rfl⟩ | ⟨phase, t, hover, hraises⟩
  · refine ⟨_, _, .notLoaded hs hauto, iff_of_true ⟨rfl, fun _ => rfl, nofun⟩ (hproper rfl)⟩
  · cases hraises with
    | refused ht =>
        exact ⟨phase, _, .refused hover ht,
          iff_of_false not_surfaces_workersClosed (not_not_intro ⟨phase, t, hover, ht⟩)⟩
    | failed ht hcause =>
        rename_i cause
        have hsurfaces := t.surfaces_wrap phase cause
        rw [hover.path hcall] at hsurfaces
        exact ⟨phase, _, .failed hover ht hcause,
          iff_of_true hsurfaces (hproper hsurfaces.property)⟩

theorem surfaces_iff_not_refused_unlucky :
    let e : Error := .failed .saving "p.properties" (.system .device)
    (Manager.perform (callWithin 1) unlucky (.ofAction .saving)).1 = .error e ∧
      ∃ phase cause, Meets (callWithin 1) unlucky .saving phase cause ∧
        (Surfaces unlucky.manager.path.toText phase cause e ↔
          ¬ Refused (callWithin 1) unlucky .saving) := by
  intro e
  have hfail : (Manager.perform (callWithin 1) unlucky (.ofAction .saving)).1 = .error e := by
    with_unfolding_all rfl
  exact ⟨hfail, surfaces_iff_not_refused 1 hfail⟩

/-- A manager that has closed its own workers. -/
def withClosedWorkers : Session :=
  let s := start
    (create {} (.ofText "p.properties") (.ofList [("a", "1")])
      (.standard { name := "Keys", members := [("A", some "1")] }) none none (.own false))
    { now := .newYear }
  (s.step .close).2

/-- The error of a load that is refused is no property error. -/
theorem not_surfaces_load_withClosedWorkers :
    withClosedWorkers.Reached ∧ ∃ e, (withClosedWorkers.step .load).1.answer = .error e ∧
      ∀ phase cause, ¬ Surfaces withClosedWorkers.manager.path.toText phase cause e := by
  have hfail : (withClosedWorkers.step .load).1.answer = .error .workersClosed := rfl
  exact ⟨(Reached.start ..).step _, _, hfail, fun _ _ => not_surfaces_workersClosed⟩

end Actions

end Session

end VersionedProperties.Manager
