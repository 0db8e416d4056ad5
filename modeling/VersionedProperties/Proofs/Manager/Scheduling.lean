import VersionedProperties.Proofs.Manager.ActionError
import VersionedProperties.Proofs.Manager.TransparentRun

/-!
# Scheduled work

Work that is waited for tells its event to the one who waits, and work that is scheduled tells it in
a callback, where the work that listeners ask for is done on the spot. As long as the workers are
open this makes no difference, however listeners react and however deep their calls nest, so that a
reload or a save leaves the same session either way. The two differ in the errors alone: whoever
waits gets errors of other kinds wrapped.
-/

namespace VersionedProperties.Manager.Session

variable {call : Calling} {s : Session}

theorem StaysOpen.step (hs : s.StaysOpen) {c : Command} (hc : c.keepsOpen = true) :
    (s.step c).2.StaysOpen :=
  (HiddenPart.transparent_step (p := .callback false) hc).keeps s hs

theorem StaysOpen.run (hs : s.StaysOpen) {commands : List Command}
    (h : ∀ c ∈ commands, c.keepsOpen = true) : (s.run commands).2.StaysOpen :=
  (HiddenPart.transparent_run (p := .callback false) h).keeps s hs

theorem StaysOpen.takesWork (hs : s.StaysOpen) : s.takesWork = true := by
  rw [Session.takesWork, hs.areOpen, Bool.or_true]

theorem transparent_task (p : HiddenPart) (phase : FileAction) : Transparent p (task phase) := by
  cases phase with
  | loading | reloading => exact transparent_takeFile
  | saving => exact transparent_writeFile

theorem wrap_of_path {t : Session} (h : t.manager.path = s.manager.path) (phase : FileAction) :
    t.wrap phase = s.wrap phase := by
  funext e
  rw [wrap, h]
  rfl

/-- An error of the load that comes before an operation has been wrapped for whoever waits. -/
theorem wrap_of_ensureLoaded_error (hs : s.StaysOpen) {e : Error}
    (he : (s.ensureLoaded call).1 = .error e) (phase : FileAction) : s.wrap phase e = e := by
  obtain ⟨-, ⟨-, rfl⟩ | ⟨-, hraises⟩⟩ := ensureLoaded_error_iff.1 he
  · rfl
  · cases hraises with
    | refused ht => exact absurd (ht.symm.trans hs.takesWork) Bool.false_ne_true
    | failed _ _ => exact if_pos (surfaces_wrap s .loading _).property

section Events

variable (hcall : ∀ running, TransparentCalling (.callback running) call)

include hcall

/-- An event fired inside a callback does what it does outside. -/
theorem fire_inCallback (hs : s.StaysOpen) (event : Event) :
    { { s with inCallback := true }.fire call event with inCallback := s.inCallback } =
      s.fire call event := by
  have hmarked : ∀ running, { s with inCallback := running }.fire call event =
      { s.fire call event with inCallback := running } :=
    fun running => (transparent_fire (hcall running) event).forgets s hs
  rw [hmarked true]
  -- the mark that the session has is one of those that may be put
  exact (hmarked s.inCallback).symm

/-- A task that is scheduled leaves the session of one that is waited for, and its outcome is that
before anything is wrapped. -/
theorem await_eq_schedule (hs : s.StaysOpen) (phase : FileAction) (kind : EventKind) :
    s.await call phase kind (task phase) =
      ((s.schedule call kind (task phase)).1.mapError (s.wrap phase),
        (s.schedule call kind (task phase)).2) := by
  have hkept : (task phase s).2.StaysOpen := (transparent_task (.callback false) phase).keeps s hs
  unfold await schedule
  rw [if_pos hs.takesWork, if_pos hs.takesWork]
  rcases htask : task phase s with ⟨e | _, t⟩
  · rw [← wrap_of_path (path_of_task_error htask)]
    rfl
  · rw [htask] at hkept
    dsimp only
    rw [fire_inCallback hcall hkept]
    rfl

theorem reload_eq_scheduleReload (hs : s.StaysOpen) :
    s.reload call = ((s.scheduleReload call).1.mapError (s.wrap .reloading),
      (s.scheduleReload call).2) :=
  await_eq_schedule hcall hs .reloading .loaded

theorem save_eq_scheduleSave (hleads : LeadingCalling call) (hs : s.StaysOpen) :
    s.save call = ((s.scheduleSave call).1.mapError (s.wrap .saving),
      (s.scheduleSave call).2) := by
  have hkept : (s.ensureLoaded call).2.StaysOpen :=
    (transparent_ensureLoaded (hcall false)).keeps s hs
  have hpath := (leads_ensureLoaded hleads s).path_naming.1
  unfold save scheduleSave onceLoaded
  rcases hload : s.ensureLoaded call with ⟨e | _, t⟩
  · have hwrap : s.wrap .saving e = e :=
      wrap_of_ensureLoaded_error hs (by rw [hload]) .saving
    simp only [Except.mapError, hwrap]
  · rw [hload] at hkept hpath
    rw [← wrap_of_path hpath]
    exact await_eq_schedule hcall hkept .saving .saved

end Events

/-- Two steps leave the same session and the same store and call listeners alike on the way. They
fail together and for the same cause, which the second wraps. -/
structure DiffersInWrapping (wrap : Error → Error) (scheduled awaited : Report × Session) :
    Prop where
  session : awaited.2 = scheduled.2
  store : awaited.1.store = scheduled.1.store
  calls : awaited.1.calls = scheduled.1.calls
  succeeds : ∀ a, scheduled.1.answer = .ok a → awaited.1.answer = .ok .nothing
  fails : ∀ cause, scheduled.1.answer = .error cause → awaited.1.answer = .error (wrap cause)

theorem differsInWrapping_step {wrap : Error → Error} {c d : Command}
    {scheduled : Except Error Unit × Session}
    (hc : Session.perform { s with log := [] } c = answered (fun _ => .flag true) scheduled)
    (hd : Session.perform { s with log := [] } d =
      answered (fun _ => .nothing) (scheduled.1.mapError wrap, scheduled.2)) :
    DiffersInWrapping wrap (s.step c) (s.step d) := by
  unfold step
  rw [hc, hd]
  rcases scheduled with ⟨_ | _, t⟩
  · exact ⟨rfl, rfl, rfl, nofun, fun _ h => congrArg _ (congrArg wrap (Except.error.inj h))⟩
  · exact ⟨rfl, rfl, rfl, fun _ _ => rfl, nofun⟩

/-- As long as the workers are open and no listener closes them, a reload or a save that is
scheduled does what it does when it is waited for, except that whoever waits gets errors wrapped. -/
theorem scheduled_as_awaited (hs : s.StaysOpen) :
    DiffersInWrapping (s.wrap .reloading) (s.step .scheduleReload) (s.step .reload) ∧
      DiffersInWrapping (s.wrap .saving) (s.step .scheduleSave) (s.step .save) := by
  let cleared : Session := { s with log := [] }
  let depth : Nat := cleared.allowedRuns + 1
  have hcleared : cleared.StaysOpen := ⟨hs.areOpen, hs.scripts⟩
  have hcall : ∀ running, TransparentCalling (.callback running) (callWithin depth) :=
    fun _ => transparentCalling_callWithin depth
  have hreload := reload_eq_scheduleReload hcall hcleared
  have hsave := save_eq_scheduleSave hcall (leadingCalling_callWithin depth) hcleared
  constructor
  · exact differsInWrapping_step rfl (congrArg (answered fun _ => .nothing) hreload)
  · exact differsInWrapping_step rfl (congrArg (answered fun _ => .nothing) hsave)

/-- A manager with a listener that saves and reloads when it is first called, and another that only
looks on. -/
def chasing : Session :=
  let content : Utf8.Bytes := [0x61, 0x3D, 0x39, 0x0A]
  let s := start
    (create {} (.ofText "p.properties") (.ofList [("a", "1")])
      (.standard { name := "Keys", members := [("A", some "1")] }) none none (.own false))
    { tree := FileTree.empty.put ["p.properties"] (.file content), now := .newYear }
  (s.run [.listen "chaser" none [.save, .reload] 1 none, .listen "onlooker" none [] 0 none]).2

theorem scheduled_as_awaited_chasing :
    chasing.StaysOpen ∧
      DiffersInWrapping (chasing.wrap .reloading) (chasing.step .scheduleReload)
        (chasing.step .reload) ∧
      DiffersInWrapping (chasing.wrap .saving) (chasing.step .scheduleSave)
        (chasing.step .save) ∧
      (chasing.step .reload).1.calls.map (fun call => (call.listener, call.event.kind)) =
        ([("chaser", .loaded), ("chaser", .saved), ("onlooker", .saved), ("chaser", .loaded),
          ("onlooker", .loaded), ("onlooker", .loaded)] : List (Text × EventKind)) := by
  have hstays : chasing.StaysOpen := by
    have hstart : ∀ m disk, m.workers.areOpen = true → (start m disk).StaysOpen :=
      fun _ _ hopen => ⟨hopen, nofun⟩
    exact (hstart _ _ rfl).run (by decide)
  obtain ⟨hreload, hsave⟩ := scheduled_as_awaited hstays
  exact ⟨hstays, hreload, hsave, by decide +kernel⟩

end VersionedProperties.Manager.Session
