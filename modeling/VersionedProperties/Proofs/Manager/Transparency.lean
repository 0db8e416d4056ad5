import VersionedProperties.Proofs.Manager.HiddenPart

/-!
# Hidden parts are never observed

Where the condition of a hidden part is met, a session answers every command alike with the part and
without, calls the same listeners with the same events, and leaves the same store, whatever the
commands are and however listeners react. The argument goes up along the definitions: given that
calling a listener does not see the part, no operation of a session does; calls that nest to a depth
follow by induction on the depth, and runs by induction on the commands. Which part it is matters
only where an operation touches the part or its condition.
-/

namespace VersionedProperties.Manager

namespace Session

/-- An operation of a session that does not see a part of it. -/
abbrev Transparent (p : HiddenPart) {α : Type} (f : Session → α × Session) : Prop :=
  Oblivious p.Sound p.forget f

/-- A change of a session that does not see a part of it. -/
abbrev TransparentMove (p : HiddenPart) (g : Session → Session) : Prop :=
  ObliviousMove p.Sound p.forget g

end Session

/-- Calling a listener does not see a part of the session. -/
def TransparentCalling (p : HiddenPart) (call : Calling) : Prop :=
  ∀ listener event, Session.Transparent p (call listener event)

namespace Session

variable {p : HiddenPart}

/-- Something done to the manager that does not see the caches and leaves the workers alone. -/
theorem transparent_withManager {α : Type} {f : Manager → α × Manager}
    (hf : Oblivious Manager.CachesSound Manager.uncached f)
    (hworkers : ∀ m, (f m).2.workers = m.workers) :
    Transparent p fun s => s.withManager (f s.manager) := by
  cases p with
  | caches =>
      constructor
      · intro s hs
        exact hf.keeps s.manager hs
      · intro s hs
        have hforget : f s.uncached.manager = ((f s.manager).1, (f s.manager).2.uncached) :=
          hf.forgets s.manager hs
        change (s.uncached.withManager (f s.uncached.manager)) = _
        rw [withManager, hforget]
        rfl
  | callback running =>
      constructor
      · intro s hs
        refine ⟨?_, hs.scripts⟩
        change (f s.manager).2.workers.areOpen = true
        rw [hworkers]
        exact hs.areOpen
      · exact fun _ _ => rfl

theorem transparent_withStore (next : Manager → Store) (hnext : ∀ m, next m.uncached = next m)
    (hfollows : ∀ m, (next m).Follows m.store) :
    TransparentMove p fun s => s.withStore (next s.manager) := by
  constructor
  · intro s hs
    cases p with
    | caches => exact Manager.CachesSound.withStore hs (hfollows s.manager)
    | callback running => exact ⟨hs.areOpen, hs.scripts⟩
  · intro s _
    have hsame : next (p.forget s).manager = next s.manager := p.manager_forget hnext s
    rw [hsame]
    rfl

/-- A change of what is neither part of the manager nor a reaction. -/
theorem transparentMove_beside {g : Session → Session} (hmanager : ∀ s, (g s).manager = s.manager)
    (hreactions : ∀ s, (g s).reactions = s.reactions)
    (hforgets : ∀ s, g (p.forget s) = p.forget (g s)) : TransparentMove p g :=
  ⟨fun s hs => hs.of_same (hmanager s) (hreactions s), fun s _ => hforgets s⟩

section Calls

variable {call : Calling} (hcall : TransparentCalling p call)

include hcall

theorem transparent_deliver (event : Event) (a : Subscriber) :
    Transparent p (deliver call event a) := by
  cases a with
  | listener name => exact hcall name event
  | view k =>
      have hfire : TransparentMove p fun s =>
          (s.manager.listenersOf k).fire (fun name => call name event) s :=
        ObliviousMove.reading (fun s : Session => s.manager.listenersOf k)
          (fun r => .fire r fun name => hcall name event) fun _ => rfl
      exact Oblivious.ite (.answer _) (hfire.answering _) fun _ _ => Iff.rfl

theorem transparent_fire (event : Event) : TransparentMove p fun s => s.fire call event :=
  ObliviousMove.reading (fun s : Session => s.manager.subscribers)
    (fun r => .fire r (transparent_deliver hcall event)) fun _ => rfl

/-- An event fired inside a callback. -/
theorem transparent_fireInside (event : Event) :
    TransparentMove p fun s =>
      { { s with inCallback := true }.fire call event with inCallback := s.inCallback } := by
  constructor
  · intro s hs
    have hinside : p.Sound { s with inCallback := true } := hs.of_same rfl rfl
    exact ((transparent_fire hcall event).keeps _ hinside).of_same rfl rfl
  · intro s hs
    cases p with
    | caches =>
        have hfire := (transparent_fire hcall event).forgets { s with inCallback := true } hs
        exact congrArg (fun t : Session => { t with inCallback := s.inCallback }) hfire
    -- inside the callback the mark is the same, whatever it was before
    | callback running => rfl

/-- A store put in place of another that it follows, with an event if anything changed. -/
theorem transparent_settle {α : Type} (answer : Manager → α) (changed : Manager → Bool)
    (next : Manager → Store) (hanswer : ∀ m, answer m.uncached = answer m)
    (hchanged : ∀ m, changed m.uncached = changed m) (hnext : ∀ m, next m.uncached = next m)
    (hfollows : ∀ m, (next m).Follows m.store) (event : Event) :
    Transparent p fun s =>
      (answer s.manager, s.settle call (changed s.manager) (next s.manager) event) := by
  have hmove := transparent_withStore (p := p) next hnext hfollows
  have hsettle : ∀ v : α × Bool, Transparent p fun s =>
      (v.1, s.settle call v.2 (next s.manager) event) := by
    rintro ⟨a, b⟩
    cases b with
    | true => exact (hmove.comp (transparent_fire hcall event)).answering a
    | false => exact hmove.answering a
  apply Oblivious.reading (fun s : Session => (answer s.manager, changed s.manager)) hsettle
  intro s
  have ha : answer (p.forget s).manager = answer s.manager := p.manager_forget hanswer s
  have hc : changed (p.forget s).manager = changed s.manager := p.manager_forget hchanged s
  rw [ha, hc]

end Calls

theorem transparent_takeFile : Transparent p takeFile := by
  have htake : takeFile = tryThen
      (fun s => (s.disk.tree.readMapping s.manager.path s.manager.format, s))
      (fun values s => (.ok (), s.withStore (s.manager.store.load values)))
      (fun e s => (.error e, s)) := by
    funext s
    unfold takeFile tryThen
    dsimp only
    cases s.disk.tree.readMapping s.manager.path s.manager.format <;> rfl
  have hread : Transparent p fun s =>
      (s.disk.tree.readMapping s.manager.path s.manager.format, s) :=
    .read fun _ => rfl
  rw [htake]
  apply hread.tryThen
  · intro values
    exact (transparent_withStore (fun m => m.store.load values) (fun _ => rfl)
      fun m => m.store.follows_load values).answering _
  · intro e
    exact .answer _

theorem transparent_writeFile : Transparent p writeFile := by
  constructor
  · intro s hs
    have hcommit : p.Sound (s.withStore s.manager.store.commit) :=
      (transparent_withStore (fun m => m.store.commit) (fun _ => rfl)
        fun m => m.store.follows_commit).keeps s hs
    unfold writeFile Store.save
    dsimp only
    rcases s.disk.writeMapping s.manager.path s.manager.format
      (s.manager.store.snapshot s.manager.store.savingDefaults) s.manager.comment with ⟨_ | _, disk⟩
    · exact hs.of_same rfl rfl
    · exact hcommit.of_same rfl rfl
  · intro s _
    rfl

section Work

variable {call : Calling} (hcall : TransparentCalling p call)

include hcall

theorem transparent_await (action : FileAction) (kind : EventKind)
    {work : Session → Except Error Unit × Session} (hwork : Transparent p work) :
    Transparent p (await call action kind work) := by
  have hform : await call action kind work = fun s => if s.takesWork then
      tryThen work (fun _ s => (.ok (), s.fire call ⟨kind, none⟩))
        (fun e s => (.error (s.wrap action e), s)) s
      else (.error .workersClosed, s) := by
    funext s
    unfold await tryThen
    rcases work s with ⟨_ | _, _⟩ <;> rfl
  rw [hform]
  apply Oblivious.ite
  · apply hwork.tryThen
    · intro _
      exact (transparent_fire hcall _).answering _
    · intro e
      exact .read fun _ => rfl
  · exact .answer _
  · intro s hs
    rw [HiddenPart.takesWork_forget hs]

theorem transparent_schedule (kind : EventKind)
    {work : Session → Except Error Unit × Session} (hwork : Transparent p work) :
    Transparent p (schedule call kind work) := by
  have hform : schedule call kind work = fun s => if s.takesWork then
      tryThen work
        (fun _ s => (.ok (), { { s with inCallback := true }.fire call ⟨kind, none⟩ with
          inCallback := s.inCallback }))
        (fun e s => (.error e, s)) s
      else (.error .workersClosed, s) := by
    funext s
    unfold schedule tryThen
    rcases work s with ⟨_ | _, _⟩ <;> rfl
  rw [hform]
  apply Oblivious.ite
  · apply hwork.tryThen
    · intro _
      exact (transparent_fireInside hcall _).answering _
    · intro e
      exact .answer _
  · exact .answer _
  · intro s hs
    rw [HiddenPart.takesWork_forget hs]

theorem transparent_load : Transparent p (load call) :=
  Oblivious.ite (.answer _) (transparent_await hcall .loading .loaded transparent_takeFile)
    fun _ _ => Iff.rfl

theorem transparent_ensureLoaded : Transparent p (ensureLoaded call) := by
  have hfirst : Transparent p fun s => if s.manager.autoLoad then s.load call
      else (.error (.notLoaded s.manager.path.toText), s) :=
    Oblivious.ite (transparent_load hcall) (.read fun _ => rfl) fun _ _ => Iff.rfl
  exact Oblivious.ite (.answer _) hfirst fun _ _ => Iff.rfl

theorem transparent_onceLoaded {α : Type} {operation : Session → Except Error α × Session}
    (hop : Transparent p operation) : Transparent p (onceLoaded call operation) := by
  have honce : onceLoaded call operation =
      tryThen (ensureLoaded call) (fun _ => operation) fun e s => (.error e, s) := by
    funext s
    unfold onceLoaded tryThen
    rcases s.ensureLoaded call with ⟨_ | _, _⟩ <;> rfl
  rw [honce]
  exact (transparent_ensureLoaded hcall).tryThen (fun _ => hop) fun _ => .answer _

theorem transparent_save : Transparent p (save call) :=
  transparent_onceLoaded hcall (transparent_await hcall .saving .saved transparent_writeFile)

theorem transparent_scheduleSave : Transparent p (scheduleSave call) :=
  transparent_onceLoaded hcall (transparent_schedule hcall .saved transparent_writeFile)

theorem transparent_set (k : Key) (value : Option TypedValue) :
    Transparent p (set call k value) := by
  unfold set
  cases TypedValue.stored? value with
  | error e => exact .answer _
  | ok text =>
      apply transparent_onceLoaded hcall
      exact transparent_settle hcall
        (fun m => (.ok (m.store.set (m.nameOf k) text).1 : Except Error Bool))
        (fun m => (m.store.set (m.nameOf k) text).1)
        (fun m => (m.store.set (m.nameOf k) text).2)
        (fun _ => rfl) (fun _ => rfl) (fun _ => rfl) (fun m => m.store.follows_set _ _) _

theorem transparent_saveProperty (k : Key) (value : Option TypedValue) :
    Transparent p (saveProperty call k value) := by
  have hsave : saveProperty call k value =
      tryThen (set call k value) (fun _ => save call) fun e s => (.error e, s) := by
    funext s
    unfold saveProperty tryThen
    rcases s.set call k value with ⟨_ | _, _⟩ <;> rfl
  rw [hsave]
  exact (transparent_set hcall k value).tryThen (fun _ => transparent_save hcall)
    fun _ => .answer _

theorem transparent_reset (k : Key) : Transparent p (reset call k) := by
  apply transparent_onceLoaded hcall
  exact transparent_settle hcall
    (fun m => (.ok (m.store.resetToDefault (m.nameOf k)).1 : Except Error Bool))
    (fun m => (m.store.resetToDefault (m.nameOf k)).1)
    (fun m => (m.store.resetToDefault (m.nameOf k)).2)
    (fun _ => rfl) (fun _ => rfl) (fun _ => rfl) (fun m => m.store.follows_resetToDefault _) _

theorem transparent_resetAll : Transparent p (resetAll call) := by
  apply transparent_onceLoaded hcall
  exact transparent_settle hcall
    (fun m => (.ok m.store.resetAll.1 : Except Error Bool))
    (fun m => m.store.resetAll.1)
    (fun m => m.store.resetAll.2)
    (fun _ => rfl) (fun _ => rfl) (fun _ => rfl) (fun m => m.store.follows_resetAll) _

theorem transparent_travel (k : Key) {step : Store → Text → Option Text × Store}
    (hstep : ∀ s name, (step s name).2.Follows s) : Transparent p (travel call k step) := by
  apply transparent_onceLoaded hcall
  exact transparent_settle hcall
    (fun m => (.ok (step m.store (m.nameOf k)).1 : Except Error (Option Text)))
    (fun m => (step m.store (m.nameOf k)).1 ≠ m.store.get (m.nameOf k))
    (fun m => (step m.store (m.nameOf k)).2)
    (fun _ => rfl) (fun _ => rfl) (fun _ => rfl) (fun m => hstep m.store _) _

theorem transparent_query {α : Type} {f : Manager → Except Error α × Manager}
    (hf : Oblivious Manager.CachesSound Manager.uncached f)
    (hrest : ∀ m, (f m).2.uncached = m.uncached) : Transparent p fun s => s.query call f := by
  have hworkers : ∀ m, (f m).2.workers = m.workers :=
    fun m => (congrArg Manager.workers (hrest m) :)
  exact transparent_onceLoaded hcall (transparent_withManager hf hworkers)

end Work

end Session

end VersionedProperties.Manager
