import VersionedProperties.Proofs.Manager.Moves
import VersionedProperties.Proofs.Manager.Transparency

/-!
# Runs with and without a hidden part

Commands, scripts and runs that do not break the condition of a hidden part do not see the part,
whatever listeners do when they are called. Calls that nest to a depth follow by induction on the
depth, scripts and runs by induction on their commands. Managers that are created with caches and
without differ in the caches alone, so sessions that begin with them report the same at every step.
-/

namespace VersionedProperties.Manager

open Session

variable {p : HiddenPart}

theorem transparent_answered {α : Type} (f : α → Answer)
    {g : Session → Except Error α × Session} (hg : Transparent p g) :
    Transparent p fun s => answered f (g s) :=
  hg.map fun r => r.map f

theorem transparent_withKey {k : Key} {f : Session → Except Error Answer × Session}
    (hf : Transparent p f) : Transparent p fun s => withKey s k f :=
  Oblivious.ite hf (.answer _) fun _ _ => Iff.rfl

/-- A change of the manager that leaves the workers alone. -/
theorem transparentMove_manage {g : Manager → Manager}
    (hg : ObliviousMove Manager.CachesSound Manager.uncached g)
    (hworkers : ∀ m, (g m).workers = m.workers) :
    TransparentMove p fun s => { s with manager := g s.manager } :=
  (transparent_withManager (hg.answering ()) hworkers).move

theorem workers_withView (m : Manager) (k : Key) : (m.withView k).workers = m.workers := by
  obtain ⟨_, _, hframe⟩ := m.withView_frame k
  rw [hframe]

theorem workers_addListener (m : Manager) (name : Text) (place : Option Key) :
    (m.addListener name place).workers = m.workers := by
  obtain ⟨_, _, hframe⟩ := m.addListener_frame name place
  rw [hframe]

theorem workers_removeListener (m : Manager) (name : Text) (place : Option Key) :
    (m.removeListener name place).workers = m.workers := by
  obtain ⟨_, _, hframe⟩ := m.removeListener_frame name place
  rw [hframe]

theorem transparent_throughView {k : Key} {f : Session → Except Error Answer × Session}
    (hf : Transparent p f) : Transparent p fun s => throughView s k f := by
  have hview : Transparent p fun s => f { s with manager := s.manager.withView k } :=
    hf.after (transparentMove_manage (obliviousMove_withView k) (workers_withView · k))
  have hfault : ∀ e : Error, Transparent p fun s => ((.error e : Except Error Answer), s) :=
    fun _ => .answer _
  apply transparent_withKey
  apply Oblivious.option (fun s : Session => s.manager.naming.type.faults.lookup) hview
    (fun _ e _ _ => hfault e)
  · exact fun _ => rfl
  · intro s h
    rw [h]
  · intro s e h
    rw [h]

theorem transparent_atPlace {place : Option Key} {f : Session → Except Error Answer × Session}
    (hf : Transparent p f) : Transparent p fun s => atPlace s place f := by
  cases place with
  | none => exact hf
  | some k => exact transparent_throughView hf

theorem transparentMove_withReaction (listener : Text) {r : Reaction}
    (hr : ∀ c ∈ r.script, p.Admits c) :
    TransparentMove p fun s => s.withReaction listener r := by
  constructor
  · intro s hs
    unfold withReaction
    split
    · exact hs
    · exact hs.insert_reaction listener hr
  · intro s _
    unfold withReaction HiddenPart.forget
    dsimp only
    split <;> rfl

theorem transparent_close (h : p.Admits .close) :
    Transparent p fun s => ((.ok .nothing : Except Error Answer),
      { s with manager := { s.manager with workers := s.manager.workers.close } }) := by
  cases p with
  | caches => exact ⟨fun _ hs => ⟨hs.values, hs.names⟩, fun _ _ => rfl⟩
  | callback running => cases h

section Commands

variable {call : Calling} (hcall : TransparentCalling p call)

include hcall

/-- A question that is answered without the caches. -/
theorem transparent_ask {α : Type} {answer : Manager → Except Error α}
    (hanswer : ∀ m, answer m.uncached = answer m) :
    Transparent p fun s => s.query call fun m => (answer m, m) :=
  transparent_query hcall (.read hanswer) fun _ => rfl

theorem transparent_performProperty (k : Key) (c : PropertyCommand) :
    Transparent p fun s => performProperty call k s c := by
  have hget : Transparent p fun s => s.query call fun m => m.get k :=
    transparent_query hcall (oblivious_get k) (uncached_get · k)
  have hboolean : Transparent p fun s => s.query call fun m => m.getBoolean k :=
    transparent_query hcall (oblivious_getBoolean k) (uncached_getBoolean · k)
  have hparsed : ∀ {α : Type} (parse : Text → Except Error α),
      Transparent p fun s => s.query call fun m => m.parsed k parse :=
    fun parse => transparent_query hcall (oblivious_parsed k parse) (uncached_parsed · k parse)
  cases c with
  | get => exact transparent_answered _ hget
  | raw => exact transparent_answered _ (transparent_ask hcall fun _ => rfl)
  | default => exact transparent_answered _ (transparent_ask hcall fun _ => rfl)
  | defaultRaw => exact .read fun _ => rfl
  | boolean => exact transparent_answered _ hboolean
  | integer => exact transparent_answered _ (hparsed parseInteger)
  | real => exact transparent_answered _ (hparsed parseReal)
  | member e => exact transparent_answered _ (hparsed e.parse)
  | isDefault => exact transparent_answered _ (transparent_ask hcall fun _ => rfl)
  | isModified => exact transparent_answered _ (transparent_ask hcall fun _ => rfl)
  | dependsOn other =>
      exact transparent_withKey (transparent_answered _ (transparent_ask hcall fun _ => rfl))
  | referenceAt position => exact transparent_answered _ (transparent_ask hcall fun _ => rfl)
  | set value => exact transparent_answered _ (transparent_set hcall k value)
  | save value => exact transparent_answered _ (transparent_saveProperty hcall k value)
  | reset => exact transparent_answered _ (transparent_reset hcall k)
  | undo => exact transparent_answered _ (transparent_travel hcall k Store.follows_undo)
  | redo => exact transparent_answered _ (transparent_travel hcall k Store.follows_redo)
  | canUndo => exact transparent_answered _ (transparent_ask hcall fun _ => rfl)
  | canRedo => exact transparent_answered _ (transparent_ask hcall fun _ => rfl)
  | invalid e => exact .answer _

theorem transparent_failProperty (fault : Error) (c : PropertyCommand) :
    Transparent p fun s => failProperty call fault s c := by
  have hfault : Transparent p fun s =>
      s.query call fun m => ((.error fault : Except Error Answer), m) :=
    transparent_ask hcall fun _ => rfl
  have hstored : ∀ value : Option TypedValue,
      Transparent p fun s => failProperty call fault s (.set value) := by
    intro value
    unfold failProperty
    dsimp only
    cases TypedValue.stored? value with
    | error e => exact .answer _
    | ok _ => exact hfault
  cases c with
  | defaultRaw => exact .answer _
  | invalid e => exact .answer _
  | set value => exact hstored value
  | save value => exact hstored value
  | dependsOn other => exact transparent_withKey hfault
  | _ => exact hfault

theorem transparent_useProperty (k : Key) (c : PropertyCommand) :
    Transparent p fun s => useProperty call k s c := by
  apply Oblivious.option (fun s : Session => s.manager.naming.type.faults.name)
    (transparent_performProperty hcall k c)
    (fun _ fault _ _ => transparent_failProperty hcall fault c)
  · exact fun _ => rfl
  · intro s h
    rw [useProperty, h]
  · intro s fault h
    rw [useProperty, h]

theorem transparent_perform {c : Command} (hc : p.Admits c) :
    Transparent p fun s => perform call s c := by
  have hbeside : ∀ {g : Manager → Manager},
      (∀ m, m.CachesSound → (g m).CachesSound) → (∀ m, g m.uncached = (g m).uncached) →
      (∀ m, (g m).workers = m.workers) →
      Transparent p fun s => ((.ok .nothing : Except Error Answer),
        { s with manager := g s.manager }) :=
    fun hkeeps hforgets hworkers =>
      (transparentMove_manage ⟨hkeeps, fun m _ => hforgets m⟩ hworkers).answering _
  cases c with
  | load => exact transparent_answered _ (transparent_load hcall)
  | reload =>
      exact transparent_answered _ (transparent_await hcall .reloading .loaded transparent_takeFile)
  | save => exact transparent_answered _ (transparent_save hcall)
  | scheduleReload =>
      exact transparent_answered _ (transparent_schedule hcall .loaded transparent_takeFile)
  | scheduleSave => exact transparent_answered _ (transparent_scheduleSave hcall)
  | close => exact transparent_close hc
  | property k c => exact transparent_withKey (transparent_useProperty hcall k c)
  | resetAll => exact transparent_answered _ (transparent_resetAll hcall)
  | isModified => exact transparent_answered _ (transparent_ask hcall fun _ => rfl)
  | keySet =>
      exact transparent_answered _ (transparent_query hcall oblivious_keySet uncached_keySet)
  | properties => exact transparent_answered _ (transparent_ask hcall fun _ => rfl)
  | autoTrim => exact .read fun _ => rfl
  | setAutoTrim b =>
      exact hbeside (g := fun m => { m with autoTrim := b })
        (fun _ hm => ⟨hm.values, hm.names⟩) (fun _ => rfl) fun _ => rfl
  | savingDefaults => exact .read fun _ => rfl
  | setSavingDefaults b =>
      exact hbeside (g := fun m => { m with store := { m.store with savingDefaults := b } })
        (fun _ hm => ⟨hm.values, hm.names⟩) (fun _ => rfl) fun _ => rfl
  | comment => exact .read fun _ => rfl
  | setComment comment =>
      exact hbeside (g := fun m => { m with comment := comment })
        (fun _ hm => ⟨hm.values, hm.names⟩) (fun _ => rfl) fun _ => rfl
  | path => exact .read fun _ => rfl
  | format => exact .read fun _ => rfl
  | evaluator => exact .read fun _ => rfl
  | storeSet name value =>
      have hmove := transparent_withStore (p := p) (fun m => (m.store.set? name value).2)
        (fun _ => rfl) fun m => m.store.follows_set? name value
      exact Oblivious.reading (fun s : Session => (s.manager.store.set? name value).1)
        (fun changed => hmove.answering (changed.map Answer.flag)) fun _ => rfl
  | storeReset name =>
      have hmove := transparent_withStore (p := p) (fun m => (m.store.resetToDefault name).2)
        (fun _ => rfl) fun m => m.store.follows_resetToDefault name
      exact Oblivious.reading (fun s : Session => (s.manager.store.resetToDefault name).1)
        (fun changed => hmove.answering (Except.ok (Answer.flag changed))) fun _ => rfl
  | storeHistory name => exact .read fun _ => rfl
  | view k c => exact transparent_throughView (transparent_useProperty hcall k c)
  | askView k question =>
      exact transparent_throughView
        (.read (v := fun s => answerView s.manager k question) fun _ => rfl)
  | sameView first second => exact transparent_throughView (transparent_throughView (.answer _))
  | listen listener place script limit only =>
      have hadd := transparentMove_manage (p := p) (obliviousMove_addListener listener place)
        (workers_addListener · listener place)
      have hreaction := transparentMove_withReaction (r := ⟨script, limit, only⟩) listener
        (HiddenPart.admits_of_listen hc)
      exact (transparent_atPlace (hadd.answering (.ok .nothing))).after hreaction
  | unlisten listener place =>
      have hremove := transparentMove_manage (p := p) (obliviousMove_removeListener listener place)
        (workers_removeListener · listener place)
      have hunlisten : Transparent p fun s => if s.reactions.contains listener then
          (.ok .nothing, { s with manager := s.manager.removeListener listener place })
          else ((.error (.undeclared listener) : Except Error Answer), s) :=
        Oblivious.ite (hremove.answering _) (.answer _) fun _ _ => Iff.rfl
      exact transparent_atPlace hunlisten
  | externalUsable => exact .read fun _ => rfl
  | disk c =>
      have hdisk : ∀ disk : Disk, TransparentMove p fun s => { s with disk := disk } :=
        fun _ => transparentMove_beside (fun _ => rfl) (fun _ => rfl) fun _ => rfl
      exact Oblivious.reading (fun s : Session => s.disk.perform c)
        (fun r => (hdisk r.2).answering (r.1.map Answer.disk)) fun _ => rfl
  | raise message => exact .answer _

end Commands

/-- The answers to a script and its outcome, beside the session after it. -/
def runScript (call : Calling) (script : List Command) (s : Session) :
    (List (Except Error Answer) × Except Error Unit) × Session :=
  let (answers, outcome, s) := performScript call script s
  ((answers, outcome), s)

theorem runScript_raise (call : Calling) (message : Text) (script : List Command) :
    runScript call (.raise message :: script) = fun s => (([], .error (.raised message)), s) := rfl

theorem runScript_cons (call : Calling) {c : Command} (hc : ∀ message, c ≠ .raise message)
    (script : List Command) : runScript call (c :: script) = fun s =>
      (((perform call s c).1 :: (runScript call script (perform call s c).2).1.1,
        (runScript call script (perform call s c).2).1.2),
        (runScript call script (perform call s c).2).2) := by
  funext s
  rw [runScript, performScript]
  · rfl
  · exact hc

theorem transparent_runScript {call : Calling} (hcall : TransparentCalling p call)
    {script : List Command} (hscript : ∀ c ∈ script, p.Admits c) :
    Transparent p (runScript call script) := by
  induction script with
  | nil => exact .answer _
  | cons c script ih =>
      obtain ⟨hadmits, hscript⟩ := List.forall_mem_cons.1 hscript
      by_cases hc : ∃ message, c = .raise message
      · obtain ⟨message, rfl⟩ := hc
        rw [runScript_raise]
        exact .answer _
      · rw [runScript_cons call fun message h => hc ⟨message, h⟩]
        exact (transparent_perform hcall hadmits).andThen fun answer =>
          (ih hscript).map fun r => (answer :: r.1, r.2)

theorem transparentMove_note (n : Call) : TransparentMove p fun s => s.note n :=
  transparentMove_beside (fun _ => rfl) (fun _ => rfl) fun _ => rfl

theorem transparentMove_beginRun (listener : Text) :
    TransparentMove p fun s => s.beginRun listener :=
  transparentMove_beside (fun _ => rfl) (fun _ => rfl) fun _ => rfl

/-- The log of a session put after the log before a run and the call that began it. -/
theorem transparentMove_noteRun (log : List Call) (n : Call) :
    TransparentMove p fun s => { s with log := log ++ n :: s.log } :=
  transparentMove_beside (fun _ => rfl) (fun _ => rfl) fun _ => rfl

theorem transparentCalling_callWithin (depth : Nat) : TransparentCalling p (callWithin depth) := by
  induction depth with
  | zero =>
      intro listener event
      exact (transparentMove_note ⟨listener, event, none⟩).answering _
  | succ depth ih =>
      intro listener event
      have hscript : ∀ script, (∀ c ∈ script, p.Admits c) → Transparent p fun s =>
          let r := runScript (callWithin depth) script (s.beginRun listener)
          (r.1.2, { r.2 with log := s.log ++ ⟨listener, event, some r.1.1⟩ :: r.2.log }) := by
        intro script hadmits
        have hrun := (transparent_runScript ih hadmits).after (transparentMove_beginRun listener)
        have hlog : ∀ log, Transparent p fun s =>
            let r := runScript (callWithin depth) script (s.beginRun listener)
            (r.1.2, { r.2 with log := log ++ ⟨listener, event, some r.1.1⟩ :: r.2.log }) :=
          fun log => hrun.andThen fun r =>
            (transparentMove_noteRun log ⟨listener, event, some r.1⟩).answering r.2
        exact Oblivious.reading (fun s : Session => s.log) hlog fun _ => rfl
      have hnote : Transparent p fun s =>
          ((.ok () : Except Error Unit), s.note ⟨listener, event, none⟩) :=
        (transparentMove_note _).answering _
      apply Oblivious.option (fun s : Session => s.script? listener event) hnote
        fun _ script hs h => hscript script (HiddenPart.admits_of_script? hs h)
      · exact fun _ => rfl
      · intro s h
        simp only [callWithin, h]
      · intro s script h
        simp only [callWithin, h]
        rfl

theorem HiddenPart.transparent_step {c : Command} (hc : p.Admits c) :
    Transparent p fun s => s.step c := by
  have hclear : TransparentMove p fun s : Session => { s with log := [] } :=
    transparentMove_beside (fun _ => rfl) (fun _ => rfl) fun _ => rfl
  have hperform : Transparent p fun s => Session.perform s c :=
    Oblivious.reading allowedRuns
      (fun runs => transparent_perform (transparentCalling_callWithin (runs + c.runs + 1)) hc)
      fun _ => rfl
  have hreport : ∀ answer, Transparent p fun s =>
      ((⟨answer, s.log, s.manager.store⟩ : Report), s) :=
    fun _ => .read fun _ => rfl
  exact (hperform.after hclear).andThen hreport

theorem HiddenPart.transparent_run {commands : List Command} (h : ∀ c ∈ commands, p.Admits c) :
    Transparent p fun s => s.run commands := by
  induction commands with
  | nil => exact .answer _
  | cons c commands ih =>
      obtain ⟨hc, hcommands⟩ := List.forall_mem_cons.1 h
      exact (HiddenPart.transparent_step hc).andThen fun report =>
        (ih hcommands).map fun reports => report :: reports

namespace Session

theorem transparent_step (c : Command) : Oblivious CachesSound uncached fun s => s.step c :=
  HiddenPart.transparent_step (p := .caches) trivial

theorem transparent_run (commands : List Command) :
    Oblivious CachesSound uncached fun s => s.run commands :=
  HiddenPart.transparent_run (p := .caches) fun _ _ => trivial

/-- A session before its first command. -/
def start (m : Manager) (disk : Disk) : Session := { manager := m, disk := disk }

/-- New managers that differ in the use of caches alone report the same at every step of every run:
answers and errors, the calls of listeners with their events, and the store. What is left differs in
the caches alone. -/
theorem run_disableValueCache (o : Options) (path : Path) (defaults : Mapping Text Text)
    (naming : Naming) (evaluator : Option Evaluator) (format : Option Format) (workers : Workers)
    (disk : Disk) (commands : List Command) (b b' : Bool) :
    let session (disable : Bool) := start
      (create { o with disableValueCache := disable } path defaults naming evaluator format workers)
      disk
    ((session b).run commands).1 = ((session b').run commands).1 ∧
      ((session b).run commands).2.uncached = ((session b').run commands).2.uncached := by
  intro session
  have hsound : ∀ disable, (session disable).CachesSound :=
    fun disable => cachesSound_create _ path defaults naming evaluator format workers
  have hsame : (session b).uncached = (session b').uncached := rfl
  have hforget := fun disable => (transparent_run commands).forgets _ (hsound disable)
  have hrun : (((session b).run commands).1, ((session b).run commands).2.uncached) =
      (((session b').run commands).1, ((session b').run commands).2.uncached) := by
    rw [← hforget b, ← hforget b', hsame]
  exact Prod.mk.inj hrun

end Session

end VersionedProperties.Manager
