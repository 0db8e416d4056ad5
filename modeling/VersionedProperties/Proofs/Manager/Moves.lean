import Mathlib.Logic.Relation
import VersionedProperties.Manager.Run
import VersionedProperties.Proofs.Manager.Uncached
import VersionedProperties.Proofs.Store.Change

/-!
# Commands as moves

Whatever a command does to a session comes down to a few moves, taken one after the other: a change
of the store, other files, other caches or settings, a view or a subscription that comes or goes,
and what the session writes down about its listeners. Calls of listeners are no exception, since
their scripts are commands again. A property of sessions that every move keeps is therefore kept by
every run, and `Leads` is the form in which later arguments use this: no operation is opened again.
-/

namespace VersionedProperties.Manager

/-! Questions leave all but the caches alone -/

theorem uncached_get (m : Manager) (k : Key) : (m.get k).2.uncached = m.uncached := rfl

theorem uncached_required (m : Manager) (k : Key) : (m.required k).2.uncached = m.uncached := by
  have hsame : (m.required k).2 = (m.get k).2 := by
    unfold required
    rcases m.get k with ⟨_ | _ | _, _⟩ <;> rfl
  rw [hsame, uncached_get]

theorem uncached_parsed {α : Type} (m : Manager) (k : Key) (parse : Text → Except Error α) :
    (m.parsed k parse).2.uncached = m.uncached := by
  have hsame : (m.parsed k parse).2 = (m.required k).2 := by
    rw [parsed_eq, tryThen]
    rcases m.required k with ⟨_ | _, _⟩ <;> rfl
  rw [hsame, uncached_required]

theorem uncached_getBoolean (m : Manager) (k : Key) :
    (m.getBoolean k).2.uncached = m.uncached := m.uncached_required k

theorem uncached_keySet (m : Manager) : m.keySet.2.uncached = m.uncached := by
  rw [keySet_eq]
  rfl

/-! Subscribing leaves all but the subscribers and the views alone -/

theorem withView_frame (m : Manager) (k : Key) :
    ∃ views subscribers, m.withView k = { m with views := views, subscribers := subscribers } := by
  unfold withView
  split
  · exact ⟨m.views, m.subscribers, rfl⟩
  · exact ⟨_, _, rfl⟩

theorem addListener_frame (m : Manager) (name : Text) (place : Option Key) :
    ∃ views subscribers,
      m.addListener name place = { m with views := views, subscribers := subscribers } := by
  cases place with
  | none => exact ⟨m.views, _, rfl⟩
  | some k =>
      obtain ⟨views, subscribers, hview⟩ := m.withView_frame k
      rw [addListener, hview]
      exact ⟨_, subscribers, rfl⟩

theorem removeListener_frame (m : Manager) (name : Text) (place : Option Key) :
    ∃ views subscribers,
      m.removeListener name place = { m with views := views, subscribers := subscribers } := by
  cases place with
  | none => exact ⟨m.views, _, rfl⟩
  | some k =>
      obtain ⟨views, subscribers, hview⟩ := m.withView_frame k
      rw [removeListener, hview]
      exact ⟨_, subscribers, rfl⟩

namespace Session

/-- One thing done to a session. -/
inductive Move (s : Session) : Session → Prop where
  | store (c : Store.Change) : Move s (s.withStore (s.manager.store.apply c))
  | disk (c : Disk.Command) : Move s { s with disk := (s.disk.perform c).2 }
  | caches {m : Manager} (h : m.uncached = s.manager.uncached) : Move s { s with manager := m }
  | settings (autoTrim : Bool) (comment : Option Text) (workers : Workers) :
      Move s { s with manager := { s.manager with
        autoTrim := autoTrim, comment := comment, workers := workers } }
  | withView (k : Key) : Move s { s with manager := s.manager.withView k }
  | addListener (name : Text) (place : Option Key) :
      Move s { s with manager := s.manager.addListener name place }
  | removeListener (name : Text) (place : Option Key) :
      Move s { s with manager := s.manager.removeListener name place }
  /-- What a session writes down about its listeners. -/
  | records (inCallback : Bool) (reactions : Mapping Text Reaction) (runs : Mapping Text Nat)
      (log : List Call) :
      Move s { s with inCallback := inCallback, reactions := reactions, runs := runs, log := log }

/-- Moves taken one after the other. -/
abbrev Leads : Session → Session → Prop := Relation.ReflTransGen Move

theorem Move.leads {s t : Session} (h : Move s t) : Leads s t := .single h

theorem Leads.then {s t u : Session} (h : Leads s t) (h' : Leads t u) : Leads s u :=
  Relation.ReflTransGen.trans h h'

/-- What every move keeps is kept by moves taken one after the other. -/
theorem Leads.keeps {P : Session → Prop} (hmove : ∀ {s t}, P s → Move s t → P t) {s t : Session}
    (h : Leads s t) (hs : P s) : P t := by
  induction h with
  | refl => exact hs
  | tail _ hlast ih => exact hmove ih hlast

theorem leads_registryFire {α : Type} [DecidableEq α] (r : Registry α)
    {f : α → Session → Except Error Unit × Session} (hf : ∀ a s, Leads s (f a s).2) (s : Session) :
    Leads s (r.fire f s) := by
  have hfold : ∀ (members : List α) (s : Session),
      Leads s (members.foldl (fun s a => (f a s).2) s) := by
    intro members
    induction members with
    | nil => exact fun s => .refl
    | cons a members ih => exact fun s => (hf a s).then (ih _)
  exact hfold r.members s

end Session

/-- Calling a listener comes down to moves. -/
def LeadingCalling (call : Calling) : Prop :=
  ∀ listener event s, Session.Leads s (call listener event s).2

namespace Session

section Work

variable {call : Calling} (hcall : LeadingCalling call)

include hcall

theorem leads_deliver (event : Event) (a : Subscriber) (s : Session) :
    Leads s (deliver call event a s).2 := by
  cases a with
  | listener name => exact hcall name event s
  | view k =>
      unfold deliver
      dsimp only
      split
      · exact .refl
      · exact leads_registryFire _ (fun name => hcall name event) s

theorem leads_fire (s : Session) (event : Event) : Leads s (s.fire call event) :=
  leads_registryFire _ (leads_deliver hcall event) s

/-- A change of the store, with an event if the change was one. -/
theorem leads_settle (s : Session) (changed : Bool) (c : Store.Change) (event : Event) :
    Leads s (s.settle call changed (s.manager.store.apply c) event) := by
  have hstore : Leads s (s.withStore (s.manager.store.apply c)) := (Move.store c).leads
  cases changed with
  | true => exact hstore.then (leads_fire hcall _ event)
  | false => exact hstore

omit hcall in
theorem leads_takeFile (s : Session) : Leads s s.takeFile.2 := by
  unfold takeFile
  split
  · exact .refl
  · exact (Move.store (.load _)).leads

omit hcall in
theorem leads_writeFile (s : Session) : Leads s s.writeFile.2 := by
  let values := s.manager.store.snapshot s.manager.store.savingDefaults
  have hwritten : ∀ t : Session, t.disk = s.disk →
      Leads t { t with disk := (s.disk.writeMapping s.manager.path s.manager.format values
        s.manager.comment).2 } := by
    intro t ht
    rw [← ht]
    exact (Move.disk (.writeMapping s.manager.path s.manager.format values _)).leads
  unfold writeFile Store.save
  dsimp only
  rcases hwrite : s.disk.writeMapping s.manager.path s.manager.format values s.manager.comment with
    ⟨_ | _, disk⟩ <;> rw [hwrite] at hwritten
  · exact hwritten s rfl
  · exact (Move.store .commit).leads.then (hwritten _ rfl)

theorem leads_await (action : FileAction) (kind : EventKind)
    {work : Session → Except Error Unit × Session} (hwork : ∀ s, Leads s (work s).2)
    (s : Session) : Leads s (s.await call action kind work).2 := by
  unfold await
  split
  · have h := hwork s
    split <;> rename_i hdone <;> rw [hdone] at h
    · exact h.then (leads_fire hcall _ _)
    · exact h
  · exact .refl

theorem leads_schedule (kind : EventKind)
    {work : Session → Except Error Unit × Session} (hwork : ∀ s, Leads s (work s).2)
    (s : Session) : Leads s (s.schedule call kind work).2 := by
  unfold schedule
  split
  · have h := hwork s
    split <;> rename_i t hdone <;> rw [hdone] at h
    · have hinside : Leads t { t with inCallback := true } := (Move.records _ _ _ _).leads
      exact ((h.then hinside).then (leads_fire hcall _ _)).then (Move.records _ _ _ _).leads
    · exact h
  · exact .refl

theorem leads_load (s : Session) : Leads s (s.load call).2 := by
  unfold load
  split
  · exact .refl
  · exact leads_await hcall _ _ leads_takeFile s

theorem leads_ensureLoaded (s : Session) : Leads s (s.ensureLoaded call).2 := by
  unfold ensureLoaded
  split
  · exact .refl
  · split
    · exact leads_load hcall s
    · exact .refl

theorem leads_onceLoaded {α : Type} {operation : Session → Except Error α × Session}
    (hop : ∀ s, Leads s (operation s).2) (s : Session) :
    Leads s (s.onceLoaded call operation).2 := by
  have h := leads_ensureLoaded hcall s
  unfold onceLoaded
  split <;> rename_i hdone <;> rw [hdone] at h
  · exact h.then (hop _)
  · exact h

theorem leads_reload (s : Session) : Leads s (s.reload call).2 :=
  leads_await hcall _ _ leads_takeFile s

theorem leads_scheduleReload (s : Session) : Leads s (s.scheduleReload call).2 :=
  leads_schedule hcall _ leads_takeFile s

theorem leads_save (s : Session) : Leads s (s.save call).2 :=
  leads_onceLoaded hcall (leads_await hcall _ _ leads_writeFile) s

theorem leads_scheduleSave (s : Session) : Leads s (s.scheduleSave call).2 :=
  leads_onceLoaded hcall (leads_schedule hcall _ leads_writeFile) s

theorem leads_set (k : Key) (value : Option TypedValue) (s : Session) :
    Leads s (s.set call k value).2 := by
  unfold set
  split
  · exact .refl
  · rename_i text _
    exact leads_onceLoaded hcall
      (fun s => leads_settle hcall s _ (.set (s.manager.nameOf k) text) _) s

theorem leads_saveProperty (k : Key) (value : Option TypedValue) (s : Session) :
    Leads s (s.saveProperty call k value).2 := by
  have h := leads_set hcall k value s
  unfold saveProperty
  split <;> rename_i hdone <;> rw [hdone] at h
  · exact h.then (leads_save hcall _)
  · exact h

theorem leads_reset (k : Key) (s : Session) : Leads s (s.reset call k).2 :=
  leads_onceLoaded hcall
    (fun s => leads_settle hcall s _ (.resetToDefault (s.manager.nameOf k)) _) s

theorem leads_resetAll (s : Session) : Leads s (s.resetAll call).2 :=
  leads_onceLoaded hcall (fun s => leads_settle hcall s _ .resetAll _) s

theorem leads_undo (k : Key) (s : Session) : Leads s (s.undo call k).2 :=
  leads_onceLoaded hcall (fun s => leads_settle hcall s _ (.undo (s.manager.nameOf k)) _) s

theorem leads_redo (k : Key) (s : Session) : Leads s (s.redo call k).2 :=
  leads_onceLoaded hcall (fun s => leads_settle hcall s _ (.redo (s.manager.nameOf k)) _) s

theorem leads_query {α : Type} {f : Manager → Except Error α × Manager}
    (hf : ∀ m, (f m).2.uncached = m.uncached) (s : Session) : Leads s (s.query call f).2 :=
  leads_onceLoaded hcall (fun s => (Move.caches (hf s.manager)).leads) s

/-- A question that does not use the caches. -/
theorem leads_ask {α : Type} (answer : Manager → Except Error α) (s : Session) :
    Leads s (s.query call fun m => (answer m, m)).2 :=
  leads_query hcall (fun _ => rfl) s

end Work

end Session

open Session

theorem leads_answered {α : Type} (f : α → Answer) {s : Session} {r : Except Error α × Session}
    (h : Leads s r.2) : Leads s (answered f r).2 := h

theorem leads_withKey {k : Key} {f : Session → Except Error Answer × Session} {s : Session}
    (hf : Leads s (f s).2) : Leads s (withKey s k f).2 := by
  unfold withKey
  split
  · exact hf
  · exact .refl

theorem leads_throughView {k : Key} {f : Session → Except Error Answer × Session}
    (hf : ∀ s, Leads s (f s).2) (s : Session) : Leads s (throughView s k f).2 := by
  apply leads_withKey
  split
  · exact .refl
  · exact (Move.withView k).leads.then (hf _)

theorem leads_atPlace {place : Option Key} {f : Session → Except Error Answer × Session}
    (hf : ∀ s, Leads s (f s).2) (s : Session) : Leads s (atPlace s place f).2 := by
  cases place with
  | none => exact hf s
  | some k => exact leads_throughView hf s

theorem leads_withReaction (s : Session) (listener : Text) (r : Reaction) :
    Leads s (s.withReaction listener r) := by
  unfold withReaction
  split
  · exact .refl
  · exact (Move.records _ _ _ _).leads

section Commands

variable {call : Calling} (hcall : LeadingCalling call)

include hcall

theorem leads_performProperty (k : Key) (s : Session) (c : PropertyCommand) :
    Leads s (performProperty call k s c).2 := by
  cases c with
  | get => exact leads_answered _ (leads_query hcall (fun m => m.uncached_get k) s)
  | raw => exact leads_answered _ (leads_ask hcall _ s)
  | default => exact leads_answered _ (leads_ask hcall _ s)
  | defaultRaw => exact .refl
  | boolean => exact leads_answered _ (leads_query hcall (fun m => m.uncached_getBoolean k) s)
  | integer => exact leads_answered _ (leads_query hcall (fun m => m.uncached_parsed k _) s)
  | real => exact leads_answered _ (leads_query hcall (fun m => m.uncached_parsed k _) s)
  | member e => exact leads_answered _ (leads_query hcall (fun m => m.uncached_parsed k _) s)
  | isDefault => exact leads_answered _ (leads_ask hcall _ s)
  | isModified => exact leads_answered _ (leads_ask hcall _ s)
  | dependsOn other => exact leads_withKey (leads_answered _ (leads_ask hcall _ s))
  | referenceAt position => exact leads_answered _ (leads_ask hcall _ s)
  | set value => exact leads_answered _ (leads_set hcall k value s)
  | save value => exact leads_answered _ (leads_saveProperty hcall k value s)
  | reset => exact leads_answered _ (leads_reset hcall k s)
  | undo => exact leads_answered _ (leads_undo hcall k s)
  | redo => exact leads_answered _ (leads_redo hcall k s)
  | canUndo => exact leads_answered _ (leads_ask hcall _ s)
  | canRedo => exact leads_answered _ (leads_ask hcall _ s)
  | invalid e => exact .refl

theorem leads_failProperty (fault : Error) (s : Session) (c : PropertyCommand) :
    Leads s (failProperty call fault s c).2 := by
  have hfault : Leads s (s.query call fun m => ((.error fault : Except Error Answer), m)).2 :=
    leads_ask hcall _ s
  have hstored : ∀ value, Leads s (failProperty call fault s (.set value)).2 := by
    intro value
    unfold failProperty
    dsimp only
    split
    · exact .refl
    · exact hfault
  cases c with
  | defaultRaw => exact .refl
  | invalid e => exact .refl
  | set value => exact hstored value
  | save value => exact hstored value
  | dependsOn other => exact leads_withKey hfault
  | _ => exact hfault

theorem leads_useProperty (k : Key) (s : Session) (c : PropertyCommand) :
    Leads s (useProperty call k s c).2 := by
  unfold useProperty
  split
  · exact leads_failProperty hcall _ s c
  · exact leads_performProperty hcall k s c

theorem leads_perform (s : Session) (c : Command) : Leads s (perform call s c).2 := by
  cases c with
  | load => exact leads_load hcall s
  | reload => exact leads_reload hcall s
  | save => exact leads_save hcall s
  | scheduleReload => exact leads_scheduleReload hcall s
  | scheduleSave => exact leads_scheduleSave hcall s
  | close => exact (Move.settings _ _ s.manager.workers.close).leads
  | property k c => exact leads_withKey (leads_useProperty hcall k s c)
  | resetAll => exact leads_resetAll hcall s
  | isModified => exact leads_answered _ (leads_ask hcall _ s)
  | keySet => exact leads_query hcall uncached_keySet s
  | properties => exact leads_answered _ (leads_ask hcall _ s)
  | setAutoTrim b => exact (Move.settings b _ _).leads
  | setSavingDefaults b => exact (Move.store (.setSavingDefaults b)).leads
  | setComment comment => exact (Move.settings _ comment _).leads
  | storeSet name value =>
      cases value with
      | none => exact .refl
      | some text => exact (Move.store (.set name text)).leads
  | storeReset name => exact (Move.store (.resetToDefault name)).leads
  | view k c => exact leads_throughView (fun s => leads_useProperty hcall k s c) s
  | askView k question => exact leads_throughView (fun s => .refl) s
  | sameView first second =>
      exact leads_throughView (fun s => leads_throughView (fun s => .refl) s) s
  | listen listener place script limit only =>
      exact (leads_withReaction s listener _).then
        (leads_atPlace (fun s => (Move.addListener listener place).leads) _)
  | unlisten listener place =>
      refine leads_atPlace (fun s => ?_) s
      split
      · exact (Move.removeListener listener place).leads
      · exact .refl
  | disk c => exact (Move.disk _).leads
  | autoTrim => exact .refl
  | savingDefaults => exact .refl
  | comment => exact .refl
  | path => exact .refl
  | format => exact .refl
  | evaluator => exact .refl
  | storeHistory name => exact .refl
  | externalUsable => exact .refl
  | raise message => exact .refl

theorem leads_performScript (script : List Command) (s : Session) :
    Leads s (performScript call script s).2.2 := by
  induction script generalizing s with
  | nil => exact .refl
  | cons c script ih =>
      by_cases hc : ∃ message, c = .raise message
      · obtain ⟨message, rfl⟩ := hc
        exact .refl
      · rw [performScript]
        · exact (leads_perform hcall s c).then (ih _)
        · exact fun message h => hc ⟨message, h⟩

end Commands

theorem leadingCalling_callWithin (depth : Nat) : LeadingCalling (callWithin depth) := by
  induction depth with
  | zero => exact fun listener event s => (Move.records _ _ _ _).leads
  | succ depth ih =>
      intro listener event s
      unfold callWithin
      split
      · exact (Move.records _ _ _ _).leads
      · rename_i script _
        have hbegin : Leads s (s.beginRun listener) := (Move.records _ _ _ _).leads
        exact (hbegin.then (leads_performScript ih script _)).then (Move.records _ _ _ _).leads

namespace Session

theorem leads_step (s : Session) (c : Command) : Leads s (s.step c).2 := by
  have hclear : Leads s { s with log := [] } := (Move.records _ _ _ _).leads
  exact hclear.then (leads_perform (leadingCalling_callWithin _) _ c)

theorem leads_run (s : Session) (commands : List Command) : Leads s (s.run commands).2 := by
  induction commands generalizing s with
  | nil => exact .refl
  | cons c commands ih => exact (leads_step s c).then (ih _)

end Session

end VersionedProperties.Manager
