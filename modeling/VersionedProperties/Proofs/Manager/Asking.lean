import VersionedProperties.Proofs.Manager.Moves

/-!
# Commands that only ask

Once the file has been loaded, a question changes nothing but caches, and fires no event. So scripts
that only ask leave alone whatever the properties and their listeners depend on, and call no
listener. Work on the files may be counted in: `spares true` are the commands that spare the
properties and the listeners, `spares false` those that spare the files as well.
-/

namespace VersionedProperties.Manager

/-- Whether an operation on a property only asks for it. -/
def PropertyCommand.asks : PropertyCommand → Bool
  | .set _ | .save _ | .reset | .undo | .redo => false
  | _ => true

/-- Whether a command on a manager that has been loaded spares its properties, how they are read,
and who listens to what, and does no work on the files unless this is allowed. -/
def Command.spares (files : Bool) : Command → Bool
  | .property _ c | .view _ c => c.asks
  | .load | .close | .isModified | .keySet | .properties | .autoTrim | .savingDefaults | .comment
  | .setComment _ | .path | .format | .evaluator | .storeHistory _ | .askView _ _ | .sameView _ _
  | .externalUsable | .raise _ => true
  | .disk _ => files
  | .reload | .save | .scheduleReload | .scheduleSave | .resetAll | .setAutoTrim _
  | .setSavingDefaults _ | .storeSet _ _ | .storeReset _ | .listen _ _ _ _ _ | .unlisten _ _ =>
    false

/-- Where a subscriber hands events on to listeners: at the manager, or at the view of a key. -/
def hearersAt (m : Manager) : Subscriber → List (Option Key × Text)
  | .listener name => [(none, name)]
  | .view k => (m.listenersOf k).members.map (some k, ·)

/-- The listeners of a manager in the order in which they are called, with the views that they
listen to. -/
def hearers (m : Manager) : List (Option Key × Text) := m.subscribers.members.flatMap m.hearersAt

/-- A view that is asked for the first time has no listeners. -/
theorem listenersOf_withView (m : Manager) (k : Key) :
    (m.withView k).listenersOf = m.listenersOf := by
  unfold Manager.withView
  split
  · rfl
  · rename_i hnew
    funext k'
    simp only [Manager.listenersOf]
    rw [Mapping.find?_insert]
    split
    · rename_i heq
      have hnone : m.views.find? k = none := by simpa [Mapping.contains] using hnew
      rw [heq, hnone]
      rfl
    · rfl

theorem hearersAt_congr {m n : Manager} (h : n.listenersOf = m.listenersOf) :
    n.hearersAt = m.hearersAt := by
  funext a
  cases a with
  | listener name => rfl
  | view k => rw [hearersAt, hearersAt, h]

theorem hearers_withView (m : Manager) (k : Key) : (m.withView k).hearers = m.hearers := by
  rw [hearers, hearersAt_congr (m.listenersOf_withView k), hearers]
  unfold Manager.withView
  split
  · rfl
  · rename_i hnew
    have hempty : m.hearersAt (.view k) = [] := by
      have hnone : m.views.find? k = none := by simpa [Mapping.contains] using hnew
      rw [hearersAt, Manager.listenersOf, hnone]
      rfl
    change (m.subscribers.add (.view k)).members.flatMap m.hearersAt = _
    unfold Registry.add
    split
    · rfl
    · rw [List.flatMap_append, List.flatMap_singleton, hempty, List.append_nil]

namespace Session

/-- The second session has the properties and the listeners of the first and, unless there was work
on the files, the files of the first. -/
structure Spared (files : Bool) (s t : Session) : Prop where
  store : t.manager.store = s.manager.store
  autoTrim : t.manager.autoTrim = s.manager.autoTrim
  naming : t.manager.naming = s.manager.naming
  evaluator : t.manager.evaluator = s.manager.evaluator
  path : t.manager.path = s.manager.path
  format : t.manager.format = s.manager.format
  listenersOf : t.manager.listenersOf = s.manager.listenersOf
  hearers : t.manager.hearers = s.manager.hearers
  reactions : t.reactions = s.reactions
  disk : files = false → t.disk = s.disk

variable {files : Bool} {s t u : Session}

theorem Spared.refl (s : Session) : Spared files s s :=
  ⟨rfl, rfl, rfl, rfl, rfl, rfl, rfl, rfl, rfl, fun _ => rfl⟩

theorem Spared.trans (h : Spared files s t) (h' : Spared files t u) : Spared files s u where
  store := h'.store.trans h.store
  autoTrim := h'.autoTrim.trans h.autoTrim
  naming := h'.naming.trans h.naming
  evaluator := h'.evaluator.trans h.evaluator
  path := h'.path.trans h.path
  format := h'.format.trans h.format
  listenersOf := h'.listenersOf.trans h.listenersOf
  hearers := h'.hearers.trans h.hearers
  reactions := h'.reactions.trans h.reactions
  disk hfiles := (h'.disk hfiles).trans (h.disk hfiles)

theorem Spared.loaded (h : Spared files s t) (hs : s.manager.store.loaded = true) :
    t.manager.store.loaded = true := by
  rw [h.store, hs]

/-- What has been noted, and whether this is inside a callback, is of no account. -/
theorem Spared.withNotes (h : Spared files s t) (log log' : List Call) (before after : Bool) :
    Spared files { s with log := log, inCallback := before }
      { t with log := log', inCallback := after } :=
  ⟨h.store, h.autoTrim, h.naming, h.evaluator, h.path, h.format, h.listenersOf, h.hearers,
    h.reactions, h.disk⟩

/-- The second session comes from the first by questions: no listener has been called. -/
structure Asked (files : Bool) (s t : Session) : Prop extends Spared files s t where
  log : t.log = s.log

theorem Asked.refl (s : Session) : Asked files s s := ⟨.refl s, rfl⟩

theorem Asked.trans (h : Asked files s t) (h' : Asked files t u) : Asked files s u :=
  ⟨h.toSpared.trans h'.toSpared, h'.log.trans h.log⟩

/-- Other caches, comments and workers are of no account. -/
theorem asked_of_manager {m : Manager} (hstore : m.store = s.manager.store)
    (htrim : m.autoTrim = s.manager.autoTrim) (hnaming : m.naming = s.manager.naming)
    (hevaluator : m.evaluator = s.manager.evaluator) (hpath : m.path = s.manager.path)
    (hformat : m.format = s.manager.format) (hlisteners : m.listenersOf = s.manager.listenersOf)
    (hhearers : m.hearers = s.manager.hearers) : Asked files s { s with manager := m } :=
  ⟨⟨hstore, htrim, hnaming, hevaluator, hpath, hformat, hlisteners, hhearers, rfl, fun _ => rfl⟩,
    rfl⟩

theorem asked_of_uncached {m : Manager} (h : m.uncached = s.manager.uncached) :
    Asked files s { s with manager := m } := by
  have hviews : m.views = s.manager.views := (congrArg Manager.views h :)
  apply asked_of_manager
  · exact (congrArg Manager.store h :)
  · exact (congrArg Manager.autoTrim h :)
  · exact (congrArg Manager.naming h :)
  · exact (congrArg Manager.evaluator h :)
  · exact (congrArg Manager.path h :)
  · exact (congrArg Manager.format h :)
  · funext k
    rw [Manager.listenersOf, Manager.listenersOf, hviews]
  · exact (congrArg hearers h :)

theorem asked_withView (s : Session) (k : Key) :
    Asked files s { s with manager := s.manager.withView k } := by
  obtain ⟨_, _, hframe⟩ := s.manager.withView_frame k
  apply asked_of_manager
  case hlisteners => exact s.manager.listenersOf_withView k
  case hhearers => exact s.manager.hearers_withView k
  all_goals rw [hframe]

theorem asked_query (call : Calling) (hs : s.manager.store.loaded = true) {α : Type}
    {f : Manager → Except Error α × Manager} (hf : ∀ m, (f m).2.uncached = m.uncached) :
    Asked files s (s.query call f).2 := by
  unfold query onceLoaded ensureLoaded
  rw [if_pos hs]
  exact asked_of_uncached (hf s.manager)

/-- A question that does not use the caches. -/
theorem asked_ask (call : Calling) (hs : s.manager.store.loaded = true) {α : Type}
    (answer : Manager → Except Error α) :
    Asked files s (s.query call fun m => (answer m, m)).2 :=
  asked_query call hs fun _ => rfl

end Session

open Session

variable {files : Bool} {s : Session}

theorem asked_answered {α : Type} (f : α → Answer) {r : Except Error α × Session}
    (h : Asked files s r.2) : Asked files s (answered f r).2 := h

theorem asked_withKey {k : Key} {f : Session → Except Error Answer × Session}
    (hf : Asked files s (f s).2) : Asked files s (withKey s k f).2 := by
  unfold withKey
  split
  · exact hf
  · exact .refl s

section Commands

variable (call : Calling) (hs : s.manager.store.loaded = true)

include hs

theorem asked_throughView {k : Key} {f : Session → Except Error Answer × Session}
    (hf : ∀ {t : Session}, t.manager.store.loaded = true → Asked files t (f t).2) :
    Asked files s (throughView s k f).2 := by
  apply asked_withKey
  split
  · exact .refl s
  · have hview : Asked files s { s with manager := s.manager.withView k } := asked_withView s k
    exact hview.trans (hf (hview.loaded hs))

theorem asked_performProperty (k : Key) {c : PropertyCommand} (hc : c.asks = true) :
    Asked files s (performProperty call k s c).2 := by
  cases c with
  | get => exact asked_answered _ (asked_query call hs fun m => m.uncached_get k)
  | raw => exact asked_answered _ (asked_ask call hs _)
  | default => exact asked_answered _ (asked_ask call hs _)
  | defaultRaw => exact .refl s
  | boolean => exact asked_answered _ (asked_query call hs fun m => m.uncached_getBoolean k)
  | integer => exact asked_answered _ (asked_query call hs fun m => m.uncached_parsed k _)
  | real => exact asked_answered _ (asked_query call hs fun m => m.uncached_parsed k _)
  | member e => exact asked_answered _ (asked_query call hs fun m => m.uncached_parsed k _)
  | isDefault => exact asked_answered _ (asked_ask call hs _)
  | isModified => exact asked_answered _ (asked_ask call hs _)
  | dependsOn other => exact asked_withKey (asked_answered _ (asked_ask call hs _))
  | referenceAt position => exact asked_answered _ (asked_ask call hs _)
  | set value => cases hc
  | save value => cases hc
  | reset => cases hc
  | undo => cases hc
  | redo => cases hc
  | canUndo => exact asked_answered _ (asked_ask call hs _)
  | canRedo => exact asked_answered _ (asked_ask call hs _)
  | invalid e => exact .refl s

theorem asked_failProperty (fault : Error) {c : PropertyCommand} (hc : c.asks = true) :
    Asked files s (failProperty call fault s c).2 := by
  have hfault : Asked files s
      (s.query call fun m => ((.error fault : Except Error Answer), m)).2 := asked_ask call hs _
  cases c with
  | defaultRaw => exact .refl s
  | invalid e => exact .refl s
  | set value => cases hc
  | save value => cases hc
  | dependsOn other => exact asked_withKey hfault
  | _ => exact hfault

theorem asked_useProperty (k : Key) {c : PropertyCommand} (hc : c.asks = true) :
    Asked files s (useProperty call k s c).2 := by
  unfold useProperty
  split
  · exact asked_failProperty call hs _ hc
  · exact asked_performProperty call hs k hc

theorem asked_perform {c : Command} (hc : c.spares files = true) :
    Asked files s (perform call s c).2 := by
  cases c with
  | load =>
      simp only [perform, answered, load, if_pos hs]
      exact .refl s
  | close => exact asked_of_manager rfl rfl rfl rfl rfl rfl rfl rfl
  | property k c => exact asked_withKey (asked_useProperty call hs k hc)
  | isModified => exact asked_answered _ (asked_ask call hs _)
  | keySet => exact asked_answered _ (asked_query call hs Manager.uncached_keySet)
  | properties => exact asked_answered _ (asked_ask call hs _)
  | setComment comment => exact asked_of_manager rfl rfl rfl rfl rfl rfl rfl rfl
  | view k c => exact asked_throughView hs fun ht => asked_useProperty call ht k hc
  | askView k question => exact asked_throughView hs fun _ => .refl _
  | sameView first second =>
      exact asked_throughView hs fun ht => asked_throughView ht fun _ => .refl _
  | disk c =>
      have hfiles : files = true := hc
      subst hfiles
      exact ⟨⟨rfl, rfl, rfl, rfl, rfl, rfl, rfl, rfl, rfl, fun h => nomatch h⟩, rfl⟩
  | autoTrim => exact .refl s
  | savingDefaults => exact .refl s
  | comment => exact .refl s
  | path => exact .refl s
  | format => exact .refl s
  | evaluator => exact .refl s
  | storeHistory name => exact .refl s
  | externalUsable => exact .refl s
  | raise message => exact .refl s
  | _ => cases hc

/-- A script that only asks calls no listener and leaves the properties alone. -/
theorem asked_performScript {script : List Command}
    (hscript : ∀ c ∈ script, c.spares files = true) :
    Asked files s (performScript call script s).2.2 := by
  induction script generalizing s with
  | nil => exact .refl s
  | cons c script ih =>
      by_cases hc : ∃ message, c = .raise message
      · obtain ⟨message, rfl⟩ := hc
        exact .refl s
      · have hfirst : Asked files s (perform call s c).2 :=
          asked_perform call hs (hscript c List.mem_cons_self)
        rw [performScript]
        · exact hfirst.trans
            (ih (hfirst.loaded hs) fun c' hc' => hscript c' (List.mem_cons_of_mem c hc'))
        · exact fun message h => hc ⟨message, h⟩

end Commands

end VersionedProperties.Manager
