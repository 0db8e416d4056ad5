import VersionedProperties.Proofs.Manager.Dispatch
import VersionedProperties.Proofs.Manager.Reached
import VersionedProperties.Proofs.Reference.Graph

/-!
# Who hears of an event

An event goes to its audience, the listeners at the manager and those at the views that it concerns,
in the order of their subscriptions. As long as no listener does more than ask, these calls are all
that comes of an event. `Tells` says that the calls between two sessions are those for certain
events, fired one after the other. What a view is concerned with is told by the values after the
last event, which none of the earlier ones has to do with unless it is about all properties.
-/

namespace VersionedProperties.Manager

/-- Whether an event concerns those who listen at the manager, or at the view of a key. -/
def concerns (m : Manager) (event : Event) : Option Key → Bool
  | none => true
  | some k => m.isRelevant k event

/-- The listeners that an event goes to, in the order in which they are called. -/
def audience (m : Manager) (event : Event) : List Text :=
  (m.hearers.filter fun h => m.concerns event h.1).map Prod.snd

/-- The calls of listeners for events that are fired one after the other. -/
def announced (m : Manager) (events : List Event) : List (Text × Event) :=
  events.flatMap fun event => (m.audience event).map (·, event)

theorem dependsOn_congr {m n : Manager} (hnaming : n.naming = m.naming)
    (htrim : n.autoTrim = m.autoTrim) (hget : n.store.get = m.store.get) (k other : Key) :
    n.dependsOn k other = m.dependsOn k other := by
  have hlookup : n.source.lookup = m.source.lookup := by
    rw [lookup_source, lookup_source, retrieve_congr hget htrim]
  have hraw : n.raw k = m.raw k := by
    rw [raw, raw, nameOf, nameOf, retrieve_congr hget htrim, hnaming]
  have hname : n.nameOf other = m.nameOf other := by rw [nameOf, nameOf, hnaming]
  apply Bool.eq_iff_iff.2
  rw [dependsOn, dependsOn, hraw, hname, Source.dependsOn_iff_leads, Source.dependsOn_iff_leads]
  exact ⟨Source.leads_congr fun _ _ => (congrFun hlookup _).symm,
    Source.leads_congr fun _ _ => congrFun hlookup _⟩

theorem concerns_congr {m n : Manager} (hnaming : n.naming = m.naming)
    (htrim : n.autoTrim = m.autoTrim) (hget : n.store.get = m.store.get) (event : Event)
    (place : Option Key) : n.concerns event place = m.concerns event place := by
  cases place with
  | none => rfl
  | some k => simp only [concerns, isRelevant, dependsOn_congr hnaming htrim hget]

theorem audience_congr {m n : Manager} {event : Event} (hhearers : n.hearers = m.hearers)
    (hconcerns : ∀ place, n.concerns event place = m.concerns event place) :
    n.audience event = m.audience event := by
  simp only [audience, hhearers, hconcerns]

theorem announced_append (m : Manager) (events later : List Event) :
    m.announced (events ++ later) = m.announced events ++ m.announced later :=
  List.flatMap_append

namespace Session

variable {files : Bool} {s t u : Session}

theorem Told.refl (s : Session) : Told files s s [] := ⟨.refl s, [], (List.append_nil _).symm, rfl⟩

theorem Told.trans {told told' : List (Text × Event)} (h : Told files s t told)
    (h' : Told files t u told') : Told files s u (told ++ told') := by
  obtain ⟨calls, hlog, hcalls⟩ := h.log
  obtain ⟨calls', hlog', hcalls'⟩ := h'.log
  refine ⟨h.toSpared.trans h'.toSpared, calls ++ calls', ?_, ?_⟩
  · rw [hlog', hlog, List.append_assoc]
  · rw [List.map_append, hcalls, hcalls']

theorem told_fold {α : Type} {told : α → List (Text × Event)}
    {f : α → Session → Except Error Unit × Session}
    (hf : ∀ a t, Spared files s t → Told files t (f a t).2 (told a)) (members : List α)
    {t : Session} (ht : Spared files s t) :
    Told files t (members.foldl (fun t a => (f a t).2) t) (members.flatMap told) := by
  induction members generalizing t with
  | nil => exact .refl t
  | cons a members ih =>
      have hfirst := hf a t ht
      rw [List.foldl_cons, List.flatMap_cons]
      exact hfirst.trans (ih (ht.trans hfirst.toSpared))

section Fire

variable (depth : Nat) (hs : s.manager.store.loaded = true) (hspare : s.AllSpare files)
  (event : Event)

include hs hspare

theorem told_deliver (a : Subscriber) {t : Session} (ht : Spared files s t) :
    Told files t (deliver (callWithin depth) event a t).2
      (((s.manager.hearersAt a).filter fun h => s.manager.concerns event h.1).map
        fun h => (h.2, event)) := by
  have hcall : ∀ listener (t : Session), Spared files s t →
      Told files t (callWithin depth listener event t).2 [(listener, event)] :=
    fun listener t ht => told_callWithin depth (ht.loaded hs) fun r hr _ =>
      hspare.of_spared ht listener r not_false hr
  cases a with
  | listener name => exact hcall name t ht
  | view k =>
      have hlisteners : t.manager.listenersOf k = s.manager.listenersOf k :=
        congrFun ht.listenersOf k
      have hfold := told_fold hcall (s.manager.listenersOf k).members ht
      have hnames : (((s.manager.hearersAt (.view k)).filter
          fun h => s.manager.concerns event h.1).map fun h => (h.2, event)) =
          if s.manager.isRelevant k event then
            (s.manager.listenersOf k).members.flatMap fun listener => [(listener, event)]
          else [] := by
        rw [hearersAt, List.filter_map, List.map_map]
        change List.map _ ((s.manager.listenersOf k).members.filter
          fun _ => s.manager.isRelevant k event) = _
        cases s.manager.isRelevant k event with
        | false => simp
        | true =>
            rw [List.filter_true, if_pos rfl, ← List.map_eq_flatMap]
            rfl
      rw [hnames]
      unfold deliver
      dsimp only
      rw [hlisteners, ht.isRelevant]
      cases s.manager.isRelevant k event with
      | false =>
          rw [Bool.not_false, Bool.or_true, if_pos rfl, if_neg Bool.false_ne_true]
          exact .refl t
      | true =>
          rw [Bool.not_true, Bool.or_false, if_pos rfl]
          cases hmembers : (s.manager.listenersOf k).members with
          | nil => exact .refl t
          | cons listener members =>
              rw [List.isEmpty_cons, if_neg Bool.false_ne_true]
              exact hmembers ▸ hfold

theorem told_fire :
    Told files s (s.fire (callWithin depth) event) (s.manager.announced [event]) := by
  have hfold := told_fold (told_deliver depth hs hspare event) s.manager.subscribers.members
    (.refl s)
  have hall : s.manager.announced [event] = s.manager.subscribers.members.flatMap fun a =>
      ((s.manager.hearersAt a).filter fun h => s.manager.concerns event h.1).map
        fun h => (h.2, event) := by
    rw [announced, List.flatMap_singleton, audience, hearers, List.filter_flatMap,
      List.map_map, List.map_flatMap]
    rfl
  rw [hall]
  exact hfold

end Fire

/-- An event goes to the same listeners in both sessions, whatever the values. -/
def Alike (s t : Session) : Prop :=
  ∀ store event, (t.withStore store).manager.audience event =
    (s.withStore store).manager.audience event

theorem Spared.alike (h : Spared files s t) : s.Alike t := by
  intro store event
  apply audience_congr
  · exact h.hearers
  · exact concerns_congr (m := (s.withStore store).manager) (n := (t.withStore store).manager)
      h.naming h.autoTrim rfl event

/-- The calls of listeners that have been noted are those of certain events, which were fired one
after the other. -/
def Tells (s t : Session) (events : List Event) : Prop :=
  ∃ calls, t.log = s.log ++ calls ∧
    calls.map Call.told = (s.withStore t.manager.store).manager.announced events

theorem tells_nil (h : t.log = s.log) : s.Tells t [] := ⟨[], by rw [h, List.append_nil], rfl⟩

theorem Tells.of_alike {events : List Event} (h : u.Tells t events) (halike : s.Alike u)
    (hlog : u.log = s.log) : s.Tells t events := by
  obtain ⟨calls, hcalls, htold⟩ := h
  refine ⟨calls, by rw [hcalls, hlog], ?_⟩
  rw [htold]
  simp only [announced, halike _ _]

theorem Tells.trans {events later : List Event} (h : s.Tells u events) (h' : u.Tells t later)
    (halike : s.Alike u)
    (hsame : (∀ event ∈ events, event.key = none) ∨ t.manager.store.get = u.manager.store.get) :
    s.Tells t (events ++ later) := by
  obtain ⟨calls, hlog, htold⟩ := h
  obtain ⟨calls', hlog', htold'⟩ := h'.of_alike (s := { s with log := u.log }) halike rfl
  refine ⟨calls ++ calls', ?_, ?_⟩
  · rw [hlog', hlog, List.append_assoc]
  · have haudience : ∀ event ∈ events, (s.withStore u.manager.store).manager.audience event =
        (s.withStore t.manager.store).manager.audience event := by
      intro event hevent
      refine audience_congr rfl fun place => ?_
      rcases hsame with hglobal | hget
      · cases place with
        | none => rfl
        | some k => simp only [concerns, isRelevant, hglobal event hevent]
      · exact concerns_congr (m := (s.withStore t.manager.store).manager)
          (n := (s.withStore u.manager.store).manager) rfl rfl hget.symm event place
    rw [List.map_append, htold, htold', announced_append]
    congr 1
    exact List.flatMap_congr fun event hevent => by rw [haudience event hevent]

theorem tells_fire (depth : Nat) (hs : s.manager.store.loaded = true) (hspare : s.AllSpare files)
    (event : Event) : s.Tells (s.fire (callWithin depth) event) [event] := by
  have htold := told_fire depth hs hspare event
  obtain ⟨calls, hlog, hcalls⟩ := htold.log
  refine ⟨calls, hlog, ?_⟩
  rw [hcalls, htold.store]
  rfl

end Session

end VersionedProperties.Manager
