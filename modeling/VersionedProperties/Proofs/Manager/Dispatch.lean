import VersionedProperties.Proofs.Manager.Asking

/-!
# How events reach listeners

An event that is fired goes to the subscribers in order, and a view passes it on to its listeners if
it concerns the key. Listeners may change the session while others wait for the event, so that what
reaches whom can only be told as long as they spare the properties and the subscriptions. `IsFree`
singles out the listeners that are free to do anything, the others are assumed to spare what matters
(`OthersSpare`): up to the first call of a free listener nothing relevant changes, and the first
subscriber that the event is due to a free listener at (`Targets`) makes such a call. For a single
event only the reactions to it count.
-/

namespace VersionedProperties.Manager

/-- Whether a reaction is one to events of this kind. -/
def Reaction.reactsTo (r : Reaction) (event : Event) : Prop :=
  r.only = none ∨ r.only = some event.kind.name

/-- Who was called, and with which event. -/
def Call.told (c : Call) : Text × Event := (c.listener, c.event)

namespace Session

/-- Every listener that is not free has a script that spares the properties and the listeners. -/
def OthersSpare (files : Bool) (IsFree : Text → Prop) (s : Session) : Prop :=
  ∀ listener r, ¬ IsFree listener → s.reactions.find? listener = some r →
    ∀ c ∈ r.script, c.spares files = true

/-- Every listener that is not free reacts to an event, if it does, by a script that spares the
properties and the listeners. -/
def OthersSpareAt (files : Bool) (event : Event) (IsFree : Text → Prop) (s : Session) : Prop :=
  ∀ listener r, ¬ IsFree listener → s.reactions.find? listener = some r → r.reactsTo event →
    ∀ c ∈ r.script, c.spares files = true

/-- The second session comes from the first by calls of listeners that are not free. -/
structure Passed (files : Bool) (IsFree : Text → Prop) (s t : Session) : Prop
    extends Spared files s t where
  log : ∃ calls, t.log = s.log ++ calls ∧ ∀ c ∈ calls, ¬ IsFree c.listener

/-- A free listener has been called with an event. -/
def Heard (IsFree : Text → Prop) (event : Event) (s : Session) : Prop :=
  ∃ c ∈ s.log, IsFree c.listener ∧ c.event = event

/-- The second session comes from the first by calls of these listeners with these events. -/
structure Told (files : Bool) (s t : Session) (told : List (Text × Event)) : Prop
    extends Spared files s t where
  log : ∃ calls, t.log = s.log ++ calls ∧ calls.map Call.told = told

variable {files : Bool} {IsFree : Text → Prop} {s t u : Session}

theorem Passed.refl (s : Session) : Passed files IsFree s s :=
  ⟨.refl s, [], (List.append_nil _).symm, fun _ hc => nomatch hc⟩

theorem Passed.trans (h : Passed files IsFree s t) (h' : Passed files IsFree t u) :
    Passed files IsFree s u := by
  obtain ⟨calls, hlog, hcalls⟩ := h.log
  obtain ⟨calls', hlog', hcalls'⟩ := h'.log
  refine ⟨h.toSpared.trans h'.toSpared, calls ++ calls', ?_, ?_⟩
  · rw [hlog', hlog, List.append_assoc]
  · intro c hc
    rcases List.mem_append.1 hc with hc | hc
    · exact hcalls c hc
    · exact hcalls' c hc

theorem OthersSpare.of_spared (h : Spared files s t) (hs : s.OthersSpare files IsFree) :
    t.OthersSpare files IsFree := by
  intro listener r hfree hr
  rw [h.reactions] at hr
  exact hs listener r hfree hr

theorem OthersSpare.at (hs : s.OthersSpare files IsFree) (event : Event) :
    s.OthersSpareAt files event IsFree :=
  fun listener r hfree hr _ => hs listener r hfree hr

theorem OthersSpareAt.of_spared {event : Event} (h : Spared files s t)
    (hs : s.OthersSpareAt files event IsFree) : t.OthersSpareAt files event IsFree := by
  intro listener r hfree hr
  rw [h.reactions] at hr
  exact hs listener r hfree hr

theorem Heard.mono {event : Event} (hs : Heard IsFree event s) (h : s.log <+: t.log) :
    Heard IsFree event t := by
  obtain ⟨c, hc, hheard⟩ := hs
  exact ⟨c, h.subset hc, hheard⟩

end Session

open Session

/-! One call -/

theorem log_callWithin (depth : Nat) (listener : Text) (event : Event) (s : Session) :
    ∃ answers rest, (callWithin depth listener event s).2.log =
      s.log ++ ⟨listener, event, answers⟩ :: rest := by
  cases depth with
  | zero => exact ⟨none, [], rfl⟩
  | succ depth =>
      unfold callWithin
      split
      · exact ⟨none, [], rfl⟩
      · exact ⟨_, _, rfl⟩

variable {files : Bool} {IsFree : Text → Prop} {s : Session}

theorem exists_reaction_of_script? {listener : Text} {event : Event} {script : List Command}
    (h : s.script? listener event = some script) :
    ∃ r, s.reactions.find? listener = some r ∧ r.reactsTo event ∧ r.script = script := by
  unfold script? at h
  split at h
  · cases h
  · rename_i r hr
    split at h
    · rename_i hruns
      exact ⟨r, hr, hruns.2, Option.some.inj h⟩
    · cases h

/-- A listener that at most asks is told of the event, and nobody else is. -/
theorem told_callWithin (depth : Nat) (hs : s.manager.store.loaded = true) {event : Event}
    {listener : Text} (hspare : ∀ r, s.reactions.find? listener = some r → r.reactsTo event →
      ∀ c ∈ r.script, c.spares files = true) :
    Told files s (callWithin depth listener event s).2 [(listener, event)] := by
  have hnote : Told files s (s.note ⟨listener, event, none⟩) [(listener, event)] :=
    ⟨(Spared.refl s).withNotes s.log _ s.inCallback s.inCallback, [⟨listener, event, none⟩], rfl,
      rfl⟩
  cases depth with
  | zero => exact hnote
  | succ depth =>
      unfold callWithin
      split
      · exact hnote
      · rename_i script hscript
        obtain ⟨r, hr, hreacts, rfl⟩ := exists_reaction_of_script? hscript
        have hloaded : (s.beginRun listener).manager.store.loaded = true := hs
        have hrun : Asked files (s.beginRun listener)
            (performScript (callWithin depth) r.script (s.beginRun listener)).2.2 :=
          asked_performScript _ hloaded (hspare r hr hreacts)
        have hbegin : Spared files s (s.beginRun listener) :=
          ⟨rfl, rfl, rfl, rfl, rfl, rfl, rfl, rfl, rfl, fun _ => rfl⟩
        generalize performScript (callWithin depth) r.script (s.beginRun listener) = ran at hrun ⊢
        obtain ⟨answers, outcome, inner⟩ := ran
        have hspared := hbegin.trans hrun.toSpared
        have hlog : inner.log = [] := hrun.log
        refine ⟨hspared.withNotes s.log _ s.inCallback inner.inCallback,
          [⟨listener, event, some answers⟩], ?_, rfl⟩
        dsimp only
        rw [hlog]

theorem passed_callWithin (depth : Nat) (hs : s.manager.store.loaded = true) {event : Event}
    (hspare : s.OthersSpareAt files event IsFree) {listener : Text} (hfree : ¬ IsFree listener) :
    Passed files IsFree s (callWithin depth listener event s).2 := by
  have htold : Told files s (callWithin depth listener event s).2 [(listener, event)] :=
    told_callWithin depth hs fun r hr => hspare listener r hfree hr
  obtain ⟨calls, hlog, hcalls⟩ := htold.log
  refine ⟨htold.toSpared, calls, hlog, ?_⟩
  intro c hc
  have hmem : c.told ∈ [(listener, event)] := hcalls ▸ List.mem_map_of_mem hc
  have hlistener : c.listener = listener := congrArg Prod.fst (List.mem_singleton.1 hmem)
  rw [hlistener]
  exact hfree

/-! Calls one after the other -/

namespace Session

theorem prefix_fold {α : Type} {f : α → Session → Except Error Unit × Session}
    (hgrows : ∀ a t, t.log <+: (f a t).2.log) (members : List α) (t : Session) :
    t.log <+: (members.foldl (fun t a => (f a t).2) t).log := by
  induction members generalizing t with
  | nil => exact List.prefix_rfl
  | cons a members ih => exact (hgrows a t).trans (ih _)

/-- Members that are called one after the other: if one of them is due to call a free listener, a
free listener hears the event, and otherwise no free listener is called. -/
theorem fold_dispatch {α : Type} (IsDue : α → Prop) {event : Event}
    {f : α → Session → Except Error Unit × Session} (hgrows : ∀ a t, t.log <+: (f a t).2.log)
    (hdue : ∀ a t, Spared files s t → IsDue a → Heard IsFree event (f a t).2)
    (hpass : ∀ a t, Spared files s t → ¬ IsDue a → Passed files IsFree t (f a t).2)
    (members : List α) {t : Session} (ht : Spared files s t) :
    ((∃ a ∈ members, IsDue a) →
        Heard IsFree event (members.foldl (fun t a => (f a t).2) t)) ∧
      ((∀ a ∈ members, ¬ IsDue a) →
        Passed files IsFree t (members.foldl (fun t a => (f a t).2) t)) := by
  induction members generalizing t with
  | nil =>
      refine ⟨?_, fun _ => .refl t⟩
      rintro ⟨a, ha, _⟩
      cases ha
  | cons a members ih =>
      rw [List.foldl_cons]
      by_cases ha : IsDue a
      · refine ⟨fun _ => ?_, fun hnone => absurd ha (hnone a List.mem_cons_self)⟩
        exact (hdue a t ht ha).mono (prefix_fold hgrows members _)
      · have hfirst := hpass a t ht ha
        obtain ⟨ihdue, ihpass⟩ := ih (ht.trans hfirst.toSpared)
        constructor
        · rintro ⟨b, hb, hbdue⟩
          rcases List.mem_cons.1 hb with rfl | hb
          · exact absurd hbdue ha
          · exact ihdue ⟨b, hb, hbdue⟩
        · intro hnone
          exact hfirst.trans (ihpass fun b hb => hnone b (List.mem_cons_of_mem a hb))

/-- A subscriber that an event is due to a free listener at: the listener itself, or the view of a
key that the event concerns. -/
def Targets (IsFree : Text → Prop) (m : Manager) (event : Event) : Subscriber → Prop
  | .listener name => IsFree name
  | .view k => (∃ listener ∈ (m.listenersOf k).members, IsFree listener) ∧
      m.isRelevant k event = true

theorem Spared.dependsOn {t : Session} (h : Spared files s t) (k other : Key) :
    t.manager.dependsOn k other = s.manager.dependsOn k other := by
  have htrimmed : t.manager.trimmed = s.manager.trimmed := by
    funext value
    rw [Manager.trimmed, Manager.trimmed, h.autoTrim]
  unfold Manager.dependsOn Manager.source Manager.raw Manager.retrieve Manager.nameOf
  rw [htrimmed, h.store, h.naming]

theorem Spared.isRelevant {t : Session} (h : Spared files s t) (k : Key) (event : Event) :
    t.manager.isRelevant k event = s.manager.isRelevant k event := by
  simp only [Manager.isRelevant, h.dependsOn]

section Dispatch

variable (depth : Nat) (hs : s.manager.store.loaded = true) (event : Event)
  (hspare : s.OthersSpareAt files event IsFree)

theorem grows_deliver (a : Subscriber) (t : Session) :
    t.log <+: (deliver (callWithin depth) event a t).2.log := by
  have hcall : ∀ listener (t : Session),
      t.log <+: (callWithin depth listener event t).2.log := by
    intro listener t
    obtain ⟨answers, rest, hlog⟩ := log_callWithin depth listener event t
    exact ⟨_, hlog.symm⟩
  cases a with
  | listener name => exact hcall name t
  | view k =>
      unfold deliver
      dsimp only
      split
      · exact List.prefix_rfl
      · exact prefix_fold hcall _ t

include hs hspare

theorem dispatch_deliver (a : Subscriber) {t : Session} (ht : Spared files s t) :
    (Targets IsFree s.manager event a →
        Heard IsFree event (deliver (callWithin depth) event a t).2) ∧
      (¬ Targets IsFree s.manager event a →
        Passed files IsFree t (deliver (callWithin depth) event a t).2) := by
  have hheard : ∀ listener (t : Session), IsFree listener →
      Heard IsFree event (callWithin depth listener event t).2 := by
    intro listener t hfree
    obtain ⟨answers, rest, hlog⟩ := log_callWithin depth listener event t
    exact ⟨⟨listener, event, answers⟩, by rw [hlog]; simp, hfree, rfl⟩
  have hpassed : ∀ listener (t : Session), Spared files s t → ¬ IsFree listener →
      Passed files IsFree t (callWithin depth listener event t).2 :=
    fun listener t ht hfree => passed_callWithin depth (ht.loaded hs) (hspare.of_spared ht) hfree
  cases a with
  | listener name => exact ⟨hheard name t, hpassed name t ht⟩
  | view k =>
      have hlisteners : t.manager.listenersOf k = s.manager.listenersOf k :=
        congrFun ht.listenersOf k
      have hfold := fold_dispatch IsFree
        (fun listener t => grows_deliver depth event (.listener listener) t)
        (fun listener t _ => hheard listener t) hpassed (s.manager.listenersOf k).members ht
      unfold deliver
      dsimp only
      rw [hlisteners, ht.isRelevant]
      by_cases hrelevant : s.manager.isRelevant k event = true
      · cases hmembers : (s.manager.listenersOf k).members with
        | nil =>
            rw [List.isEmpty_nil, Bool.true_or, if_pos rfl]
            refine ⟨?_, fun _ => .refl t⟩
            rintro ⟨⟨listener, hlistener, _⟩, _⟩
            rw [hmembers] at hlistener
            cases hlistener
        | cons listener members =>
            rw [hrelevant, List.isEmpty_cons, Bool.not_true, Bool.or_self,
              if_neg Bool.false_ne_true]
            constructor
            · exact fun htarget => hfold.1 htarget.1
            · intro hnot
              apply hfold.2
              exact fun listener hlistener hfree => hnot ⟨⟨listener, hlistener, hfree⟩, hrelevant⟩
      · rw [Bool.not_eq_true] at hrelevant
        rw [hrelevant, Bool.not_false, Bool.or_true, if_pos rfl]
        refine ⟨fun htarget => ?_, fun _ => .refl t⟩
        exact absurd (hrelevant.symm.trans htarget.2) Bool.false_ne_true

theorem dispatch_fire :
    ((∃ a ∈ s.manager.subscribers.members, Targets IsFree s.manager event a) →
        Heard IsFree event (s.fire (callWithin depth) event)) ∧
      ((∀ a ∈ s.manager.subscribers.members, ¬ Targets IsFree s.manager event a) →
        Passed files IsFree s (s.fire (callWithin depth) event)) :=
  fold_dispatch _ (grows_deliver depth event)
    (fun a _ ht => (dispatch_deliver depth hs event hspare a ht).1)
    (fun a _ ht => (dispatch_deliver depth hs event hspare a ht).2) _ (.refl s)

end Dispatch

/-- Every listener has a script that spares the properties and the listeners. -/
abbrev AllSpare (files : Bool) (s : Session) : Prop := s.OthersSpare files fun _ => False

/-- Whether a listener is subscribed, to all events or to the view of a key. -/
def Subscribed (s : Session) (listener : Text) : Prop :=
  .listener listener ∈ s.manager.subscribers.members ∨
    ∃ k, listener ∈ (s.manager.listenersOf k).members

/-- Every listener that is subscribed reacts to an event, if it does, by a script that spares the
properties and the listeners. -/
def SparesAt (files : Bool) (event : Event) (s : Session) : Prop :=
  ∀ listener r, s.Subscribed listener → s.reactions.find? listener = some r → r.reactsTo event →
    ∀ c ∈ r.script, c.spares files = true

theorem Subscribed.of_spared {t : Session} (h : Spared files s t) {listener : Text}
    (ht : t.Subscribed listener) : s.Subscribed listener := by
  rcases ht with hmem | ⟨k, hmem⟩
  · have hhearer : (none, listener) ∈ t.manager.hearers :=
      List.mem_flatMap.2 ⟨.listener listener, hmem, List.mem_singleton_self _⟩
    rw [h.hearers] at hhearer
    obtain ⟨a, ha, hlistener⟩ := List.mem_flatMap.1 hhearer
    cases a with
    | listener name =>
        cases List.mem_singleton.1 hlistener
        exact .inl ha
    | view k =>
        obtain ⟨_, _, heq⟩ := List.mem_map.1 hlistener
        cases heq
  · rw [h.listenersOf] at hmem
    exact .inr ⟨k, hmem⟩

theorem SparesAt.of_spared {t : Session} {event : Event} (h : Spared files s t)
    (hs : s.SparesAt files event) : t.SparesAt files event := by
  intro listener r hsubscribed hr
  rw [h.reactions] at hr
  exact hs listener r (hsubscribed.of_spared h) hr

/-- Firing an event leaves the properties alone if the listeners that react to it do. -/
theorem spared_fire_at (depth : Nat) (hs : s.manager.store.loaded = true) {event : Event}
    (hspare : s.SparesAt files event) : Spared files s (s.fire (callWithin depth) event) := by
  have hothers : s.OthersSpareAt files event fun listener => ¬ s.Subscribed listener :=
    fun listener r hfree => hspare listener r (Classical.not_not.1 hfree)
  apply Passed.toSpared
  apply (dispatch_fire depth hs event hothers).2
  intro a ha htarget
  cases a with
  | listener name => exact htarget (.inl ha)
  | view k =>
      obtain ⟨⟨listener, hlistener, hfree⟩, _⟩ := htarget
      exact hfree (.inr ⟨k, hlistener⟩)

theorem OthersSpare.sparesAt (hs : s.AllSpare files) {event : Event} : s.SparesAt files event :=
  fun listener r _ hr _ => hs listener r not_false hr

/-- Firing an event leaves the properties alone if all listeners do. -/
theorem spared_fire (depth : Nat) (hs : s.manager.store.loaded = true) (hspare : s.AllSpare files)
    (event : Event) : Spared files s (s.fire (callWithin depth) event) :=
  spared_fire_at depth hs hspare.sparesAt

end Session

end VersionedProperties.Manager
