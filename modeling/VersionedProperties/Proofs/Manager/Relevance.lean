import VersionedProperties.Proofs.Manager.Edit
import VersionedProperties.Proofs.Manager.Reached
import VersionedProperties.Proofs.Reference.Graph
import VersionedProperties.Proofs.Reference.Locality
import VersionedProperties.Proofs.Reference.Template

/-!
# Views hear of what changes their value

Whether an event concerns the view of a key is decided after the change, by references between the
values that are current then; whether the value of the key has changed is decided by two expansions,
one before and one after. Both look at the same names: an expansion reads only names that the value
depends on, and what depends on the edited name is told without the value of this name, so that it
makes no difference whether one looks before the edit or after.
-/

namespace VersionedProperties.Manager

/-- References lead from the value of a key to the name of another. -/
def DependsOn (m : Manager) (k other : Key) : Prop :=
  m.source.Leads ((m.raw k).getD []) (m.nameOf other)

theorem dependsOn_iff (m : Manager) (k other : Key) :
    m.dependsOn k other = true ↔ m.DependsOn k other :=
  m.source.dependsOn_iff_leads _ _

theorem isRelevant_event (m : Manager) (k edited : Key) (e : PropertyEdit) :
    m.isRelevant k (e.event edited) = true ↔ edited = k ∨ m.dependsOn k edited = true := by
  cases e <;> simp [isRelevant, PropertyEdit.event]

theorem contains_of_mem_listenersOf {m : Manager} {k : Key} {listener : Text}
    (h : listener ∈ (m.listenersOf k).members) : m.views.contains k = true := by
  unfold listenersOf at h
  unfold Mapping.contains
  cases hview : m.views.find? k with
  | none =>
      rw [hview] at h
      cases h
  | some r => rfl

theorem get_eq_evaluated {m : Manager} (hm : m.CachesSound) (k : Key) :
    (m.get k).1 = m.evaluated k :=
  (hm.values.obtain (m.nameOf k, m.autoTrim)).1

/-- The answer to a question for the value of a key that is declared. -/
def toldValue (m : Manager) (k : Key) : Except Error Answer :=
  match m.naming.type.faults.name with
  | some fault => .error fault
  | none => (m.evaluated k).map .value

theorem toldValue_congr {m n : Manager} {k : Key} (hnaming : n.naming = m.naming)
    (hevaluated : n.evaluated k = m.evaluated k) : n.toldValue k = m.toldValue k := by
  rw [toldValue, toldValue, hnaming, hevaluated]

theorem expanded_of_evaluate {m : Manager} {name raw value : Text}
    (hvalue : m.evaluator.evaluate m.retrieve (some name) raw = .ok value) :
    m.expanded name (some raw) = .ok (some value) := by
  rw [expanded, Evaluator.evaluate?, hvalue]
  rfl

theorem evaluated_of_evaluate {m : Manager} {k : Key} {raw value : Text} (hraw : m.raw k = some raw)
    (hvalue : m.evaluator.evaluate m.retrieve (some (m.nameOf k)) raw = .ok value) :
    m.evaluated k = .ok (some value) := by
  rw [evaluated, hraw, expanded_of_evaluate hvalue]

theorem toldValue_of_evaluated {m : Manager} {k : Key} {value : Option Text}
    (hfault : m.naming.type.faults.name = none) (hvalue : m.evaluated k = .ok value) :
    m.toldValue k = .ok (.value value) := by
  rw [toldValue, hfault, hvalue]
  rfl

/-- Reading is the same where all values are. -/
theorem evaluated_congr {m n : Manager} (hnaming : n.naming = m.naming)
    (hevaluator : n.evaluator = m.evaluator) (htrim : n.autoTrim = m.autoTrim)
    (hget : n.store.get = m.store.get) (k : Key) : n.evaluated k = m.evaluated k := by
  unfold evaluated expanded raw nameOf
  rw [retrieve_congr hget htrim, hnaming, hevaluator]

section OneEdit

variable {m n : Manager} (htrim : n.autoTrim = m.autoTrim) {k other : Key}
  (hget : ∀ name, name ≠ m.nameOf other → n.store.get name = m.store.get name)

include htrim hget

theorem retrieve_of_ne {name : Text} (hname : name ≠ m.nameOf other) :
    n.retrieve name = m.retrieve name := by
  unfold retrieve trimmed
  rw [hget name hname, htrim]

variable (hnaming : n.naming = m.naming) (hne : m.nameOf k ≠ m.nameOf other)

include hnaming hne

theorem raw_of_edit : n.raw k = m.raw k := by
  unfold raw nameOf
  rw [hnaming]
  exact retrieve_of_ne htrim hget hne

/-- Whether a key depends on another is the same before and after an edit of the other. -/
theorem DependsOn.of_edit (h : n.DependsOn k other) : m.DependsOn k other := by
  have hname : n.nameOf other = m.nameOf other := by rw [nameOf, nameOf, hnaming]
  rw [DependsOn, raw_of_edit htrim hget hnaming hne, hname] at h
  refine Source.leads_congr ?_ h
  intro name hname'
  rw [lookup_source, lookup_source]
  exact (retrieve_of_ne htrim hget hname').symm

/-- The value of a key that does not depend on another is the same before and after an edit of the
other. -/
theorem evaluated_of_not_dependsOn (hevaluator : n.evaluator = m.evaluator)
    (hfree : ¬ n.dependsOn k other = true) : n.evaluated k = m.evaluated k := by
  have hname : n.nameOf = m.nameOf := by
    funext k'
    rw [nameOf, nameOf, hnaming]
  have hraw := raw_of_edit htrim hget hnaming hne
  unfold evaluated expanded
  rw [hevaluator, hraw, hname]
  cases hvalue : m.raw k with
  | none => rfl
  | some raw =>
      have hagree : ∀ name ∈ n.source.dependencies raw, m.retrieve name = n.source.lookup name := by
        intro name hmem
        rw [lookup_source]
        refine (retrieve_of_ne htrim hget ?_).symm
        rintro rfl
        apply hfree
        rw [dependsOn, hraw, hvalue, hname, Option.getD_some]
        exact (n.source.dependsOn_iff raw _).2 hmem
      have hsame := m.evaluator.evaluate_congr hagree (some (m.nameOf k))
      rw [lookup_source] at hsame
      rw [Evaluator.evaluate?, Evaluator.evaluate?, hsame]

end OneEdit

namespace Session

theorem answer_get {s : Session} (hs : s.manager.store.loaded = true)
    (hcaches : s.manager.CachesSound) {k : Key} (hk : k ∈ s.manager.naming.type.keys) :
    (s.step (.property k .get)).1.answer = s.manager.toldValue k := by
  simp only [step, perform, Manager.perform, withKey, if_pos hk, useProperty, toldValue]
  cases hfault : s.manager.naming.type.faults.name with
  | some fault =>
      simp only [failProperty, query, onceLoaded_of_loaded (s := { s with log := [] }) hs]
      rfl
  | none =>
      simp only [performProperty, answered, query,
        onceLoaded_of_loaded (s := { s with log := [] }) hs, withManager]
      rw [get_eq_evaluated hcaches]

theorem Spared.evaluated {files : Bool} {s t : Session} (h : Spared files s t) (k : Key) :
    t.manager.evaluated k = s.manager.evaluated k :=
  evaluated_congr h.naming h.evaluator h.autoTrim (congrArg Store.get h.store) k

section Edit

variable {s t : Session} {depth : Nat} {key edited : Key} {e : PropertyEdit} {listener : Text}
  (h : Edited (callWithin depth) edited e s t) (hs : s.manager.store.loaded = true)
  (hnames : s.manager.nameOf key = s.manager.nameOf edited → key = edited)
  (hspare : s.OthersSpare true (· = listener))

include h hs hnames hspare

/-- A listener of the view of a key hears of an edit, or the value of the key is as it was. -/
theorem Edited.heard_or_same (hviews : s.manager.ViewsSubscribed)
    (hlistener : listener ∈ (s.manager.listenersOf key).members) :
    Heard (· = listener) (e.event edited) t ∨
      t.manager.store.loaded = true ∧ t.manager.naming = s.manager.naming ∧
        t.manager.evaluated key = s.manager.evaluated key := by
  cases h with
  | refused => exact .inr ⟨hs, rfl, rfl⟩
  | @unchanged c hc hget =>
      refine .inr ⟨Store.loaded_apply hs c, rfl, ?_⟩
      apply evaluated_congr <;> first | rfl | exact hget
  | @changed c hc =>
      let after := s.withStore (s.manager.store.apply c)
      have hloaded : after.manager.store.loaded = true := Store.loaded_apply hs c
      obtain ⟨hdue, hpass⟩ := dispatch_fire depth hloaded (e.event edited) (hspare.at _)
      by_cases htarget : ∃ a ∈ s.manager.subscribers.members,
          Targets (· = listener) after.manager (e.event edited) a
      · exact .inl (hdue htarget)
      · -- The view of the key was not concerned, and nobody called the listener.
        have hpassed := (hpass fun a ha hta => htarget ⟨a, ha, hta⟩).toSpared
        have hview := hviews key (contains_of_mem_listenersOf hlistener)
        have hirrelevant : ¬ after.manager.isRelevant key (e.event edited) = true :=
          fun hrelevant => htarget ⟨.view key, hview, ⟨listener, hlistener, rfl⟩, hrelevant⟩
        rw [isRelevant_event, not_or] at hirrelevant
        have hget : ∀ name, name ≠ s.manager.nameOf edited →
            after.manager.store.get name = s.manager.store.get name :=
          fun _ hname => Store.get_apply_of_isOn (PropertyEdit.isOn_of_change? hc) hname
        have hsame : after.manager.evaluated key = s.manager.evaluated key :=
          evaluated_of_not_dependsOn (m := s.manager) (n := after.manager) rfl hget rfl
            (fun heq => hirrelevant.1 (hnames heq).symm) rfl hirrelevant.2
        refine .inr ⟨hpassed.loaded hloaded, hpassed.naming, ?_⟩
        rw [← hsame]
        exact hpassed.evaluated key

/-- A listener of the view of a key alone hears of no edits but those of the key and of keys that
its value depends on. -/
theorem Edited.dependsOn_of_called (hlog : s.log = [])
    (hglobal : .listener listener ∉ s.manager.subscribers.members)
    (honly : ∀ k, listener ∈ (s.manager.listenersOf k).members → k = key)
    {call : Call} (hcall : call ∈ t.log) (hcalled : call.listener = listener) :
    key = edited ∨ s.manager.DependsOn key edited := by
  have hquiet : s.log = [] → call ∉ s.log := by
    intro hlog
    rw [hlog]
    exact List.not_mem_nil
  cases h with
  | refused => exact absurd hcall (hquiet hlog)
  | unchanged => exact absurd hcall (hquiet hlog)
  | @changed c hc =>
      let after := s.withStore (s.manager.store.apply c)
      have hloaded : after.manager.store.loaded = true := Store.loaded_apply hs c
      have hpass := (dispatch_fire depth hloaded (e.event edited) (hspare.at _)).2
      have hget : ∀ name, name ≠ s.manager.nameOf edited →
          after.manager.store.get name = s.manager.store.get name :=
        fun _ hname => Store.get_apply_of_isOn (PropertyEdit.isOn_of_change? hc) hname
      by_contra hfree
      rw [not_or] at hfree
      have hdue : ∀ a ∈ s.manager.subscribers.members,
          ¬ Targets (· = listener) after.manager (e.event edited) a := by
        intro a ha htarget
        cases a with
        | listener name => exact hglobal ((show name = listener from htarget) ▸ ha)
        | view k =>
            obtain ⟨⟨_, hmem, rfl⟩, hrelevant⟩ := htarget
            have hk : k = key := honly k hmem
            rw [hk, isRelevant_event] at hrelevant
            rcases hrelevant with heq | hdepends
            · exact hfree.1 heq.symm
            · apply hfree.2
              exact DependsOn.of_edit (m := s.manager) (n := after.manager) rfl hget rfl
                (fun heq => hfree.1 (hnames heq)) ((dependsOn_iff _ _ _).1 hdepends)
      obtain ⟨calls, hcalls, hothers⟩ := (hpass hdue).log
      have hmem : call ∈ calls := by
        have hempty : after.log = [] := hlog
        rw [hcalls, hempty, List.nil_append] at hcall
        exact hcall
      exact hothers call hmem hcalled

end Edit

/-- A listener of the view of a key hears of every edit that changes the value of the key, and if it
listens nowhere else, it is called by no edits but those of the key and of keys that its value
depends on. The other listeners may do whatever spares the properties. -/
theorem view_hears_edits {s : Session} (h : s.Reached) (hs : s.manager.store.loaded = true)
    (hnames : ∀ k ∈ s.manager.naming.type.keys, ∀ k' ∈ s.manager.naming.type.keys,
      s.manager.nameOf k = s.manager.nameOf k' → k = k')
    {key edited : Key} (hkey : key ∈ s.manager.naming.type.keys)
    (hedited : edited ∈ s.manager.naming.type.keys) {listener : Text}
    (hlistener : listener ∈ (s.manager.listenersOf key).members)
    (hspare : s.OthersSpare true (· = listener)) (e : PropertyEdit) {c : Command}
    (hc : c = .property edited e.command ∨ c = .view edited e.command) :
    ((s.step (.property key .get)).1.answer ≠
        ((s.step c).2.step (.property key .get)).1.answer →
      ∃ call ∈ (s.step c).1.calls, call.listener = listener ∧ call.event = e.event edited) ∧
    (.listener listener ∉ s.manager.subscribers.members →
      (∀ k, listener ∈ (s.manager.listenersOf k).members → k = key) →
      ∀ call ∈ (s.step c).1.calls, call.listener = listener →
        key = edited ∨ s.manager.DependsOn key edited) := by
  obtain ⟨depth, u, hasked, hviews, hglobal, hedit⟩ := edited_step h.viewsSubscribed hs edited e hc
  have hnaming : u.manager.naming = s.manager.naming := hasked.naming
  have hlisteners : u.manager.listenersOf = s.manager.listenersOf := hasked.listenersOf
  have hname : u.manager.nameOf key = u.manager.nameOf edited → key = edited := by
    unfold Manager.nameOf
    rw [hnaming]
    exact hnames key hkey edited hedited
  have hloaded : u.manager.store.loaded = true := hasked.loaded hs
  have hspare' : u.OthersSpare true (· = listener) :=
    OthersSpare.of_spared (s := { s with log := [] }) hasked.toSpared hspare
  constructor
  · intro hdiffer
    have hmem : listener ∈ (u.manager.listenersOf key).members := by rwa [hlisteners]
    rcases hedit.heard_or_same hloaded hname hspare' hviews hmem with
      ⟨call, hcall, hheard⟩ | ⟨hloaded', hnaming', hsame⟩
    · exact ⟨call, hcall, hheard⟩
    · have hstays : (s.step c).2.manager.naming = s.manager.naming := hnaming'.trans hnaming
      have htold : (s.step c).2.manager.toldValue key = s.manager.toldValue key :=
        toldValue_congr hstays (hsame.trans (hasked.evaluated key))
      have hkey' : key ∈ (s.step c).2.manager.naming.type.keys := by rwa [hstays]
      rw [answer_get hs h.cachesSound hkey, answer_get hloaded' (h.step c).cachesSound hkey',
        htold] at hdiffer
      exact absurd rfl hdiffer
  · intro hnotGlobal honly call hcall hcalled
    have hdepends := hedit.dependsOn_of_called hloaded hname hspare' hasked.log
      (mt (hglobal listener) hnotGlobal) (fun k hk => honly k (by rwa [← hlisteners])) hcall hcalled
    rwa [← dependsOn_iff, hasked.dependsOn, dependsOn_iff] at hdepends

/-- Two keys, the value of the first of which refers to the second. The view of the first has a
listener that changes it in turn, and another listener reads values. -/
def watchedPair : Session :=
  let type : KeyType := { name := "Keys", members := [("A", some "$\x7bb\x7d"), ("B", some "1")] }
  let m := create {} (.ofText "pair.properties") (.ofList [("a", "$\x7bb\x7d"), ("b", "1")])
    (.standard type) none none .external
  let s := start m { now := .newYear }
  let s := s.withStore (s.manager.store.after [.load .empty])
  let s := (s.step (.listen "watcher" (some "A")
    [.property "A" (.set (some (.text "$\x7bb\x7d!")))] 1 none)).2
  (s.step (.listen "reader" none [.property "A" .get, .property "B" .get] 9 none)).2

/-- The pair with the second value set, before anybody has heard of it. -/
def editedPair : Session :=
  withStore { watchedPair with log := [] } (watchedPair.manager.store.set "b" "2").2

theorem dependsOn_editedPair : editedPair.manager.dependsOn "A" "B" = true := by
  have hraw : editedPair.manager.raw "A" = some ("$\x7bb\x7d" : Text) := by decide +kernel
  have hname : editedPair.manager.nameOf "B" = ("b" : Text) := by decide +kernel
  have hnames : namesIn "$\x7bb\x7d" = [("b" : Text)] := by decide +kernel
  rw [Manager.dependsOn, hraw, hname, Option.getD_some, Source.dependsOn, hnames, Source.reaches,
    if_pos rfl]

/-- The pair after the edit: the view has passed it on, and the listener that reads has heard it. -/
def heardPair : Session :=
  let call := callWithin (watchedPair.allowedRuns + 1)
  let event : Event := ⟨.changed, some "B"⟩
  let passed := (editedPair.manager.listenersOf "A").fire (fun name => call name event) editedPair
  (call "reader" event passed).2

theorem step_watchedPair :
    (watchedPair.step (.property "B" (.set (some (.text "2"))))).2 = heardPair := by
  let call := callWithin (watchedPair.allowedRuns + 1)
  let event : Event := ⟨.changed, some "B"⟩
  have hrelevant : editedPair.manager.isRelevant "A" event = true :=
    (isRelevant_event _ "A" "B" (.set (some (.text "2")))).2 (.inr dependsOn_editedPair)
  have hview : deliver call event (.view "A") editedPair = (.ok (),
      (editedPair.manager.listenersOf "A").fire (fun name => call name event) editedPair) := by
    rw [deliver, hrelevant]
    rfl
  calc (watchedPair.step (.property "B" (.set (some (.text "2"))))).2
      = (call "reader" event (deliver call event (.view "A") editedPair).2).2 := by
        with_unfolding_all rfl
    _ = heardPair := by
        rw [hview]
        rfl

theorem toldValue_watchedPair :
    watchedPair.manager.toldValue "A" = .ok (.value (some ("1" : Text))) := by
  have hraw : watchedPair.manager.raw "A" = some ("$\x7bb\x7d" : Text) := by decide +kernel
  have hother : watchedPair.manager.retrieve "b" = some ("1" : Text) := by decide +kernel
  have hpieces : pieces "$\x7bb\x7d" = [.reference ⟨"b", none⟩] := by decide +kernel
  apply toldValue_of_evaluated rfl
  apply evaluated_of_evaluate hraw
  rw [Evaluator.evaluate, hpieces, Evaluator.expand_singleton]
  exact Template.resolve_of_not_mem _ _ _ (by decide +kernel) hother (by decide +kernel) (by decide)

theorem toldValue_heardPair :
    heardPair.manager.toldValue "A" = .ok (.value (some ("2!" : Text))) := by
  have hraw : heardPair.manager.raw "A" = some ("$\x7bb\x7d!" : Text) := by decide +kernel
  have hother : heardPair.manager.retrieve "b" = some ("2" : Text) := by decide +kernel
  have hpieces : pieces "$\x7bb\x7d!" = [.reference ⟨"b", none⟩, .literal '!'] := by
    decide +kernel
  apply toldValue_of_evaluated (by decide +kernel)
  apply evaluated_of_evaluate hraw
  rw [Evaluator.evaluate, hpieces, Evaluator.expand_reference, Evaluator.expand_literal,
    Evaluator.expand_nil,
    Template.resolve_of_not_mem _ _ _ (by decide +kernel) hother (by decide +kernel) (by decide)]
  rfl

theorem view_hears_edits_watchedPair :
    let c : Command := .property "B" (.set (some (.text "2")))
    (∃ call ∈ (watchedPair.step c).1.calls,
        call.listener = ("watcher" : Text) ∧ call.event = ⟨.changed, some "B"⟩) ∧
      watchedPair.manager.DependsOn "A" "B" := by
  intro c
  have hreached : watchedPair.Reached := (((Reached.start ..).changes _).step _).step _
  have hkeys : watchedPair.manager.naming.type.keys = [("A" : Text), "B"] := by cbv
  have ha : watchedPair.manager.nameOf "A" = ("a" : Text) := by decide +kernel
  have hb : watchedPair.manager.nameOf "B" = ("b" : Text) := by decide +kernel
  have hnames : ∀ k ∈ watchedPair.manager.naming.type.keys,
      ∀ k' ∈ watchedPair.manager.naming.type.keys,
        watchedPair.manager.nameOf k = watchedPair.manager.nameOf k' → k = k' := by
    rw [hkeys]
    simp only [List.mem_cons, List.not_mem_nil, or_false]
    rintro k (rfl | rfl) k' (rfl | rfl) <;> simp only [ha, hb] <;> decide
  have hmembers : (watchedPair.manager.listenersOf "A").members = [("watcher" : Text)] := by cbv
  have honly : ∀ k, ("watcher" : Text) ∈ (watchedPair.manager.listenersOf k).members → k = "A" := by
    intro k hk
    have hviews : watchedPair.manager.views.entries = [(("A" : Text), ⟨["watcher"]⟩)] := by cbv
    have hview := contains_of_mem_listenersOf hk
    rw [Mapping.contains_iff, Mapping.keys, hviews] at hview
    simpa using hview
  have hglobal : Subscriber.listener "watcher" ∉ watchedPair.manager.subscribers.members := by
    have hsubscribers : watchedPair.manager.subscribers.members =
        [.view "A", .listener "reader"] := by cbv
    rw [hsubscribers]
    decide
  have hspare : watchedPair.OthersSpare true (· = ("watcher" : Text)) := by
    have hreactions : watchedPair.reactions.entries =
        [(("watcher" : Text), ⟨[.property "A" (.set (some (.text "$\x7bb\x7d!")))], 1, none⟩),
          ("reader", ⟨[.property "A" .get, .property "B" .get], 9, none⟩)] := by cbv
    intro listener r hother hr c hc
    rw [Mapping.find?_eq_some_iff, hreactions] at hr
    rcases List.mem_cons.1 hr with heq | hr
    · exact absurd (congrArg Prod.fst heq) hother
    · cases List.mem_singleton.1 hr
      rcases List.mem_cons.1 hc with rfl | hc
      · rfl
      · rw [List.mem_singleton.1 hc]
        rfl
  have hkey : ("A" : Key) ∈ watchedPair.manager.naming.type.keys := by
    rw [hkeys]
    decide
  have hedited : ("B" : Key) ∈ watchedPair.manager.naming.type.keys := by
    rw [hkeys]
    decide
  have hlistener : ("watcher" : Text) ∈ (watchedPair.manager.listenersOf "A").members := by
    rw [hmembers]
    decide
  have hc : c = .property "B" (PropertyEdit.set (some (.text "2"))).command ∨
      c = .view "B" (PropertyEdit.set (some (.text "2"))).command := .inl rfl
  have hloaded : watchedPair.manager.store.loaded = true := by cbv
  have hdiffer : (watchedPair.step (.property "A" .get)).1.answer ≠
      ((watchedPair.step c).2.step (.property "A" .get)).1.answer := by
    have hloaded' : heardPair.manager.store.loaded = true := by decide +kernel
    have hkey' : ("A" : Key) ∈ heardPair.manager.naming.type.keys := by decide +kernel
    have hcaches : heardPair.manager.CachesSound := by
      rw [← step_watchedPair]
      exact (hreached.step c).cachesSound
    rw [step_watchedPair, answer_get hloaded hreached.cachesSound hkey, toldValue_watchedPair,
      answer_get hloaded' hcaches hkey', toldValue_heardPair]
    simp only [ne_eq, Except.ok.injEq, Answer.value.injEq, Option.some.injEq]
    decide
  obtain ⟨hheard, hdepends⟩ :=
    view_hears_edits hreached hloaded hnames hkey hedited hlistener hspare _ hc
  obtain ⟨call, hcall, hcalled, hevent⟩ := hheard hdiffer
  have hne : ("A" : Key) ≠ "B" := by decide
  exact ⟨⟨call, hcall, hcalled, hevent⟩,
    (hdepends hglobal honly call hcall hcalled).resolve_left hne⟩

end Session

end VersionedProperties.Manager
