import VersionedProperties.Proofs.Manager.Moves
import VersionedProperties.Proofs.Manager.TransparentRun
import VersionedProperties.Proofs.Store.Tracked
import VersionedProperties.Proofs.Store.Version

/-!
# Sessions that runs reach

A session is reached if it comes from a new manager by commands, and by work done on the store
directly between them, which the manager hears nothing of. In every such session the caches are
sound, the store is one that changes of a new store lead to, and every view that has been asked for
is subscribed to the manager.
-/

namespace VersionedProperties

/-- The first moment of 2024, the time on the disk of every session that is written out. -/
def Timestamp.newYear : Timestamp := ⟨0, 0, 1, 0, 0, 0, 2024⟩

namespace Manager

theorem retrieve_congr {m n : Manager} (hget : n.store.get = m.store.get)
    (htrim : n.autoTrim = m.autoTrim) : n.retrieve = m.retrieve := by
  funext name
  rw [retrieve, retrieve, hget]
  unfold trimmed
  rw [htrim]

/-- The caches stay sound if the store is changed behind the back of the manager. -/
theorem CachesSound.after {m : Manager} (hm : m.CachesSound) (changes : List Store.Change) :
    CachesSound { m with store := m.store.after changes } := by
  rcases m.store.versioned_after changes with ⟨htoken, hsame⟩ | hlt
  · have hdefaults := m.store.defaults_after changes
    have hvalue : valueAt { m with store := m.store.after changes } = m.valueAt := by
      funext key
      have hget : (m.store.after changes).get = m.store.get := by
        funext name
        rw [Store.get, Store.get, Store.history?, Store.history?, hsame]
      have hretrieve : retrieve { m with store := m.store.after changes, autoTrim := key.2 } =
          retrieve { m with autoTrim := key.2 } := retrieve_congr hget rfl
      unfold valueAt expanded
      dsimp only
      rw [hretrieve]
    have hnames : (m.store.after changes).keyNames = m.store.keyNames := by
      rw [Store.keyNames, Store.keyNames, hsame, hdefaults]
    constructor
    · rw [hvalue]
      change m.valueCache.Sound ↑(m.store.after changes).token _
      rw [htoken]
      exact hm.values
    · change m.nameCache.Sound ↑(m.store.after changes).token _
      rw [htoken, hnames]
      exact hm.names
  · exact hm.withStore (.inr hlt)

/-- The views that have been asked for get the events of the manager. -/
def ViewsSubscribed (m : Manager) : Prop :=
  ∀ k, m.views.contains k = true → .view k ∈ m.subscribers.members

theorem ViewsSubscribed.withView {m : Manager} (hm : m.ViewsSubscribed) (k : Key) :
    (m.withView k).ViewsSubscribed := by
  unfold Manager.withView
  split
  · exact hm
  · intro k' hk'
    change Subscriber.view k' ∈ (m.subscribers.add (.view k)).members
    change (m.views.insert k {}).contains k' = true at hk'
    rw [Mapping.contains, Mapping.find?_insert] at hk'
    unfold Registry.add
    by_cases heq : k' = k
    · subst heq
      split
      · assumption
      · exact List.mem_append_right _ (List.mem_singleton_self _)
    · rw [if_neg heq] at hk'
      split
      · exact hm k' hk'
      · exact List.mem_append_left _ (hm k' hk')

theorem contains_withView (m : Manager) (k : Key) : (m.withView k).views.contains k = true := by
  unfold Manager.withView
  split
  · assumption
  · change (m.views.insert k {}).contains k = true
    rw [Mapping.contains, Mapping.find?_insert, if_pos rfl]
    rfl

/-- The listeners of a view that has been asked for may change. -/
theorem ViewsSubscribed.insert {m : Manager} (hm : m.ViewsSubscribed) {k : Key}
    (hk : m.views.contains k = true) (r : Registry Text) :
    ViewsSubscribed { m with views := m.views.insert k r } := by
  intro k' hk'
  by_cases heq : k' = k
  · subst heq
    exact hm k' hk
  · apply hm k'
    rwa [Mapping.contains, Mapping.find?_insert, if_neg heq] at hk'

theorem ViewsSubscribed.addListener {m : Manager} (hm : m.ViewsSubscribed) (name : Text)
    (place : Option Key) : (m.addListener name place).ViewsSubscribed := by
  cases place with
  | none =>
      intro k hk
      change Subscriber.view k ∈ (m.subscribers.add (.listener name)).members
      unfold Registry.add
      split
      · exact hm k hk
      · exact List.mem_append_left _ (hm k hk)
  | some k => exact (hm.withView k).insert (m.contains_withView k) _

theorem ViewsSubscribed.removeListener {m : Manager} (hm : m.ViewsSubscribed) (name : Text)
    (place : Option Key) : (m.removeListener name place).ViewsSubscribed := by
  cases place with
  | none =>
      intro k hk
      have hne : Subscriber.view k ≠ .listener name := Subscriber.noConfusion
      exact (List.mem_erase_of_ne hne).2 (hm k hk)
  | some k => exact (hm.withView k).insert (m.contains_withView k) _

namespace Session

/-- How deep calls may nest in a step. -/
def stepDepth (s : Session) (c : Command) : Nat := s.allowedRuns + c.runs + 1

theorem step_of_perform {s t : Session} {c : Command} {a : Except Error Answer}
    (h : Manager.perform (callWithin (s.stepDepth c)) { s with log := [] } c = (a, t)) :
    s.step c = (⟨a, t.log, t.manager.store⟩, t) := by
  have hperform : ({ s with log := [] } : Session).perform c = (a, t) := h
  rw [step, hperform]

/-- Whatever a session has done, its store has gone through changes. -/
theorem Leads.store_eq {s t : Session} (h : Leads s t) :
    ∃ changes, t.manager.store = s.manager.store.after changes := by
  induction h with
  | refl => exact ⟨[], rfl⟩
  | tail _ hlast ih =>
      obtain ⟨changes, hchanges⟩ := ih
      cases hlast with
      | store c =>
          refine ⟨changes ++ [c], ?_⟩
          rw [Store.after_append, ← hchanges]
          rfl
      | disk => exact ⟨changes, hchanges⟩
      | caches h => exact ⟨changes, (congrArg Manager.store h :).trans hchanges⟩
      | settings => exact ⟨changes, hchanges⟩
      | withView k =>
          rename_i t _
          obtain ⟨_, _, hframe⟩ := t.manager.withView_frame k
          exact ⟨changes, by rw [hframe, hchanges]⟩
      | addListener name place =>
          rename_i t _
          obtain ⟨_, _, hframe⟩ := t.manager.addListener_frame name place
          exact ⟨changes, by rw [hframe, hchanges]⟩
      | removeListener name place =>
          rename_i t _
          obtain ⟨_, _, hframe⟩ := t.manager.removeListener_frame name place
          exact ⟨changes, by rw [hframe, hchanges]⟩
      | records => exact ⟨changes, hchanges⟩

theorem Move.viewsSubscribed {s t : Session} (hs : s.manager.ViewsSubscribed) (h : Move s t) :
    t.manager.ViewsSubscribed := by
  cases h with
  | store c => exact hs
  | disk => exact hs
  | caches h =>
      rename_i m
      have hviews : m.views = s.manager.views := (congrArg Manager.views h :)
      have hsubscribers : m.subscribers = s.manager.subscribers :=
        (congrArg Manager.subscribers h :)
      intro k hk
      rw [hviews] at hk
      rw [hsubscribers]
      exact hs k hk
  | settings => exact hs
  | withView k => exact hs.withView k
  | addListener name place => exact hs.addListener name place
  | removeListener name place => exact hs.removeListener name place
  | records => exact hs

/-- The sessions that commands lead to, with work done on the store directly in between. -/
inductive Reached : Session → Prop where
  | start (o : Options) (path : Path) (defaults : Mapping Text Text) (naming : Naming)
      (evaluator : Option Evaluator) (format : Option Format) (workers : Workers) (disk : Disk) :
      Reached (start (create o path defaults naming evaluator format workers) disk)
  | step {s : Session} (h : Reached s) (c : Command) : Reached (s.step c).2
  | changes {s : Session} (h : Reached s) (changes : List Store.Change) :
      Reached (s.withStore (s.manager.store.after changes))

namespace Reached

variable {s : Session}

theorem run (h : Reached s) (commands : List Command) : Reached (s.run commands).2 := by
  induction commands generalizing s with
  | nil => exact h
  | cons c commands ih => exact ih (h.step c)

theorem cachesSound (h : Reached s) : s.manager.CachesSound := by
  induction h with
  | start o path defaults naming evaluator format workers disk =>
      exact cachesSound_create o path defaults naming evaluator format workers
  | step _ c ih => exact (transparent_step c).keeps _ ih
  | changes _ changes ih => exact ih.after changes

theorem viewsSubscribed (h : Reached s) : s.manager.ViewsSubscribed := by
  induction h with
  | start => exact fun k hk => absurd hk Bool.false_ne_true
  | step _ c ih => exact (leads_step _ c).keeps (fun hs h => h.viewsSubscribed hs) ih
  | changes _ changes ih => exact ih

/-- What every change of a store keeps, and a new store has, holds of the store of the manager. -/
theorem storeHas {P : Store → Prop}
    (hcreate : ∀ defaults savingDefaults limit, P (.create defaults savingDefaults limit))
    (hafter : ∀ store changes, P store → P (store.after changes)) (h : Reached s) :
    P s.manager.store := by
  induction h with
  | start o path defaults naming evaluator format workers disk => exact hcreate defaults _ _
  | step _ c ih =>
      obtain ⟨changes, hchanges⟩ := (leads_step _ c).store_eq
      rw [hchanges]
      exact hafter _ changes ih
  | changes _ changes ih => exact hafter _ changes ih

theorem isRegular (h : Reached s) : s.manager.store.IsRegular :=
  h.storeHas Store.isRegular_create fun _ changes hs => hs.after changes

theorem tracksDefaults (h : Reached s) : s.manager.store.TracksDefaults :=
  h.storeHas Store.tracksDefaults_create fun _ changes hs => hs.after changes

end Reached

end Session

end Manager

end VersionedProperties
