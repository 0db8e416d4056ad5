import VersionedProperties.Proofs.Manager.Dispatch
import VersionedProperties.Proofs.Manager.Reached

/-!
# Edits of one property

On a manager that has been loaded, an edit of a property comes down to one change of the store, and
then, if the change was one, to its event. An edit that is refused does nothing. The view of a key
does the same as the manager does for the key.
-/

namespace VersionedProperties

namespace Store

variable (s : Store) (name : Text)

/-- A change to one name. -/
def Change.isOn : Change → Bool
  | .set changed _ | .resetToDefault changed | .undo changed | .redo changed => changed = name
  | _ => false

variable {s name}

theorem history?_apply_of_isOn {c : Change} (hc : c.isOn name = true) {other : Text}
    (hother : other ≠ name) : (s.apply c).history? other = s.history? other := by
  rw [history?_apply]
  cases c with
  | set changed value =>
      have hname : changed = name := of_decide_eq_true hc
      rw [Change.effect, hname, Effect.only_of_ne hother, Effect.onHistory]
  | resetToDefault changed =>
      have hname : changed = name := of_decide_eq_true hc
      rw [Change.effect, hname, Effect.only_of_ne hother, Effect.onHistory]
  | undo changed =>
      have hname : changed = name := of_decide_eq_true hc
      rw [Change.effect, hname, Effect.only_of_ne hother, Effect.onHistory]
  | redo changed =>
      have hname : changed = name := of_decide_eq_true hc
      rw [Change.effect, hname, Effect.only_of_ne hother, Effect.onHistory]
  | _ => cases hc

theorem get_apply_of_isOn {c : Change} (hc : c.isOn name = true) {other : Text}
    (hother : other ≠ name) : (s.apply c).get other = s.get other := by
  rw [get, get, history?_apply_of_isOn hc hother]

/-- A change to one name that leaves its value leaves all values. -/
theorem get_apply_of_same {c : Change} (hc : c.isOn name = true)
    (hsame : (s.apply c).get name = s.get name) : (s.apply c).get = s.get := by
  funext other
  by_cases hother : other = name
  · rw [hother, hsame]
  · exact get_apply_of_isOn hc hother

end Store

namespace Manager

/-- An edit of one property. -/
inductive PropertyEdit where
  | set (value : Option TypedValue)
  | reset
  | undo
  | redo

namespace PropertyEdit

/-- The operation that makes an edit. -/
def command : PropertyEdit → PropertyCommand
  | set value => .set value
  | reset => .reset
  | undo => .undo
  | redo => .redo

/-- The event that tells of an edit of the property of a key. -/
def event (k : Key) : PropertyEdit → Event
  | reset => ⟨.reset, some k⟩
  | _ => ⟨.changed, some k⟩

/-- What an edit does to the store, unless it is refused. -/
def change? (name : Text) : PropertyEdit → Option Store.Change
  | set value => (TypedValue.stored? value).toOption.map (Store.Change.set name)
  | reset => some (.resetToDefault name)
  | undo => some (.undo name)
  | redo => some (.redo name)

variable {name : Text} {e : PropertyEdit} {c : Store.Change}

theorem change?_cases (h : e.change? name = some c) :
    (∃ value text, e = .set value ∧ c = .set name text) ∨ c = .resetToDefault name ∨
      c = .undo name ∨ c = .redo name := by
  cases e with
  | set value =>
      obtain ⟨text, _, rfl⟩ := Option.map_eq_some_iff.1 h
      exact .inl ⟨value, text, rfl, rfl⟩
  | reset => exact .inr (.inl (Option.some.inj h).symm)
  | undo => exact .inr (.inr (.inl (Option.some.inj h).symm))
  | redo => exact .inr (.inr (.inr (Option.some.inj h).symm))

theorem isOn_of_change? (h : e.change? name = some c) : c.isOn name = true := by
  obtain ⟨_, _, _, rfl⟩ | rfl | rfl | rfl := change?_cases h <;> exact decide_eq_true rfl

end PropertyEdit

theorem listener_mem_of_withView {m : Manager} {k : Key} {listener : Text}
    (h : .listener listener ∈ (m.withView k).subscribers.members) :
    .listener listener ∈ m.subscribers.members := by
  unfold Manager.withView at h
  split at h
  · exact h
  · change Subscriber.listener listener ∈ (m.subscribers.add (.view k)).members at h
    unfold Registry.add at h
    split at h
    · exact h
    · simpa using h

namespace Session

/-- What an edit of the property of a key makes of a session: nothing, if it is refused, and else a
change of the store, with an event if it changes the value. -/
inductive Edited (call : Calling) (k : Key) (e : PropertyEdit) (s : Session) : Session → Prop where
  | refused : Edited call k e s s
  | unchanged {c : Store.Change} (hc : e.change? (s.manager.nameOf k) = some c)
      (hget : (s.manager.store.apply c).get = s.manager.store.get) :
      Edited call k e s (s.withStore (s.manager.store.apply c))
  | changed {c : Store.Change} (hc : e.change? (s.manager.nameOf k) = some c)
      (hdiffers : s.manager.store.IsRegular →
        s.manager.store.Differs (s.manager.store.apply c)) :
      Edited call k e s ((s.withStore (s.manager.store.apply c)).fire call (e.event k))

variable {call : Calling} {s : Session} {k : Key}

theorem edited_settle {e : PropertyEdit} {c : Store.Change} {changed : Bool}
    (hc : e.change? (s.manager.nameOf k) = some c)
    (hget : changed = false → (s.manager.store.apply c).get = s.manager.store.get)
    (hdiffers : changed = true → s.manager.store.IsRegular →
      s.manager.store.Differs (s.manager.store.apply c)) :
    Edited call k e s (s.settle call changed (s.manager.store.apply c) (e.event k)) := by
  cases changed with
  | true => exact .changed hc (hdiffers rfl)
  | false => exact .unchanged hc (hget rfl)

theorem onceLoaded_of_loaded (hs : s.manager.store.loaded = true) {α : Type}
    (operation : Session → Except Error α × Session) :
    s.onceLoaded call operation = operation s := by
  rw [onceLoaded, ensureLoaded, if_pos hs]

theorem edited_performProperty (hs : s.manager.store.loaded = true) (e : PropertyEdit) :
    Edited call k e s (performProperty call k s e.command).2 := by
  cases e with
  | set value =>
      simp only [PropertyEdit.command, performProperty, answered, set]
      cases hvalue : TypedValue.stored? value with
      | error fault => exact .refused
      | ok text =>
          dsimp only
          rw [onceLoaded_of_loaded hs]
          refine edited_settle (c := .set (s.manager.nameOf k) text) ?_ ?_ ?_
          · rw [PropertyEdit.change?, hvalue]
            rfl
          · intro hsame
            rw [Store.apply, s.manager.store.set_of_unchanged _ hsame]
          · intro hchanged hregular
            exact (Store.moved_apply hregular (c := .set _ _) rfl).differs_of_ne
              (s.manager.store.set_ne_of_changed _ hchanged)
  | reset =>
      simp only [PropertyEdit.command, performProperty, answered, reset, onceLoaded_of_loaded hs]
      refine edited_settle (c := .resetToDefault (s.manager.nameOf k)) rfl ?_ ?_
      · intro hsame
        rw [Store.apply, s.manager.store.resetToDefault_of_unchanged _ hsame]
      · intro hchanged hregular
        exact (Store.moved_apply hregular (c := .resetToDefault _) rfl).differs_of_ne
          (s.manager.store.resetToDefault_ne_of_changed _ hchanged)
  | undo =>
      simp only [PropertyEdit.command, performProperty, answered, undo, travel,
        onceLoaded_of_loaded hs]
      refine edited_settle (c := .undo (s.manager.nameOf k)) rfl ?_ ?_
      · intro hsame
        apply Store.get_apply_of_same (PropertyEdit.isOn_of_change? (e := .undo) rfl)
        rw [Store.apply, ← Store.undo_fst]
        simpa using hsame
      · intro hchanged _
        refine ⟨s.manager.nameOf k, .inl ?_⟩
        rw [Store.apply, ← Store.undo_fst]
        simpa using hchanged
  | redo =>
      simp only [PropertyEdit.command, performProperty, answered, redo, travel,
        onceLoaded_of_loaded hs]
      refine edited_settle (c := .redo (s.manager.nameOf k)) rfl ?_ ?_
      · intro hsame
        apply Store.get_apply_of_same (PropertyEdit.isOn_of_change? (e := .redo) rfl)
        rw [Store.apply, ← Store.redo_fst]
        simpa using hsame
      · intro hchanged _
        refine ⟨s.manager.nameOf k, .inl ?_⟩
        rw [Store.apply, ← Store.redo_fst]
        simpa using hchanged

theorem edited_useProperty (hs : s.manager.store.loaded = true) (e : PropertyEdit) :
    Edited call k e s (useProperty call k s e.command).2 := by
  unfold useProperty
  split
  · rename_i fault _
    have hrefused : ∀ c : PropertyCommand, c = e.command →
        (failProperty call fault s c).2 = s := by
      have hquery : (s.query call fun m => ((.error fault : Except Error Answer), m)).2 = s := by
        rw [query, onceLoaded_of_loaded hs]
        rfl
      rintro c rfl
      cases e with
      | set value =>
          simp only [PropertyEdit.command, failProperty]
          split
          · rfl
          · exact hquery
      | reset => exact hquery
      | undo => exact hquery
      | redo => exact hquery
    rw [hrefused _ rfl]
    exact .refused
  · exact edited_performProperty hs e

theorem edited_withKey {e : PropertyEdit} {f : Session → Except Error Answer × Session}
    (hf : Edited call k e s (f s).2) : Edited call k e s (withKey s k f).2 := by
  unfold withKey
  split
  · exact hf
  · exact .refused

variable (call) in
/-- An edit through the manager or through the view of the key, which may come into being by it. -/
theorem edited_perform (hs : s.manager.store.loaded = true) (e : PropertyEdit) {c : Command}
    (hc : c = .property k e.command ∨ c = .view k e.command) :
    ∃ t : Session, (t = s ∨ t = { s with manager := s.manager.withView k }) ∧
      Edited call k e t (Manager.perform call s c).2 := by
  rcases hc with rfl | rfl
  · exact ⟨s, .inl rfl, edited_withKey (edited_useProperty hs e)⟩
  · have hview : Asked true s { s with manager := s.manager.withView k } := asked_withView s k
    simp only [Manager.perform, throughView, withKey]
    split
    · split
      · exact ⟨s, .inl rfl, .refused⟩
      · exact ⟨_, .inr rfl, edited_useProperty (hview.loaded hs) e⟩
    · exact ⟨s, .inl rfl, .refused⟩

/-- A step that edits a property begins with a view, if it goes through one. -/
theorem edited_step {s : Session} (hviews : s.manager.ViewsSubscribed)
    (hs : s.manager.store.loaded = true) (k : Key) (e : PropertyEdit) {c : Command}
    (hc : c = .property k e.command ∨ c = .view k e.command) :
    ∃ depth u, Asked true { s with log := [] } u ∧ u.manager.ViewsSubscribed ∧
      (∀ listener, .listener listener ∈ u.manager.subscribers.members →
        .listener listener ∈ s.manager.subscribers.members) ∧
      Edited (callWithin depth) k e u (s.step c).2 := by
  let s₀ : Session := { s with log := [] }
  let depth := s.stepDepth c
  obtain ⟨u, rfl | rfl, hedit⟩ := edited_perform (callWithin depth) (s := s₀) hs e hc
  · exact ⟨depth, s₀, .refl s₀, hviews, fun _ hmem => hmem, hedit⟩
  · exact ⟨depth, _, asked_withView s₀ k, hviews.withView k,
      fun _ hmem => listener_mem_of_withView hmem, hedit⟩

end Session

end Manager

end VersionedProperties
