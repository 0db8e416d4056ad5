import VersionedProperties.Proofs.Manager.Edit
import VersionedProperties.Proofs.Manager.Reached

/-!
# The gate before the first load

As long as no load has completed, an operation on the properties waits for the first load
(`Waits`): it is refused and leaves everything as it was, or the file is read as it is, and the
operation is done on the loaded properties as if they had been loaded before. One lemma for each
operation shows that it passes this gate before it touches anything.
-/

namespace VersionedProperties.Manager

namespace Session

theorem Leads.loaded {s t : Session} (h : Leads s t) (hs : s.manager.store.loaded = true) :
    t.manager.store.loaded = true := by
  obtain ⟨changes, hchanges⟩ := h.store_eq
  rw [hchanges]
  exact Store.loaded_after hs changes

/-- A session keeps its path and its keys. -/
theorem Move.path_naming {s t : Session} (h : Move s t) :
    t.manager.path = s.manager.path ∧ t.manager.naming = s.manager.naming := by
  cases h with
  | store c => exact ⟨rfl, rfl⟩
  | disk => exact ⟨rfl, rfl⟩
  | caches h => exact ⟨(congrArg Manager.path h :), (congrArg Manager.naming h :)⟩
  | settings => exact ⟨rfl, rfl⟩
  | withView k =>
      obtain ⟨_, _, hframe⟩ := s.manager.withView_frame k
      rw [hframe]
      exact ⟨rfl, rfl⟩
  | addListener name place =>
      obtain ⟨_, _, hframe⟩ := s.manager.addListener_frame name place
      rw [hframe]
      exact ⟨rfl, rfl⟩
  | removeListener name place =>
      obtain ⟨_, _, hframe⟩ := s.manager.removeListener_frame name place
      rw [hframe]
      exact ⟨rfl, rfl⟩
  | records => exact ⟨rfl, rfl⟩

theorem Leads.path_naming {s t : Session} (h : Leads s t) :
    t.manager.path = s.manager.path ∧ t.manager.naming = s.manager.naming := by
  induction h with
  | refl => exact ⟨rfl, rfl⟩
  | tail _ hlast ih =>
      obtain ⟨hpath, hnaming⟩ := hlast.path_naming
      exact ⟨hpath.trans ih.1, hnaming.trans ih.2⟩

theorem Leads.naming {s t : Session} (h : Leads s t) : t.manager.naming = s.manager.naming :=
  h.path_naming.2

theorem withView_of_contains {m : Manager} {k : Key} (hk : m.views.contains k = true) :
    m.withView k = m := if_pos hk

theorem contains_insert {κ α : Type} [DecidableEq κ] {m : Mapping κ α} {k : κ}
    (hk : m.contains k = true) (k' : κ) (a : α) : (m.insert k' a).contains k = true := by
  rw [Mapping.contains, Mapping.find?_insert]
  split
  · rfl
  · exact hk

theorem Move.contains_view {s t : Session} {k : Key} (h : Move s t)
    (hk : s.manager.views.contains k = true) : t.manager.views.contains k = true := by
  have hview : ∀ k', (s.manager.withView k').views.contains k = true := by
    intro k'
    unfold Manager.withView
    split
    · exact hk
    · exact contains_insert hk _ _
  cases h with
  | store c => exact hk
  | disk => exact hk
  | caches h =>
      rename_i m
      have hviews : m.views = s.manager.views := (congrArg Manager.views h :)
      rwa [← hviews] at hk
  | settings => exact hk
  | withView k' => exact hview k'
  | addListener name place =>
      cases place with
      | none => exact hk
      | some k' => exact contains_insert (hview k') _ _
  | removeListener name place =>
      cases place with
      | none => exact hk
      | some k' => exact contains_insert (hview k') _ _
  | records => exact hk

/-- A session whose properties have been loaded with the given values, the event being told. -/
def afterLoad (call : Calling) (s : Session) (values : Mapping Text Text) : Session :=
  (s.withStore (s.manager.store.load values)).fire call ⟨.loaded, none⟩

/-- An operation waits for the first load: before it, the operation is refused, or the file is read
and the operation is done after the load. -/
def Waits {α : Type} (call : Calling) (f : Session → Except Error α × Session) : Prop :=
  ∀ s : Session, s.manager.store.loaded = false →
    (∃ e, f s = (.error e, s)) ∨
      ∃ values, s.disk.tree.readMapping s.manager.path s.manager.format = .ok values ∧
        f s = f (s.afterLoad call values)

theorem waits_error {α : Type} (call : Calling) (e : Error) :
    Waits call fun s => ((.error e : Except Error α), s) :=
  fun _ _ => .inl ⟨e, rfl⟩

theorem Waits.map {α β : Type} {call : Calling} {f : Session → Except Error α × Session}
    (hf : Waits call f) (g : α → β) : Waits call fun s => ((f s).1.map g, (f s).2) := by
  intro s hs
  dsimp only
  rcases hf s hs with ⟨e, he⟩ | ⟨values, hread, hok⟩
  · refine .inl ⟨e, ?_⟩
    rw [he]
    rfl
  · refine .inr ⟨values, hread, ?_⟩
    rw [hok]

/-- An operation handed on to another after it, which is left out after an error. -/
theorem Waits.tryThen {α β : Type} {call : Calling} {f : Session → Except Error α × Session}
    (hf : Waits call f) (g : α → Session → Except Error β × Session) :
    Waits call (VersionedProperties.tryThen f g fun e s => (.error e, s)) := by
  intro s hs
  unfold VersionedProperties.tryThen
  rcases hf s hs with ⟨e, he⟩ | ⟨values, hread, hok⟩
  · refine .inl ⟨e, ?_⟩
    rw [he]
  · refine .inr ⟨values, hread, ?_⟩
    rw [hok]

theorem await_takeFile (call : Calling) (action : FileAction) (s : Session) :
    (∃ e, s.await call action .loaded takeFile = (.error e, s)) ∨
      ∃ values, s.disk.tree.readMapping s.manager.path s.manager.format = .ok values ∧
        s.await call action .loaded takeFile = (.ok (), s.afterLoad call values) := by
  unfold await takeFile
  split
  · cases hread : s.disk.tree.readMapping s.manager.path s.manager.format with
    | error e => exact .inl ⟨_, rfl⟩
    | ok values => exact .inr ⟨values, rfl, rfl⟩
  · exact .inl ⟨_, rfl⟩

theorem schedule_takeFile (call : Calling) (s : Session) :
    (∃ e, s.schedule call .loaded takeFile = (.error e, s)) ∨
      ∃ values, s.disk.tree.readMapping s.manager.path s.manager.format = .ok values ∧
        s.schedule call .loaded takeFile =
          (.ok (), { { s with inCallback := true }.afterLoad call values with
            inCallback := s.inCallback }) := by
  unfold schedule takeFile
  split
  · cases hread : s.disk.tree.readMapping s.manager.path s.manager.format with
    | error e => exact .inl ⟨_, rfl⟩
    | ok values => exact .inr ⟨values, rfl, rfl⟩
  · exact .inl ⟨_, rfl⟩

section Gate

variable {call : Calling} (hcall : LeadingCalling call)

include hcall

theorem leads_afterLoad (s : Session) (values : Mapping Text Text) :
    Leads s (s.afterLoad call values) :=
  (Move.store (.load values)).leads.then (leads_fire hcall _ _)

theorem loaded_afterLoad (s : Session) (values : Mapping Text Text) :
    (s.afterLoad call values).manager.store.loaded = true :=
  (leads_fire hcall (s.withStore (s.manager.store.load values)) _).loaded rfl

theorem waits_load : Waits call (load call) := by
  intro s hs
  have hunloaded : ¬ s.manager.store.loaded = true := Bool.eq_false_iff.1 hs
  rw [load, if_neg hunloaded]
  rcases await_takeFile call .loading s with hrefused | ⟨values, hread, hok⟩
  · exact .inl hrefused
  · refine .inr ⟨values, hread, ?_⟩
    rw [hok, load, if_pos (loaded_afterLoad hcall s values)]

theorem waits_ensureLoaded : Waits call (ensureLoaded call) := by
  intro s hs
  have hunloaded : ¬ s.manager.store.loaded = true := Bool.eq_false_iff.1 hs
  rw [ensureLoaded, if_neg hunloaded]
  split
  · rcases waits_load hcall s hs with hrefused | ⟨values, hread, hok⟩
    · exact .inl hrefused
    · refine .inr ⟨values, hread, ?_⟩
      have hloaded := loaded_afterLoad hcall s values
      rw [hok, load, ensureLoaded, if_pos hloaded, if_pos hloaded]
  · exact .inl ⟨_, rfl⟩

theorem waits_onceLoaded {α : Type} (operation : Session → Except Error α × Session) :
    Waits call (onceLoaded call operation) := by
  have honce : onceLoaded call operation =
      VersionedProperties.tryThen (ensureLoaded call) (fun _ => operation)
        fun e s => (.error e, s) := by
    funext s
    unfold onceLoaded VersionedProperties.tryThen
    rcases s.ensureLoaded call with ⟨_ | _, _⟩ <;> rfl
  rw [honce]
  exact (waits_ensureLoaded hcall).tryThen _

theorem waits_query {α : Type} (f : Manager → Except Error α × Manager) :
    Waits call fun s => s.query call f :=
  waits_onceLoaded hcall _

theorem waits_set (k : Key) (value : Option TypedValue) : Waits call (set call k value) := by
  unfold set
  cases TypedValue.stored? value with
  | error e => exact waits_error call e
  | ok text => exact waits_onceLoaded hcall _

theorem waits_saveProperty (k : Key) (value : Option TypedValue) :
    Waits call (saveProperty call k value) := by
  have hsave : saveProperty call k value =
      VersionedProperties.tryThen (set call k value) (fun _ => save call)
        fun e s => (.error e, s) := by
    funext s
    unfold saveProperty VersionedProperties.tryThen
    rcases s.set call k value with ⟨_ | _, _⟩ <;> rfl
  rw [hsave]
  exact (waits_set hcall k value).tryThen _

/-- An operation that is chosen by the keys and their names, which a load does not change. -/
theorem waits_byNaming {α : Type} {f : Session → Except Error α × Session}
    (hf : ∀ naming, ∃ g : Session → Except Error α × Session, Waits call g ∧
      ∀ s, s.manager.naming = naming → f s = g s) : Waits call f := by
  intro s hs
  obtain ⟨g, hg, hsame⟩ := hf s.manager.naming
  rw [hsame s rfl]
  rcases hg s hs with hrefused | ⟨values, hread, hok⟩
  · exact .inl hrefused
  · refine .inr ⟨values, hread, ?_⟩
    rw [hok, hsame _ (leads_afterLoad hcall s values).naming]

theorem waits_withKey {k : Key} {f : Session → Except Error Answer × Session} (hf : Waits call f) :
    Waits call fun s => withKey s k f := by
  refine waits_byNaming hcall fun naming => ?_
  by_cases hk : k ∈ naming.type.keys
  · exact ⟨f, hf, fun s hs => by rw [withKey, hs, if_pos hk]⟩
  · exact ⟨_, waits_error call _, fun s hs => by rw [withKey, hs, if_neg hk]⟩

end Gate

end Session

/-- Whether an operation on a property waits for the first load. -/
def PropertyCommand.waits : PropertyCommand → Bool
  | .defaultRaw | .invalid _ => false
  | _ => true

/-- Whether a command waits for the first load. -/
def Command.waits : Command → Bool
  | .property _ c | .view _ c => c.waits
  | .load | .save | .scheduleSave | .resetAll | .isModified | .keySet | .properties => true
  | _ => false

open Session

section Commands

variable {call : Calling} (hcall : LeadingCalling call)

include hcall

theorem waits_performProperty (k : Key) {c : PropertyCommand} (hc : c.waits = true) :
    Waits call fun s => performProperty call k s c := by
  cases c with
  | defaultRaw => cases hc
  | invalid e => cases hc
  | dependsOn other => exact waits_withKey hcall ((waits_query hcall _).map _)
  | set value => exact (waits_set hcall k value).map _
  | save value => exact (waits_saveProperty hcall k value).map _
  | reset => exact (waits_onceLoaded hcall _).map _
  | undo => exact (waits_onceLoaded hcall _).map _
  | redo => exact (waits_onceLoaded hcall _).map _
  | _ => exact (waits_query hcall _).map _

theorem waits_failProperty (fault : Error) {c : PropertyCommand} (hc : c.waits = true) :
    Waits call fun s => failProperty call fault s c := by
  have hfault : Waits call fun s =>
      s.query call fun m => ((.error fault : Except Error Answer), m) := waits_query hcall _
  have hstored : ∀ value : Option TypedValue,
      Waits call fun s => failProperty call fault s (.set value) := by
    intro value
    unfold failProperty
    dsimp only
    cases TypedValue.stored? value with
    | error e => exact waits_error call e
    | ok _ => exact hfault
  cases c with
  | defaultRaw => cases hc
  | invalid e => cases hc
  | set value => exact hstored value
  | save value => exact hstored value
  | dependsOn other => exact waits_withKey hcall hfault
  | _ => exact hfault

theorem waits_useProperty (k : Key) {c : PropertyCommand} (hc : c.waits = true) :
    Waits call fun s => useProperty call k s c := by
  refine waits_byNaming hcall fun naming => ?_
  cases hfault : naming.type.faults.name with
  | some fault =>
      exact ⟨_, waits_failProperty hcall fault hc, fun s hs => by rw [useProperty, hs, hfault]⟩
  | none =>
      exact ⟨_, waits_performProperty hcall k hc, fun s hs => by rw [useProperty, hs, hfault]⟩

/-- What is done through the view of a key waits for the first load in a session with this view. -/
theorem waits_throughView {k : Key} {f : Session → Except Error Answer × Session}
    (hf : Waits call f) (s : Session) (hs : s.manager.store.loaded = false) :
    (∃ e, throughView s k f = (.error e, s)) ∨
      let t : Session := { s with manager := s.manager.withView k }
      (∃ e, throughView s k f = (.error e, t)) ∨
        ∃ values, s.disk.tree.readMapping s.manager.path s.manager.format = .ok values ∧
          throughView s k f = throughView (t.afterLoad call values) k f := by
  by_cases hk : k ∈ s.manager.naming.type.keys
  · cases hfault : s.manager.naming.type.faults.lookup with
    | some fault =>
        refine .inl ⟨fault, ?_⟩
        rw [throughView, withKey, if_pos hk, hfault]
    | none =>
        let t : Session := { s with manager := s.manager.withView k }
        have hthrough : ∀ u : Session, u.manager.naming = s.manager.naming →
            throughView u k f = f { u with manager := u.manager.withView k } := by
          intro u hu
          rw [throughView, withKey, hu, if_pos hk, hfault]
        have hsame : t.manager.path = s.manager.path ∧ t.manager.format = s.manager.format ∧
            t.manager.store = s.manager.store ∧ t.manager.naming = s.manager.naming := by
          obtain ⟨_, _, hframe⟩ := s.manager.withView_frame k
          simp only [t, hframe, and_self]
        have hunloaded : t.manager.store.loaded = false := by rw [hsame.2.2.1, hs]
        refine .inr ?_
        rw [hthrough s rfl]
        rcases hf t hunloaded with hrefused | ⟨values, hread, hok⟩
        · exact .inl hrefused
        · have hleads := leads_afterLoad hcall t values
          have hcontains : (t.afterLoad call values).manager.views.contains k = true :=
            hleads.keeps (fun hk h => h.contains_view hk) (contains_withView s.manager k)
          rw [hsame.1, hsame.2.1] at hread
          refine .inr ⟨values, hread, ?_⟩
          rw [hthrough _ (hleads.naming.trans hsame.2.2.2),
            withView_of_contains hcontains]
          exact hok
  · refine .inl ⟨.undeclared k, ?_⟩
    rw [throughView, withKey, if_neg hk]

/-- A command that waits for the first load waits in the session as it is, or in the one where a
view has come into being. -/
theorem perform_waits {c : Command} (hc : c.waits = true) (s : Session)
    (hs : s.manager.store.loaded = false) :
    ∃ t : Session, (t = s ∨ ∃ k, t = { s with manager := s.manager.withView k }) ∧
      ((∃ e, perform call s c = (.error e, t)) ∨
        ∃ values, s.disk.tree.readMapping s.manager.path s.manager.format = .ok values ∧
          perform call s c = perform call (t.afterLoad call values) c) := by
  have hplain : Waits call (fun s => perform call s c) →
      ∃ t : Session, (t = s ∨ ∃ k, t = { s with manager := s.manager.withView k }) ∧
        ((∃ e, perform call s c = (.error e, t)) ∨
          ∃ values, s.disk.tree.readMapping s.manager.path s.manager.format = .ok values ∧
            perform call s c = perform call (t.afterLoad call values) c) :=
    fun h => ⟨s, .inl rfl, h s hs⟩
  cases c with
  | load => exact hplain ((waits_load hcall).map _)
  | save => exact hplain ((waits_onceLoaded hcall _).map _)
  | scheduleSave => exact hplain ((waits_onceLoaded hcall _).map _)
  | resetAll => exact hplain ((waits_onceLoaded hcall _).map _)
  | isModified => exact hplain ((waits_query hcall _).map _)
  | keySet => exact hplain ((waits_query hcall _).map _)
  | properties => exact hplain ((waits_query hcall _).map _)
  | property k c => exact hplain (waits_withKey hcall (waits_useProperty hcall k hc))
  | view k c =>
      rcases waits_throughView hcall (waits_useProperty hcall k hc) s hs with hrefused | hview
      · exact ⟨s, .inl rfl, .inl hrefused⟩
      · exact ⟨_, .inr ⟨k, rfl⟩, hview⟩
  | _ => cases hc

end Commands

end VersionedProperties.Manager
