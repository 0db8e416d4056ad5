import VersionedProperties.Proofs.Manager.Saving
import VersionedProperties.Proofs.Storage.Backing
import VersionedProperties.Proofs.Store.Restart
import VersionedProperties.Proofs.Store.Unsaved

/-!
# Properties that survive a restart

After a save the file holds what the store has handed over (`Filed`). Every load from it gives the
values of the store again: in the session that has saved, and in a new one on a manager with the
same path, format and defaults. The listeners that are told of the save are assumed to spare the
properties and the files, since one that changes a value leaves it unsaved.
-/

namespace VersionedProperties.Manager

namespace Session

variable {s t : Session}

/-- What a session answers if it is asked for all properties, name by name. -/
def Shows (s : Session) (values : Text → Option Text) : Prop :=
  ∃ m : Mapping Text Text, (s.step .properties).1.answer = .ok (.values m) ∧ m.find? = values

theorem shows_get (hs : s.manager.store.loaded = true) : s.Shows s.manager.store.get :=
  ⟨_, answer_properties hs, s.manager.store.find?_snapshot_all⟩

/-- A session on loaded properties whose file holds what is to be saved of them. -/
structure Filed (s : Session) : Prop where
  loaded : s.manager.store.loaded = true
  regular : s.manager.store.IsRegular
  tracks : s.manager.store.TracksDefaults
  read : ∃ m, s.disk.tree.readMapping s.manager.path s.manager.format = .ok m ∧
    ∀ name, m.find? name =
      (s.manager.store.snapshot s.manager.store.savingDefaults).find? name

theorem Filed.of_spared (hs : s.Filed) (h : Spared false s t) : t.Filed where
  loaded := h.loaded hs.loaded
  regular := by rw [h.store]; exact hs.regular
  tracks := by rw [h.store]; exact hs.tracks
  read := by rw [h.disk rfl, h.path, h.format, h.store]; exact hs.read

/-- What is handed over to be saved are some of the properties. -/
theorem keeps_saved {format : Format} {store : Store} (h : format.Keeps (store.snapshot true))
    (includeDefaults : Bool) : format.Keeps (store.snapshot includeDefaults) := by
  apply h.part
  intro name value hvalue
  rw [Store.find?_snapshot] at hvalue
  rw [Store.find?_snapshot_all]
  exact (Option.filter_eq_some_iff.1 hvalue).1

theorem writeMapping_of_write {disk : Disk} (h : s.write = (.ok (), disk)) :
    s.disk.tree.writeMapping s.disk.faults s.manager.path s.manager.format s.disk.now
        (s.manager.store.snapshot s.manager.store.savingDefaults) s.manager.comment =
      (.ok (), disk.tree) := by
  unfold write Disk.writeMapping at h
  generalize s.disk.tree.writeMapping s.disk.faults s.manager.path s.manager.format s.disk.now
    (s.manager.store.snapshot s.manager.store.savingDefaults) s.manager.comment = r at h ⊢
  obtain ⟨outcome, tree⟩ := r
  cases h
  rfl

theorem filed_afterWrite (hs : s.manager.store.loaded = true)
    (hregular : s.manager.store.IsRegular) (htracks : s.manager.store.TracksDefaults)
    (hkeeps : s.manager.format.Keeps (s.manager.store.snapshot true)) {disk : Disk}
    (hwrite : s.write = (.ok (), disk)) : (s.afterWrite disk).Filed where
  loaded := hs
  regular := hregular.apply .commit
  tracks := htracks.apply .commit
  read := by
    obtain ⟨m, hm, hsame⟩ :=
      FileTree.readMapping_writeMapping (writeMapping_of_write hwrite) (keeps_saved hkeeps _)
    refine ⟨m, hm, fun name => ?_⟩
    have hcommit : (s.afterWrite disk).manager.store = s.manager.store.commit := rfl
    rw [hsame, hcommit, Store.find?_snapshot, Store.find?_snapshot, Store.get_commit]
    rfl

/-- A save that completes leaves the session right after the write, as far as it matters. -/
theorem spared_save (hs : s.manager.store.loaded = true) (hspare : s.SparesAt false ⟨.saved, none⟩)
    (hok : (s.step .save).1.answer = .ok .nothing) :
    ∃ disk, s.write = (.ok (), disk) ∧ Spared false (s.afterWrite disk) (s.step .save).2 := by
  let s₀ : Session := { s with log := [] }
  let call := callWithin (s.stepDepth .save)
  have hsave : s₀.save call = s₀.await call .saving .saved writeFile :=
    onceLoaded_of_loaded (s := s₀) hs _
  have hperform : Manager.perform call s₀ .save =
      answered (fun _ => .nothing) (s₀.await call .saving .saved writeFile) := by
    rw [Manager.perform, hsave]
  rcases hdone : s₀.await call .saving .saved writeFile with ⟨e | _, t⟩
  · rw [hdone] at hperform
    rw [step_of_perform hperform] at hok
    cases hok
  · rw [hdone] at hperform
    rw [step_of_perform hperform]
    obtain ⟨disk, hwrite, rfl⟩ := await_writeFile hdone
    refine ⟨disk, hwrite, ?_⟩
    have hfired := spared_fire_at (s := s₀.afterWrite disk) (s.stepDepth .save) hs hspare
    exact hfired.withNotes s.log _ s.inCallback _

theorem await_takeFile_ok (call : Calling) (action : FileAction) {values : Mapping Text Text}
    (hwork : s.takesWork = true)
    (hread : s.disk.tree.readMapping s.manager.path s.manager.format = .ok values) :
    s.await call action .loaded takeFile = (.ok (), s.afterLoad call values) := by
  unfold await takeFile
  rw [if_pos hwork, hread]
  rfl

/-- A load of what the file holds gives the values of the session whose file it is. -/
theorem Filed.shows_afterLoad (hs : s.Filed) (ht : t.manager.store.IsRegular)
    (hspare : t.SparesAt false ⟨.loaded, none⟩)
    (hdefaults : t.manager.store.defaults = s.manager.store.defaults)
    {values : Mapping Text Text}
    (hread : s.disk.tree.readMapping s.manager.path s.manager.format = .ok values) (depth : Nat) :
    (t.afterLoad (callWithin depth) values).Shows s.manager.store.get := by
  obtain ⟨m, hm, hsame⟩ := hs.read
  rw [hread] at hm
  cases hm
  have hfired := spared_afterLoad depth hspare values
  have hvalues : (t.afterLoad (callWithin depth) values).manager.store.get =
      s.manager.store.get := by
    rw [hfired.store]
    exact Store.get_load_snapshot ht hs.tracks hdefaults hsame
  rw [← hvalues]
  exact shows_get (hfired.loaded rfl)

/-- A new manager of the file shows the same properties once it has been loaded. -/
theorem Filed.restart (hs : s.Filed) (o : Options) (naming : Naming) (evaluator : Option Evaluator)
    {workers : Workers} (hworkers : workers.areOpen = true) :
    let fresh := start (create o s.manager.path s.manager.store.defaults naming evaluator
      (some s.manager.format) workers) s.disk
    (fresh.step .load).1.answer = .ok .nothing ∧
      (fresh.step .load).2.Shows s.manager.store.get := by
  intro fresh
  obtain ⟨values, hread, -⟩ := hs.read
  let call := callWithin (fresh.stepDepth .load)
  have hload : fresh.load call = (.ok (), fresh.afterLoad call values) :=
    await_takeFile_ok call .loading hworkers hread
  have hperform : Manager.perform call fresh .load =
      (.ok .nothing, fresh.afterLoad call values) := by
    rw [Manager.perform, hload]
    rfl
  have hregular : fresh.manager.store.IsRegular := Store.isRegular_create _ _ _
  have hspare : fresh.SparesAt false ⟨.loaded, none⟩ :=
    fun _ r _ hr => absurd hr (Option.some_ne_none r).symm
  rw [step_of_perform (s := fresh) hperform]
  exact ⟨rfl, hs.shows_afterLoad hregular hspare rfl hread (fresh.stepDepth .load)⟩

/-- To read the file again changes no value. -/
theorem Filed.reload (hs : s.Filed) :
    (s.manager.workers.areOpen = true → (s.step .reload).1.answer = .ok .nothing) ∧
      (s.SparesAt false ⟨.loaded, none⟩ → (s.step .reload).2.Shows s.manager.store.get) := by
  let s₀ : Session := { s with log := [] }
  let call := callWithin (s.stepDepth .reload)
  have hperform : Manager.perform call s₀ .reload =
      answered (fun _ => .nothing) (s₀.await call .reloading .loaded takeFile) := rfl
  constructor
  · intro hopen
    obtain ⟨values, hread, -⟩ := hs.read
    have hwork : s₀.takesWork = true := by
      rw [takesWork, hopen, Bool.or_true]
    rw [await_takeFile_ok (s := s₀) call .reloading hwork hread] at hperform
    rw [step_of_perform hperform]
    rfl
  · intro hspare
    rcases await_takeFile call .reloading s₀ with ⟨e, he⟩ | ⟨values, hread, hdone⟩
    · rw [he] at hperform
      rw [step_of_perform hperform]
      exact shows_get (s := s₀) hs.loaded
    · rw [hdone] at hperform
      rw [step_of_perform hperform]
      exact hs.shows_afterLoad (t := s₀) hs.regular hspare rfl hread (s.stepDepth .reload)

/-- After a save that completes, a new manager with the same path, format and defaults shows the
same properties once it has been loaded, nothing is modified, and to read the file again changes no
value. JSON keeps all properties; properties text keeps those with names that are not empty and
without line ends beyond ASCII. -/
theorem properties_survive_restart (h : s.Reached) (hs : s.manager.store.loaded = true)
    (hspare : s.SparesAt false ⟨.saved, none⟩)
    (hkeeps : s.manager.format.Keeps (s.manager.store.snapshot true))
    (hok : (s.step .save).1.answer = .ok .nothing) :
    let saved := (s.step .save).2
    ∃ values : Text → Option Text, s.Shows values ∧ saved.Shows values ∧
      (∀ o naming evaluator, ∀ workers : Workers, workers.areOpen = true →
        let fresh := start (create o saved.manager.path saved.manager.store.defaults naming
          evaluator (some saved.manager.format) workers) saved.disk
        (fresh.step .load).1.answer = .ok .nothing ∧ (fresh.step .load).2.Shows values) ∧
      (saved.step .isModified).1.answer = .ok (.flag false) ∧
      (saved.manager.workers.areOpen = true → (saved.step .reload).1.answer = .ok .nothing) ∧
      (saved.SparesAt false ⟨.loaded, none⟩ → (saved.step .reload).2.Shows values) := by
  intro saved
  obtain ⟨disk, hwrite, hspared⟩ := spared_save hs hspare hok
  have hfiled : saved.Filed :=
    (filed_afterWrite hs h.isRegular h.tracksDefaults hkeeps hwrite).of_spared hspared
  have hstore : saved.manager.store = s.manager.store.commit := hspared.store
  have hvalues : saved.manager.store.get = s.manager.store.get := by
    rw [hstore, Store.get_commit]
  have hunmodified : saved.manager.store.anyModified = false := by
    rw [hstore]
    exact Store.unmodified_of_settles (c := .commit) h.isRegular rfl
  refine ⟨saved.manager.store.get, hvalues ▸ shows_get hs, shows_get hfiled.loaded, ?_, ?_,
    hfiled.reload⟩
  · exact fun o naming evaluator workers hworkers => hfiled.restart o naming evaluator hworkers
  · rw [answer_isModified hfiled.loaded, hunmodified]

/-- A manager on loaded properties with a comment and a listener that asks for one of them. -/
def annotated : Session :=
  let s := start
    (create {} (.ofText "kept/p.properties") (.ofList [("a", "1")])
      (.standard { name := "Keys", members := [("A", some "1"), ("B", none)] }) none none .external)
    { now := .newYear }
  let s := (s.step (.setComment (some "two lines\nof comment"))).2
  let s := (s.step (.property "B" (.set (some (.text " x=1\n"))))).2
  (s.step (.listen "reader" none [.property "B" .get] 9 none)).2

theorem properties_survive_restart_annotated :
    let saved := (annotated.step .save).2
    let fresh := start (create { savingDefaults := true, historyLimit := 1 } saved.manager.path
      saved.manager.store.defaults saved.manager.naming none (some saved.manager.format)
      (.own false)) saved.disk
    ∃ values : Text → Option Text, annotated.Shows values ∧
      (fresh.step .load).2.Shows values ∧ (saved.step .reload).2.Shows values ∧
      (saved.step .isModified).1.answer = .ok (.flag false) := by
  intro saved fresh
  have hreached : annotated.Reached := (((Reached.start ..).step _).step _).step _
  have hloaded : annotated.manager.store.loaded = true := by decide +kernel
  have hspares : ∀ s : Session, s.reactions = annotated.reactions →
      ∀ event, s.SparesAt false event := by
    intro s hs event listener r _ hr _ c hc
    have hreactions : annotated.reactions.entries =
        [(("reader" : Text), ⟨[.property "B" .get], 9, none⟩)] := by with_unfolding_all rfl
    rw [hs, Mapping.find?_eq_some_iff, hreactions, List.mem_singleton] at hr
    cases hr
    rw [List.mem_singleton.1 hc]
    rfl
  have hkeeps : annotated.manager.format.Keeps (annotated.manager.store.snapshot true) := by
    have hentries : ∀ e ∈ (annotated.manager.store.snapshot true).entries,
        e.1 ≠ [] ∧ ∀ c ∈ e.1 ++ e.2, c.isWideLineEnd = false := by decide +kernel
    have hformat : annotated.manager.format = .properties true := by decide +kernel
    rw [hformat]
    exact hentries
  have hok : (annotated.step .save).1.answer = .ok .nothing := by with_unfolding_all rfl
  obtain ⟨values, hvalues, -, hrestart, hunmodified, -, hreload⟩ :=
    properties_survive_restart hreached hloaded (hspares _ rfl _) hkeeps hok
  obtain ⟨_, hfresh⟩ := hrestart { savingDefaults := true, historyLimit := 1 } saved.manager.naming
    none (.own false) rfl
  obtain ⟨disk, _, hspared⟩ := spared_save hloaded (hspares _ rfl _) hok
  exact ⟨values, hvalues, hfresh, hreload (hspares _ hspared.reactions _), hunmodified⟩

/-- A manager on loaded properties with a listener that sets a value whenever it is told of a save.
-/
def restless : Session :=
  let s := start
    (create {} (.ofText "p.properties") (.ofList [("a", "1")])
      (.standard { name := "Keys", members := [("A", some "1")] }) none none .external)
    { now := .newYear }
  let s := (s.step .load).2
  (s.step (.listen "writer" none [.property "A" (.set (some (.text "2")))] 2 none)).2

/-- The listener is told after the write, and what it sets is unsaved when the save returns. -/
theorem isModified_save_restless :
    restless.Reached ∧ restless.manager.store.loaded = true ∧
      (restless.step .save).1.answer = .ok .nothing ∧
      ((restless.step .save).2.step .isModified).1.answer = .ok (.flag true) := by
  have hreached : restless.Reached := ((Reached.start ..).step _).step _
  have hloaded : restless.manager.store.loaded = true := by decide +kernel
  have hok : (restless.step .save).1.answer = .ok .nothing := by with_unfolding_all rfl
  have hsaved : (restless.step .save).2.manager.store.loaded = true := by decide +kernel
  have hmodified : (restless.step .save).2.manager.store.anyModified = true := by decide +kernel
  refine ⟨hreached, hloaded, hok, ?_⟩
  rw [answer_isModified hsaved, hmodified]

end Session

end VersionedProperties.Manager
