import VersionedProperties.Proofs.Manager.BeforeLoad
import VersionedProperties.Proofs.Manager.Saving
import VersionedProperties.Proofs.Store.Restart
import VersionedProperties.Proofs.Store.Unsaved

/-!
# Unsaved changes

Between a load or a save that has completed and the next, the saved values stay what they are. If
after edits of known names nothing is modified, every property that is left has the value it had
right after the load or save. This is all that can be said: a property without default that is
reset is gone with its history, and no longer counts as a change.
-/

namespace VersionedProperties.Manager

/-- Whether a command reads the file again or writes it. -/
def Command.reloadsOrSaves : Command → Bool
  | .reload | .save | .scheduleReload | .scheduleSave => true
  | _ => false

namespace Session

variable {s t : Session}

/-- A session on loaded properties none of which is modified, with listeners that leave them alone.
-/
structure Settled (s : Session) : Prop where
  loaded : s.manager.store.loaded = true
  spare : s.AllSpare true
  unmodified : s.manager.store.anyModified = false

theorem Settled.of_spared (hs : s.Settled) (h : Spared true s t) : t.Settled where
  loaded := h.loaded hs.loaded
  spare := hs.spare.of_spared h
  unmodified := by rw [h.store, hs.unmodified]

theorem settled_afterLoad (depth : Nat) (hregular : s.manager.store.IsRegular)
    (hspare : s.AllSpare true) (values : Mapping Text Text) :
    (s.afterLoad (callWithin depth) values).Settled := by
  have hloaded : (s.withStore (s.manager.store.load values)).Settled :=
    ⟨rfl, hspare, Store.unmodified_of_settles (c := .load values) hregular rfl⟩
  exact hloaded.of_spared (spared_afterLoad depth hspare.sparesAt values)

theorem settled_afterWrite (hs : s.manager.store.loaded = true)
    (hregular : s.manager.store.IsRegular) (hspare : s.AllSpare true) (disk : Disk) :
    (s.afterWrite disk).Settled :=
  ⟨hs, hspare, Store.unmodified_of_settles (c := .commit) hregular rfl⟩

theorem settled_onceLoaded {depth : Nat} (hregular : s.manager.store.IsRegular)
    (hspare : s.AllSpare true) {work : Session → Except Error Unit × Session}
    (hwork : ∀ {u t : Session}, u.manager.store.loaded = true → u.manager.store.IsRegular →
      u.AllSpare true → work u = (.ok (), t) → t.Settled)
    (hok : s.onceLoaded (callWithin depth) work = (.ok (), t)) : t.Settled := by
  have hcall := leadingCalling_callWithin depth
  obtain ⟨u, hloaded, hu, hdone⟩ := onceLoaded_ok hcall hok
  rcases hu with rfl | ⟨values, rfl⟩
  · exact hwork hloaded hregular hspare hdone
  · obtain ⟨changes, hchanges⟩ := (leads_afterLoad hcall s values).store_eq
    refine hwork hloaded ?_ (settled_afterLoad depth hregular hspare values).spare hdone
    rw [hchanges]
    exact hregular.after changes

/-- What reloads or saves, and does not fail, leaves nothing modified. -/
theorem settled_perform {depth : Nat} (hregular : s.manager.store.IsRegular)
    (hspare : s.AllSpare true) {c : Command} (hc : c.reloadsOrSaves = true) {a : Answer}
    (hok : (Manager.perform (callWithin depth) s c).1 = .ok a) :
    (Manager.perform (callWithin depth) s c).2.Settled := by
  cases c with
  | reload =>
      rcases await_takeFile (callWithin depth) .reloading s with ⟨e, he⟩ | ⟨values, _, hdone⟩
      · rw [Manager.perform, reload, he] at hok
        cases hok
      · rw [Manager.perform, reload, hdone]
        exact settled_afterLoad depth hregular hspare values
  | scheduleReload =>
      rcases schedule_takeFile (callWithin depth) s with ⟨e, he⟩ | ⟨values, _, hdone⟩
      · rw [Manager.perform, scheduleReload, he] at hok
        cases hok
      · have hafter := settled_afterLoad depth (s := { s with inCallback := true }) hregular hspare
          values
        rw [Manager.perform, scheduleReload, hdone]
        exact ⟨hafter.loaded, hafter.spare, hafter.unmodified⟩
  | save =>
      rcases hdone : s.save (callWithin depth) with ⟨e | _, t⟩
      · rw [Manager.perform, hdone] at hok
        cases hok
      · rw [Manager.perform, hdone]
        refine settled_onceLoaded hregular hspare ?_ hdone
        intro u t hloaded hregular hspare hwork
        obtain ⟨disk, _, rfl⟩ := await_writeFile hwork
        have hwritten := settled_afterWrite hloaded hregular hspare disk
        exact hwritten.of_spared (spared_fire depth hwritten.loaded hwritten.spare _)
  | scheduleSave =>
      rcases hdone : s.scheduleSave (callWithin depth) with ⟨e | _, t⟩
      · rw [Manager.perform, hdone] at hok
        cases hok
      · rw [Manager.perform, hdone]
        refine settled_onceLoaded hregular hspare ?_ hdone
        intro u t hloaded hregular hspare hwork
        obtain ⟨disk, _, rfl⟩ := schedule_writeFile hwork
        have hwritten := settled_afterWrite hloaded hregular hspare disk
        have hfired := spared_fire (s := { u.afterWrite disk with inCallback := true }) depth
          hwritten.loaded hwritten.spare ⟨.saved, none⟩
        exact hwritten.of_spared (hfired.withNotes u.log _ u.inCallback u.inCallback)
  | _ => cases hc

/-- Where a load completes by a command that else spares the properties, nothing is modified. -/
theorem settled_firstLoad {depth : Nat} (hs : s.manager.store.loaded = false)
    (hregular : s.manager.store.IsRegular) (hspare : s.AllSpare true) {c : Command}
    (hc : c.spares true = true)
    (hloaded : (Manager.perform (callWithin depth) s c).2.manager.store.loaded = true) :
    (Manager.perform (callWithin depth) s c).2.Settled := by
  have hcall := leadingCalling_callWithin depth
  rcases kept_or_resumed hcall c s hs with hkept | ⟨t, values, ht, _, hresumed⟩
  · rw [hkept.store, loaded_onStore, hs] at hloaded
    cases hloaded
  · have hstore : t.manager.store = s.manager.store ∧ t.reactions = s.reactions := by
      rcases ht with rfl | ⟨k, rfl⟩
      · exact ⟨rfl, rfl⟩
      · obtain ⟨_, _, hframe⟩ := s.manager.withView_frame k
        rw [hframe]
        exact ⟨rfl, rfl⟩
    have hregular' : t.manager.store.IsRegular := by rwa [hstore.1]
    have hspare' : t.AllSpare true := by
      unfold AllSpare OthersSpare
      rwa [hstore.2]
    have hafter := settled_afterLoad depth hregular' hspare' values
    generalize hr : Manager.perform (callWithin depth) s c = r at hresumed
    cases hresumed with
    | performed _ => exact hafter.of_spared (asked_perform _ hafter.loaded hc).toSpared
    | reloaded => cases hc
    | scheduled => cases hc

/-- Edits made one after the other that set values of known names only. -/
def KnownEdits (s : Session) : List Command → Prop
  | [] => True
  | c :: rest =>
    (c = .resetAll ∨ ∃ k e, (c = .property k (PropertyEdit.command e) ∨ c = .view k e.command) ∧
      ∀ value, e = .set value → s.manager.store.contains (s.manager.nameOf k) = true) ∧
    (s.step c).2.KnownEdits rest

/-- Only a value that is set may bring in a name. -/
theorem isKnownEdit_of_change? {store : Store} {name : Text} {e : PropertyEdit} {c : Store.Change}
    (h : e.change? name = some c)
    (hknown : ∀ value, e = .set value → store.contains name = true) : c.IsKnownEdit store := by
  obtain ⟨value, text, rfl, rfl⟩ | rfl | rfl | rfl := PropertyEdit.change?_cases h
  · refine ⟨rfl, ?_⟩
    intro other text' heq
    cases heq
    exact hknown value rfl
  · exact ⟨rfl, fun _ _ heq => Store.Change.noConfusion heq⟩
  · exact ⟨rfl, fun _ _ heq => Store.Change.noConfusion heq⟩
  · exact ⟨rfl, fun _ _ heq => Store.Change.noConfusion heq⟩

/-- An edit of known names changes the store by at most one change of this kind. -/
theorem keepsSaved_edited {depth : Nat} {k : Key} {e : PropertyEdit}
    (h : Edited (callWithin depth) k e s t) (hs : s.manager.store.loaded = true)
    (hregular : s.manager.store.IsRegular) (htracks : s.manager.store.TracksDefaults)
    (hspare : s.AllSpare true)
    (hknown : ∀ value, e = .set value → s.manager.store.contains (s.manager.nameOf k) = true) :
    s.manager.store.KeepsSaved t.manager.store ∧ t.manager.store.loaded = true ∧
      t.AllSpare true := by
  cases h with
  | refused => exact ⟨.refl _, hs, hspare⟩
  | @unchanged c hc _ =>
      exact ⟨Store.keepsSaved_apply hregular htracks (isKnownEdit_of_change? hc hknown),
        Store.loaded_apply hs c, hspare⟩
  | @changed c hc =>
      let after := s.withStore (s.manager.store.apply c)
      have hloaded : after.manager.store.loaded = true := Store.loaded_apply hs c
      have hfired := spared_fire depth hloaded hspare (e.event k)
      refine ⟨?_, hfired.loaded hloaded, hspare.of_spared hfired⟩
      rw [hfired.store]
      exact Store.keepsSaved_apply hregular htracks (isKnownEdit_of_change? hc hknown)

theorem keepsSaved_resetAll {depth : Nat} (hs : s.manager.store.loaded = true)
    (hregular : s.manager.store.IsRegular) (htracks : s.manager.store.TracksDefaults)
    (hspare : s.AllSpare true) :
    let t := (s.resetAll (callWithin depth)).2
    s.manager.store.KeepsSaved t.manager.store ∧ t.manager.store.loaded = true ∧
      t.AllSpare true := by
  have hknown : Store.Change.resetAll.IsKnownEdit s.manager.store :=
    ⟨rfl, fun _ _ h => nomatch h⟩
  have hkeeps : s.manager.store.KeepsSaved s.manager.store.resetAll.2 :=
    Store.keepsSaved_apply hregular htracks hknown
  let after := s.withStore s.manager.store.resetAll.2
  have hloaded : after.manager.store.loaded = true := Store.loaded_apply hs .resetAll
  simp only [resetAll, onceLoaded_of_loaded hs, settle]
  split
  · have hfired := spared_fire depth hloaded hspare ⟨.reset, none⟩
    refine ⟨?_, hfired.loaded hloaded, hspare.of_spared hfired⟩
    rw [hfired.store]
    exact hkeeps
  · exact ⟨hkeeps, hloaded, hspare⟩

theorem keepsSaved_run (h : s.Reached) (hs : s.manager.store.loaded = true)
    (hspare : s.AllSpare true) {commands : List Command} (hedits : s.KnownEdits commands) :
    s.manager.store.KeepsSaved (s.run commands).2.manager.store := by
  induction commands generalizing s with
  | nil => exact .refl _
  | cons c commands ih =>
      obtain ⟨hfirst, hrest⟩ := hedits
      have hstep : s.manager.store.KeepsSaved (s.step c).2.manager.store ∧
          (s.step c).2.manager.store.loaded = true ∧ (s.step c).2.AllSpare true := by
        rcases hfirst with rfl | ⟨k, e, hc, hknown⟩
        · exact keepsSaved_resetAll (s := { s with log := [] }) hs h.isRegular h.tracksDefaults
            hspare
        · obtain ⟨depth, u, hasked, _, _, hedit⟩ := edited_step h.viewsSubscribed hs k e hc
          have hstore : u.manager.store = s.manager.store := hasked.store
          have hname : u.manager.nameOf k = s.manager.nameOf k := by
            rw [Manager.nameOf, Manager.nameOf, hasked.naming]
          have hspare' : u.AllSpare true :=
            OthersSpare.of_spared (s := { s with log := [] }) hasked.toSpared hspare
          have hknown' : ∀ value, e = .set value →
              u.manager.store.contains (u.manager.nameOf k) = true := by
            rwa [hstore, hname]
          have hregular : u.manager.store.IsRegular := by rw [hstore]; exact h.isRegular
          have htracks : u.manager.store.TracksDefaults := by rw [hstore]; exact h.tracksDefaults
          have hkeeps :=
            keepsSaved_edited hedit (hasked.loaded hs) hregular htracks hspare' hknown'
          rwa [hstore] at hkeeps
      exact hstep.1.trans (ih (h.step c) hstep.2.1 hstep.2.2 hrest)

/-- After a load or save that has completed, edits of known names, and the answer that nothing is
modified, every property that is left has the value it had right after the load or save, and the
properties are the same just if none has been lost. -/
theorem properties_of_unmodified (h : s.Reached) (hspare : s.AllSpare true) {c : Command}
    (hc : c.reloadsOrSaves = true ∧ (∃ a, (s.step c).1.answer = .ok a) ∨
      s.manager.store.loaded = false ∧ c.spares true = true ∧
        (s.step c).2.manager.store.loaded = true)
    {commands : List Command} (hedits : (s.step c).2.KnownEdits commands)
    (hunmodified : (((s.step c).2.run commands).2.step .isModified).1.answer =
      .ok (.flag false)) :
    ∃ before after : Mapping Text Text,
      ((s.step c).2.step .properties).1.answer = .ok (.values before) ∧
      (((s.step c).2.run commands).2.step .properties).1.answer = .ok (.values after) ∧
      (∀ name value, after.find? name = some value → before.find? name = some value) ∧
      (after.find? = before.find? ↔ ∀ name, before.contains name = true →
        after.contains name = true) := by
  let first := (s.step c).2
  let last := (first.run commands).2
  have hfirst : first.Settled := by
    let s₀ : Session := { s with log := [] }
    rcases hc with ⟨hc, a, ha⟩ | ⟨hs, hc, hloaded⟩
    · exact settled_perform (s := s₀) h.isRegular hspare hc ha
    · exact settled_firstLoad (s := s₀) hs h.isRegular hspare hc hloaded
  have hkeeps : first.manager.store.KeepsSaved last.manager.store :=
    keepsSaved_run (h.step c) hfirst.loaded hfirst.spare hedits
  have hloaded : last.manager.store.loaded = true := loaded_run hfirst.loaded commands
  have hlast : last.manager.store.anyModified = false := by
    rw [answer_isModified hloaded] at hunmodified
    exact Answer.flag.inj (Except.ok.inj hunmodified)
  have hcontains : ∀ (store : Store) (name : Text),
      (store.snapshot true).contains name = store.contains name := by
    intro store name
    rw [Mapping.contains, Store.find?_snapshot_all, Store.get, Option.isSome_map]
    rfl
  refine ⟨_, _, answer_properties hfirst.loaded, answer_properties hloaded, ?_, ?_⟩
  · intro name value hvalue
    rw [Store.find?_snapshot_all] at hvalue ⊢
    exact hkeeps.get_eq hfirst.unmodified hlast hvalue
  · simp only [Store.find?_snapshot_all, hcontains]
    exact hkeeps.get_eq_iff hfirst.unmodified hlast

/-- A manager with a key that has a default and one that has none. Its file has a value for the
latter. -/
def withExtra : Session :=
  let content : Utf8.Bytes := [0x65, 0x78, 0x74, 0x72, 0x61, 0x3D, 0x39, 0x0A]
  start
    (create {} (.ofText "p.properties") (.ofList [("a", "1")])
      (.standard { name := "Keys", members := [("A", some "1"), ("EXTRA", none)] }) none none
      .external)
    { tree := FileTree.empty.put ["p.properties"] (.file content), now := .newYear }

theorem properties_of_unmodified_withExtra :
    let edits : List Command :=
      [.property "A" (.set (some (.text "2"))), .view "A" .undo, .resetAll, .property "A" .redo,
        .property "A" .reset]
    ∃ before after : Mapping Text Text,
      ((withExtra.step .reload).2.step .properties).1.answer = .ok (.values before) ∧
      (((withExtra.step .reload).2.run edits).2.step .properties).1.answer = .ok (.values after) ∧
      (∀ name value, after.find? name = some value → before.find? name = some value) ∧
      (after.find? = before.find? ↔ ∀ name, before.contains name = true →
        after.contains name = true) := by
  intro edits
  have hreached : withExtra.Reached := .start ..
  have hspare : withExtra.AllSpare true :=
    fun _ r _ hr => absurd hr (Option.some_ne_none r).symm
  have hreloaded : (withExtra.step .reload).1.answer = .ok .nothing := by
    with_unfolding_all rfl
  have hset : (withExtra.step .reload).2.manager.store.contains
      ((withExtra.step .reload).2.manager.nameOf "A") = true := by decide +kernel
  have hedits : (withExtra.step .reload).2.KnownEdits edits :=
    ⟨.inr ⟨"A", .set (some (.text "2")), .inl rfl, fun _ _ => hset⟩,
      .inr ⟨"A", .undo, .inr rfl, fun _ => PropertyEdit.noConfusion⟩, .inl rfl,
      .inr ⟨"A", .redo, .inl rfl, fun _ => PropertyEdit.noConfusion⟩,
      .inr ⟨"A", .reset, .inl rfl, fun _ => PropertyEdit.noConfusion⟩, trivial⟩
  have hloaded : ((withExtra.step .reload).2.run edits).2.manager.store.loaded = true := by
    decide +kernel
  have hunmodified :
      ((withExtra.step .reload).2.run edits).2.manager.store.anyModified = false := by
    decide +kernel
  refine properties_of_unmodified hreached hspare (.inl ⟨rfl, .nothing, hreloaded⟩) hedits ?_
  rw [answer_isModified hloaded, hunmodified]

/-- A property without default that is reset is gone, and yet nothing is said to be modified: saved
now, the file would lose its value. -/
theorem isModified_reset_withExtra :
    let loaded := (withExtra.step .load).2
    let after := (loaded.step (.property "EXTRA" .reset)).2
    (withExtra.step .load).1.answer = .ok .nothing ∧
      (after.step .isModified).1.answer = .ok (.flag false) ∧
      ∃ saved kept : Mapping Text Text,
        (loaded.step .properties).1.answer = .ok (.values saved) ∧
        (after.step .properties).1.answer = .ok (.values kept) ∧
        saved.find? "extra" = some "9" ∧ kept.find? "extra" = none := by
  intro loaded after
  have hload : (withExtra.step .load).1.answer = .ok .nothing := by with_unfolding_all rfl
  have hloaded : loaded.manager.store.loaded = true := by decide +kernel
  have hafter : after.manager.store.loaded = true := by decide +kernel
  have hunmodified : after.manager.store.anyModified = false := by decide +kernel
  have hsaved : (loaded.manager.store.snapshot true).find? "extra" = some "9" := by
    decide +kernel
  have hkept : (after.manager.store.snapshot true).find? "extra" = none := by decide +kernel
  refine ⟨hload, ?_, _, _, answer_properties hloaded, answer_properties hafter, hsaved, hkept⟩
  rw [answer_isModified hafter, hunmodified]

end Session

end VersionedProperties.Manager
