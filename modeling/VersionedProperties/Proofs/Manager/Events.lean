import VersionedProperties.Proofs.Manager.Audience
import VersionedProperties.Proofs.Manager.BeforeLoad
import VersionedProperties.Proofs.Manager.Saving
import VersionedProperties.Proofs.Store.Restart

/-!
# The events of a step

Each command has its own events, which depend on whether it changed a current value or the tracked
names, and on whether it succeeded (`Command.events`). As long as no listener does more than ask, a
step on properties that have been loaded fires just these, and the step that loads them first fires
the event of the load before them. So in a run without reloads there is one load event at most.
-/

namespace VersionedProperties.Manager

/-- The events of an operation on the property of a key, which are told by whether it changed a
value and whether it succeeded. -/
def PropertyCommand.events (k : Key) (c : PropertyCommand) (changed ok : Bool) : List Event :=
  match c with
  | .set _ | .undo | .redo => if changed then [⟨.changed, some k⟩] else []
  | .reset => if changed then [⟨.reset, some k⟩] else []
  | .save _ =>
    (if changed then [⟨.changed, some k⟩] else []) ++ if ok then [⟨.saved, none⟩] else []
  | _ => []

/-- The events of a command itself, without that of a first load that it brings about. -/
def Command.events (c : Command) (changed ok : Bool) : List Event :=
  match c with
  | .property k c | .view k c => c.events k changed ok
  | .resetAll => if changed then [⟨.reset, none⟩] else []
  | .reload | .scheduleReload => if ok then [⟨.loaded, none⟩] else []
  | .save | .scheduleSave => if ok then [⟨.saved, none⟩] else []
  | _ => []

/-- Whether a command reads the file again. -/
def Command.reloads : Command → Bool
  | .reload | .scheduleReload => true
  | _ => false

theorem PropertyCommand.events_false (k : Key) (c : PropertyCommand) :
    c.events k false false = [] := by
  cases c <;> rfl

theorem PropertyCommand.events_of_asks {c : PropertyCommand} (hc : c.asks = true) (k : Key)
    (changed ok : Bool) : c.events k changed ok = [] := by
  cases c <;> first | rfl | cases hc

theorem PropertyEdit.events_command (k : Key) (e : PropertyEdit) (changed ok : Bool) :
    e.command.events k changed ok = if changed then [e.event k] else [] := by
  cases e <;> rfl

theorem PropertyCommand.count_events (k : Key) (c : PropertyCommand) (changed ok : Bool) :
    (c.events k changed ok).count ⟨.loaded, none⟩ = 0 := by
  cases c <;> cases changed <;> cases ok <;> rfl

theorem Command.count_events {c : Command} (hc : c.reloads = false) (changed ok : Bool) :
    (c.events changed ok).count ⟨.loaded, none⟩ = 0 := by
  cases c with
  | property k c => exact c.count_events k changed ok
  | view k c => exact c.count_events k changed ok
  | reload => cases hc
  | scheduleReload => cases hc
  | _ => cases changed <;> cases ok <;> rfl

open Session

/-- An operation fires events of its own, which are told by whether it changed anything and whether
it succeeded. -/
def Announces {α : Type} (own : Bool → Bool → List Event) (s : Session)
    (r : Except Error α × Session) : Prop :=
  ∃ changed : Bool, (changed = true ↔ s.manager.store.Differs r.2.manager.store) ∧
    s.Tells r.2 (own changed r.1.isOk)

variable {s t : Session} {depth : Nat} {own : Bool → Bool → List Event}
  {α : Type} {r : Except Error α × Session} {k : Key}

theorem announces_of_tells (h : ∀ changed, s.Tells r.2 (own changed r.1.isOk)) :
    Announces own s r := by
  classical
  exact ⟨decide (s.manager.store.Differs r.2.manager.store), decide_eq_true_iff, h _⟩

theorem announces_of_silent (hown : ∀ changed, own changed r.1.isOk = [])
    (hlog : r.2.log = s.log) : Announces own s r :=
  announces_of_tells fun changed => by
    rw [hown]
    exact tells_nil hlog

theorem announces_refused (hown : own false false = []) (e : Error) (s : Session) :
    Announces own s ((.error e, s) : Except Error α × Session) :=
  ⟨false, iff_of_false Bool.false_ne_true (Store.not_differs_self _), by
    change s.Tells s (own false false)
    rw [hown]
    exact tells_nil rfl⟩

theorem Announces.answered (h : Announces own s r) (f : α → Answer) :
    Announces own s (answered f r) := by
  obtain ⟨changed, hchanged, htells⟩ := h
  refine ⟨changed, hchanged, ?_⟩
  rcases r with ⟨_ | _, _⟩ <;> exact htells

/-- What is told of a session is told of one with the same properties and listeners. -/
theorem Announces.of_alike {u : Session} (h : Announces own u r) (halike : s.Alike u)
    (hlog : u.log = s.log) (hstore : u.manager.store = s.manager.store) : Announces own s r := by
  obtain ⟨changed, hchanged, htells⟩ := h
  rw [hstore] at hchanged
  exact ⟨changed, hchanged, htells.of_alike halike hlog⟩

theorem announces_withKey {f : Session → Except Error Answer × Session}
    (hown : own false false = []) (hf : Announces own s (f s)) :
    Announces own s (withKey s k f) := by
  unfold withKey
  split
  · exact hf
  · exact announces_refused hown _ s

theorem announces_throughView {f : Session → Except Error Answer × Session}
    (hown : own false false = [])
    (hf : Announces own { s with manager := s.manager.withView k }
      (f { s with manager := s.manager.withView k })) :
    Announces own s (throughView s k f) := by
  apply announces_withKey hown
  split
  · exact announces_refused hown _ s
  · have hview : Asked true s { s with manager := s.manager.withView k } := asked_withView s k
    exact hf.of_alike hview.alike rfl hview.store

section Loaded

variable (hs : s.manager.store.loaded = true) (hspare : s.AllSpare true)

include hs hspare

theorem Session.Edited.announces (hregular : s.manager.store.IsRegular) {e : PropertyEdit}
    (h : Edited (callWithin depth) k e s t) :
    ∃ changed : Bool, (changed = true ↔ s.manager.store.Differs t.manager.store) ∧
      s.Tells t (if changed then [e.event k] else []) := by
  cases h with
  | refused =>
      exact ⟨false, iff_of_false Bool.false_ne_true (Store.not_differs_self _), tells_nil rfl⟩
  | @unchanged c hc hget =>
      refine ⟨false, iff_of_false Bool.false_ne_true ?_, tells_nil rfl⟩
      exact fun hdiffers => Store.differs_iff.1 hdiffers hget
  | @changed c hc hdiffers =>
      have hloaded : (s.withStore (s.manager.store.apply c)).manager.store.loaded = true :=
        Store.loaded_apply hs c
      have hspare' : (s.withStore (s.manager.store.apply c)).AllSpare true := hspare
      refine ⟨true, iff_of_true rfl ?_, ?_⟩
      · rw [(spared_fire depth hloaded hspare' _).store]
        exact hdiffers hregular
      · exact (tells_fire depth hloaded hspare' _).of_alike (fun _ _ => rfl) rfl

theorem Session.Edited.spared {e : PropertyEdit} (h : Edited (callWithin depth) k e s t) :
    t.manager.store.loaded = true ∧ Spared true (s.withStore t.manager.store) t := by
  cases h with
  | refused => exact ⟨hs, .refl s⟩
  | unchanged => exact ⟨Store.loaded_apply hs _, .refl _⟩
  | @changed c hc =>
      have hloaded : (s.withStore (s.manager.store.apply c)).manager.store.loaded = true :=
        Store.loaded_apply hs c
      have hspare' : (s.withStore (s.manager.store.apply c)).AllSpare true := hspare
      have hspared := spared_fire depth hloaded hspare' (e.event k)
      refine ⟨hspared.loaded hloaded, ?_⟩
      rw [hspared.store]
      exact hspared

omit hs in
theorem tells_afterLoad (values : Mapping Text Text) :
    s.Tells (s.afterLoad (callWithin depth) values) [⟨.loaded, none⟩] := by
  have hspare' : (s.withStore (s.manager.store.load values)).AllSpare true := hspare
  exact (tells_fire depth rfl hspare' _).of_alike (fun _ _ => rfl) rfl

omit hs in
theorem tells_afterWrite (hs : s.manager.store.loaded = true) (disk : Disk) :
    s.Tells ((s.afterWrite disk).fire (callWithin depth) ⟨.saved, none⟩) [⟨.saved, none⟩] ∧
      ((s.afterWrite disk).fire (callWithin depth) ⟨.saved, none⟩).manager.store.get =
        s.manager.store.get := by
  have hloaded : (s.afterWrite disk).manager.store.loaded = true := hs
  have hspare' : (s.afterWrite disk).AllSpare true := hspare
  refine ⟨(tells_fire depth hloaded hspare' _).of_alike (fun _ _ => rfl) rfl, ?_⟩
  rw [(spared_fire depth hloaded hspare' _).store]
  exact s.manager.store.get_commit

/-- A save fires its event if it succeeds, and changes no value. -/
theorem tells_save : s.Tells (s.save (callWithin depth)).2
      (if (s.save (callWithin depth)).1.isOk then [⟨.saved, none⟩] else []) ∧
    (s.save (callWithin depth)).2.manager.store.get = s.manager.store.get := by
  rw [save, onceLoaded_of_loaded hs]
  rcases h : s.await (callWithin depth) .saving .saved writeFile with ⟨e | _, t⟩
  · rcases await_error h with rfl | ⟨_, hwork⟩
    · exact ⟨tells_nil rfl, rfl⟩
    · obtain ⟨_, _, rfl⟩ := writeFile_error hwork
      exact ⟨tells_nil rfl, rfl⟩
  · obtain ⟨disk, _, rfl⟩ := await_writeFile h
    exact tells_afterWrite hspare hs disk

theorem tells_scheduleSave : s.Tells (s.scheduleSave (callWithin depth)).2
      (if (s.scheduleSave (callWithin depth)).1.isOk then [⟨.saved, none⟩] else []) := by
  rw [scheduleSave, onceLoaded_of_loaded hs]
  rcases h : s.schedule (callWithin depth) .saved writeFile with ⟨e | _, t⟩
  · rcases schedule_error h with rfl | ⟨_, hwork⟩
    · exact tells_nil rfl
    · obtain ⟨_, _, rfl⟩ := writeFile_error hwork
      exact tells_nil rfl
  · obtain ⟨disk, _, rfl⟩ := schedule_writeFile h
    exact (tells_afterWrite (s := { s with inCallback := true }) hspare hs disk).1

/-- A value that is set and saved fires the events of both. -/
theorem announces_saveProperty (hregular : s.manager.store.IsRegular) (k : Key)
    (value : Option TypedValue) :
    Announces (PropertyCommand.events k (.save value)) s
      (s.saveProperty (callWithin depth) k value) := by
  have hedit : Edited (callWithin depth) k (.set value) s (s.set (callWithin depth) k value).2 :=
    edited_performProperty hs (.set value)
  obtain ⟨changed, hchanged, htells⟩ := hedit.announces hs hspare hregular
  obtain ⟨hloaded, hspared⟩ := hedit.spared hs hspare
  unfold saveProperty
  generalize s.set (callWithin depth) k value = first at hchanged htells hloaded hspared ⊢
  obtain ⟨e | ok, u⟩ := first
  · refine ⟨changed, hchanged, ?_⟩
    change s.Tells u ((if changed then [⟨.changed, some k⟩] else []) ++ [])
    rw [List.append_nil]
    exact htells
  · have hspareU : u.AllSpare true :=
      OthersSpare.of_spared (s := s.withStore u.manager.store) hspared hspare
    have ⟨hsaved, hget⟩ : u.Tells (u.save (callWithin depth)).2 _ ∧ _ := tells_save hloaded hspareU
    refine ⟨changed, ?_, ?_⟩
    · change changed = true ↔ s.manager.store.Differs (u.save (callWithin depth)).2.manager.store
      rw [hchanged, Store.differs_iff, Store.differs_iff, hget]
    · exact htells.trans hsaved hspared.alike (.inr hget)

theorem announces_useProperty (hregular : s.manager.store.IsRegular) (k : Key)
    (c : PropertyCommand) :
    Announces (c.events k) s
      (useProperty (callWithin depth) k s c) := by
  have hedit : ∀ e : PropertyEdit, Announces (e.command.events k) s
      (useProperty (callWithin depth) k s e.command) := by
    intro e
    obtain ⟨changed, hchanged, htells⟩ :=
      (edited_useProperty hs e).announces hs hspare hregular
    refine ⟨changed, hchanged, ?_⟩
    rwa [PropertyEdit.events_command]
  by_cases hc : c.asks = true
  · have hasked : Asked true s (useProperty (callWithin depth) k s c).2 :=
      asked_useProperty _ hs k hc
    exact announces_of_silent (fun changed => PropertyCommand.events_of_asks hc k changed _)
      hasked.log
  · cases c with
    | set value => exact hedit (.set value)
    | reset => exact hedit .reset
    | undo => exact hedit .undo
    | redo => exact hedit .redo
    | save value =>
        unfold useProperty
        split
        · rename_i fault _
          have hfault : ∃ e, failProperty (callWithin depth) fault s (.save value) =
              (.error e, s) := by
            unfold failProperty
            dsimp only
            split
            · exact ⟨_, rfl⟩
            · exact ⟨fault, by rw [query, onceLoaded_of_loaded hs]; rfl⟩
          obtain ⟨e, he⟩ := hfault
          rw [he]
          exact announces_refused rfl e s
        · exact (announces_saveProperty hs hspare hregular k value).answered _
    | _ => exact absurd rfl hc

theorem announces_resetAll (hregular : s.manager.store.IsRegular) :
    Announces (fun changed _ => if changed then [⟨.reset, none⟩] else []) s
      (s.resetAll (callWithin depth)) := by
  rw [resetAll, onceLoaded_of_loaded hs]
  dsimp only
  unfold settle
  cases hchanged : s.manager.store.resetAll.1 with
  | false =>
      have hsame : s.manager.store.resetAll.2 = s.manager.store :=
        s.manager.store.resetAll_of_unchanged hchanged
      refine ⟨false, iff_of_false Bool.false_ne_true ?_, tells_nil rfl⟩
      change ¬ s.manager.store.Differs s.manager.store.resetAll.2
      rw [hsame]
      exact Store.not_differs_self _
  | true =>
      have hloaded : (s.withStore s.manager.store.resetAll.2).manager.store.loaded = true :=
        Store.loaded_apply hs .resetAll
      have hspare' : (s.withStore s.manager.store.resetAll.2).AllSpare true := hspare
      refine ⟨true, iff_of_true rfl ?_, ?_⟩
      · change s.manager.store.Differs (fire _ _ _).manager.store
        rw [(spared_fire depth hloaded hspare' _).store]
        exact Store.differs_resetAll hregular hchanged
      · exact (tells_fire depth hloaded hspare' _).of_alike (fun _ _ => rfl) rfl

omit hs in
theorem announces_reload : Announces (fun _ ok => if ok then [⟨.loaded, none⟩] else []) s
      (s.reload (callWithin depth)) := by
  rw [reload]
  rcases await_takeFile (callWithin depth) .reloading s with ⟨e, he⟩ | ⟨values, _, hok⟩
  · rw [he]
    exact announces_refused rfl e s
  · rw [hok]
    exact announces_of_tells fun _ => tells_afterLoad hspare values

omit hs in
theorem announces_scheduleReload : Announces (fun _ ok => if ok then [⟨.loaded, none⟩] else []) s
      (s.scheduleReload (callWithin depth)) := by
  rw [scheduleReload]
  rcases schedule_takeFile (callWithin depth) s with ⟨e, he⟩ | ⟨values, _, hok⟩
  · rw [he]
    exact announces_refused rfl e s
  · rw [hok]
    exact announces_of_tells fun _ =>
      tells_afterLoad (s := { s with inCallback := true }) hspare values

/-- On properties that have been loaded a command fires its own events. -/
theorem announces_perform (hregular : s.manager.store.IsRegular) (c : Command) :
    Announces c.events s (perform (callWithin depth) s c) := by
  by_cases hc : c.spares true = true
  · have hown : ∀ changed ok, c.events changed ok = [] := by
      intro changed ok
      cases c with
      | property k c => exact PropertyCommand.events_of_asks hc k changed ok
      | view k c => exact PropertyCommand.events_of_asks hc k changed ok
      | _ => first | rfl | cases hc
    exact announces_of_silent (fun changed => hown changed _) (asked_perform _ hs hc).log
  · cases c with
    | reload => exact (announces_reload hspare).answered _
    | scheduleReload => exact (announces_scheduleReload hspare).answered _
    | save => exact (announces_of_tells fun _ => (tells_save hs hspare).1).answered _
    | scheduleSave => exact (announces_of_tells fun _ => tells_scheduleSave hs hspare).answered _
    | resetAll => exact (announces_resetAll hs hspare hregular).answered _
    | property k c =>
        have huse : Announces (c.events k) s (useProperty (callWithin depth) k s c) :=
          announces_useProperty hs hspare hregular k c
        exact announces_withKey (c.events_false k) huse
    | view k c =>
        have hview : Asked true s { s with manager := s.manager.withView k } := asked_withView s k
        have huse : Announces (c.events k) _ (useProperty (callWithin depth) k _ c) :=
          announces_useProperty (hview.loaded hs) (OthersSpare.of_spared hview.toSpared hspare)
            (hview.store ▸ hregular) k c
        exact announces_throughView (c.events_false k) huse
    | setAutoTrim b => exact announces_of_silent (fun _ => rfl) rfl
    | setSavingDefaults b => exact announces_of_silent (fun _ => rfl) rfl
    | storeSet name value => exact announces_of_silent (fun _ => rfl) rfl
    | storeReset name => exact announces_of_silent (fun _ => rfl) rfl
    | listen listener place script limit only =>
        have hkept := kept_listen (callWithin depth) s listener place script limit only
        exact announces_of_silent (fun _ => rfl) hkept.log
    | unlisten listener place =>
        have hkept := kept_unlisten (callWithin depth) s listener place
        exact announces_of_silent (fun _ => rfl) hkept.log
    | _ => exact absurd rfl hc

end Loaded

/-- When the first load completes by a step, its event comes before those of the command. -/
theorem announces_resumed {c : Command} {r : Except Error Answer × Session}
    {values : Mapping Text Text} (hspare : s.AllSpare true) (hregular : s.manager.store.IsRegular)
    (h : Resumed (callWithin depth) s values c r) :
    ∃ changed : Bool,
      (changed = true ↔ (s.manager.store.load values).Differs r.2.manager.store) ∧
      s.Tells r.2 ((if c.waits then [⟨.loaded, none⟩] else []) ++ c.events changed r.1.isOk) := by
  have hsame : ∀ t : Session, t.AllSpare true → ¬ (t.manager.store.load values).Differs
      (t.afterLoad (callWithin depth) values).manager.store := by
    intro t ht
    rw [(spared_afterLoad depth ht.sparesAt values).store]
    exact Store.not_differs_self _
  cases h with
  | performed hc =>
      have hspared := spared_afterLoad depth hspare.sparesAt values
      have hspareAfter := OthersSpare.of_spared hspared
        (show (s.withStore (s.manager.store.load values)).AllSpare true from hspare)
      have hregular' : (s.afterLoad (callWithin depth) values).manager.store.IsRegular := by
        rw [hspared.store]
        exact hregular.after [.load values]
      have hannounces : Announces c.events (s.afterLoad (callWithin depth) values)
          (perform (callWithin depth) (s.afterLoad (callWithin depth) values) c) :=
        announces_perform (hspared.loaded rfl) hspareAfter hregular' c
      obtain ⟨changed, hchanged, htells⟩ := hannounces
      refine ⟨changed, ?_, ?_⟩
      · rw [hchanged, hspared.store]
        rfl
      · rw [if_pos hc]
        exact (tells_afterLoad hspare values).trans htells hspared.alike
          (.inl fun event hevent => List.mem_singleton.1 hevent ▸ rfl)
  | reloaded =>
      exact ⟨false, iff_of_false Bool.false_ne_true (hsame s hspare),
        tells_afterLoad hspare values⟩
  | scheduled =>
      let t : Session := { s with inCallback := true }
      exact ⟨false, iff_of_false Bool.false_ne_true (hsame t hspare),
        tells_afterLoad (s := t) hspare values⟩

namespace Session

/-- The calls of listeners in a step are those for certain events, one after the other, and no
others. -/
def Fires (s : Session) (c : Command) (events : List Event) : Prop :=
  (s.step c).1.calls.map Call.told =
    (s.withStore (s.step c).1.store).manager.announced events

/-- Lists of events for the steps of a run. -/
def FiresAll : Session → List Command → List (List Event) → Prop
  | _, [], fired => fired = []
  | s, c :: rest, fired =>
    ∃ events later, fired = events :: later ∧ s.Fires c events ∧ (s.step c).2.FiresAll rest later

/-- Along a run no listener does more than ask. -/
def SparesAlong : Session → List Command → Prop
  | _, [] => True
  | s, c :: rest => s.AllSpare true ∧ (s.step c).2.SparesAlong rest

theorem fires_of_tells {s : Session} {c : Command} {events : List Event}
    (h : Tells { s with log := [] } (s.step c).2 events) : s.Fires c events := by
  obtain ⟨calls, hlog, htold⟩ := h
  have hcalls : (s.step c).1.calls = calls := hlog
  rw [Fires, hcalls, htold]
  rfl

end Session

theorem audience_ne_nil {m : Manager} {name : Text}
    (hname : .listener name ∈ m.subscribers.members) (event : Event) : m.audience event ≠ [] := by
  apply List.ne_nil_of_mem
  have hhearer : (none, name) ∈ m.hearers :=
    List.mem_flatMap.2 ⟨.listener name, hname, List.mem_cons_self⟩
  exact List.mem_map.2 ⟨(none, name), List.mem_filter.2 ⟨hhearer, rfl⟩, rfl⟩

/-- Where somebody listens to all events, the calls tell which events have been fired. -/
theorem announced_injective {m : Manager} {name : Text}
    (hname : .listener name ∈ m.subscribers.members) {events events' : List Event}
    (h : m.announced events = m.announced events') : events = events' := by
  have hcons : ∀ event rest, m.announced (event :: rest) =
      (m.audience event).map (·, event) ++ m.announced rest := fun _ _ => List.flatMap_cons
  have hfirst : ∀ event rest, (m.announced (event :: rest)).head?.map Prod.snd = some event := by
    intro event rest
    obtain ⟨first, others, haudience⟩ := List.exists_cons_of_ne_nil (audience_ne_nil hname event)
    rw [hcons, haudience]
    rfl
  induction events generalizing events' with
  | nil =>
      cases events' with
      | nil => rfl
      | cons event' rest' =>
          have hhead := hfirst event' rest'
          rw [← h] at hhead
          cases hhead
  | cons event rest ih =>
      cases events' with
      | nil =>
          have hhead := hfirst event rest
          rw [h] at hhead
          cases hhead
      | cons event' rest' =>
          have hhead := hfirst event rest
          rw [h, hfirst] at hhead
          cases hhead
          rw [hcons, hcons] at h
          rw [ih (List.append_cancel_left h)]

namespace Session

theorem Fires.unique {s : Session} {c : Command} {name : Text}
    (hname : .listener name ∈ s.manager.subscribers.members) {events events' : List Event}
    (h : s.Fires c events) (h' : s.Fires c events') : events = events' :=
  announced_injective (m := (s.withStore (s.step c).1.store).manager) hname (h.symm.trans h')

theorem fires_of_loaded {s : Session} (h : s.Reached) (hspare : s.AllSpare true)
    (hs : s.manager.store.loaded = true) (c : Command) : ∃ changed : Bool,
      (changed = true ↔ s.manager.store.Differs (s.step c).1.store) ∧
      s.Fires c (c.events changed (s.step c).1.answer.isOk) := by
  obtain ⟨changed, hchanged, htells⟩ := announces_perform (s := { s with log := [] }) hs hspare
    h.isRegular c
  exact ⟨changed, hchanged, fires_of_tells htells⟩

/-- A step fires nothing before the first load, or the first load completes by it. -/
theorem fires_of_unloaded {s : Session} (h : s.Reached) (hspare : s.AllSpare true)
    (hs : s.manager.store.loaded = false) (c : Command) :
    (s.step c).2.manager.store.loaded = false ∧ s.Fires c [] ∨
      (s.step c).2.manager.store.loaded = true ∧ ∃ (values : Mapping Text Text) (changed : Bool),
        s.disk.tree.readMapping s.manager.path s.manager.format = .ok values ∧
        (changed = true ↔ (s.manager.store.load values).Differs (s.step c).1.store) ∧
        s.Fires c ((if c.waits then [⟨.loaded, none⟩] else []) ++
          c.events changed (s.step c).1.answer.isOk) := by
  let s₀ : Session := { s with log := [] }
  have hcall := leadingCalling_callWithin (s.stepDepth c)
  rcases kept_or_resumed hcall c s₀ hs with hkept | ⟨t, values, ht, hread, hresumed⟩
  · have hstore : (s.step c).2.manager.store = c.onStore s.manager.store := hkept.store
    refine .inl ⟨?_, fires_of_tells (tells_nil hkept.log)⟩
    rw [hstore, loaded_onStore, hs]
  · have hasked : Asked true s₀ t := by
      rcases ht with rfl | ⟨k, rfl⟩
      · exact .refl s₀
      · exact asked_withView s₀ k
    have hregular : t.manager.store.IsRegular := by
      rw [hasked.store]
      exact h.isRegular
    obtain ⟨changed, hchanged, htells⟩ := announces_resumed
      (OthersSpare.of_spared (s := s₀) hasked.toSpared hspare) hregular hresumed
    rw [hasked.store] at hchanged
    exact .inr ⟨hresumed.loaded hcall, values, changed, hread, hchanged,
      fires_of_tells (htells.of_alike hasked.alike hasked.log)⟩

/-- In a run without reloads the load event is fired once at most, and not at all if the properties
have been loaded before. -/
theorem firesAll_run {s : Session} (h : s.Reached) {commands : List Command}
    (hcommands : ∀ c ∈ commands, c.reloads = false) (hspare : s.SparesAlong commands) :
    ∃ fired, s.FiresAll commands fired ∧
      fired.flatten.count ⟨.loaded, none⟩ ≤ if s.manager.store.loaded then 0 else 1 := by
  induction commands generalizing s with
  | nil => exact ⟨[], rfl, Nat.zero_le _⟩
  | cons c commands ih =>
      obtain ⟨hfirst, hrest⟩ := hspare
      have hown := Command.count_events (hcommands c List.mem_cons_self)
      obtain ⟨later, hlater, hcount⟩ :=
        ih (h.step c) (fun c' hc' => hcommands c' (List.mem_cons_of_mem c hc')) hrest
      have hsplit : ∀ events : List Event, (events :: later).flatten.count ⟨.loaded, none⟩ =
          events.count ⟨.loaded, none⟩ + later.flatten.count ⟨.loaded, none⟩ :=
        fun events => by rw [List.flatten_cons, List.count_append]
      cases hs : s.manager.store.loaded with
      | true =>
          obtain ⟨changed, _, hfires⟩ := fires_of_loaded h hfirst hs c
          refine ⟨_, ⟨_, later, rfl, hfires, hlater⟩, ?_⟩
          have hstill : (s.step c).2.manager.store.loaded = true := (leads_step s c).loaded hs
          rw [hstill] at hcount
          rw [hsplit, hown, Nat.zero_add]
          exact hcount
      | false =>
          rcases fires_of_unloaded h hfirst hs c with
            ⟨hstill, hfires⟩ | ⟨hloaded, _, changed, _, _, hfires⟩
          · refine ⟨_, ⟨_, later, rfl, hfires, hlater⟩, ?_⟩
            rw [hstill] at hcount
            rw [hsplit, List.count_nil, Nat.zero_add]
            exact hcount
          · refine ⟨_, ⟨_, later, rfl, hfires, hlater⟩, ?_⟩
            rw [hloaded] at hcount
            have hnone : later.flatten.count ⟨.loaded, none⟩ = 0 := Nat.le_zero.1 hcount
            rw [hsplit, List.count_append, hown, hnone]
            cases c.waits <;> decide

/-- As long as no listener does more than ask: once the properties have been loaded, each step fires
just the events of its command; before, a step fires nothing, or the first load completes by it, and
the event of the load comes before those of the command; and without reloads there is one load event
at most. -/
theorem fires_command_events {s : Session} (h : s.Reached) (hspare : s.AllSpare true) :
    (s.manager.store.loaded = true → ∀ c, ∃ changed : Bool,
      (changed = true ↔ s.manager.store.Differs (s.step c).1.store) ∧
      s.Fires c (c.events changed (s.step c).1.answer.isOk)) ∧
    (s.manager.store.loaded = false → ∀ c,
      (s.step c).2.manager.store.loaded = false ∧ s.Fires c [] ∨
        (s.step c).2.manager.store.loaded = true ∧
          ∃ (values : Mapping Text Text) (changed : Bool),
            s.disk.tree.readMapping s.manager.path s.manager.format = .ok values ∧
            (changed = true ↔ (s.manager.store.load values).Differs (s.step c).1.store) ∧
            s.Fires c ((if c.waits then [⟨.loaded, none⟩] else []) ++
              c.events changed (s.step c).1.answer.isOk)) ∧
    ∀ commands : List Command, (∀ c ∈ commands, c.reloads = false) → s.SparesAlong commands →
      ∃ fired, s.FiresAll commands fired ∧
        fired.flatten.count ⟨.loaded, none⟩ ≤ if s.manager.store.loaded then 0 else 1 :=
  ⟨fires_of_loaded h hspare, fires_of_unloaded h hspare, fun _ => firesAll_run h⟩

/-- A manager that has not loaded its file, with a listener that asks for a value. -/
def attended : Session :=
  let s := start
    (create {} (.ofText "p.properties") (.ofList [("a", "1")])
      (.standard { name := "Keys", members := [("A", some "1")] }) none none .external)
    { now := .newYear }
  (s.step (.listen "reader" none [.property "A" .get] 9 none)).2

/-- The manager after its first edit, by which it has loaded its file. -/
def attendedLater : Session := (attended.step (.property "A" (.set (some (.text "2"))))).2

theorem fires_command_events_attended :
    let c : Command := .property "A" (.set (some (.text "2")))
    let back : Command := .property "A" .undo
    attended.manager.store.loaded = false ∧ attendedLater.manager.store.loaded = true ∧
      (∃ changed, attended.Fires c (⟨.loaded, none⟩ ::
        c.events changed (attended.step c).1.answer.isOk)) ∧
      (∃ changed, (changed = true ↔
          attendedLater.manager.store.Differs (attendedLater.step back).1.store) ∧
        attendedLater.Fires back (if changed then [⟨.changed, some "A"⟩] else [])) ∧
      ∃ fired, attended.FiresAll [c, back] fired ∧
        fired.flatten.count ⟨.loaded, none⟩ ≤ 1 := by
  have hspares : ∀ s : Session,
      s.reactions.entries = [(("reader" : Text), ⟨[.property "A" .get], 9, none⟩)] →
        s.AllSpare true := by
    intro s hs listener r _ hr c hc
    rw [Mapping.find?_eq_some_iff, hs, List.mem_singleton] at hr
    cases hr
    rw [List.mem_singleton.1 hc]
    rfl
  have hspare : attended.AllSpare true := hspares _ rfl
  have hspare' : attendedLater.AllSpare true := hspares _ (by with_unfolding_all rfl)
  have hreached : attended.Reached := (Reached.start ..).step _
  have hunloaded : attended.manager.store.loaded = false := rfl
  have hloaded : attendedLater.manager.store.loaded = true := by decide +kernel
  obtain ⟨-, hfirst, hrun⟩ := fires_command_events hreached hspare
  obtain ⟨hsecond, -⟩ := fires_command_events (hreached.step _) hspare'
  intro c back
  refine ⟨hunloaded, hloaded, ?_, hsecond hloaded back, ?_⟩
  · rcases hfirst hunloaded c with ⟨hstill, -⟩ | ⟨-, -, changed, -, -, hfires⟩
    · exact absurd (hstill.symm.trans hloaded) Bool.false_ne_true
    · exact ⟨changed, hfires⟩
  · have hreloads : ∀ c' ∈ [c, back], c'.reloads = false := by simp [c, back, Command.reloads]
    obtain ⟨fired, hfired, hcount⟩ := hrun [c, back] hreloads ⟨hspare, hspare', trivial⟩
    rw [hunloaded] at hcount
    exact ⟨fired, hfired, hcount⟩

end Session

end VersionedProperties.Manager
