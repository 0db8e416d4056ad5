import VersionedProperties.Proofs.Manager.LoadGate

/-!
# Managers before their first load

Before a load has completed, a command does no more than its direct work on the store or on the
files (`Kept`), which is none for all that a manager offers to read, change or save properties; or
else the first load completes by it, and whatever the command writes is written after the file has
been read (`Resumed`). If the file is not loaded at the first access, such commands are refused.
-/

namespace VersionedProperties.Manager

/-- What a command does to the store directly, whether it is loaded or not. -/
def Command.onStore (store : Store) : Command → Store
  | .storeSet name value => (store.set? name value).2
  | .storeReset name => (store.resetToDefault name).2
  | .setSavingDefaults b => { store with savingDefaults := b }
  | _ => store

/-- What a command does to the files directly. -/
def Command.onDisk (disk : Disk) : Command → Disk
  | .disk c => (disk.perform c).2
  | _ => disk

open Session

/-- What a command leaves where no load completes: the direct work on the store and on the files. -/
structure Kept (c : Command) (s t : Session) : Prop where
  store : t.manager.store = c.onStore s.manager.store
  disk : t.disk = c.onDisk s.disk
  log : t.log = s.log

theorem Kept.withView {c : Command} {s t : Session} (h : Kept c s t) (k : Key) :
    Kept c s { t with manager := t.manager.withView k } := by
  obtain ⟨_, _, hframe⟩ := t.manager.withView_frame k
  rw [hframe]
  exact ⟨h.store, h.disk, h.log⟩

theorem kept_withKey {c : Command} {s t : Session} {k : Key}
    {f : Session → Except Error Answer × Session} (ht : Kept c s t) (hf : Kept c s (f t).2) :
    Kept c s (withKey t k f).2 := by
  unfold withKey
  split
  · exact hf
  · exact ht

theorem kept_throughView {c : Command} {s t : Session} {k : Key}
    {f : Session → Except Error Answer × Session} (ht : Kept c s t)
    (hf : ∀ t, Kept c s t → Kept c s (f t).2) : Kept c s (throughView t k f).2 := by
  apply kept_withKey ht
  split
  · exact ht
  · exact hf _ (ht.withView k)

theorem kept_atPlace {c : Command} {s t : Session} {place : Option Key}
    {f : Session → Except Error Answer × Session} (ht : Kept c s t)
    (hf : ∀ t, Kept c s t → Kept c s (f t).2) : Kept c s (atPlace t place f).2 := by
  cases place with
  | none => exact hf t ht
  | some k => exact kept_throughView ht hf

theorem kept_useProperty {c : Command} {s t : Session} (call : Calling) (k : Key)
    (ht : Kept c s t) {p : PropertyCommand} (hp : p.waits = false) :
    Kept c s (useProperty call k t p).2 := by
  unfold useProperty
  cases p with
  | defaultRaw => split <;> exact ht
  | invalid e => split <;> exact ht
  | _ => cases hp

theorem kept_withReaction (c : Command) (s : Session) (listener : Text) (r : Reaction)
    (hs : Kept c s s) : Kept c s (s.withReaction listener r) := by
  unfold withReaction
  split
  · exact hs
  · exact ⟨hs.store, hs.disk, hs.log⟩

theorem kept_listen (call : Calling) (s : Session) (listener : Text) (place : Option Key)
    (script : List Command) (limit : Int) (only : Option Text) :
    Kept (.listen listener place script limit only) s
      (perform call s (.listen listener place script limit only)).2 := by
  refine kept_atPlace (kept_withReaction _ s listener _ ⟨rfl, rfl, rfl⟩) fun t ht => ?_
  obtain ⟨_, _, hframe⟩ := t.manager.addListener_frame listener place
  rw [hframe]
  exact ⟨ht.store, ht.disk, ht.log⟩

theorem kept_unlisten (call : Calling) (s : Session) (listener : Text) (place : Option Key) :
    Kept (.unlisten listener place) s (perform call s (.unlisten listener place)).2 := by
  refine kept_atPlace ⟨rfl, rfl, rfl⟩ fun t ht => ?_
  split
  · obtain ⟨_, _, hframe⟩ := t.manager.removeListener_frame listener place
    rw [hframe]
    exact ⟨ht.store, ht.disk, ht.log⟩
  · exact ht

/-- What a command does when the first load completes by it: it is done on the properties as they
have been loaded, unless it is the load itself. -/
inductive Resumed (call : Calling) (t : Session) (values : Mapping Text Text) :
    Command → Except Error Answer × Session → Prop where
  | performed {c : Command} (hc : c.waits = true) :
      Resumed call t values c (perform call (t.afterLoad call values) c)
  | reloaded : Resumed call t values .reload (.ok .nothing, t.afterLoad call values)
  | scheduled : Resumed call t values .scheduleReload
      (.ok (.flag true), { { t with inCallback := true }.afterLoad call values with
        inCallback := t.inCallback })

section BeforeLoad

variable {call : Calling} (hcall : LeadingCalling call)

include hcall

/-- Before the first load a command does its direct work and no more, or the load completes by it,
with the file as it is. -/
theorem kept_or_resumed (c : Command) (s : Session) (hs : s.manager.store.loaded = false) :
    Kept c s (perform call s c).2 ∨
      ∃ (t : Session) (values : Mapping Text Text),
        (t = s ∨ ∃ k, t = { s with manager := s.manager.withView k }) ∧
        s.disk.tree.readMapping s.manager.path s.manager.format = .ok values ∧
        Resumed call t values c (perform call s c) := by
  by_cases hc : c.waits = true
  · have hself : Kept c s s := by
      cases c <;> first | exact ⟨rfl, rfl, rfl⟩ | cases hc
    obtain ⟨t, ht, ⟨e, he⟩ | ⟨values, hread, hok⟩⟩ := perform_waits hcall hc s hs
    · rw [he]
      rcases ht with rfl | ⟨k, rfl⟩
      · exact .inl hself
      · exact .inl (hself.withView k)
    · exact .inr ⟨t, values, ht, hread, hok ▸ .performed hc⟩
  · cases c with
    | reload =>
        rcases await_takeFile call .reloading s with ⟨e, he⟩ | ⟨values, hread, hok⟩
        · rw [perform, reload, he]
          exact .inl ⟨rfl, rfl, rfl⟩
        · rw [perform, reload, hok]
          exact .inr ⟨s, values, .inl rfl, hread, .reloaded⟩
    | scheduleReload =>
        rcases schedule_takeFile call s with ⟨e, he⟩ | ⟨values, hread, hok⟩
        · rw [perform, scheduleReload, he]
          exact .inl ⟨rfl, rfl, rfl⟩
        · rw [perform, scheduleReload, hok]
          exact .inr ⟨s, values, .inl rfl, hread, .scheduled⟩
    | close => exact .inl ⟨rfl, rfl, rfl⟩
    | property k p =>
        exact .inl (kept_withKey ⟨rfl, rfl, rfl⟩
          (kept_useProperty call k ⟨rfl, rfl, rfl⟩ (Bool.eq_false_iff.2 hc)))
    | autoTrim => exact .inl ⟨rfl, rfl, rfl⟩
    | setAutoTrim b => exact .inl ⟨rfl, rfl, rfl⟩
    | savingDefaults => exact .inl ⟨rfl, rfl, rfl⟩
    | setSavingDefaults b => exact .inl ⟨rfl, rfl, rfl⟩
    | comment => exact .inl ⟨rfl, rfl, rfl⟩
    | setComment comment => exact .inl ⟨rfl, rfl, rfl⟩
    | path => exact .inl ⟨rfl, rfl, rfl⟩
    | format => exact .inl ⟨rfl, rfl, rfl⟩
    | evaluator => exact .inl ⟨rfl, rfl, rfl⟩
    | storeSet name value => exact .inl ⟨rfl, rfl, rfl⟩
    | storeReset name => exact .inl ⟨rfl, rfl, rfl⟩
    | storeHistory name => exact .inl ⟨rfl, rfl, rfl⟩
    | view k p =>
        exact .inl (kept_throughView ⟨rfl, rfl, rfl⟩ fun t ht =>
          kept_useProperty call k ht (Bool.eq_false_iff.2 hc))
    | askView k question => exact .inl (kept_throughView ⟨rfl, rfl, rfl⟩ fun _ ht => ht)
    | sameView first second =>
        exact .inl (kept_throughView ⟨rfl, rfl, rfl⟩ fun _ ht => kept_throughView ht fun _ ht => ht)
    | listen listener place script limit only =>
        exact .inl (kept_listen call s listener place script limit only)
    | unlisten listener place => exact .inl (kept_unlisten call s listener place)
    | externalUsable => exact .inl ⟨rfl, rfl, rfl⟩
    | disk c => exact .inl ⟨rfl, rfl, rfl⟩
    | raise message => exact .inl ⟨rfl, rfl, rfl⟩
    | _ => exact absurd rfl hc

theorem Resumed.loaded {c : Command} {t : Session} {values : Mapping Text Text}
    {r : Except Error Answer × Session} (h : Resumed call t values c r) :
    r.2.manager.store.loaded = true := by
  cases h with
  | performed hc => exact (leads_perform hcall _ c).loaded (loaded_afterLoad hcall t values)
  | reloaded => exact loaded_afterLoad hcall t values
  | scheduled => exact loaded_afterLoad hcall { t with inCallback := true } values

end BeforeLoad

theorem loaded_onStore (store : Store) (c : Command) : (c.onStore store).loaded = store.loaded := by
  cases c with
  | storeSet name value =>
      cases value with
      | none => rfl
      | some value => exact (store.edited_set name value).loaded_eq
  | storeReset name =>
      simp only [Command.onStore, Store.resetToDefault]
      split
      · exact (store.edited_set name _).loaded_eq
      · split <;> rfl
  | _ => rfl

namespace Session

theorem loaded_run {s : Session} (hs : s.manager.store.loaded = true) (commands : List Command) :
    (s.run commands).2.manager.store.loaded = true :=
  (leads_run s commands).loaded hs

/-- As long as no load has completed, a run does nothing but the direct work on the store and on the
files, and no listener is called. -/
theorem run_before_load (s : Session) (hs : s.manager.store.loaded = false)
    (commands : List Command) (hstill : (s.run commands).2.manager.store.loaded = false) :
    (s.run commands).2.manager.store = commands.foldl Command.onStore s.manager.store ∧
      (s.run commands).2.disk = commands.foldl Command.onDisk s.disk ∧
      ∀ report ∈ (s.run commands).1, report.calls = [] := by
  induction commands generalizing s with
  | nil => exact ⟨rfl, rfl, fun _ h => nomatch h⟩
  | cons c commands ih =>
      let s₀ : Session := { s with log := [] }
      have hcall := leadingCalling_callWithin (s.stepDepth c)
      rcases kept_or_resumed hcall c s₀ hs with hkept | ⟨t, values, _, _, hresumed⟩
      · have hfirst : (s.step c).2.manager.store.loaded = false := by
          have hstore : (s.step c).2.manager.store = c.onStore s.manager.store := hkept.store
          rw [hstore, loaded_onStore, hs]
        obtain ⟨hstore, hdisk, hcalls⟩ := ih (s.step c).2 hfirst hstill
        refine ⟨hstore.trans ?_, hdisk.trans ?_, ?_⟩
        · exact congrArg (commands.foldl Command.onStore) hkept.store
        · exact congrArg (commands.foldl Command.onDisk) hkept.disk
        · intro report hreport
          rcases List.mem_cons.1 hreport with rfl | hlater
          · exact hkept.log
          · exact hcalls report hlater
      · have hloaded := loaded_run (s := (s.step c).2) (hresumed.loaded hcall) commands
        exact absurd (hstill.symm.trans hloaded) Bool.false_ne_true

end Session

/-! Managers that do not load by themselves -/

/-- An operation on a property that needs its value, on keys that are declared. -/
def PropertyCommand.Needs (keys : List Key) : PropertyCommand → Prop
  | .defaultRaw | .invalid _ => False
  | .dependsOn other => other ∈ keys
  | _ => True

/-- A command that needs the properties to be loaded and is no load, on keys that are declared. -/
def Command.Needs (keys : List Key) : Command → Prop
  | .property k c => k ∈ keys ∧ c.Needs keys
  | .save | .scheduleSave | .resetAll | .isModified | .keySet | .properties => True
  | _ => False

/-- The error of storing a value where properties have not been loaded from a path. A value that has
no text is found out first. -/
def refusalOfValue (path : Text) (value : Option TypedValue) : Error :=
  match TypedValue.stored? value with
  | .error e => e
  | .ok _ => .notLoaded path

/-- The error of an operation on a property that has not been loaded from a path. -/
def PropertyCommand.refusal (path : Text) : PropertyCommand → Error
  | .set value | .save value => refusalOfValue path value
  | _ => .notLoaded path

/-- The error of a command on properties that have not been loaded from a path. -/
def Command.refusal (path : Text) : Command → Error
  | .property _ c => c.refusal path
  | _ => .notLoaded path

section NoAutoLoad

variable {call : Calling} {s : Session} (hs : s.manager.store.loaded = false)
  (hauto : s.manager.autoLoad = false)

include hs hauto

theorem onceLoaded_refused {α : Type} (operation : Session → Except Error α × Session) :
    s.onceLoaded call operation = (.error (.notLoaded s.manager.path.toText), s) := by
  rw [onceLoaded, ensureLoaded, if_neg (Bool.eq_false_iff.1 hs),
    if_neg (Bool.eq_false_iff.1 hauto)]

theorem answered_refused {α : Type} (f : α → Answer)
    (operation : Session → Except Error α × Session) :
    answered f (s.onceLoaded call operation) = (.error (.notLoaded s.manager.path.toText), s) := by
  rw [onceLoaded_refused hs hauto]
  rfl

theorem set_refused (k : Key) (value : Option TypedValue) :
    s.set call k value = (.error (refusalOfValue s.manager.path.toText value), s) := by
  unfold Session.set refusalOfValue
  cases TypedValue.stored? value with
  | error e => rfl
  | ok text => exact onceLoaded_refused hs hauto _

theorem useProperty_refused (k : Key) {c : PropertyCommand}
    (hc : c.Needs s.manager.naming.type.keys) :
    useProperty call k s c = (.error (c.refusal s.manager.path.toText), s) := by
  have hquery : ∀ {α : Type} (f : Manager → Except Error α × Manager),
      s.query call f = (.error (.notLoaded s.manager.path.toText), s) :=
    fun f => onceLoaded_refused hs hauto _
  unfold useProperty
  split
  · rename_i fault _
    have hstored : ∀ value, failProperty call fault s (.set value) =
        (.error (refusalOfValue s.manager.path.toText value), s) := by
      intro value
      unfold failProperty refusalOfValue
      dsimp only
      cases TypedValue.stored? value with
      | error e => rfl
      | ok text => exact hquery _
    cases c with
    | defaultRaw => cases hc
    | invalid e => cases hc
    | set value => exact hstored value
    | save value => exact hstored value
    | dependsOn other =>
        have hother : other ∈ s.manager.naming.type.keys := hc
        rw [failProperty, withKey, if_pos hother]
        exact hquery _
    | _ => exact hquery _
  · cases c with
    | defaultRaw => cases hc
    | invalid e => cases hc
    | set value =>
        rw [performProperty, set_refused hs hauto]
        rfl
    | save value =>
        rw [performProperty, saveProperty, set_refused hs hauto]
        rfl
    | dependsOn other =>
        have hother : other ∈ s.manager.naming.type.keys := hc
        rw [performProperty, withKey, if_pos hother]
        exact answered_refused hs hauto _ _
    | _ => exact answered_refused hs hauto _ _

variable (call) in
/-- What needs the properties is refused where they are not loaded at the first access. -/
theorem perform_refused {c : Command} (hc : c.Needs s.manager.naming.type.keys) :
    perform call s c = (.error (c.refusal s.manager.path.toText), s) := by
  cases c with
  | property k c =>
      rw [perform, withKey, if_pos hc.1]
      exact useProperty_refused hs hauto k hc.2
  | save => exact answered_refused hs hauto _ _
  | scheduleSave => exact answered_refused hs hauto _ _
  | resetAll => exact answered_refused hs hauto _ _
  | isModified => exact answered_refused hs hauto _ _
  | keySet => exact answered_refused hs hauto _ _
  | properties => exact answered_refused hs hauto _ _
  | _ => cases hc

end NoAutoLoad

namespace Session

/-- Before its first load has completed a manager writes no file, changes no value and calls no
listener: the store and the files are changed by direct work on them alone, and the step by which
the load completes reads the file as it is and does everything else on what it has read. Without
loading at the first access, whatever needs the properties is refused. -/
theorem load_gate (s : Session) (hs : s.manager.store.loaded = false) :
    (∀ commands, (s.run commands).2.manager.store.loaded = false →
      (s.run commands).2.manager.store = commands.foldl Command.onStore s.manager.store ∧
      (s.run commands).2.disk = commands.foldl Command.onDisk s.disk ∧
      ∀ report ∈ (s.run commands).1, report.calls = []) ∧
    (∀ c, (s.step c).2.manager.store.loaded = true →
      ∃ (depth : Nat) (t : Session) (values : Mapping Text Text),
        (t = { s with log := [] } ∨
          ∃ k, t = { s with manager := s.manager.withView k, log := [] }) ∧
        s.disk.tree.readMapping s.manager.path s.manager.format = .ok values ∧
        Resumed (callWithin depth) t values c ((s.step c).1.answer, (s.step c).2)) ∧
    (s.manager.autoLoad = false → ∀ c : Command, c.Needs s.manager.naming.type.keys →
      s.step c = (⟨.error (c.refusal s.manager.path.toText), [], s.manager.store⟩,
        { s with log := [] })) := by
  let s₀ : Session := { s with log := [] }
  refine ⟨run_before_load s hs, ?_, ?_⟩
  · intro c hloaded
    have hcall := leadingCalling_callWithin (s.stepDepth c)
    rcases kept_or_resumed hcall c s₀ hs with hkept | ⟨t, values, ht, hread, hresumed⟩
    · have hstore : (s.step c).2.manager.store = c.onStore s.manager.store := hkept.store
      rw [hstore, loaded_onStore, hs] at hloaded
      cases hloaded
    · exact ⟨s.stepDepth c, t, values, ht, hread, hresumed⟩
  · intro hauto c hc
    exact step_of_perform (perform_refused (callWithin (s.stepDepth c)) (s := s₀) hs hauto hc)

/-- A manager with one key that does not load its file by itself. -/
def waiting : Session :=
  start (create { autoLoad := false } (.ofText "p.properties") .empty
    (.standard { name := "Keys", members := [("A", none)] }) none none .external)
    { now := .newYear }

theorem load_gate_waiting :
    let commands : List Command :=
      [.property "A" (.set (some (.text "1"))), .property "A" (.save none), .scheduleSave]
    waiting.manager.store.loaded = false ∧
      (waiting.run commands).2.manager.store = waiting.manager.store ∧
      (waiting.run commands).2.disk = waiting.disk ∧
      (waiting.step .save).1.answer = .error (.notLoaded "p.properties") ∧
      (waiting.step .load).2.manager.store.loaded = true ∧
      ∃ values, waiting.disk.tree.readMapping waiting.manager.path waiting.manager.format =
        .ok values := by
  intro commands
  obtain ⟨hbefore, hload, hrefused⟩ := load_gate waiting rfl
  have hstill : (waiting.run commands).2.manager.store.loaded = false := rfl
  have hloaded : (waiting.step .load).2.manager.store.loaded = true := rfl
  have hpath : waiting.manager.path.toText = ("p.properties" : Text) := rfl
  obtain ⟨hstore, hdisk, _⟩ := hbefore commands hstill
  obtain ⟨_, _, values, _, hread, _⟩ := hload .load hloaded
  refine ⟨rfl, hstore, hdisk, ?_, hloaded, values, hread⟩
  rw [hrefused rfl .save trivial, ← hpath]
  rfl

theorem stored_tooLong :
    TypedValue.stored? (some (.integer (.pow 10 4300))) = .error (.numeral .tooLong) := by
  have hlong : Numeral.maxDigits < (Numeral.decimal (Int.pow 10 4300).natAbs).length := by
    decide +kernel
  rw [TypedValue.stored?, TypedValue.stored, Numeral.writeInteger?, if_pos hlong]
  rfl

/-- The text of a value is made before the gate: an integer of 4301 digits is refused for its
length, and not because nothing has been loaded. -/
theorem set_tooLong_waiting :
    let answer := (waiting.step (.property "A" (.set (some (.integer (.pow 10 4300)))))).1.answer
    waiting.manager.store.loaded = false ∧ waiting.manager.autoLoad = false ∧
      ("A" : Key) ∈ waiting.manager.naming.type.keys ∧
      answer = .error (.numeral .tooLong) ∧
      answer ≠ .error (.notLoaded waiting.manager.path.toText) := by
  intro answer
  have hkey : ("A" : Key) ∈ waiting.manager.naming.type.keys := by decide
  have hanswer : answer = .error (.numeral .tooLong) := by
    have hneeds : (Command.property "A" (.set (some (.integer (.pow 10 4300))))).Needs
        waiting.manager.naming.type.keys := ⟨hkey, trivial⟩
    have hrefused := perform_refused (callWithin 1) (s := waiting) rfl rfl hneeds
    have hsame : answer = (Manager.perform (callWithin 1) waiting
        (.property "A" (.set (some (.integer (.pow 10 4300)))))).1 := rfl
    rw [hsame, hrefused]
    simp only [Command.refusal, PropertyCommand.refusal, refusalOfValue, stored_tooLong]
  refine ⟨rfl, rfl, hkey, hanswer, ?_⟩
  rw [hanswer]
  exact fun h => Error.noConfusion (Except.error.inj h)

end Session

end VersionedProperties.Manager
