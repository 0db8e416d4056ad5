import VersionedProperties.Proofs.Manager.Relevance
import VersionedProperties.Proofs.Numeral.Decimal
import VersionedProperties.Proofs.Reference.Template
import VersionedProperties.Proofs.Text.Blank

/-!
# What is read after a value has been set

A value that is set is stored as a text, and read through trimming, the expansion of references, the
cache and a parser. Setting it makes the text current, whatever the history of the name was, and a
question afterwards is answered from this text and the settings of the manager alone: what a cache
may show has been computed from it. The text of an integer and of a truth value holds neither a
blank nor a marker, so it gets to the parser as it was written.

Where the names of the keys cannot be told, every one of these operations answers with the fault.
-/

namespace VersionedProperties

namespace Store

variable {s : Store}

/-- A value that is set is current. -/
theorem get_set (hs : s.IsRegular) (name value : Text) :
    (s.set name value).2.get name = some value := by
  have hhistory := s.history?_apply (.set name value) name
  rw [Change.effect, Effect.only_self] at hhistory
  rw [get]
  change ((s.apply (.set name value)).history? name).map History.current = some value
  rw [hhistory]
  cases hh : s.history? name with
  | none => rfl
  | some h => exact congrArg some (History.current_push (hs name h hh).inRange value)

/-- Whether setting a value changes anything is told by the value before. -/
theorem set_fst (s : Store) (name value : Text) :
    (s.set name value).1 = decide (s.get name ≠ some value) := by
  rw [set, get]
  cases hh : s.history? name with
  | none => rfl
  | some h =>
      dsimp only [Option.map_some]
      by_cases hv : value = h.current
      · rw [History.accepts, if_neg (by simpa using hv), hv]
        simp
      · rw [History.accepts, if_pos (by simpa using hv)]
        simpa using Ne.symm hv

end Store

namespace Manager

/-- An answer about a key, or the fault of telling the names of keys. -/
def told (m : Manager) (answer : Except Error Answer) : Except Error Answer :=
  match m.naming.type.faults.name with
  | some fault => .error fault
  | none => answer

section Parsing

variable {m : Manager} (k : Key)

theorem parsed_fst {α : Type} (parse : Text → Except Error α) :
    (m.parsed k parse).1 = (m.required k).1.bind (m.parsedOrDefault k parse) := by
  have huncached := m.uncached_required k
  have hsame : (m.required k).2.parsedOrDefault k parse = m.parsedOrDefault k parse :=
    (congrArg (fun m : Manager => m.parsedOrDefault k parse) huncached :)
  rw [parsed_eq, tryThen]
  rcases hrequired : m.required k with ⟨_ | value, m'⟩
  · rfl
  · rw [hrequired] at hsame
    exact congrFun hsame value

/-- A value that is required is the value that is expanded, not one that a cache is left with. -/
theorem required_fst (hm : m.CachesSound) : (m.required k).1 =
    (m.evaluated k).bind fun value => value.elim (.error (.unknownProperty (m.nameOf k))) .ok := by
  rw [← get_eq_evaluated hm, required]
  have hsame : (m.get k).2.nameOf k = m.nameOf k := rfl
  rcases hget : m.get k with ⟨_ | _ | _, m'⟩
  · rfl
  · rw [hget] at hsame
    dsimp only [Except.bind, Option.elim]
    rw [hsame]
  · rfl

end Parsing

namespace Session

/-- A loaded session in which a declared key can be set without the listeners that hear of it doing
more than asking. -/
structure IsQuiet (s : Session) (k : Key) : Prop where
  reached : s.Reached
  loaded : s.manager.store.loaded = true
  declared : k ∈ s.manager.naming.type.keys
  spares : s.SparesAt true ⟨.changed, some k⟩

/-- The second session reads values as the first does, and has a text stored for a key. -/
structure Stores (k : Key) (text : Text) (s t : Session) : Prop where
  loaded : t.manager.store.loaded = true
  cachesSound : t.manager.CachesSound
  naming : t.manager.naming = s.manager.naming
  evaluator : t.manager.evaluator = s.manager.evaluator
  autoTrim : t.manager.autoTrim = s.manager.autoTrim
  value : s.manager.naming.type.faults.name = none →
    t.manager.store.get (s.manager.nameOf k) = some text

variable {s t u : Session} {k : Key} {text : Text}

theorem Stores.of_spared (h : Stores k text s t) (hspared : Spared true t u)
    (hcaches : u.manager.CachesSound) : Stores k text s u where
  loaded := hspared.loaded h.loaded
  cachesSound := hcaches
  naming := hspared.naming.trans h.naming
  evaluator := hspared.evaluator.trans h.evaluator
  autoTrim := hspared.autoTrim.trans h.autoTrim
  value htold := by rw [hspared.store, h.value htold]

/-- A question spares the properties and the listeners. -/
theorem spared_step (hs : s.manager.store.loaded = true) {c : Command} {files : Bool}
    (hc : c.spares files = true) : Spared files s (s.step c).2 := by
  have hasked : Asked files { s with log := [] }
      (Manager.perform (callWithin (s.stepDepth c)) { s with log := [] } c).2 :=
    asked_perform _ (s := { s with log := [] }) hs hc
  exact hasked.toSpared.withNotes s.log _ s.inCallback _

/-- A session that is quiet stays so while it is asked. -/
theorem IsQuiet.step (h : s.IsQuiet k) {c : Command} (hc : c.spares true = true) :
    (s.step c).2.IsQuiet k where
  reached := h.reached.step c
  loaded := (spared_step h.loaded hc).loaded h.loaded
  declared := by
    rw [(spared_step h.loaded hc).naming]
    exact h.declared
  spares := h.spares.of_spared (spared_step h.loaded hc)

theorem Stores.step (h : Stores k text s t) {c : Command} (hc : c.spares true = true) :
    Stores k text s (t.step c).2 :=
  h.of_spared (spared_step h.loaded hc) ((transparent_step c).keeps t h.cachesSound)

theorem Stores.run (h : Stores k text s t) {questions : List Command}
    (hquestions : ∀ c ∈ questions, c.spares true = true) :
    Stores k text s (t.run questions).2 := by
  induction questions generalizing t with
  | nil => exact h
  | cons c questions ih =>
      rw [List.forall_mem_cons] at hquestions
      exact ih (h.step hquestions.1) hquestions.2

section Setting

variable (call : Calling) {v : TypedValue}

/-- Setting a value changes nothing where the names of the keys cannot be told. -/
theorem perform_set_of_fault (hs : s.manager.store.loaded = true)
    (hk : k ∈ s.manager.naming.type.keys) (hv : v.stored = .ok text) {fault : Error}
    (hfault : s.manager.naming.type.faults.name = some fault) :
    Manager.perform call s (.property k (.set (some v))) = (.error fault, s) := by
  have hstored : TypedValue.stored? (some v) = .ok text := hv
  simp only [Manager.perform, withKey, if_pos hk, useProperty, hfault, failProperty, hstored,
    query, onceLoaded_of_loaded hs]
  rfl

theorem perform_set (hs : s.manager.store.loaded = true) (hk : k ∈ s.manager.naming.type.keys)
    (hv : v.stored = .ok text) (htold : s.manager.naming.type.faults.name = none) :
    Manager.perform call s (.property k (.set (some v))) =
      (.ok (.flag (s.manager.store.set (s.manager.nameOf k) text).1),
        s.settle call (s.manager.store.set (s.manager.nameOf k) text).1
          (s.manager.store.set (s.manager.nameOf k) text).2 ⟨.changed, some k⟩) := by
  have hstored : TypedValue.stored? (some v) = .ok text := hv
  simp only [Manager.perform, withKey, if_pos hk, useProperty, htold, performProperty, set, hstored,
    answered, onceLoaded_of_loaded hs]
  rfl

/-- Listeners that only ask leave the properties as they have been settled. -/
theorem spared_settle (depth : Nat) (changed : Bool) {store : Store} {ev : Event}
    (hloaded : store.loaded = true) (hspares : s.SparesAt true ev) :
    Spared true (s.withStore store) (s.settle (callWithin depth) changed store ev) := by
  unfold settle
  split
  · exact spared_fire_at _ (s := s.withStore store) hloaded hspares
  · exact .refl _

/-- Setting a value stores its text. The answer tells whether the text was another before. -/
theorem IsQuiet.stores_set (h : s.IsQuiet k) (hv : v.stored = .ok text) :
    (s.step (.property k (.set (some v)))).1.answer =
        s.manager.told (.ok (.flag (s.manager.store.get (s.manager.nameOf k) ≠ some text))) ∧
      Stores k text s (s.step (.property k (.set (some v)))).2 := by
  let c : Command := .property k (.set (some v))
  let s₀ : Session := { s with log := [] }
  have hcaches : (s.step c).2.manager.CachesSound := (h.reached.step c).cachesSound
  cases hfault : s.manager.naming.type.faults.name with
  | some fault =>
      have hperform := perform_set_of_fault (s := s₀) (callWithin (s.stepDepth c))
        h.loaded h.declared hv hfault
      rw [step_of_perform hperform] at hcaches ⊢
      refine ⟨?_, ⟨h.loaded, hcaches, rfl, rfl, rfl, fun htold => ?_⟩⟩
      · rw [told, hfault]
      · rw [hfault] at htold
        cases htold
  | none =>
      let name := s.manager.nameOf k
      have hperform := perform_set (s := s₀) (callWithin (s.stepDepth c)) h.loaded h.declared hv
        hfault
      have hloaded : (s.manager.store.set name text).2.loaded = true :=
        Store.loaded_apply h.loaded (.set name text)
      have hspared := spared_settle (s := s₀) (s.stepDepth c) (s.manager.store.set name text).1
        hloaded h.spares
      rw [step_of_perform hperform] at hcaches ⊢
      refine ⟨?_, ⟨hspared.loaded hloaded, hcaches, hspared.naming, hspared.evaluator,
        hspared.autoTrim, fun _ => ?_⟩⟩
      · rw [told, hfault, Store.set_fst]
      · refine (congrArg (Store.get · name) hspared.store).trans ?_
        exact Store.get_set h.reached.isRegular name text

end Setting

section Reading

/-- A question about a key is answered by what the manager reads. -/
def Reads (question : PropertyCommand) (k : Key) (read : Manager → Except Error Answer) : Prop :=
  ∀ s : Session, s.manager.store.loaded = true → k ∈ s.manager.naming.type.keys →
    (s.step (.property k question)).1.answer = s.manager.told (read s.manager)

theorem reads_of_query {question : PropertyCommand} {α : Type} {g : α → Answer}
    {f : Manager → Except Error α × Manager}
    (hperform : ∀ call s, performProperty call k s question = answered g (s.query call f))
    (hfail : ∀ call fault s,
      failProperty call fault s question = s.query call fun m => (.error fault, m)) :
    Reads question k fun m => (f m).1.map g := by
  intro s hs hk
  have hquery : ∀ {β : Type} (call : Calling) (f : Manager → Except Error β × Manager),
      ({ s with log := [] } : Session).query call f =
        ({ s with log := [] } : Session).withManager (f s.manager) :=
    fun call f => onceLoaded_of_loaded (s := { s with log := [] }) hs _
  simp only [step, perform, Manager.perform, withKey, if_pos hk, useProperty, told]
  cases s.manager.naming.type.faults.name with
  | some fault =>
      simp only [hfail, hquery]
      rfl
  | none =>
      simp only [hperform, hquery]
      rfl

theorem reads_raw (k : Key) : Reads .raw k fun m => .ok (.value (m.raw k)) :=
  reads_of_query (f := fun m => (.ok (m.raw k), m)) (fun _ _ => rfl) fun _ _ _ => rfl

theorem reads_get (k : Key) : Reads .get k fun m => (m.get k).1.map .value :=
  reads_of_query (fun _ _ => rfl) fun _ _ _ => rfl

theorem reads_boolean (k : Key) : Reads .boolean k fun m => (m.getBoolean k).1.map .flag :=
  reads_of_query (fun _ _ => rfl) fun _ _ _ => rfl

theorem reads_integer (k : Key) : Reads .integer k fun m => (m.getInteger k).1.map .integer :=
  reads_of_query (fun _ _ => rfl) fun _ _ _ => rfl

/-- The answer where the value of a key is the text of an integer. -/
theorem IsQuiet.answer_integer (h : s.IsQuiet k) (htold : s.manager.naming.type.faults.name = none)
    (hvalue : s.manager.evaluated k = .ok (some text)) {n : Int} (hn : parseInteger text = .ok n) :
    (s.step (.property k .integer)).1.answer = .ok (.integer n) := by
  rw [reads_integer k s h.loaded h.declared, told, htold]
  change (s.manager.getInteger k).1.map Answer.integer = _
  rw [getInteger, parsed_fst, required_fst k h.reached.cachesSound, hvalue]
  change (s.manager.parsedOrDefault k parseInteger text).map Answer.integer = _
  rw [parsedOrDefault, hn]
  rfl

theorem Stores.raw_eq (h : Stores k text s t)
    (htold : s.manager.naming.type.faults.name = none) :
    t.manager.raw k = some (s.manager.trimmed text) := by
  have hvalue := h.value htold
  rw [Manager.nameOf, ← h.naming] at hvalue
  rw [Manager.raw, retrieve, Manager.nameOf, hvalue, Option.map_some, Manager.trimmed,
    Manager.trimmed, h.autoTrim]

/-- The value of a key is the expansion of its text. -/
theorem Stores.evaluated_eq (h : Stores k text s t)
    (htold : s.manager.naming.type.faults.name = none) :
    t.manager.evaluated k = ((s.manager.evaluator.evaluate t.manager.retrieve
      (some (s.manager.nameOf k)) (s.manager.trimmed text)).map some).mapError .evaluation := by
  have hname : t.manager.nameOf k = s.manager.nameOf k := by
    rw [Manager.nameOf, h.naming, Manager.nameOf]
  rw [Manager.evaluated, h.raw_eq htold, hname, expanded, h.evaluator]
  rfl

theorem Stores.required_eq (h : Stores k text s t)
    (htold : s.manager.naming.type.faults.name = none) :
    (t.manager.required k).1 = (s.manager.evaluator.evaluate t.manager.retrieve
      (some (s.manager.nameOf k)) (s.manager.trimmed text)).mapError .evaluation := by
  rw [required_fst k h.cachesSound, h.evaluated_eq htold]
  cases s.manager.evaluator.evaluate t.manager.retrieve (some (s.manager.nameOf k))
    (s.manager.trimmed text) <;> rfl

/-- In a session that stores a text, a question has the answer that is read off the text, if the
names of keys can be told. -/
theorem Stores.answer (h : Stores k text s t) (hk : k ∈ s.manager.naming.type.keys)
    {question : PropertyCommand} {read : Manager → Except Error Answer}
    (hreads : Reads question k read) {answer : Except Error Answer}
    (hanswer : s.manager.naming.type.faults.name = none → read t.manager = answer) :
    (t.step (.property k question)).1.answer = s.manager.told answer := by
  have hk' : k ∈ t.manager.naming.type.keys := by rwa [h.naming]
  rw [hreads t h.loaded hk', told, told, h.naming]
  cases hfault : s.manager.naming.type.faults.name with
  | some fault => rfl
  | none => exact hanswer hfault

end Reading

end Session

end Manager

/-- A text is read as it is stored if it holds neither a blank nor a marker. -/
def Text.IsVerbatim (t : Text) : Prop := ∀ c ∈ t, c.isBlank = false ∧ c ≠ .marker

instance : DecidablePred Text.IsVerbatim :=
  fun t => inferInstanceAs (Decidable (∀ c ∈ t, c.isBlank = false ∧ c ≠ .marker))

theorem isVerbatim_writeInteger (n : Int) : Text.IsVerbatim (Numeral.writeInteger n) := by
  intro c hc
  obtain ⟨hleast, hgreatest⟩ := Numeral.mem_writeInteger hc
  constructor
  · simp only [CodePoint.isBlank, blankRanges, Ranges.has_cons, Ranges.has_nil, Bool.or_false,
      Bool.or_eq_false_iff, Bool.and_eq_false_iff, decide_eq_false_iff_not]
    omega
  · rintro rfl
    exact absurd hleast (by decide)

theorem isVerbatim_flag (b : Bool) : Text.IsVerbatim (if b then "true" else "false") := by
  cases b <;> decide

namespace Text.IsVerbatim

variable {t : Text} (ht : t.IsVerbatim)

include ht

theorem trim_eq : trim t = t := trim_eq_self fun c hc => (ht c hc).1

theorem trimmed_eq (m : Manager) : m.trimmed t = t := by
  rw [Manager.trimmed, ht.trim_eq, ite_self]

theorem evaluate_eq (e : Evaluator) (lookup : Text → Option Text) (name : Option Text) :
    e.evaluate lookup name t = .ok t :=
  Template.evaluate_of_not_mem e lookup name fun hmarker => (ht _ hmarker).2 rfl

end Text.IsVerbatim

theorem parseInteger_writeInteger {n : Int}
    (hn : (Numeral.decimal n.natAbs).length ≤ Numeral.maxDigits) :
    parseInteger (Numeral.writeInteger n) = .ok n := by
  rw [parseInteger, (isVerbatim_writeInteger n).trim_eq, Numeral.readInteger_writeInteger hn]
  rfl

theorem parseBoolean_flag (b : Bool) : parseBoolean (if b then "true" else "false") = b := by
  cases b <;> decide

namespace Manager.Session

variable {s t : Session} {k : Key} {text : Text}

/-- A value that is set for a key is stored as a text and read back as this text, and a typed
question gives an answer, whatever is asked in between. -/
structure ReadsBack (s : Session) (k : Key) (v : TypedValue) (text : Text)
    (question : PropertyCommand) (answer : Answer) : Prop where
  set : (s.step (.property k (.set (some v)))).1.answer =
    s.manager.told (.ok (.flag (s.manager.store.get (s.manager.nameOf k) ≠ some text)))
  asked : ∀ questions : List Command, (∀ c ∈ questions, c.spares true = true) →
    let t := ((s.step (.property k (.set (some v)))).2.run questions).2
    (t.step (.property k .raw)).1.answer = s.manager.told (.ok (.value (some text))) ∧
      (t.step (.property k .get)).1.answer = s.manager.told (.ok (.value (some text))) ∧
      (t.step (.property k question)).1.answer = s.manager.told (.ok answer)

/-- What is stored verbatim is read back. -/
theorem IsQuiet.readsBack (h : s.IsQuiet k) {v : TypedValue} (hv : v.stored = .ok text)
    (htext : text.IsVerbatim) {question : PropertyCommand} {read : Manager → Except Error Answer}
    (hreads : Reads question k read) {answer : Answer}
    (hanswer : ∀ m : Manager, (m.required k).1 = .ok text → read m = .ok answer) :
    s.ReadsBack k v text question answer := by
  obtain ⟨hset, hstores⟩ := h.stores_set hv
  refine ⟨hset, fun questions hquestions => ?_⟩
  have ht := hstores.run hquestions
  refine ⟨ht.answer h.declared (reads_raw k) ?_, ht.answer h.declared (reads_get k) ?_,
    ht.answer h.declared hreads ?_⟩
  · intro htold
    rw [ht.raw_eq htold, htext.trimmed_eq]
  · intro htold
    rw [get_eq_evaluated ht.cachesSound, ht.evaluated_eq htold, htext.trimmed_eq,
      htext.evaluate_eq]
    rfl
  · intro htold
    apply hanswer
    rw [ht.required_eq htold, htext.trimmed_eq, htext.evaluate_eq]
    rfl

/-- What is stored verbatim gets to the parser as it is. -/
theorem Stores.answer_parsed (h : Stores k text s t) (hk : k ∈ s.manager.naming.type.keys)
    (htext : text.IsVerbatim) {question : PropertyCommand} {α : Type} {g : α → Answer}
    {parse : Text → Except Error α}
    (hreads : Reads question k fun m => (m.parsed k parse).1.map g) :
    (t.step (.property k question)).1.answer =
      s.manager.told ((t.manager.parsedOrDefault k parse text).map g) := by
  apply h.answer hk hreads
  intro htold
  rw [parsed_fst, h.required_eq htold, htext.trimmed_eq, htext.evaluate_eq]
  rfl

/-- An integer of no more than the greatest number of digits is stored as its decimal text and read
back as the integer, and a truth value is read back as itself, whatever the properties, their
histories and the caches were before and whether the text was another before or the same. -/
theorem integers_and_flags_read_back (h : s.IsQuiet k) :
    (∀ n : Int, (Numeral.decimal n.natAbs).length ≤ Numeral.maxDigits →
        s.ReadsBack k (.integer n) (Numeral.writeInteger n) .integer (.integer n)) ∧
      ∀ b : Bool, s.ReadsBack k (.boolean b) (if b then "true" else "false") .boolean (.flag b) := by
  constructor
  · intro n hn
    have hstored : TypedValue.stored (.integer n) = .ok (Numeral.writeInteger n) := by
      rw [TypedValue.stored, Numeral.writeInteger?_eq_ok hn]
      rfl
    apply h.readsBack hstored (isVerbatim_writeInteger n) (reads_integer k)
    intro m hm
    rw [getInteger, parsed_fst, hm]
    change (m.parsedOrDefault k parseInteger (Numeral.writeInteger n)).map Answer.integer = _
    rw [parsedOrDefault, parseInteger_writeInteger hn]
    rfl
  · intro b
    apply h.readsBack rfl (isVerbatim_flag b) (reads_boolean k)
    intro m hm
    have hread : (m.getBoolean k).1 = (m.required k).1.map parseBoolean := rfl
    rw [hread, hm]
    change Except.ok (Answer.flag (parseBoolean _)) = _
    rw [parseBoolean_flag]

/-- A session in which the value of a key refers to another and has been read as a number, and in
which a listener reads it at every event and raises an error. -/
def rereading : Session :=
  let type : KeyType := { name := "Keys", members := [("A", some "$\x7bb\x7d"), ("B", some " 7 ")] }
  let m := create {} (.ofText "numbers.properties")
    (.ofList [("a", "$\x7bb\x7d"), ("b", " 7 ")]) (.standard type) none none .external
  let s := start m { now := .newYear }
  let s := s.withStore (s.manager.store.after [.load .empty])
  let s := (s.step (.listen "reader" none [.property "A" .get, .raise "busy"] 9 none)).2
  (s.step (.property "A" .integer)).2

/-- Before the value was read, the session was quiet and the value of the key was a number. -/
theorem exists_step_rereading : ∃ s : Session,
    rereading = (s.step (.property "A" .integer)).2 ∧ s.IsQuiet "A" ∧
      s.manager.naming.type.faults.name = none ∧
      s.manager.evaluated "A" = .ok (some ("7" : Text)) := by
  refine ⟨_, rfl, ⟨((Reached.start ..).changes _).step _, rfl, by decide +kernel, ?_⟩, rfl, ?_⟩
  · intro listener r _ hr _ c hc
    have hreaction : (listener, r) ∈
        [(("reader" : Text), Reaction.mk [.property "A" .get, .raise "busy"] 9 none)] :=
      Mapping.find?_eq_some_iff.1 hr
    cases List.mem_singleton.1 hreaction
    rcases List.mem_cons.1 hc with rfl | hc
    · rfl
    · rw [List.mem_singleton.1 hc]
      rfl
  · have hpieces : pieces "$\x7bb\x7d" = [.reference ⟨"b", none⟩] := by decide +kernel
    apply evaluated_of_evaluate (by decide +kernel : _ = some ("$\x7bb\x7d" : Text))
    rw [Evaluator.evaluate, hpieces, Evaluator.expand_singleton]
    exact Template.resolve_of_not_mem _ _ _ (by decide +kernel) (by decide +kernel)
      (by decide +kernel) (by decide)

theorem integers_and_flags_read_back_rereading :
    rereading.IsQuiet "A" ∧
      (rereading.step (.property "A" .integer)).1.answer = .ok (.integer 7) ∧
      rereading.ReadsBack "A" (.integer (-12)) "-12" .integer (.integer (-12)) ∧
      rereading.ReadsBack "A" (.boolean true) "true" .boolean (.flag true) := by
  obtain ⟨s, hstep, hbefore, htold, hvalue⟩ := exists_step_rereading
  have hspared : Spared true s rereading := hstep ▸ spared_step hbefore.loaded rfl
  have hquiet : rereading.IsQuiet "A" := hstep ▸ hbefore.step rfl
  have hseven : parseInteger "7" = .ok 7 := by decide +kernel
  have hanswer := hquiet.answer_integer (by rw [hspared.naming, htold])
    ((hspared.evaluated "A").trans hvalue) hseven
  exact ⟨hquiet, hanswer, (integers_and_flags_read_back hquiet).1 (-12) (by decide),
    (integers_and_flags_read_back hquiet).2 true⟩

end Manager.Session

end VersionedProperties
