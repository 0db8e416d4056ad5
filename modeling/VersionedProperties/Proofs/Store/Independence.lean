import VersionedProperties.Proofs.Store.ResetAll

/-!
# Names are independent of each other

A change of the value of one name reads the history of this name, its default and the settings of
the store, and it changes this history and the token. So changes of different names can be made in
either order, and in a run of such changes each name goes its own way: its history and the answers
are those of the changes of this name alone. Runs with the same changes for each name lead to stores
that are the same but for the order in which the names are listed.
-/

namespace VersionedProperties.Store

/-- A change of the value of one name. -/
inductive ValueChange where
  | set (value : Option Text)
  | resetToDefault
  | undo
  | redo

/-- The command that makes a change to a name. -/
def ValueChange.command (name : Text) : ValueChange → Command
  | .set value => .set name value
  | .resetToDefault => .resetToDefault name
  | .undo => .undo name
  | .redo => .redo name

/-- Changes of the values of names, made one after the other. -/
def changeValues (changes : List (Text × ValueChange)) (s : Store) :
    List (Except Error Answer) × Store :=
  performAll (changes.map fun c => c.2.command c.1) s

/-- The changes of one name. -/
def changesOf (name : Text) (changes : List (Text × ValueChange)) : List (Text × ValueChange) :=
  changes.filter (·.1 = name)

/-- The answers to the changes of one name. -/
def answersOf (name : Text) (changes : List (Text × ValueChange))
    (answers : List (Except Error Answer)) : List (Except Error Answer) :=
  ((changes.zip answers).filter (·.1.1 = name)).map Prod.snd

/-- Stores that are the same but for the order in which names are listed. -/
structure SameButOrder (s t : Store) : Prop where
  history?_eq : s.history? = t.history?
  keys_perm : s.histories.keys.Perm t.histories.keys
  token_eq : s.token = t.token
  settings_eq : s.settings = t.settings

/-- Stores that a change of one name cannot tell apart. -/
structure SameAt (name : Text) (s t : Store) : Prop where
  history?_eq : s.history? name = t.history? name
  settings_eq : s.settings = t.settings

section SameButOrder

variable {s t u : Store}

theorem perm_keys_of_history?_eq (h : s.history? = t.history?) :
    s.histories.keys.Perm t.histories.keys := by
  refine (List.perm_ext_iff_of_nodup s.histories.nodup_keys t.histories.nodup_keys).2 ?_
  intro name
  change name ∈ s.histories.keys ↔ name ∈ t.histories.keys
  rw [← Mapping.contains_iff, ← Mapping.contains_iff]
  change (s.history? name).isSome = true ↔ (t.history? name).isSome = true
  rw [h]

theorem sameButOrder_of (hhistory : s.history? = t.history?) (htoken : s.token = t.token)
    (hsettings : s.settings = t.settings) : SameButOrder s t :=
  ⟨hhistory, perm_keys_of_history?_eq hhistory, htoken, hsettings⟩

theorem SameButOrder.refl (s : Store) : SameButOrder s s := sameButOrder_of rfl rfl rfl

theorem SameButOrder.symm (h : SameButOrder s t) : SameButOrder t s :=
  ⟨h.history?_eq.symm, h.keys_perm.symm, h.token_eq.symm, h.settings_eq.symm⟩

theorem SameButOrder.trans (h : SameButOrder s t) (h' : SameButOrder t u) : SameButOrder s u :=
  ⟨h.history?_eq.trans h'.history?_eq, h.keys_perm.trans h'.keys_perm,
    h.token_eq.trans h'.token_eq, h.settings_eq.trans h'.settings_eq⟩

theorem SameButOrder.sameAt (h : SameButOrder s t) (name : Text) : SameAt name s t :=
  ⟨congrFun h.history?_eq name, h.settings_eq⟩

theorem SameAt.refl (name : Text) (s : Store) : SameAt name s s := ⟨rfl, rfl⟩

theorem SameAt.trans {name : Text} (h : SameAt name s t) (h' : SameAt name t u) :
    SameAt name s u :=
  ⟨h.history?_eq.trans h'.history?_eq, h.settings_eq.trans h'.settings_eq⟩

end SameButOrder

/-! Operations about one name -/

/-- An operation that is about one name: what it answers, what it makes of the history of this name
and how far it moves the token depends on nothing but this history and the settings, and it changes
nothing else. -/
structure IsAbout {α : Type} (name : Text) (f : Store → α × Store) : Prop where
  answer_eq : ∀ {s t}, SameAt name s t → (f s).1 = (f t).1
  history?_eq : ∀ {s t}, SameAt name s t → (f s).2.history? name = (f t).2.history? name
  token_eq : ∀ {s t}, SameAt name s t → (f s).2.token + t.token = (f t).2.token + s.token
  others : ∀ s other, other ≠ name → (f s).2.history? other = s.history? other
  settings_eq : ∀ s, (f s).2.settings = s.settings

namespace IsAbout

variable {α β : Type} {name : Text} {f : Store → α × Store} {s t : Store}

theorem map (hf : IsAbout name f) (answer : α → β) :
    IsAbout name fun s => (answer (f s).1, (f s).2) where
  answer_eq h := congrArg answer (hf.answer_eq h)
  history?_eq := hf.history?_eq
  token_eq := hf.token_eq
  others := hf.others
  settings_eq := hf.settings_eq

theorem sameAt (hf : IsAbout name f) (h : SameAt name s t) : SameAt name (f s).2 (f t).2 where
  history?_eq := hf.history?_eq h
  settings_eq := by rw [hf.settings_eq, hf.settings_eq, h.settings_eq]

theorem sameAt_of_ne (hf : IsAbout name f) {other : Text} (hother : other ≠ name) (s : Store) :
    SameAt other (f s).2 s :=
  ⟨hf.others s other hother, hf.settings_eq s⟩

theorem sameButOrder (hf : IsAbout name f) (h : SameButOrder s t) :
    SameButOrder (f s).2 (f t).2 := by
  have hsame : SameAt name s t := h.sameAt name
  refine sameButOrder_of ?_ ?_ (hf.sameAt hsame).settings_eq
  · funext other
    by_cases hother : other = name
    · subst hother
      exact hf.history?_eq hsame
    · rw [hf.others s other hother, hf.others t other hother, h.history?_eq]
  · have htoken := hf.token_eq hsame
    rw [h.token_eq] at htoken
    exact Nat.add_right_cancel htoken

/-- Operations about different names can change places. -/
theorem comm {other : Text} {g : Store → β × Store} (hf : IsAbout name f) (hg : IsAbout other g)
    (hne : name ≠ other) (s : Store) :
    (f (g s).2).1 = (f s).1 ∧ (g (f s).2).1 = (g s).1 ∧
      SameButOrder (g (f s).2).2 (f (g s).2).2 := by
  have hfs : SameAt other (f s).2 s := hf.sameAt_of_ne hne.symm s
  have hgs : SameAt name (g s).2 s := hg.sameAt_of_ne hne s
  refine ⟨hf.answer_eq hgs, hg.answer_eq hfs, sameButOrder_of ?_ ?_ ?_⟩
  · funext n
    by_cases hn : n = name
    · subst hn
      rw [hg.others _ n hne, hf.history?_eq hgs]
    · rw [hf.others _ n hn]
      by_cases hn' : n = other
      · subst hn'
        exact hg.history?_eq hfs
      · rw [hg.others _ n hn', hf.others _ n hn, hg.others _ n hn']
  · have hf' := hf.token_eq hgs
    have hg' := hg.token_eq hfs
    omega
  · rw [hg.settings_eq, hf.settings_eq, hf.settings_eq, hg.settings_eq]

end IsAbout

/-! The changes of a value are about its name -/

/-- Whether a step moves the token on, by the history of the name that it is taken for. -/
def movesToken (e : History.Edit Text) : Option (History Text) → Bool
  | some h => e.moves h
  | none => e.value?.isSome

theorem Edited.token_eq {s next : Store} {name : Text} {e : History.Edit Text}
    (h : s.Edited name e next) :
    next.token = s.token + (movesToken e (s.history? name)).toNat := by
  cases h with
  | unknown hh hv => simp [hh, movesToken, hv]
  | created hh hv => simp [hh, movesToken, hv, changed]
  | still hh hm => simp [hh, movesToken, hm]
  | moved hh hm => simp [hh, movesToken, hm, changed]

theorem Edited.settings_eq {s next : Store} {name : Text} {e : History.Edit Text}
    (h : s.Edited name e next) : next.settings = s.settings := by
  cases h <;> rfl

theorem SameAt.historyLimit_eq {name : Text} {s t : Store} (h : SameAt name s t) :
    s.historyLimit = t.historyLimit :=
  congrArg (·.2.2.1) h.settings_eq

theorem SameAt.getDefault_eq {name : Text} {s t : Store} (h : SameAt name s t) :
    s.getDefault name = t.getDefault name :=
  congrArg (·.1.find? name) h.settings_eq

/-- A step of the history of a name is about this name if its answer is. -/
theorem isAbout_of_edited {α : Type} {name : Text} {e : History.Edit Text}
    {f : Store → α × Store} (hf : ∀ s : Store, s.Edited name e (f s).2)
    (hanswer : ∀ {s t}, SameAt name s t → (f s).1 = (f t).1) : IsAbout name f where
  answer_eq := hanswer
  history?_eq {s t} h := by
    rw [(hf s).history?, (hf t).history?, h.history?_eq, h.historyLimit_eq]
  token_eq {s t} h := by
    rw [(hf s).token_eq, (hf t).token_eq, h.history?_eq]
    omega
  others s other hother := by
    rw [(hf s).history?, Effect.only_of_ne hother, Effect.onHistory]
  settings_eq s := (hf s).settings_eq

theorem isAbout_set (name value : Text) : IsAbout name fun s => s.set name value := by
  apply isAbout_of_edited fun s => s.edited_set name value
  intro s t h
  have hfst : ∀ s : Store, (s.set name value).1 =
      (s.history? name).elim true fun h => h.accepts value := by
    intro s
    unfold set
    cases s.history? name with
    | none => rfl
    | some h =>
        dsimp only [Option.elim]
        cases h.accepts value <;> rfl
  rw [hfst, hfst, h.history?_eq]

theorem isAbout_undo (name : Text) : IsAbout name fun s => s.undo name := by
  apply isAbout_of_edited fun s => s.edited_undo name
  intro s t h
  rw [undo_fst, undo_fst, get, get, (s.edited_undo name).history?, (t.edited_undo name).history?,
    h.history?_eq, h.historyLimit_eq]

theorem isAbout_redo (name : Text) : IsAbout name fun s => s.redo name := by
  apply isAbout_of_edited fun s => s.edited_redo name
  intro s t h
  rw [redo_fst, redo_fst, get, get, (s.edited_redo name).history?, (t.edited_redo name).history?,
    h.history?_eq, h.historyLimit_eq]

theorem resetToDefault_fst (s : Store) (name : Text) : (s.resetToDefault name).1 =
    (s.getDefault name).elim (s.contains name) fun value => (s.set name value).1 := by
  unfold resetToDefault
  cases s.getDefault name with
  | none =>
      dsimp only [Option.elim]
      cases s.contains name <;> rfl
  | some value => rfl

theorem isAbout_resetToDefault (name : Text) : IsAbout name fun s => s.resetToDefault name := by
  have hanswer : ∀ {s t}, SameAt name s t →
      (s.resetToDefault name).1 = (t.resetToDefault name).1 := by
    intro s t h
    have hset : ∀ value, (s.set name value).1 = (t.set name value).1 :=
      fun value => (isAbout_set name value).answer_eq h
    rw [resetToDefault_fst, resetToDefault_fst, h.getDefault_eq, contains_eq_isSome,
      contains_eq_isSome, h.history?_eq]
    simp only [hset]
  exact
    { answer_eq := hanswer
      history?_eq := fun {s t} h => by
        rw [history?_resetToDefault, history?_resetToDefault, h.history?_eq, h.historyLimit_eq,
          h.getDefault_eq]
      token_eq := fun {s t} h => by
        rw [token_resetToDefault, token_resetToDefault, hanswer h]
        omega
      others := fun s other hother => by
        rw [history?_resetToDefault, Effect.only_of_ne hother, Effect.onHistory]
      settings_eq := fun s => s.settings_resetToDefault name }

/-- A command is about a name if it answers by an operation that is. -/
theorem IsAbout.perform {α : Type} {name : Text} {f : Store → α × Store} (hf : IsAbout name f)
    {c : Command} (answer : α → Except Error Answer)
    (hc : ∀ s, perform c s = (answer (f s).1, (f s).2)) : IsAbout name (perform c) := by
  rw [funext hc]
  exact hf.map answer

theorem isAbout_refused (name : Text) : IsAbout name fun s => ((), s) where
  answer_eq _ := rfl
  history?_eq h := h.history?_eq
  token_eq _ := Nat.add_comm _ _
  others _ _ _ := rfl
  settings_eq _ := rfl

theorem isAbout_command (name : Text) (c : ValueChange) :
    IsAbout name (perform (c.command name)) := by
  cases c with
  | set value =>
      cases value with
      | none =>
          apply (isAbout_refused name).perform fun _ => .error (.missingValue (.assigned name))
          intro s
          rw [ValueChange.command, Store.perform, set?]
          rfl
      | some value =>
          apply (isAbout_set name value).perform fun changed => .ok (.flag changed)
          intro s
          rw [ValueChange.command, Store.perform, set?]
          rfl
  | resetToDefault =>
      apply (isAbout_resetToDefault name).perform fun changed => .ok (.flag changed)
      intro s
      rw [ValueChange.command, Store.perform, withFlag]
  | undo =>
      apply (isAbout_undo name).perform fun value => .ok (.value value)
      intro s
      rw [ValueChange.command, Store.perform, withValue]
  | redo =>
      apply (isAbout_redo name).perform fun value => .ok (.value value)
      intro s
      rw [ValueChange.command, Store.perform, withValue]

/-! Runs -/

section Runs

variable {s t : Store}

theorem changeValues_cons (c : Text × ValueChange) (rest : List (Text × ValueChange))
    (s : Store) :
    changeValues (c :: rest) s =
      ((perform (c.2.command c.1) s).1 :: (changeValues rest (perform (c.2.command c.1) s).2).1,
        (changeValues rest (perform (c.2.command c.1) s).2).2) := by
  rw [changeValues, List.map_cons, performAll]
  rfl

theorem changeValues_nil (s : Store) : changeValues [] s = ([], s) := by
  rw [changeValues, List.map_nil, performAll]

theorem changeValues_append (earlier later : List (Text × ValueChange)) (s : Store) :
    (changeValues (earlier ++ later) s).2 =
      (changeValues later (changeValues earlier s).2).2 := by
  induction earlier generalizing s with
  | nil => rw [List.nil_append, changeValues_nil]
  | cons c earlier ih => rw [List.cons_append, changeValues_cons, changeValues_cons, ih]

theorem SameButOrder.changeValues (h : SameButOrder s t) (changes : List (Text × ValueChange)) :
    SameButOrder (changeValues changes s).2 (changeValues changes t).2 := by
  induction changes generalizing s t with
  | nil => rwa [changeValues_nil, changeValues_nil]
  | cons c rest ih =>
      rw [changeValues_cons, changeValues_cons]
      exact ih ((isAbout_command c.1 c.2).sameButOrder h)

/-- A run and its changes of one name do the same to this name. -/
theorem sameAt_changeValues {name : Text} (h : SameAt name s t)
    (changes : List (Text × ValueChange)) :
    SameAt name (changeValues changes s).2 (changeValues (changesOf name changes) t).2 ∧
      answersOf name changes (changeValues changes s).1 =
        (changeValues (changesOf name changes) t).1 := by
  induction changes generalizing s t with
  | nil =>
      simp only [changesOf, List.filter_nil, changeValues_nil]
      exact ⟨h, rfl⟩
  | cons c rest ih =>
      have habout := isAbout_command c.1 c.2
      by_cases hc : c.1 = name
      · subst hc
        obtain ⟨hsame, hanswers⟩ := ih (habout.sameAt h)
        rw [changesOf, List.filter_cons_of_pos (by simp), changeValues_cons, changeValues_cons,
          answersOf, List.zip_cons_cons, List.filter_cons_of_pos (by simp), List.map_cons,
          habout.answer_eq h]
        exact ⟨hsame, congrArg _ hanswers⟩
      · obtain ⟨hsame, hanswers⟩ := ih ((habout.sameAt_of_ne (Ne.symm hc) s).trans h)
        rw [changesOf, List.filter_cons_of_neg (by simpa using hc), changeValues_cons,
          answersOf, List.zip_cons_cons, List.filter_cons_of_neg (by simpa using hc)]
        exact ⟨hsame, hanswers⟩

/-- A change can be made before changes of other names. -/
theorem sameButOrder_bring_forward (c : Text × ValueChange) {before : List (Text × ValueChange)}
    (hbefore : ∀ b ∈ before, b.1 ≠ c.1) (s : Store) :
    SameButOrder (changeValues (before ++ [c]) s).2 (changeValues (c :: before) s).2 := by
  induction before generalizing s with
  | nil => exact .refl _
  | cons b before ih =>
      rw [List.forall_mem_cons] at hbefore
      have hswap := ((isAbout_command b.1 b.2).comm (isAbout_command c.1 c.2) hbefore.1 s).2.2
      have hlater := ih hbefore.2 (perform (b.2.command b.1) s).2
      rw [changeValues_cons c] at hlater
      rw [List.cons_append, changeValues_cons, changeValues_cons, changeValues_cons]
      exact hlater.trans (hswap.changeValues before)

/-- A run is determined by what is changed of each name, up to the order of names. -/
theorem sameButOrder_of_changesOf {changes others : List (Text × ValueChange)}
    (h : ∀ name, changesOf name changes = changesOf name others) (s : Store) :
    SameButOrder (changeValues changes s).2 (changeValues others s).2 := by
  induction changes generalizing others s with
  | nil =>
      cases others with
      | nil => exact .refl _
      | cons c others =>
          have hnone := h c.1
          rw [changesOf, changesOf, List.filter_cons_of_pos (by simp)] at hnone
          cases hnone
  | cons c changes ih =>
      have hfirst := h c.1
      rw [changesOf, List.filter_cons_of_pos (by simp)] at hfirst
      obtain ⟨before, later, rfl, hbefore, -, -⟩ := List.filter_eq_cons_iff.1 hfirst.symm
      have hbefore : ∀ b ∈ before, b.1 ≠ c.1 := by simpa using hbefore
      have hrest : ∀ name, changesOf name changes = changesOf name (before ++ later) := by
        intro name
        have hname := h name
        simp only [changesOf, List.filter_append] at hname ⊢
        by_cases hc : c.1 = name
        · have hnone : before.filter (·.1 = name) = [] := by simpa [← hc] using hbefore
          rw [hnone, List.filter_cons_of_pos (by simpa using hc),
            List.filter_cons_of_pos (by simpa using hc)] at hname
          rw [hnone]
          exact (List.cons.inj hname).2
        · rwa [List.filter_cons_of_neg (by simpa using hc),
            List.filter_cons_of_neg (by simpa using hc)] at hname
      have hforward := (sameButOrder_bring_forward c hbefore s).changeValues later
      rw [← changeValues_append, ← changeValues_append, List.append_assoc, List.singleton_append]
        at hforward
      refine .trans ?_ hforward.symm
      rw [List.cons_append, changeValues_cons, changeValues_cons]
      exact ih hrest _

end Runs

/-- Changes of different names are independent, in every store. Two of them answer the same in
either order and leave the same store, which may only list its names in another order. In a run of
such changes, each name has the history and gets the answers that its own changes bring about when
they are made alone. Runs in which each name meets the same changes in the same order leave the same
store, again up to the order of names. -/
theorem names_independent (s : Store) :
    (∀ first second : Text, first ≠ second → ∀ a b : ValueChange,
      let ahead := performAll [a.command first, b.command second] s
      let behind := performAll [b.command second, a.command first] s
      ahead.1 = behind.1.reverse ∧ SameButOrder ahead.2 behind.2) ∧
    (∀ (changes : List (Text × ValueChange)) (name : Text),
      let run := changeValues changes s
      let own := changeValues (changesOf name changes) s
      run.2.history? name = own.2.history? name ∧ answersOf name changes run.1 = own.1) ∧
    ∀ changes others : List (Text × ValueChange),
      (∀ name, changesOf name changes = changesOf name others) →
        SameButOrder (changeValues changes s).2 (changeValues others s).2 := by
  refine ⟨?_, ?_, ?_⟩
  · intro first second hne a b
    obtain ⟨ha, hb, hstore⟩ := (isAbout_command first a).comm (isAbout_command second b) hne s
    simp only [performAll]
    rw [ha, hb]
    exact ⟨rfl, hstore⟩
  · intro changes name
    obtain ⟨hsame, hanswers⟩ := sameAt_changeValues (.refl name s) changes
    exact ⟨hsame.history?_eq, hanswers⟩
  · intro changes others h
    exact sameButOrder_of_changesOf h s

/-- Changes of a name with a default and of one without, each dropped or stepped back in between. -/
def interleavedChanges : List (Text × ValueChange) :=
  [("a", .set (some "2")), ("b", .set (some "x")), ("a", .undo), ("b", .resetToDefault),
    ("a", .redo), ("b", .set (some "y"))]

theorem names_independent_interleavedChanges :
    let s := create (.ofList [(("a" : Text), ("1" : Text))]) false 5
    let apart := changesOf "b" interleavedChanges ++ changesOf "a" interleavedChanges
    let ahead := performAll [.set "b" (some "x"), .set "c" (some "z")] s
    let behind := performAll [.set "c" (some "z"), .set "b" (some "x")] s
    ("b" : Text) ≠ "c" ∧ ahead.2 ≠ behind.2 ∧ SameButOrder ahead.2 behind.2 ∧
      (∀ name, changesOf name interleavedChanges = changesOf name apart) ∧
      SameButOrder (changeValues interleavedChanges s).2 (changeValues apart s).2 := by
  intro s apart ahead behind
  have hne : ("b" : Text) ≠ "c" := by decide
  have hsame : ∀ name, changesOf name interleavedChanges = changesOf name apart := by
    intro name
    rcases eq_or_ne name "a" with rfl | ha
    · rfl
    rcases eq_or_ne name "b" with rfl | hb
    · rfl
    · simp [apart, changesOf, interleavedChanges, ha.symm, hb.symm]
  obtain ⟨hswap, -, hruns⟩ := names_independent s
  exact ⟨hne, by decide +kernel, (hswap "b" "c" hne (.set (some "x")) (.set (some "z"))).2, hsame,
    hruns interleavedChanges apart hsame⟩

end VersionedProperties.Store
