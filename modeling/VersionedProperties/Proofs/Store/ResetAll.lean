import VersionedProperties.Proofs.Store.Invariant
import VersionedProperties.Proofs.Store.Version

/-!
# Resetting all at once and one by one

Resetting every name that a store knows, one after the other and in any order, leads to the same
store as resetting all at once, up to the token: this counts each reset that changes something, but
the reset of everything as one change.

A reset is about one name only, and doing it again changes nothing. So after resets of some names
each of these has the history that the reset of everything gives it, and the others are untouched.
-/

namespace VersionedProperties.Store

/-- Names reset one after the other: whether each reset has changed anything, and the store after
them. -/
def resetEach : List Text → Store → List Bool × Store
  | [], s => ([], s)
  | name :: rest, s =>
    let (changed, s) := s.resetToDefault name
    let (answers, s) := resetEach rest s
    (changed :: answers, s)

variable {s : Store}

theorem resetEach_cons (name : Text) (rest : List Text) (s : Store) :
    resetEach (name :: rest) s =
      ((s.resetToDefault name).1 :: (resetEach rest (s.resetToDefault name).2).1,
        (resetEach rest (s.resetToDefault name).2).2) := rfl

theorem token_resetEach (names : List Text) (s : Store) :
    (resetEach names s).2.token = s.token + (resetEach names s).1.count true := by
  induction names generalizing s with
  | nil => rfl
  | cons name rest ih =>
      rw [resetEach_cons, ih, token_resetToDefault, List.count_cons]
      cases (s.resetToDefault name).1 with
      | false => simp
      | true =>
          simp
          omega

/-! Histories -/

theorem history?_eq_none {name : Text} (hname : name ∉ s.keyNames) :
    s.history? name = none ∧ s.getDefault name = none := by
  rw [mem_keyNames, not_or, contains_eq_isSome, Mapping.contains] at hname
  simpa [getDefault] using hname

/-- A second reset changes nothing. -/
theorem onHistory_reset_twice {limit : Int} {history? : Option (History Text)}
    (hr : ∀ h, history? = some h → h.IsRegular limit) (default? : Option Text) :
    (Effect.toValue .push default?).onHistory limit
        ((Effect.toValue .push default?).onHistory limit history?) =
      (Effect.toValue .push default?).onHistory limit history? := by
  cases default? with
  | none => rfl
  | some value =>
      have hcurrent : ∀ h : History Text, h.current = value → h.push value = h := by
        intro h hvalue
        rw [History.push, if_pos hvalue.symm]
      cases history? with
      | none => exact congrArg some (hcurrent _ rfl)
      | some h => exact congrArg some (hcurrent _ (History.current_push (hr h rfl).inRange value))

theorem history?_resetEach (hs : s.IsRegular) (names : List Text) (name : Text) :
    (resetEach names s).2.history? name =
      if name ∈ names then
        (Effect.toValue .push (s.getDefault name)).onHistory s.historyLimit (s.history? name)
      else s.history? name := by
  induction names generalizing s with
  | nil => rfl
  | cons first rest ih =>
      have hdefault : (s.apply (.resetToDefault first)).getDefault name = s.getDefault name := by
        rw [getDefault, defaults_apply, getDefault]
      rw [resetEach_cons]
      change (resetEach rest (s.apply (.resetToDefault first))).2.history? name = _
      rw [ih (hs.apply _), hdefault, historyLimit_apply, history?_apply, Change.effect]
      by_cases hfirst : name = first
      · subst hfirst
        rw [Effect.only_self, if_pos List.mem_cons_self, onHistory_reset_twice (hs name), ite_self]
      · rw [Effect.only_of_ne hfirst, Effect.onHistory]
        simp [hfirst]

theorem history?_resetEach_of_subset (hs : s.IsRegular) {names : List Text}
    (hnames : s.keyNames ⊆ names) (name : Text) :
    (resetEach names s).2.history? name = s.resetAll.2.history? name := by
  rw [history?_resetEach hs, history?_resetAll]
  split
  · rfl
  · rename_i hname
    obtain ⟨hhistory, hdefault⟩ := history?_eq_none fun h => hname (hnames h)
    rw [hhistory, hdefault]
    rfl

/-! Order -/

theorem keys_set_of_contains {name : Text} (hname : s.contains name = true) (value : Text) :
    (s.set name value).2.histories.keys = s.histories.keys := by
  unfold set
  split
  · rename_i hnone
    rw [contains_eq_isSome, hnone] at hname
    cases hname
  · split
    · exact (Mapping.keys_insert ..).trans (if_pos (Mapping.contains_iff.1 hname))
    · rfl

theorem keys_resetToDefault (htracks : s.TracksDefaults) (name : Text) :
    (s.resetToDefault name).2.histories.keys =
      s.histories.keys.filter fun n => n ≠ name ∨ s.defaults.contains n = true := by
  unfold resetToDefault
  cases hdefault : s.getDefault name with
  | some value =>
      have hcontains : s.defaults.contains name = true := Option.isSome_of_eq_some hdefault
      dsimp only
      rw [keys_set_of_contains (htracks name value hdefault)]
      refine (List.filter_eq_self.2 fun n _ => decide_eq_true ?_).symm
      by_cases hn : n = name
      · exact .inr (hn ▸ hcontains)
      · exact .inl hn
  | none =>
      have hcontains : ¬ s.defaults.contains name = true := by
        rw [Mapping.contains]
        change ¬ (s.getDefault name).isSome = true
        rw [hdefault]
        exact Bool.false_ne_true
      have hkeys : s.histories.keys.filter (fun n => n ≠ name) =
          s.histories.keys.filter fun n => n ≠ name ∨ s.defaults.contains n = true := by
        apply List.filter_congr
        intro n _
        by_cases hn : n = name
        · simp [hn, hcontains]
        · simp [hn]
      dsimp only
      split
      · rw [← hkeys]
        exact Mapping.keys_filter (fun n => n ≠ name) s.histories
      · rename_i huntracked
        rw [← hkeys]
        refine (List.filter_eq_self.2 fun n hn => decide_eq_true ?_).symm
        rintro rfl
        exact huntracked (Mapping.contains_iff.2 hn)

theorem keys_resetEach (htracks : s.TracksDefaults) (names : List Text) :
    (resetEach names s).2.histories.keys =
      s.histories.keys.filter fun n => n ∉ names ∨ s.defaults.contains n = true := by
  induction names generalizing s with
  | nil => simp [resetEach]
  | cons first rest ih =>
      have hdefaults : (s.resetToDefault first).2.defaults = s.defaults :=
        s.defaults_apply (.resetToDefault first)
      have htracked : (s.resetToDefault first).2.TracksDefaults :=
        htracks.apply (.resetToDefault first)
      rw [resetEach_cons]
      dsimp only
      rw [ih htracked, hdefaults, keys_resetToDefault htracks, List.filter_filter]
      apply List.filter_congr
      intro n _
      by_cases hdefault : s.defaults.contains n = true
      · simp [hdefault]
      · simp [hdefault, Bool.and_comm]

theorem withMissing_of_contains (limit : Int) {defaults : List (Text × Text)}
    {histories : Mapping Text (History Text)}
    (h : ∀ e ∈ defaults, histories.contains e.1 = true) :
    withMissing limit defaults histories = histories := by
  induction defaults with
  | nil => rfl
  | cons e rest ih =>
      rw [withMissing, List.foldl_cons, if_pos (h e List.mem_cons_self)]
      exact ih fun e' he' => h e' (List.mem_cons_of_mem e he')

theorem keys_resetAll (htracks : s.TracksDefaults) :
    s.resetAll.2.histories.keys = s.histories.keys.filter fun n => s.defaults.contains n := by
  unfold resetAll
  dsimp only
  split
  · have hkept : ∀ e ∈ s.defaults.entries, (s.histories.filterMap fun name h =>
        (s.getDefault name).map h.push).contains e.1 = true := by
      intro e he
      have hdefault : s.getDefault e.1 = some e.2 := Mapping.find?_eq_some_iff.2 he
      obtain ⟨h, hh⟩ := Option.isSome_iff_exists.1 (htracks e.1 e.2 hdefault)
      rw [Mapping.contains, Mapping.find?_filterMap, hh, Option.bind_some, hdefault]
      rfl
    change (withMissing _ _ _).keys = _
    rw [withMissing_of_contains _ hkept]
    exact Mapping.keys_filterMap_of fun e _ => Option.isSome_map
  · rename_i hsame
    rw [Bool.or_eq_true, not_or, Bool.not_eq_true, List.any_eq_false] at hsame
    refine (List.filter_eq_self.2 fun n hn => ?_).symm
    obtain ⟨e, he, rfl⟩ := List.mem_map.1 hn
    have hkept := hsame.1 e he
    cases hdefault : s.getDefault e.1 with
    | none => simp [hdefault] at hkept
    | some value => exact Option.isSome_of_eq_some hdefault

theorem histories_resetEach (hs : s.IsRegular) (htracks : s.TracksDefaults) {names : List Text}
    (hnames : s.keyNames ⊆ names) : (resetEach names s).2.histories = s.resetAll.2.histories := by
  apply Mapping.ext_keys
  · rw [keys_resetEach htracks, keys_resetAll htracks]
    apply List.filter_congr
    intro n hn
    have hname : n ∈ names := hnames (List.mem_append_left _ hn)
    simp [hname]
  · funext name
    exact history?_resetEach_of_subset hs hnames name

/-! Answers -/

theorem resetToDefault_of_resetAll (hs : s.IsRegular) (h : s.resetAll.1 = false) (name : Text) :
    s.resetToDefault name = (false, s) := by
  have hstays : s.resetAll.2 = s := s.resetAll_of_unchanged h
  have hhistories : (s.resetToDefault name).2.history? = s.history? := by
    funext other
    have hother := s.history?_resetAll other
    rw [hstays] at hother
    rw [history?_resetToDefault, Effect.only]
    split
    · exact hother.symm
    · rfl
  have hstore : (s.resetToDefault name).2 = s := by
    apply (moved_resetToDefault hs name).eq_of_not_differs
    rw [differs_iff, not_not]
    funext other
    rw [get, get, hhistories]
  apply Prod.ext
  · rw [← Bool.not_eq_true]
    exact fun hchanged => s.resetToDefault_ne_of_changed name hchanged hstore
  · exact hstore

theorem resetEach_of_resetAll (hs : s.IsRegular) (h : s.resetAll.1 = false) (names : List Text) :
    true ∉ (resetEach names s).1 := by
  induction names with
  | nil => exact List.not_mem_nil
  | cons name rest ih =>
      rw [resetEach_cons, resetToDefault_of_resetAll hs h]
      simpa using ih

theorem resetEach_of_unchanged {names : List Text} (h : true ∉ (resetEach names s).1) :
    (resetEach names s).2 = s := by
  induction names generalizing s with
  | nil => rfl
  | cons name rest ih =>
      rw [resetEach_cons, List.mem_cons, not_or] at h
      have hstays : (s.resetToDefault name).2 = s :=
        s.resetToDefault_of_unchanged name (Bool.eq_false_iff.2 (Ne.symm h.1))
      rw [resetEach_cons]
      dsimp only
      rw [hstays] at h ⊢
      exact ih h.2

theorem resetAll_fst_iff (hs : s.IsRegular) {names : List Text} (hnames : s.keyNames ⊆ names) :
    s.resetAll.1 = true ↔ true ∈ (resetEach names s).1 := by
  constructor
  · intro hchanged
    by_contra hnone
    apply differs_iff.1 (differs_resetAll hs hchanged)
    funext name
    rw [get, get, ← history?_resetEach_of_subset hs hnames, resetEach_of_unchanged hnone]
  · intro hsome
    by_contra hnot
    exact resetEach_of_resetAll hs (Bool.eq_false_iff.2 hnot) names hsome

/-! The rest of the store -/

/-- All of a store but its histories and its token. -/
def settings (s : Store) : Mapping Text Text × Bool × Int × Bool :=
  (s.defaults, s.savingDefaults, s.historyLimit, s.loaded)

theorem eq_of_settings {t : Store} (hsettings : s.settings = t.settings)
    (hhistories : s.histories = t.histories) (htoken : s.token = t.token) : s = t := by
  cases s
  cases t
  cases hsettings
  cases hhistories
  cases htoken
  rfl

theorem settings_set (s : Store) (name value : Text) :
    (s.set name value).2.settings = s.settings := by
  unfold set
  split
  · rfl
  · split <;> rfl

theorem settings_resetToDefault (s : Store) (name : Text) :
    (s.resetToDefault name).2.settings = s.settings := by
  unfold resetToDefault
  split
  · exact s.settings_set name _
  · split <;> rfl

theorem settings_resetAll (s : Store) : s.resetAll.2.settings = s.settings := by
  unfold resetAll
  dsimp only
  split <;> rfl

theorem settings_resetEach (names : List Text) (s : Store) :
    (resetEach names s).2.settings = s.settings := by
  induction names generalizing s with
  | nil => rfl
  | cons name rest ih => exact (ih _).trans (s.settings_resetToDefault name)

/-- In every store that a run reaches, resets of the names that it knows, in any order, leave the
store that the reset of everything leaves, but for the token. The reset of everything changes
something just if one of these resets does. Each of them that does adds one to the token, where the
reset of everything adds one in all. -/
theorem resetEach_eq_resetAll (defaults : Mapping Text Text) (savingDefaults : Bool) (limit : Int)
    (commands : List Command) :
    let s := (performAll commands (create defaults savingDefaults limit)).2
    ∀ names : List Text, s.keyNames ⊆ names →
      (resetEach names s).2 =
        { s.resetAll.2 with token := s.token + (resetEach names s).1.count true } ∧
      (s.resetAll.1 = true ↔ true ∈ (resetEach names s).1) ∧
      s.resetAll.2.token = s.token + s.resetAll.1.toNat := by
  intro s names hnames
  have hregular : s.IsRegular :=
    (isRegular_create defaults savingDefaults limit).performAll commands
  have htracks : s.TracksDefaults :=
    (tracksDefaults_create defaults savingDefaults limit).performAll commands
  refine ⟨?_, resetAll_fst_iff hregular hnames, s.token_resetAll⟩
  apply eq_of_settings
  · exact (settings_resetEach names s).trans s.settings_resetAll.symm
  · exact histories_resetEach hregular htracks hnames
  · exact token_resetEach names s

/-- A run after which `a` is not at its default, `b` has none, and `c` is at its default again. -/
def mixedRun : List Command :=
  [.set "a" (some "2"), .set "b" (some "x"), .set "c" (some "4"), .resetToDefault "c"]

theorem resetEach_eq_resetAll_mixedRun :
    let s := (performAll mixedRun
      (create (.ofList [(("a" : Text), ("1" : Text)), ("c", "3")]) false 2)).2
    let names : List Text := ["c", "b", "a"]
    s.keyNames ⊆ names ∧ (resetEach names s).1 = [false, true, true] ∧
      (resetEach names s).2 = { s.resetAll.2 with token := s.token + 2 } ∧
      s.resetAll.1 = true ∧ s.resetAll.2.token = s.token + 1 := by
  intro s names
  have hnames : s.keyNames ⊆ names := by decide +kernel
  have hanswers : (resetEach names s).1 = [false, true, true] := by decide +kernel
  obtain ⟨hstore, hanswer, htoken⟩ := resetEach_eq_resetAll
    (.ofList [(("a" : Text), ("1" : Text)), ("c", "3")]) false 2 mixedRun names hnames
  have hchanged : s.resetAll.1 = true := by
    apply hanswer.2
    change true ∈ (resetEach names s).1
    rw [hanswers]
    decide
  have hcount : (resetEach names s).1.count true = 2 := by
    rw [hanswers]
    rfl
  refine ⟨hnames, hanswers, ?_, hchanged, ?_⟩
  · rw [← hcount]
    exact hstore
  · rw [← Bool.toNat_true, ← hchanged]
    exact htoken

end VersionedProperties.Store
