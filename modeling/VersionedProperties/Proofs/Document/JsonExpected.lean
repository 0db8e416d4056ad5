import VersionedProperties.Proofs.Document.JsonLocality

/-!
# Where a value is expected

Up to the place where an integer cannot be read, a document lacks nothing but a value: cut off there
it fails only because it ends. Conversely, wherever a document is cut off so, an integer of too many
digits put there stops the reading. So an integer stops the reading of a document exactly if it
stands where a value is expected and has more digits than can be read.
-/

namespace VersionedProperties.Json

section Cuts

variable {f : Reader} {s t : Text} {e : ReadError}

/-- What stands where a value is expected and cannot be read: nothing, or an integer that has too
many digits. -/
inductive Refused : Text → ReadError → Prop
  | atEnd : Refused [] (.malformed .expectingValue [])
  | tooLong {s : Text} {n : Nat} (hs : BeginsTooLong s)
      (hread : readScalar s = .error (.tooManyDigits n)) : Refused s (.tooManyDigits n)

theorem BeginsTooLong.exists_refused (h : BeginsTooLong s) : ∃ n, Refused s (.tooManyDigits n) := by
  obtain ⟨n, hread⟩ := readNumber_of_beginsTooLong h
  refine ⟨n, .tooLong h ?_⟩
  obtain ⟨sign, d, u, hsign, hd, rfl⟩ := h.exists_isDigit
  rw [readScalar_of_isDigit hsign hd]
  exact hread

theorem Refused.readScalar (h : Refused s e) : readScalar s = .error e := by
  cases h with
  | atEnd => rfl
  | tooLong _ hread => exact hread

theorem Refused.head?_ne (h : Refused s e) {c : CodePoint} (hminus : c ≠ .scalar '-')
    (hdigit : isDigit c = false) : s.head? ≠ some c := by
  cases h with
  | atEnd => exact (Option.some_ne_none c).symm
  | tooLong hs _ =>
      obtain ⟨sign, d, u, hsign, hd, rfl⟩ := hs.exists_isDigit
      intro hc
      rcases hsign with rfl | rfl
      · obtain rfl : d = c := Option.some_inj.1 hc
        exact Bool.false_ne_true (hdigit.symm.trans hd)
      · exact hminus (Option.some_inj.1 hc).symm

theorem Refused.clean (h : Refused s e) : Clean s := by
  intro c hc
  by_contra hblank
  simp only [isBlank, Bool.not_eq_false, Bool.or_eq_true, decide_eq_true_eq] at hblank
  rcases hblank with ((rfl | rfl) | rfl) | rfl <;> exact h.head?_ne (by decide) rfl hc

theorem Refused.readValue (h : Refused s e) (steps room : Nat) :
    readValue (steps + 1) room s = .error e := by
  rw [readValue_of_scalar fun k => ?_, h.readScalar]
  cases k
  · exact h.head?_ne (by decide) rfl
  · exact h.head?_ne (by decide) rfl

/-- A failure for want of a value that can be read, not for a fault in what is there. -/
def LacksValue (e : ReadError) : Prop :=
  e = .malformed .expectingValue [] ∨ ∃ n, e = .tooManyDigits n

theorem not_lacksValue_malformed {fault : FormatFault} (h : fault ≠ .expectingValue)
    (place : Text) : ¬ LacksValue (.malformed fault place) := by
  rintro (he | ⟨n, he⟩)
  · exact h (ReadError.malformed.inj he).1
  · cases he

theorem not_lacksValue_tooNested (k : Container) : ¬ LacksValue (.tooNested k) := by
  rintro (he | ⟨n, he⟩) <;> cases he

/-- Behind a text a reader expects a value: whatever stands there and cannot be read is its
failure. -/
def ExpectsValue (f : Reader) (w : Text) : Prop := ∀ ⦃s e⦄, Refused s e → f (w ++ s) = .error e

/-- A reader fails at the end of a text or at an integer that has too many digits only where it
expects a value. -/
def FailsWhereExpected (f : Reader) (t : Text) : Prop :=
  ∀ ⦃e⦄, f t = .error e → LacksValue e → ∃ w s, t = w ++ s ∧ Refused s e ∧ ExpectsValue f w

theorem FailsWhereExpected.afterItem {more : Value → Reader} {k : Container}
    {finish : Value → Value} (hlocal : IsLocal f) (hf : FailsWhereExpected f t)
    (hmore : ∀ v u, u.length + 2 ≤ t.length → FailsWhereExpected (more v) u) :
    FailsWhereExpected (fun t => afterItem k finish more (f t)) t := by
  intro e h he
  dsimp only at h
  cases itemForm hlocal k t with
  | failed hread =>
      rw [hread] at h
      obtain rfl := Except.error.inj h
      obtain ⟨w, s, ht, hs, hexpects⟩ := hf hread he
      refine ⟨w, s, ht, hs, fun s' e' hs' => ?_⟩
      dsimp only
      rw [hexpects hs']
      rfl
  | last v w u hw hlast =>
      rw [hlast] at h
      cases h
  | more v w u hw hu hnext =>
      rw [hnext _ _ _ hu] at h
      have hlength : u.length + 2 ≤ (w ++ u).length := by
        rw [List.length_append]
        omega
      obtain ⟨w', s, rfl, hs, hexpects⟩ := hmore v u hlength h he
      refine ⟨w ++ w', s, by rw [List.append_assoc], hs, fun s' e' hs' => ?_⟩
      dsimp only
      rw [List.append_assoc, hnext _ _ _ (hu.append_congr hs'.clean)]
      exact hexpects hs'
  | unmarked place hfault =>
      rw [hfault] at h
      obtain rfl := Except.error.inj h
      exact absurd he (not_lacksValue_malformed (by decide) place)

theorem FailsWhereExpected.afterName {f : Text → Reader}
    (hf : ∀ name u, u.length < t.length → FailsWhereExpected (f name) u) :
    FailsWhereExpected (afterName f) t := by
  intro e h he
  unfold Json.afterName at h
  split at h
  case h_1 e' hname =>
    obtain rfl := Except.error.inj h
    obtain ⟨fault, place, hfault, rfl⟩ := readName_error hname
    exact absurd he (not_lacksValue_malformed hfault place)
  case h_2 name u hname =>
    obtain ⟨hu, w, hw, rfl, hlocal⟩ := readName_append hname
    have hlength : u.length < (w ++ u).length := by
      rw [List.length_append]
      exact Nat.lt_add_of_pos_left (List.length_pos_of_ne_nil hw)
    obtain ⟨w', s, rfl, hs, hexpects⟩ := hf name u hlength h he
    refine ⟨w ++ w', s, by rw [List.append_assoc], hs, fun s' e' hs' => ?_⟩
    rw [List.append_assoc, Json.afterName, hlocal _ (hu.append_congr hs'.clean)]
    exact hexpects hs'

theorem failsWhereExpected_scalar (hscalar : ∀ k, t.head? ≠ some (opening k)) (steps room : Nat) :
    FailsWhereExpected (readValue (steps + 1) room) t := by
  intro e h he
  have hexpects : ExpectsValue (readValue (steps + 1) room) [] :=
    fun s' e' hs' => hs'.readValue steps room
  rw [readValue_of_scalar hscalar] at h
  rcases readScalar_error h with ⟨fault, place, rfl, hplace⟩ | ⟨⟨n, rfl⟩, htooLong⟩
  · rcases he with he | ⟨n, he⟩
    · obtain ⟨rfl, rfl⟩ := ReadError.malformed.inj he
      rw [← hplace rfl]
      exact ⟨[], [], rfl, .atEnd, hexpects⟩
    · cases he
  · exact ⟨[], t, rfl, .tooLong htooLong h, hexpects⟩

theorem failsWhereExpected_items {k : Container} {gap u : Text} {steps room : Nat}
    (hu : Clean u) (hmore : u.head? ≠ some (closing k))
    (hitem : ∀ u', Clean u' → u'.head? ≠ some (closing k) → ∀ steps,
      readValue (steps + 1) (room + 1) (opening k :: (gap ++ u')) = readItems k steps room u')
    (hitems : FailsWhereExpected (readItems k steps room) u) :
    FailsWhereExpected (readValue (steps + 1) (room + 1)) (opening k :: (gap ++ u)) := by
  intro e h he
  rw [hitem u hu hmore] at h
  obtain ⟨w, s, rfl, hs, hexpects⟩ := hitems h he
  refine ⟨opening k :: (gap ++ w), s, by simp only [List.cons_append, List.append_assoc], hs,
    fun s' e' hs' => ?_⟩
  have hclosing : (w ++ s').head? ≠ some (closing k) := by
    cases w with
    | cons c w => exact hmore
    | nil =>
        refine hs'.head?_ne ?_ ?_
        · cases k <;> decide
        · cases k <;> rfl
  rw [List.cons_append, List.append_assoc, hitem _ (hu.append_congr hs'.clean) hclosing]
  exact hexpects hs'

/-- The readers fail at the end of a text or at an integer that has too many digits only where they
expect a value. Without steps they would fail at once, so there must be enough. -/
theorem failsWhereExpected_read (steps : Nat) : ∀ t,
    (2 * t.length + 1 ≤ steps → ∀ room, FailsWhereExpected (readValue steps room) t) ∧
    (2 * t.length + 2 ≤ steps → ∀ room members,
      FailsWhereExpected (readMembers steps room members) t) ∧
    (2 * t.length + 2 ≤ steps → ∀ room elements,
      FailsWhereExpected (readElements steps room elements) t) := by
  induction steps with
  | zero => exact fun t => ⟨fun h => by omega, fun h => by omega, fun h => by omega⟩
  | succ steps ih =>
      refine fun t => ⟨fun hsteps room => ?_, fun hsteps room members => ?_,
        fun hsteps room elements => ?_⟩
      · cases valueForm room t with
        | scalar hscalar => exact failsWhereExpected_scalar hscalar steps room
        | tooNested k rest =>
            intro e h he
            rw [readValue_tooNested] at h
            obtain rfl := Except.error.inj h
            exact absurd he (not_lacksValue_tooNested k)
        | empty k w u hempty =>
            intro e h he
            rw [hempty] at h
            cases h
        | items k gap u hu hmore hitem =>
            simp only [List.length_cons, List.length_append] at hsteps
            refine failsWhereExpected_items hu hmore hitem ?_
            cases k with
            | array => exact (ih u).2.2 (by omega) _ []
            | object => exact (ih u).2.1 (by omega) _ []
      · rw [funext (readMembers_succ steps room members)]
        refine .afterName fun name u hlength => ?_
        refine .afterItem (isLocal_readValue steps room) ((ih u).1 (by omega) room)
          fun v u' hlength' => ?_
        exact (ih u').2.1 (by omega) room _
      · rw [funext (readElements_succ steps room elements)]
        refine .afterItem (isLocal_readValue steps room) ((ih t).1 (by omega) room)
          fun v u' hlength' => ?_
        exact (ih u').2.2 (by omega) room _

end Cuts

section Documents

variable {t : Text}

/-- A document holds an integer of more digits than can be read: it is well-formed up to there and
lacks nothing but a value, and that integer stands in its place. -/
def HasTooLongInteger (t : Text) : Prop :=
  ∃ before after, t = before ++ after ∧ BeginsTooLong after ∧
    read before = .error (.malformed .expectingValue [])

theorem read_error_iff {e : ReadError} (he : LacksValue e) :
    read t = .error e ↔ t.head? ≠ some (.scalar '\uFEFF') ∧
      readValue (2 * t.length + 1) maxNesting (skipBlanks t) = .error e := by
  rw [read]
  by_cases hmark : t.head? = some (.scalar '\uFEFF')
  · rw [if_pos hmark]
    refine iff_of_false (fun h => ?_) fun h => h.1 hmark
    obtain rfl := Except.error.inj h
    exact not_lacksValue_malformed (by decide) t he
  · rw [if_neg hmark, and_iff_right hmark]
    cases hread : readValue (2 * t.length + 1) maxNesting (skipBlanks t) with
    | error e' =>
        dsimp only
        rw [Except.error.injEq, Except.error.injEq]
    | ok r =>
        obtain ⟨v, rest⟩ := r
        dsimp only
        refine iff_of_false (fun h => ?_) fun h => by cases h
        split at h
        · cases h
        · obtain rfl := Except.error.inj h
          exact not_lacksValue_malformed (by decide) (skipBlanks rest) he

theorem clean_nil : Clean [] := fun c hc => absurd hc (Option.some_ne_none c).symm

theorem Clean.of_append {w s : Text} (h : Clean (w ++ s)) : Clean w := by
  rw [← List.append_nil w]
  exact h.append_congr clean_nil

theorem skipBlanks_append_of_clean {s : Text} (hs : Clean s) :
    skipBlanks (t ++ s) = skipBlanks t ++ s := by
  obtain ⟨gap, hgap, ht⟩ := exists_gap t
  have hend : Clean (skipBlanks t ++ []) := by
    rw [List.append_nil]
    exact clean_skipBlanks t
  calc skipBlanks (t ++ s) = skipBlanks (gap ++ (skipBlanks t ++ s)) := by
        rw [← List.append_assoc, ← ht]
    _ = skipBlanks t ++ s := skipBlanks_append_clean hgap (hend.append_congr hs)

theorem length_skipBlanks_le (t : Text) : (skipBlanks t).length ≤ t.length :=
  (List.dropWhile_suffix isBlank).length_le

/-- A document that is refused for an integer lacks only a value up to that integer. -/
theorem hasTooLongInteger_of_read {n : Nat} (h : read t = .error (.tooManyDigits n)) :
    HasTooLongInteger t := by
  obtain ⟨hmark, hvalue⟩ := (read_error_iff (.inr ⟨n, rfl⟩)).1 h
  have hlength := length_skipBlanks_le t
  obtain ⟨w, s, hws, hs, hexpects⟩ :=
    (failsWhereExpected_read (2 * t.length + 1) (skipBlanks t)).1 (by omega) maxNesting hvalue
      (.inr ⟨n, rfl⟩)
  rw [hws, List.length_append] at hlength
  obtain ⟨gap, hgap, ht⟩ := exists_gap t
  rw [hws, ← List.append_assoc] at ht
  have hclean : Clean w := Clean.of_append (hws ▸ clean_skipBlanks t)
  have hbefore : skipBlanks (gap ++ w) = w := skipBlanks_append_clean hgap hclean
  have hend := hexpects .atEnd
  rw [List.append_nil, readValue_steps (2 * (gap ++ w).length + 1) _ (by omega)
    (by rw [List.length_append]; omega)] at hend
  cases hs with
  | tooLong htooLong _ =>
      refine ⟨gap ++ w, s, ht, htooLong, (read_error_iff (.inl rfl)).2 ⟨fun hhead => ?_, ?_⟩⟩
      · rw [ht, List.head?_append, hhead] at hmark
        exact hmark rfl
      · rw [hbefore]
        exact hend

/-- An integer of too many digits where a document lacks a value is the reason to refuse it. -/
theorem HasTooLongInteger.read (h : HasTooLongInteger t) :
    ∃ n, read t = .error (.tooManyDigits n) := by
  obtain ⟨before, after, rfl, hafter, hread⟩ := h
  obtain ⟨hmark, hvalue⟩ := (read_error_iff (.inl rfl)).1 hread
  obtain ⟨n, hrefused⟩ := hafter.exists_refused
  have hlength := length_skipBlanks_le before
  have henough : 2 * (skipBlanks before).length + 1 ≤ 2 * (before ++ after).length + 1 := by
    rw [List.length_append]
    omega
  rw [readValue_steps (2 * (before ++ after).length + 1) _ (by omega) henough] at hvalue
  obtain ⟨w, s, hws, hs, hexpects⟩ :=
    (failsWhereExpected_read _ (skipBlanks before)).1 henough maxNesting hvalue (.inl rfl)
  cases hs with
  | atEnd =>
      refine ⟨n, (read_error_iff (.inr ⟨n, rfl⟩)).2 ⟨?_, ?_⟩⟩
      · cases before with
        | nil => exact hrefused.head?_ne (by decide) rfl
        | cons c before => exact hmark
      · rw [skipBlanks_append_of_clean hrefused.clean, hws, List.append_nil]
        exact hexpects hrefused

end Documents

end VersionedProperties.Json
