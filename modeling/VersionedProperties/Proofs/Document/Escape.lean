import VersionedProperties.Proofs.Document.Token

/-!
# Escaping is writing tokens

Every code point is written as a token that stands for it. A code point is written as it is if it
is plain: no control code, no backslash, no mark that a stage of reading knows, and no space in a
name or at the beginning of a value. The line ends beyond ASCII are plain, so they are written as
they are and end a line when the document is read.
-/

namespace VersionedProperties

/-- Whether a code point is a line end beyond ASCII: the next line, the line separator or the
paragraph separator. -/
def CodePoint.isWideLineEnd (c : CodePoint) : Bool :=
  c.toNat = 0x85 || c.toNat = 0x2028 || c.toNat = 0x2029

theorem CodePoint.isLineEnd_of_isWideLineEnd {c : CodePoint} (hc : c.isWideLineEnd = true) :
    c.isLineEnd = true := by
  simp only [isWideLineEnd, Bool.or_eq_true, decide_eq_true_eq] at hc
  rw [isLineEnd]
  rcases hc with (hc | hc) | hc
  · rw [hc]
    decide
  · rw [hc]
    decide
  · rw [hc]
    decide

theorem CodePoint.isWideLineEnd_of_isLineEnd {c : CodePoint} (hc : c.isLineEnd = true)
    (hn : 0x20 ≤ c.toNat) : c.isWideLineEnd = true := by
  simp only [isLineEnd, lineEndRanges, Ranges.has_cons, Ranges.has_nil, Bool.or_false,
    Bool.or_eq_true, Bool.and_eq_true, decide_eq_true_eq] at hc
  simp only [isWideLineEnd, Bool.or_eq_true, decide_eq_true_eq]
  omega

namespace PropertiesText

/-- Whether a code point is written as it is. -/
def isPlain (guarded : Bool) (c : CodePoint) : Bool :=
  0x20 ≤ c.toNat && c.toNat ≠ 0x7f && c ≠ backslash && !(isSeparator c || isCommentMark c) &&
    !(c = .scalar ' ' && guarded)

theorem ne_backslash_of_isPlain {guarded : Bool} {c : CodePoint} (hc : isPlain guarded c = true) :
    c ≠ backslash := by
  rintro rfl
  cases guarded <;> exact absurd hc (by decide)

/-- What stands behind the backslash where a code point has an escaped form without a number. -/
def letter? (c : CodePoint) : Option CodePoint :=
  if c = .scalar '\t' then some (.scalar 't')
  else if c = .scalar '\n' then some (.scalar 'n')
  else if c = .scalar '\r' then some (.scalar 'r')
  else if c = .scalar '\x0c' then some (.scalar 'f')
  else if c = backslash || c = .scalar ' ' || isSeparator c || isCommentMark c then some c
  else none

theorem letter?_eq_some {c d : CodePoint} (h : letter? c = some d) :
    d ≠ .scalar 'u' ∧ d.isLineEnd = false ∧ unescapeChar d = c := by
  unfold letter? at h
  split at h
  · subst c
    cases h
    decide
  split at h
  · subst c
    cases h
    decide
  split at h
  · subst c
    cases h
    decide
  split at h
  · subst c
    cases h
    decide
  split at h
  · rename_i hmark
    cases h
    simp only [isSeparator, isCommentMark, Bool.or_eq_true, decide_eq_true_eq] at hmark
    rcases hmark with ((rfl | rfl) | rfl | rfl) | rfl | rfl <;> decide
  · cases h

theorem escapeChar_of_isPlain {guarded : Bool} {c : CodePoint} (hc : isPlain guarded c = true) :
    escapeChar guarded c = [c] := by
  simp only [isPlain, Bool.and_eq_true, decide_eq_true_eq, Bool.not_eq_true'] at hc
  obtain ⟨⟨⟨⟨hlow, hdel⟩, hslash⟩, hmark⟩, hspace⟩ := hc
  have hcontrol : ∀ d : Char, d.toNat < 0x20 → c ≠ .scalar d := by
    rintro d hd rfl
    rw [CodePoint.toNat_scalar] at hlow
    omega
  have hnumber : ¬ (decide (c.toNat < 0x20) || decide (c.toNat = 0x7f)) = true := by
    simp only [Bool.or_eq_true, decide_eq_true_eq]
    omega
  rw [escapeChar, if_neg (hcontrol _ (by decide)), if_neg (hcontrol _ (by decide)),
    if_neg (hcontrol _ (by decide)), if_neg (hcontrol _ (by decide)), if_neg hslash,
    if_neg (Bool.eq_false_iff.1 hspace), if_neg (Bool.eq_false_iff.1 hmark), if_neg hnumber]

theorem escapeChar_of_letter? {guarded : Bool} {c d : CodePoint} (hc : isPlain guarded c = false)
    (hd : letter? c = some d) : escapeChar guarded c = [backslash, d] := by
  unfold letter? at hd
  split at hd
  · subst c
    cases hd
    rfl
  split at hd
  · subst c
    cases hd
    rfl
  split at hd
  · subst c
    cases hd
    rfl
  split at hd
  · subst c
    cases hd
    rfl
  split at hd
  · rename_i hmark
    cases hd
    simp only [isSeparator, isCommentMark, Bool.or_eq_true, decide_eq_true_eq] at hmark
    rcases hmark with ((rfl | rfl) | rfl | rfl) | rfl | rfl
    · rfl
    · -- A space is plain unless it is guarded.
      cases guarded with
      | true => rfl
      | false => exact absurd hc (by decide)
    all_goals cases guarded <;> rfl
  · cases hd

theorem escapeChar_of_number {guarded : Bool} {c : CodePoint} (hc : isPlain guarded c = false)
    (hd : letter? c = none) :
    c.toNat < 128 ∧ escapeChar guarded c = "\\u" ++ hexadecimal 4 c.toNat := by
  unfold letter? at hd
  split at hd
  · cases hd
  split at hd
  · cases hd
  split at hd
  · cases hd
  split at hd
  · cases hd
  split at hd
  · cases hd
  rename_i htab hfeed hreturn hpage hmark
  simp only [Bool.or_eq_true, decide_eq_true_eq, not_or] at hmark
  obtain ⟨⟨⟨hslash, hspace⟩, hseparator⟩, hcomment⟩ := hmark
  have hnumber : (decide (c.toNat < 0x20) || decide (c.toNat = 0x7f)) = true := by
    rw [Bool.not_eq_true] at hseparator hcomment
    simp only [isPlain, ne_eq, hslash, hspace, hseparator, hcomment, not_false_eq_true,
      decide_true, decide_false, Bool.and_true, Bool.false_and, Bool.or_false, Bool.not_false,
      Bool.and_eq_false_iff, decide_eq_false_iff_not] at hc
    simp only [Bool.or_eq_true, decide_eq_true_eq]
    omega
  constructor
  · simp only [Bool.or_eq_true, decide_eq_true_eq] at hnumber
    omega
  · have hguard : ¬ (decide (c = .scalar ' ') && guarded) = true := by
      simp [hspace]
    have hnone : ¬ (isSeparator c || isCommentMark c) = true := by
      simp [hseparator, hcomment]
    rw [escapeChar, if_neg htab, if_neg hfeed, if_neg hreturn, if_neg hpage, if_neg hslash,
      if_neg hguard, if_neg hnone, if_pos hnumber]

/-- The token that a code point is written as. -/
def token (guarded : Bool) (c : CodePoint) : Token :=
  if h : isPlain guarded c then .bare c (ne_backslash_of_isPlain h)
  else
    match h : letter? c with
    | some d => .escaped d (letter?_eq_some h).1 (letter?_eq_some h).2.1
    | none => .numbered (Fin.ofNat 128 c.toNat)

/-- The three forms of a written code point. -/
theorem token_cases (guarded : Bool) (c : CodePoint) :
    (∃ hc, isPlain guarded c = true ∧ token guarded c = .bare c hc) ∨
      (∃ d hu hd, isPlain guarded c = false ∧ letter? c = some d ∧
        token guarded c = .escaped d hu hd) ∨
      (isPlain guarded c = false ∧ letter? c = none ∧
        token guarded c = .numbered (Fin.ofNat 128 c.toNat)) := by
  unfold token
  split
  · rename_i hc
    exact .inl ⟨ne_backslash_of_isPlain hc, hc, rfl⟩
  · rename_i hc
    have hc := Bool.eq_false_iff.2 hc
    split
    · rename_i d hd
      exact .inr (.inl ⟨d, (letter?_eq_some hd).1, (letter?_eq_some hd).2.1, hc, hd, rfl⟩)
    · rename_i hd
      exact .inr (.inr ⟨hc, hd, rfl⟩)

theorem text_token (guarded : Bool) (c : CodePoint) :
    (token guarded c).text = escapeChar guarded c := by
  obtain ⟨hb, hc, htoken⟩ | ⟨d, hu, hl, hc, hd, htoken⟩ | ⟨hc, hd, htoken⟩ := token_cases guarded c
  · rw [htoken, escapeChar_of_isPlain hc]
    rfl
  · rw [htoken, escapeChar_of_letter? hc hd]
    rfl
  · obtain ⟨hlt, htext⟩ := escapeChar_of_number hc hd
    rw [htoken, htext, Token.text, Fin.val_ofNat, Nat.mod_eq_of_lt hlt]

theorem meaning_token (guarded : Bool) (c : CodePoint) : (token guarded c).meaning = c := by
  obtain ⟨hb, hc, htoken⟩ | ⟨d, hu, hl, hc, hd, htoken⟩ | ⟨hc, hd, htoken⟩ := token_cases guarded c
  · rw [htoken]
    rfl
  · rw [htoken]
    exact (letter?_eq_some hd).2.2
  · have hlt := (escapeChar_of_number hc hd).1
    rw [htoken, Token.meaning, Fin.val_ofNat, Nat.mod_eq_of_lt hlt]
    cases c with
    | scalar c => rw [CodePoint.toNat_scalar, Char.ofNat_toNat]
    | surrogate u =>
        rw [CodePoint.toNat_surrogate] at hlt
        omega

theorem isBare_token (p : CodePoint → Bool) (guarded : Bool) (c : CodePoint) :
    (token guarded c).isBare p = (isPlain guarded c && p c) := by
  obtain ⟨hb, hc, htoken⟩ | ⟨d, hu, hl, hc, hd, htoken⟩ | ⟨hc, hd, htoken⟩ := token_cases guarded c
  · rw [htoken, hc, Bool.true_and]
    rfl
  · rw [htoken, hc, Bool.false_and]
    rfl
  · rw [htoken, hc, Bool.false_and]
    rfl

theorem isPlain_of_isWideLineEnd (guarded : Bool) {c : CodePoint}
    (hc : c.isWideLineEnd = true) : isPlain guarded c = true := by
  simp only [CodePoint.isWideLineEnd, Bool.or_eq_true, decide_eq_true_eq] at hc
  have hbeyond : ∀ d : Char, d.toNat < 0x80 → c ≠ .scalar d := by
    rintro d hd rfl
    simp only [CodePoint.toNat_scalar] at hc
    omega
  have hslash : c ≠ backslash := hbeyond '\\' (by decide)
  simp only [isPlain, isSeparator, isCommentMark, hslash, hbeyond '=' (by decide),
    hbeyond ':' (by decide), hbeyond '#' (by decide), hbeyond '!' (by decide),
    hbeyond ' ' (by decide), decide_false, Bool.or_false, Bool.false_and, Bool.not_false, ne_eq,
    not_false_eq_true, decide_true, Bool.and_true, Bool.and_eq_true, decide_eq_true_eq]
  omega

theorem isBare_isLineEnd_token (guarded : Bool) (c : CodePoint) :
    (token guarded c).isBare CodePoint.isLineEnd = c.isWideLineEnd := by
  rw [isBare_token, Bool.eq_iff_iff, Bool.and_eq_true]
  constructor
  · rintro ⟨hplain, hend⟩
    simp only [isPlain, Bool.and_eq_true, decide_eq_true_eq] at hplain
    exact CodePoint.isWideLineEnd_of_isLineEnd hend hplain.1.1.1.1
  · intro hwide
    exact ⟨isPlain_of_isWideLineEnd guarded hwide, CodePoint.isLineEnd_of_isWideLineEnd hwide⟩

/-- Nothing that is written as it is in a name ends the name. -/
theorem inName_token (c : CodePoint) : (token true c).inName = true := by
  rw [Token.inName, isBare_token]
  by_cases hblank : isBlank c = true
  · simp only [isBlank, Bool.or_eq_true, decide_eq_true_eq] at hblank
    rcases hblank with (rfl | rfl) | rfl <;> decide
  · rw [Bool.not_eq_true] at hblank
    by_cases hseparator : isSeparator c = true
    · simp only [isSeparator, Bool.or_eq_true, decide_eq_true_eq] at hseparator
      rcases hseparator with rfl | rfl <;> decide
    · rw [Bool.not_eq_true] at hseparator
      rw [hblank, hseparator, Bool.or_false, Bool.and_false]
      rfl

/-- What is guarded begins neither with a mark nor with a blank. -/
theorem isBare_split_token (c : CodePoint) :
    (token true c).isBare isSeparator = false ∧ (token true c).isBare isBlank = false := by
  have hin := inName_token c
  rwa [Token.inName, Bool.not_eq_true', Token.isBare_or, Bool.or_eq_false_iff] at hin

theorem isBare_isBlank_token (c : CodePoint) : (token true c).isBare isBlank = false :=
  (isBare_split_token c).2

theorem isBare_isCommentMark_token (guarded : Bool) (c : CodePoint) :
    (token guarded c).isBare isCommentMark = false := by
  rw [isBare_token]
  by_cases hmark : isCommentMark c = true
  · simp only [isCommentMark, Bool.or_eq_true, decide_eq_true_eq] at hmark
    rcases hmark with rfl | rfl <;> cases guarded <;> decide
  · rw [Bool.not_eq_true] at hmark
    rw [hmark, Bool.and_false]

/-- The tokens that a name is written as. -/
def nameCode (name : Text) : List Token := name.map (token true)

/-- The tokens that a value is written as. -/
def valueCode : Text → List Token
  | [] => []
  | c :: rest => token true c :: rest.map (token false)

/-- The tokens that an entry is written as. -/
def entryCode (e : Text × Text) : List Token :=
  nameCode e.1 ++ .bare (.scalar '=') (by decide) :: valueCode e.2

theorem render_map_token (guarded : Bool) (t : Text) :
    render (t.map (token guarded)) = t.flatMap (escapeChar guarded) := by
  induction t with
  | nil => rfl
  | cons c t ih => rw [List.map_cons, render_cons, text_token, ih, List.flatMap_cons]

theorem render_nameCode (name : Text) : render (nameCode name) = escapeName name :=
  render_map_token true name

theorem render_valueCode (value : Text) : render (valueCode value) = escapeValue value := by
  cases value with
  | nil => rfl
  | cons c rest => rw [valueCode, render_cons, text_token, render_map_token, escapeValue]

theorem render_entryCode (e : Text × Text) : render (entryCode e) = entryLine e := by
  rw [entryCode, render_append, render_cons, render_nameCode, render_valueCode, entryLine,
    List.append_assoc]
  rfl

theorem map_meaning_token (guarded : Bool) (t : Text) :
    (t.map (token guarded)).map Token.meaning = t := by
  induction t with
  | nil => rfl
  | cons c t ih => rw [List.map_cons, List.map_cons, meaning_token, ih]

theorem map_meaning_valueCode (value : Text) : (valueCode value).map Token.meaning = value := by
  cases value with
  | nil => rfl
  | cons c rest => rw [valueCode, List.map_cons, meaning_token, map_meaning_token]

theorem forall_mem_nameCode {name : Text} {p : Token → Prop} (hp : ∀ c, p (token true c)) :
    ∀ a ∈ nameCode name, p a := by
  intro a ha
  obtain ⟨c, -, rfl⟩ := List.mem_map.1 ha
  exact hp c

theorem nameTokens_entryCode (e : Text × Text) : nameTokens (entryCode e) = nameCode e.1 := by
  rw [nameTokens, entryCode, List.takeWhile_append_of_pos (forall_mem_nameCode inName_token),
    List.takeWhile_cons_of_neg (by decide), List.append_nil]

theorem dropWhile_isBlank_valueCode (value : Text) :
    (valueCode value).dropWhile (Token.isBare isBlank) = valueCode value := by
  cases value with
  | nil => rfl
  | cons c rest =>
      exact List.dropWhile_cons_of_neg (Bool.eq_false_iff.1 (isBare_isBlank_token c))

theorem valueTokens_entryCode (e : Text × Text) : valueTokens (entryCode e) = valueCode e.2 := by
  rw [valueTokens, entryCode, List.dropWhile_append_of_pos (forall_mem_nameCode inName_token),
    List.dropWhile_cons_of_neg (by decide), afterSeparator,
    List.dropWhile_cons_of_neg (by decide)]
  exact dropWhile_isBlank_valueCode e.2

/-- The line of an entry is read as the entry. -/
theorem entryOf_entryLine (number : Nat) {e : Text × Text} (he : e.1 ≠ []) :
    entryOf ⟨number, entryLine e⟩ = .ok e := by
  have hname : (nameCode e.1).map Token.meaning = e.1 := map_meaning_token true e.1
  rw [← render_entryCode, entryOf_render, nameTokens_entryCode, valueTokens_entryCode, hname,
    map_meaning_valueCode]
  split
  · exact absurd ‹_› he
  · rfl

theorem onLine_map_token (guarded : Bool) {t : Text} :
    OnLine (t.map (token guarded)) ↔ ∀ c ∈ t, c.isWideLineEnd = false := by
  rw [OnLine, List.forall_mem_map]
  exact forall₂_congr fun c _ => by rw [isBare_isLineEnd_token]

theorem onLine_valueCode {value : Text} :
    OnLine (valueCode value) ↔ ∀ c ∈ value, c.isWideLineEnd = false := by
  cases value with
  | nil => exact onLine_map_token true (t := [])
  | cons c rest =>
      rw [valueCode, OnLine, List.forall_mem_cons, List.forall_mem_cons, isBare_isLineEnd_token]
      exact and_congr_right fun _ => onLine_map_token false

/-- An entry is written on one line if it holds no line end beyond ASCII. -/
theorem onLine_entryCode {e : Text × Text} :
    OnLine (entryCode e) ↔ ∀ c ∈ e.1 ++ e.2, c.isWideLineEnd = false := by
  rw [entryCode, OnLine, List.forall_mem_append, List.forall_mem_append, List.forall_mem_cons]
  have hsign : Token.isBare CodePoint.isLineEnd (.bare (.scalar '=') (by decide)) = false := rfl
  constructor
  · rintro ⟨hname, -, hvalue⟩
    exact ⟨(onLine_map_token true).1 hname, onLine_valueCode.1 hvalue⟩
  · rintro ⟨hname, hvalue⟩
    exact ⟨(onLine_map_token true).2 hname, hsign, onLine_valueCode.2 hvalue⟩

end PropertiesText

end VersionedProperties
