import VersionedProperties.Proofs.Document.Escape
import VersionedProperties.Proofs.Document.NumberEscape

/-!
# What may stand between a name and its value

An entry can be written with other separators than the one that the encoder puts: with blanks around
a mark, or with blanks alone. The escapes on both sides keep the parts apart. The name is read up to
the separator, since nothing that is written in a name ends it, and what is left out behind the name
ends at the value, since a written value begins neither with a blank nor with a mark. Nothing but
blanks with at most one mark among them can be put there without being read as a part of the entry.
-/

namespace VersionedProperties.PropertiesText

/-- Blanks around a mark, or at least one blank. -/
inductive IsSeparation : Text → Prop
  | mark {before after : Text} {c : CodePoint} (hbefore : ∀ b ∈ before, isBlank b = true)
      (hc : isSeparator c = true) (hafter : ∀ b ∈ after, isBlank b = true) :
      IsSeparation (before ++ c :: after)
  | blanks {b : CodePoint} {rest : Text} (hb : isBlank b = true)
      (hrest : ∀ b ∈ rest, isBlank b = true) : IsSeparation (b :: rest)

/-- The line of an entry with a text between the name and the value. -/
def lineWith (sep : Text) (e : Text × Text) : Text := escapeName e.1 ++ sep ++ escapeValue e.2

/-- A line is a logical line of its own and is read as an entry. -/
structure States (line : Text) (e : Text × Text) : Prop where
  begins : ∃ c rest, line = c :: rest ∧ isBlank c = false ∧ isCommentMark c = false
  closed : isOpen line = false
  unbroken : .scalar '\n' ∉ line ∧ .scalar '\r' ∉ line
  name : unescape (splitEntry line).1 = .ok e.1
  value : unescape (splitEntry line).2 = .ok e.2

section Written

theorem escapeName_cons (c : CodePoint) (name : Text) :
    escapeName (c :: name) = escapeChar true c ++ escapeName name :=
  List.flatMap_cons

theorem unescape_escapeName (name : Text) : unescape (escapeName name) = .ok name := by
  have hmeaning : (nameCode name).map Token.meaning = name := map_meaning_token true name
  rw [← render_nameCode, unescape_render, hmeaning]

theorem unescape_escapeValue (value : Text) : unescape (escapeValue value) = .ok value := by
  rw [← render_valueCode, unescape_render, map_meaning_valueCode]

theorem isOpen_escapeName (name : Text) : isOpen (escapeName name) = false := by
  rw [← render_nameCode]
  exact isOpen_render _

theorem isOpen_escapeValue (value : Text) : isOpen (escapeValue value) = false := by
  rw [← render_valueCode]
  exact isOpen_render _

/-- A code point that is written in some form leaves no line break on the page. -/
theorem escapeChar_unbroken (guarded : Bool) (c : CodePoint) :
    ∀ d ∈ escapeChar guarded c, d ≠ .scalar '\n' ∧ d ≠ .scalar '\r' := by
  have hbreak : ∀ d : CodePoint, d.isLineEnd = false → d ≠ .scalar '\n' ∧ d ≠ .scalar '\r' := by
    intro d hd
    constructor
    · rintro rfl
      cases hd
    · rintro rfl
      cases hd
  intro d hd
  rw [← text_token] at hd
  obtain ⟨hb, hc, htoken⟩ | ⟨e, hu, he, hc, hletter, htoken⟩ | ⟨hc, hletter, htoken⟩ :=
    token_cases guarded c
  · rw [htoken] at hd
    obtain rfl := List.mem_singleton.1 hd
    constructor
    · rintro rfl
      cases guarded <;> cases hc
    · rintro rfl
      cases guarded <;> cases hc
  · rw [htoken] at hd
    rcases List.mem_cons.1 hd with rfl | hd
    · decide
    · obtain rfl := List.mem_singleton.1 hd
      exact hbreak d he
  · rw [htoken] at hd
    rcases List.mem_append.1 hd with hd | hd
    · have hmark : ∀ d ∈ Text.ofString "\\u", d.isLineEnd = false := by decide
      exact hbreak d (hmark d hd)
    · exact hbreak d (plain_hexadecimal _ d hd).2.2.2

theorem escapeName_unbroken (name : Text) :
    ∀ d ∈ escapeName name, d ≠ .scalar '\n' ∧ d ≠ .scalar '\r' := by
  intro d hd
  obtain ⟨c, -, hc⟩ := List.mem_flatMap.1 hd
  exact escapeChar_unbroken true c d hc

theorem escapeValue_unbroken (value : Text) :
    ∀ d ∈ escapeValue value, d ≠ .scalar '\n' ∧ d ≠ .scalar '\r' := by
  cases value with
  | nil => exact nofun
  | cons c rest =>
      intro d hd
      rcases List.mem_append.1 hd with hd | hd
      · exact escapeChar_unbroken true c d hd
      · obtain ⟨c', -, hc'⟩ := List.mem_flatMap.1 hd
        exact escapeChar_unbroken false c' d hc'

/-- What a guarded code point is written as begins with nothing that the reader leaves out. -/
theorem escapeChar_begins (c : CodePoint) : ∃ d rest, escapeChar true c = d :: rest ∧
    isBlank d = false ∧ isSeparator d = false ∧ isCommentMark d = false := by
  obtain ⟨d, rest, htext, hfirst⟩ := text_eq_cons (token true c)
  refine ⟨d, rest, by rw [← text_token, htext], ?_, ?_, ?_⟩
  · rw [hfirst isBlank (by decide), isBare_isBlank_token]
  · rw [hfirst isSeparator (by decide), (isBare_split_token c).1]
  · rw [hfirst isCommentMark (by decide), isBare_isCommentMark_token]

theorem escapeName_begins {name : Text} (hname : name ≠ []) : ∃ d rest,
    escapeName name = d :: rest ∧ isBlank d = false ∧ isCommentMark d = false := by
  obtain ⟨c, name, rfl⟩ := List.exists_cons_of_ne_nil hname
  obtain ⟨d, rest, htext, hblank, -, hcomment⟩ := escapeChar_begins c
  refine ⟨d, rest ++ escapeName name, ?_, hblank, hcomment⟩
  rw [escapeName_cons, htext, List.cons_append]

end Written

section Splitting

theorem splitName_escapeName (name t : Text) :
    splitName (escapeName name ++ t) = (escapeName name ++ (splitName t).1, (splitName t).2) := by
  induction name with
  | nil => rfl
  | cons c name ih =>
      rw [escapeName_cons, ← text_token, List.append_assoc, splitName_text (inName_token c), ih,
        List.append_assoc]

theorem dropLeading_blanks {blanks : Text} (hblanks : ∀ b ∈ blanks, isBlank b = true) (t : Text) :
    Text.dropLeading isBlank (blanks ++ t) = Text.dropLeading isBlank t :=
  List.dropWhile_append_of_pos hblanks

theorem dropLeading_escapeValue (value : Text) :
    Text.dropLeading isBlank (escapeValue value) = escapeValue value := by
  cases value with
  | nil => rfl
  | cons c rest =>
      obtain ⟨d, more, htext, hblank, -, -⟩ := escapeChar_begins c
      rw [escapeValue, htext]
      exact List.dropWhile_cons_of_neg (Bool.eq_false_iff.1 hblank)

theorem dropSeparator_escapeValue (value : Text) :
    dropSeparator (escapeValue value) = escapeValue value := by
  rw [dropSeparator, dropLeading_escapeValue]
  cases value with
  | nil => rfl
  | cons c rest =>
      obtain ⟨d, more, htext, -, hseparator, -⟩ := escapeChar_begins c
      rw [escapeValue, htext]
      exact if_neg (Bool.eq_false_iff.1 hseparator)

theorem dropSeparator_blanks {blanks : Text} (hblanks : ∀ b ∈ blanks, isBlank b = true) (t : Text) :
    dropSeparator (blanks ++ t) = dropSeparator t := by
  rw [dropSeparator, dropLeading_blanks hblanks, dropSeparator]

theorem dropSeparator_mark {c : CodePoint} (hc : isSeparator c = true) (t : Text) :
    dropSeparator (c :: t) = Text.dropLeading isBlank t := by
  have hblank : ¬ isBlank c = true := by
    simp only [isSeparator, Bool.or_eq_true, decide_eq_true_eq] at hc
    rcases hc with rfl | rfl <;> decide
  rw [dropSeparator, Text.dropLeading, List.dropWhile_cons_of_neg hblank]
  exact if_pos hc

variable {sep : Text}

theorem IsSeparation.stopsName (h : IsSeparation sep) (t : Text) :
    splitName (sep ++ t) = ([], sep ++ t) := by
  have hstop : ∀ (c : CodePoint) (u : Text), (isSeparator c || isBlank c) = true →
      splitName (c :: u) = ([], c :: u) := by
    intro c u hc
    refine splitName_stop ?_ hc u
    rintro rfl
    cases hc
  cases h with
  | @mark before after c hbefore hc hafter =>
      cases before with
      | nil => exact hstop c _ (by rw [hc, Bool.true_or])
      | cons b before => exact hstop b _ (by rw [hbefore b List.mem_cons_self, Bool.or_true])
  | blanks hb hrest => exact hstop _ _ (by rw [hb, Bool.or_true])

theorem IsSeparation.dropSeparator_append (h : IsSeparation sep) (value : Text) :
    dropSeparator (sep ++ escapeValue value) = escapeValue value := by
  cases h with
  | mark hbefore hc hafter =>
      rw [List.append_assoc, List.cons_append, dropSeparator_blanks hbefore, dropSeparator_mark hc,
        dropLeading_blanks hafter, dropLeading_escapeValue]
  | blanks hb hrest =>
      rw [dropSeparator_blanks (List.forall_mem_cons.2 ⟨hb, hrest⟩), dropSeparator_escapeValue]

/-- The reader finds the parts as they were written. -/
theorem IsSeparation.splitEntry_lineWith (h : IsSeparation sep) (e : Text × Text) :
    splitEntry (lineWith sep e) = (escapeName e.1, escapeValue e.2) := by
  rw [splitEntry, lineWith, List.append_assoc, splitName_escapeName, h.stopsName]
  dsimp only
  rw [List.append_nil, h.dropSeparator_append]

theorem IsSeparation.mem (h : IsSeparation sep) :
    ∀ c ∈ sep, isBlank c = true ∨ isSeparator c = true := by
  cases h with
  | mark hbefore hc hafter =>
      intro c' hc'
      rcases List.mem_append.1 hc' with hc' | hc'
      · exact .inl (hbefore c' hc')
      · rcases List.mem_cons.1 hc' with rfl | hc'
        · exact .inr hc
        · exact .inl (hafter c' hc')
  | blanks hb hrest =>
      intro c hc
      rcases List.mem_cons.1 hc with rfl | hc
      · exact .inl hb
      · exact .inl (hrest c hc)

theorem IsSeparation.not_mem (h : IsSeparation sep) {c : CodePoint} (hblank : isBlank c = false)
    (hseparator : isSeparator c = false) : c ∉ sep := by
  intro hc
  rcases h.mem c hc with hc | hc
  · exact absurd (hblank.symm.trans hc) Bool.false_ne_true
  · exact absurd (hseparator.symm.trans hc) Bool.false_ne_true

theorem IsSeparation.isOpen_lineWith (h : IsSeparation sep) (e : Text × Text) :
    isOpen (lineWith sep e) = false := by
  have hsep : isOpen sep = false := isOpen_of_not_mem (h.not_mem rfl rfl)
  rw [lineWith, List.append_assoc, isOpen_append (isOpen_escapeName e.1), isOpen_append hsep,
    isOpen_escapeValue]

theorem IsSeparation.lineWith_unbroken (h : IsSeparation sep) (e : Text × Text) :
    ∀ c ∈ lineWith sep e, c ≠ .scalar '\n' ∧ c ≠ .scalar '\r' := by
  intro c hc
  rcases List.mem_append.1 hc with hc | hc
  · rcases List.mem_append.1 hc with hc | hc
    · exact escapeName_unbroken e.1 c hc
    · constructor
      · rintro rfl
        exact h.not_mem rfl rfl hc
      · rintro rfl
        exact h.not_mem rfl rfl hc
  · exact escapeValue_unbroken e.2 c hc

/-- An entry that is written with a separation is read as the entry. -/
theorem IsSeparation.states (h : IsSeparation sep) {e : Text × Text} (he : e.1 ≠ []) :
    States (lineWith sep e) e where
  begins := by
    obtain ⟨d, rest, hname, hblank, hcomment⟩ := escapeName_begins he
    refine ⟨d, rest ++ sep ++ escapeValue e.2, ?_, hblank, hcomment⟩
    rw [lineWith, hname]
    rfl
  closed := h.isOpen_lineWith e
  unbroken := ⟨fun hc => (h.lineWith_unbroken e _ hc).1 rfl,
    fun hc => (h.lineWith_unbroken e _ hc).2 rfl⟩
  name := by rw [h.splitEntry_lineWith, unescape_escapeName]
  value := by rw [h.splitEntry_lineWith, unescape_escapeValue]

end Splitting

section Necessity

theorem eq_nil_of_unescape {t : Text} (h : unescape t = .ok []) : t = [] := by
  have hcons : ∀ (r : Except FormatFault Text) (c : CodePoint), r.map (c :: ·) ≠ .ok [] := by
    intro r c hr
    cases r <;> cases hr
  rw [unescape.eq_def] at h
  split at h
  · split at h
    · exact absurd h (hcons _ _)
    · cases h
  · cases h
  · exact absurd h (hcons _ _)
  · exact absurd h (hcons _ _)
  · rfl

theorem eq_nil_of_unescape_bare {c : CodePoint} (hc : c ≠ backslash) {t : Text}
    (h : unescape (c :: t) = .ok [c]) : t = [] := by
  rw [unescape_bare hc] at h
  apply eq_nil_of_unescape
  cases hrest : unescape t with
  | error fault =>
      rw [hrest] at h
      cases h
  | ok rest =>
      rw [hrest] at h
      cases h
      rfl

/-- What leaves nothing behind it consists of blanks, with at most one mark among them. -/
theorem isSeparation_of_dropSeparator {sep : Text} (h : dropSeparator sep = []) :
    sep = [] ∨ IsSeparation sep := by
  have hblanks : ∀ t : Text, Text.dropLeading isBlank t = [] → ∀ b ∈ t, isBlank b = true :=
    fun t ht => List.dropWhile_eq_nil_iff.1 ht
  rw [dropSeparator] at h
  split at h
  · rename_i hdrop
    cases sep with
    | nil => exact .inl rfl
    | cons b rest =>
        have hall := List.forall_mem_cons.1 (hblanks _ hdrop)
        exact .inr (.blanks hall.1 hall.2)
  · rename_i c rest hdrop
    split at h
    · have hsep : sep = sep.takeWhile isBlank ++ c :: rest := by
        rw [← hdrop]
        exact List.takeWhile_append_dropWhile.symm
      rw [hsep]
      exact .inr (.mark (fun b hb => List.mem_takeWhile_imp hb) ‹_› (hblanks _ h))
    · cases h

/-- Entries are read as they were meant, whatever their names and values are, just if there are
blanks with one mark among them, or at least one blank, between name and value. -/
theorem states_lineWith_iff (sep : Text) :
    (∀ e : Text × Text, e.1 ≠ [] → States (lineWith sep e) e) ↔ IsSeparation sep := by
  constructor
  · intro h
    have hsingle := h ("a", "") (by decide)
    have hline : lineWith sep ("a", "") = .scalar 'a' :: sep := List.append_nil _
    have hsplit : splitEntry (.scalar 'a' :: sep) =
        (.scalar 'a' :: (splitName sep).1, dropSeparator (splitName sep).2) := by
      rw [splitEntry, splitName_plain (by decide) (by decide)]
    have hname : (splitName sep).1 = [] := by
      have hread := hsingle.name
      rw [hline, hsplit] at hread
      exact eq_nil_of_unescape_bare (by decide) hread
    have hrest : (splitName sep).2 = sep := by
      have happend := splitName_append sep
      rwa [hname, List.nil_append] at happend
    have hvalue : dropSeparator sep = [] := by
      have hread := hsingle.value
      rw [hline, hsplit, hrest] at hread
      exact eq_nil_of_unescape hread
    refine (isSeparation_of_dropSeparator hvalue).resolve_left ?_
    -- Without anything in between, the value goes on with the name.
    rintro rfl
    exact absurd (h ("a", "b") (by decide)).name (by decide)
  · exact fun h e he => h.states he

end Necessity

end VersionedProperties.PropertiesText
