import VersionedProperties.Proofs.Document.LogicalLine

/-!
# Tokens of properties text

A raw text in which every backslash begins an escape is a sequence of tokens: code points that stand
for themselves, escaped code points, and numbers. Each stage of reading treats such a text token by
token, so what a written document is read as can be told from its tokens.
-/

namespace VersionedProperties.PropertiesText

/-- A code point in a raw text. -/
inductive Token where
  | bare (c : CodePoint) (hc : c ≠ backslash)
  | escaped (c : CodePoint) (hu : c ≠ .scalar 'u') (hc : c.isLineEnd = false)
  | numbered (n : Fin 128)

namespace Token

def text : Token → Text
  | bare c _ => [c]
  | escaped c _ _ => [backslash, c]
  | numbered n => "\\u" ++ hexadecimal 4 n

/-- The code point that a token stands for. -/
def meaning : Token → CodePoint
  | bare c _ => c
  | escaped c _ _ => unescapeChar c
  | numbered n => .scalar (Char.ofNat n)

/-- Whether a token is a code point of a class that stands for itself. -/
def isBare (p : CodePoint → Bool) : Token → Bool
  | bare c _ => p c
  | escaped _ _ _ => false
  | numbered _ => false

theorem isBare_or (a : Token) (p q : CodePoint → Bool) :
    a.isBare (fun c => p c || q c) = (a.isBare p || a.isBare q) := by
  cases a <;> rfl

/-- Whether a token belongs to the name of an entry if it comes in it. -/
def inName (a : Token) : Bool := !a.isBare fun c => isSeparator c || isBlank c

end Token

/-- The raw text of tokens. -/
def render (ts : List Token) : Text := ts.flatMap Token.text

theorem render_cons (a : Token) (ts : List Token) : render (a :: ts) = a.text ++ render ts :=
  List.flatMap_cons

theorem render_append (ts us : List Token) : render (ts ++ us) = render ts ++ render us :=
  List.flatMap_append

/-- Digits are none of the code points that a stage of reading treats in some way. -/
theorem plain_hexadecimal (n : Fin 128) : ∀ c ∈ hexadecimal 4 n,
    c ≠ backslash ∧ isBlank c = false ∧ isSeparator c = false ∧ c.isLineEnd = false := by
  revert n
  decide +kernel

theorem codePointOf?_hexadecimal (n : Fin 128) :
    codePointOf? (hexadecimal 4 n) = some (.scalar (Char.ofNat n)) := by
  revert n
  decide +kernel

theorem hexadecimal_eq_four (n : Fin 128) : ∃ a b c d, hexadecimal 4 n = [a, b, c, d] := by
  have hlength : (hexadecimal 4 n).length = 4 := by
    revert n
    decide
  match hdigits : hexadecimal 4 n, hlength with
  | [a, b, c, d], _ => exact ⟨a, b, c, d, rfl⟩

section Unescaping

theorem unescape_bare {c : CodePoint} (hc : c ≠ backslash) (t : Text) :
    unescape (c :: t) = (unescape t).map (c :: ·) := by
  rw [unescape]
  · intro a b d e rest h _
    exact hc h
  · intro rest h _
    exact hc h
  · intro d rest h _
    exact hc h

theorem unescape_escaped {c : CodePoint} (hc : c ≠ .scalar 'u') (t : Text) :
    unescape (backslash :: c :: t) = (unescape t).map (unescapeChar c :: ·) := by
  rw [backslash, unescape]
  · intro a b d e rest h _
    exact hc h
  · intro h
    exact hc h

theorem unescape_numbered (n : Fin 128) (t : Text) :
    unescape ("\\u" ++ hexadecimal 4 n ++ t) =
      (unescape t).map (.scalar (Char.ofNat n) :: ·) := by
  have hcode := codePointOf?_hexadecimal n
  obtain ⟨a, b, c, d, hdigits⟩ := hexadecimal_eq_four n
  rw [hdigits] at hcode ⊢
  change unescape (.scalar '\\' :: .scalar 'u' :: a :: b :: c :: d :: t) = _
  rw [unescape, hcode]

theorem unescape_text (a : Token) (t : Text) :
    unescape (a.text ++ t) = (unescape t).map (a.meaning :: ·) := by
  cases a with
  | bare c hc => exact unescape_bare hc t
  | escaped c hu _ => exact unescape_escaped hu t
  | numbered n => exact unescape_numbered n t

theorem unescape_render (ts : List Token) : unescape (render ts) = .ok (ts.map Token.meaning) := by
  induction ts with
  | nil => rw [render, List.flatMap_nil, unescape, List.map_nil]
  | cons a ts ih =>
      rw [render_cons, unescape_text, ih]
      rfl

end Unescaping

section Splitting

theorem text_eq_cons (a : Token) : ∃ c t, a.text = c :: t ∧
    ∀ p : CodePoint → Bool, p backslash = false → p c = a.isBare p := by
  cases a with
  | bare c hc => exact ⟨c, [], rfl, fun _ _ => rfl⟩
  | escaped c _ _ => exact ⟨backslash, [c], rfl, fun _ hp => hp⟩
  | numbered n => exact ⟨backslash, .scalar 'u' :: hexadecimal 4 n, rfl, fun _ hp => hp⟩

theorem dropLeading_render {p : CodePoint → Bool} (hp : p backslash = false) (ts : List Token) :
    Text.dropLeading p (render ts) = render (ts.dropWhile (Token.isBare p)) := by
  induction ts with
  | nil => rfl
  | cons a ts ih =>
      by_cases ha : a.isBare p = true
      · cases a with
        | bare c hc =>
            rw [List.dropWhile_cons_of_pos ha, ← ih]
            exact List.dropWhile_cons_of_pos ha
        | escaped c hu hc => cases ha
        | numbered n => cases ha
      · obtain ⟨c, t, htext, hfirst⟩ := text_eq_cons a
        have hc : ¬ p c = true := by
          rwa [hfirst p hp]
        rw [List.dropWhile_cons_of_neg ha, render_cons, htext]
        exact List.dropWhile_cons_of_neg hc

theorem splitName_stop {c : CodePoint} (hc : c ≠ backslash)
    (hs : (isSeparator c || isBlank c) = true) (t : Text) : splitName (c :: t) = ([], c :: t) := by
  cases t with
  | nil => rw [splitName, if_pos hs]
  | cons d t => rw [splitName, if_neg hc, if_pos hs]

theorem splitName_plain {c : CodePoint} (hc : c ≠ backslash)
    (hs : (isSeparator c || isBlank c) = false) (t : Text) :
    splitName (c :: t) = (c :: (splitName t).1, (splitName t).2) := by
  cases t with
  | nil => simp only [splitName, hs, Bool.false_eq_true, if_false]
  | cons d t =>
      rw [splitName, if_neg hc, hs]
      rfl

theorem splitName_plain_append {s : Text}
    (hs : ∀ c ∈ s, c ≠ backslash ∧ (isSeparator c || isBlank c) = false) (t : Text) :
    splitName (s ++ t) = (s ++ (splitName t).1, (splitName t).2) := by
  induction s with
  | nil => rfl
  | cons c s ih =>
      rw [List.forall_mem_cons] at hs
      rw [List.cons_append, splitName_plain hs.1.1 hs.1.2, ih hs.2, List.cons_append]

theorem splitName_escaped (c : CodePoint) (t : Text) : splitName (backslash :: c :: t) =
    (backslash :: c :: (splitName t).1, (splitName t).2) := by
  rw [splitName, if_pos rfl]

theorem splitName_text {a : Token} (ha : a.inName = true) (t : Text) :
    splitName (a.text ++ t) = (a.text ++ (splitName t).1, (splitName t).2) := by
  cases a with
  | bare c hc =>
      rw [Token.inName, Bool.not_eq_true'] at ha
      exact splitName_plain hc ha t
  | escaped c _ _ => exact splitName_escaped c t
  | numbered n =>
      have hplain : ∀ c ∈ hexadecimal 4 n,
          c ≠ backslash ∧ (isSeparator c || isBlank c) = false := by
        intro c hc
        obtain ⟨hslash, hblank, hseparator, -⟩ := plain_hexadecimal n c hc
        rw [hblank, hseparator]
        exact ⟨hslash, rfl⟩
      change splitName (backslash :: .scalar 'u' :: (hexadecimal 4 n ++ t)) = _
      rw [splitName_escaped, splitName_plain_append hplain]
      rfl

theorem splitName_render (ts : List Token) :
    splitName (render ts) =
      (render (ts.takeWhile Token.inName), render (ts.dropWhile Token.inName)) := by
  induction ts with
  | nil => rfl
  | cons a ts ih =>
      by_cases ha : a.inName = true
      · rw [List.takeWhile_cons_of_pos ha, List.dropWhile_cons_of_pos ha, render_cons,
          splitName_text ha, ih, render_cons]
      · rw [List.takeWhile_cons_of_neg ha, List.dropWhile_cons_of_neg ha]
        cases a with
        | bare c hc =>
            rw [Token.inName, Bool.not_eq_true', Bool.not_eq_false] at ha
            exact splitName_stop hc ha (render ts)
        | escaped c hu hc => exact absurd rfl ha
        | numbered n => exact absurd rfl ha

/-- The tokens behind the separator. -/
def afterSeparator (ts : List Token) : List Token :=
  match ts.dropWhile (Token.isBare isBlank) with
  | [] => []
  | a :: rest =>
    if a.isBare isSeparator then rest.dropWhile (Token.isBare isBlank) else a :: rest

theorem dropSeparator_render (ts : List Token) :
    dropSeparator (render ts) = render (afterSeparator ts) := by
  unfold dropSeparator afterSeparator
  rw [dropLeading_render (by decide)]
  cases ts.dropWhile (Token.isBare isBlank) with
  | nil => rfl
  | cons a rest =>
      by_cases ha : a.isBare isSeparator = true
      · cases a with
        | bare c hc =>
            change (if isSeparator c then Text.dropLeading isBlank (render rest)
              else c :: render rest) = _
            have hc : isSeparator c = true := ha
            dsimp only
            rw [if_pos hc, if_pos ha, dropLeading_render (by decide)]
        | escaped c hu hc => cases ha
        | numbered n => cases ha
      · obtain ⟨c, t, htext, hfirst⟩ := text_eq_cons a
        have hc : ¬ isSeparator c = true := by
          rwa [hfirst isSeparator (by decide)]
        dsimp only
        rw [if_neg ha, render_cons, htext]
        exact if_neg hc

/-- The tokens of the name of an entry. -/
def nameTokens (ts : List Token) : List Token := ts.takeWhile Token.inName

/-- The tokens of the value of an entry. -/
def valueTokens (ts : List Token) : List Token :=
  afterSeparator (ts.dropWhile Token.inName)

theorem splitEntry_render (ts : List Token) :
    splitEntry (render ts) = (render (nameTokens ts), render (valueTokens ts)) := by
  rw [splitEntry, splitName_render]
  exact congrArg (Prod.mk _) (dropSeparator_render _)

end Splitting

section Joining

theorem isOpen_text (a : Token) : isOpen a.text = false := by
  cases a with
  | bare c hc => exact isOpen_cons hc []
  | escaped c _ _ => exact isOpen_escaped c []
  | numbered n =>
      have hdigits : backslash ∉ hexadecimal 4 n := fun h => (plain_hexadecimal n _ h).1 rfl
      exact (isOpen_escaped _ _).trans (isOpen_of_not_mem hdigits)

theorem isOpen_render (ts : List Token) : isOpen (render ts) = false := by
  induction ts with
  | nil => rfl
  | cons a ts ih => rw [render_cons, isOpen_append (isOpen_text a), ih]

theorem isLine_text {a : Token} (ha : a.isBare CodePoint.isLineEnd = false) :
    Text.IsLine a.text := by
  cases a with
  | bare c hc => exact Text.isLine_cons.2 ⟨ha, Text.isLine_nil⟩
  | escaped c hu hc =>
      exact Text.isLine_cons.2 ⟨rfl, Text.isLine_cons.2 ⟨hc, Text.isLine_nil⟩⟩
  | numbered n =>
      have hdigits : Text.IsLine (hexadecimal 4 n) := fun c hc => (plain_hexadecimal n c hc).2.2.2
      exact Text.isLine_cons.2 ⟨rfl, Text.isLine_cons.2 ⟨rfl, hdigits⟩⟩

/-- Tokens of a single line. -/
def OnLine (ts : List Token) : Prop := ∀ a ∈ ts, a.isBare CodePoint.isLineEnd = false

theorem isLine_render {ts : List Token} (hts : OnLine ts) : Text.IsLine (render ts) := by
  induction ts with
  | nil => exact Text.isLine_nil
  | cons a ts ih =>
      rw [OnLine, List.forall_mem_cons] at hts
      rw [render_cons, Text.isLine_append]
      exact ⟨isLine_text hts.1, ih hts.2⟩

/-- No token goes over the end of a line. -/
theorem exists_tokens_of_mem_lines (ts : List Token) :
    ∀ line ∈ Text.lines (render ts), ∃ us, line = render us ∧ OnLine us := by
  have hnil : OnLine [] := fun a ha => absurd ha List.not_mem_nil
  induction ts with
  | nil =>
      intro line hline
      rw [render, List.flatMap_nil, Text.lines_nil] at hline
      cases hline
  | cons a ts ih =>
      intro line hline
      rw [render_cons] at hline
      by_cases ha : a.isBare CodePoint.isLineEnd = true
      · cases a with
        | bare c hc =>
            rcases Text.eq_nil_or_mem_of_mem_lines_cons ha hline with rfl | hline
            · exact ⟨[], rfl, hnil⟩
            · exact ih line hline
        | escaped c hu hc => cases ha
        | numbered n => cases ha
      · have ha := Bool.eq_false_iff.2 ha
        obtain ⟨c, t, htext, -⟩ := text_eq_cons a
        have hne : a.text ≠ [] := by
          rw [htext]
          exact List.cons_ne_nil c t
        rw [Text.lines_append (isLine_text ha)] at hline
        rcases Text.mem_foldr_consLine hne hline with rfl | ⟨first, hfirst, rfl⟩ | hline
        · exact ⟨[a], (List.append_nil _).symm, List.forall_mem_cons.2 ⟨ha, hnil⟩⟩
        · obtain ⟨us, rfl, hus⟩ := ih first hfirst
          exact ⟨a :: us, (render_cons a us).symm, List.forall_mem_cons.2 ⟨ha, hus⟩⟩
        · exact ih line hline

theorem isIgnored_render_cons (a : Token) (ts : List Token) :
    isIgnored (render (a :: ts)) = a.isBare isCommentMark := by
  obtain ⟨c, t, htext, hfirst⟩ := text_eq_cons a
  rw [render_cons, htext]
  exact hfirst isCommentMark (by decide)

/-- The first of several lines is a logical line of its own, unless it is ignored. -/
theorem joinLines_render (number : Nat) (ts : List Token) (rest : List Text) :
    joinLines number none (render ts :: rest) =
      if isIgnored (render (ts.dropWhile (Token.isBare isBlank))) then
        joinLines (number + 1) none rest
      else ⟨number, render (ts.dropWhile (Token.isBare isBlank))⟩ ::
        joinLines (number + 1) none rest := by
  rw [joinLines, dropLeading_render (by decide), isOpen_render]
  rfl

end Joining

theorem entryOf_render (number : Nat) (ts : List Token) :
    entryOf ⟨number, render ts⟩ =
      match (nameTokens ts).map Token.meaning with
      | [] => .error ⟨.missingName, some number⟩
      | name => .ok (name, (valueTokens ts).map Token.meaning) := by
  unfold entryOf
  rw [splitEntry_render]
  dsimp only
  rw [unescape_render, unescape_render]
  cases (nameTokens ts).map Token.meaning with
  | nil => rfl
  | cons c name => rfl

end VersionedProperties.PropertiesText
