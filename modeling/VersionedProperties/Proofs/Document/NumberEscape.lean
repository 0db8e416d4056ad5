import VersionedProperties.Proofs.Document.Composition
import VersionedProperties.Proofs.Document.Token
import VersionedProperties.Proofs.Numeral.Integer

/-!
# Escapes by number

`\u` stands for a code point, whose number is given by the four code points behind it. Where these
are hexadecimal digits, the text is read as what stands before the escape, the code point, and what
stands behind. Any other escape should make the line wrong. It does, but for four code points that
are an integer in base sixteen without being four digits, such as `+041`: these are read as if they
were.
-/

namespace VersionedProperties.PropertiesText

section Numbers

/-- The number that four hexadecimal digits denote. -/
def hexNumber? : Text → Option Nat
  | [a, b, c, d] =>
    match Numeral.hexDigit? a, Numeral.hexDigit? b, Numeral.hexDigit? c, Numeral.hexDigit? d with
    | some h, some i, some j, some k => some (((h * 16 + i) * 16 + j) * 16 + k)
    | _, _, _, _ => none
  | _ => none

theorem exists_digits_of_hexNumber? {ds : Text} {n : Nat} (h : hexNumber? ds = some n) :
    n < 0x10000 ∧ ds ≠ [] ∧ ∃ digits : List Nat,
      ds.map Numeral.hexDigit? = digits.map some ∧ Numeral.ofDigits 16 digits = n := by
  unfold hexNumber? at h
  split at h
  · split at h
    · rename_i i j k l hi hj hk hl
      obtain rfl := Option.some_inj.1 h
      have hi' := Numeral.hexDigit?_lt hi
      have hj' := Numeral.hexDigit?_lt hj
      have hk' := Numeral.hexDigit?_lt hk
      have hl' := Numeral.hexDigit?_lt hl
      refine ⟨by omega, List.cons_ne_nil _ _, [i, j, k, l], ?_, ?_⟩
      · simp [hi, hj, hk, hl]
      · simp [Numeral.ofDigits]
    · cases h
  · cases h

theorem exists_ofNat? {n : Nat} (h : n < 0x110000) :
    ∃ c, CodePoint.ofNat? n = some c ∧ c.toNat = n := by
  by_cases hvalid : n.isValidChar
  · have hchar : Char.ofNat n = Char.ofNatAux n hvalid := dif_pos hvalid
    refine ⟨_, if_pos hvalid, ?_⟩
    rw [CodePoint.toNat_scalar, hchar]
    rfl
  · have hsurrogate : 0xD800 ≤ n ∧ n - 0xD800 < 2048 := by
      rw [Nat.isValidChar] at hvalid
      omega
    refine ⟨_, (if_neg hvalid).trans (dif_pos hsurrogate), ?_⟩
    rw [CodePoint.toNat_surrogate]
    exact Nat.add_sub_cancel' hsurrogate.1

theorem codePointOf?_hexNumber? {ds : Text} {n : Nat} (h : hexNumber? ds = some n) :
    ∃ c, codePointOf? ds = some c ∧ c.toNat = n := by
  obtain ⟨hlt, hne, digits, hdigits, rfl⟩ := exists_digits_of_hexNumber? h
  rw [codePointOf?, Numeral.readInteger_hexDigits hne hdigits]
  exact exists_ofNat? (by omega)

theorem not_mem_of_codePointOf? {ds : Text} {c : CodePoint} (h : codePointOf? ds = some c) :
    backslash ∉ ds := by
  rw [codePointOf?] at h
  split at h
  · rename_i n hread
    exact Numeral.not_mem_of_readInteger hread
  · cases h

end Numbers

section Escapes

/-- An escape by number in a raw text, with what stands before and behind it. The backslash is not
escaped itself. -/
structure NumberEscape (raw before after : Text) : Prop where
  text : raw = before ++ backslash :: .scalar 'u' :: after
  notEscaped : isOpen before = false

/-- A list cut in two has each of its members in one of the parts. -/
theorem append_eq_append_cons {α : Type} {s t before after : List α} {c : α}
    (h : s ++ t = before ++ c :: after) :
    (∃ before', before = s ++ before' ∧ t = before' ++ c :: after) ∨
      ∃ after', s = before ++ c :: after' ∧ after = after' ++ t := by
  rcases List.append_eq_append_iff.1 h with ⟨before', hbefore, ht⟩ | ⟨q, hs, hrest⟩
  · exact .inl ⟨before', hbefore, ht⟩
  · cases q with
    | nil =>
        rw [List.append_nil] at hs
        exact .inl ⟨[], by rw [hs, List.append_nil], hrest.symm⟩
    | cons d q =>
        obtain ⟨rfl, hafter⟩ := List.cons.inj hrest
        exact .inr ⟨q, hs, hafter⟩

/-- A raw text that is cut behind a beginning in which a backslash only stands in front or is
escaped: an escape by number begins in front or comes behind. -/
theorem numberEscape_append {start rest before after : Text}
    (hstart : ∀ p q, start = p ++ backslash :: q → p = [] ∨ isOpen p = true)
    (hclosed : isOpen start = false) (h : NumberEscape (start ++ rest) before after) :
    before = [] ∨ ∃ before', before = start ++ before' ∧ NumberEscape rest before' after := by
  obtain ⟨htext, hopen⟩ := h
  rcases append_eq_append_cons htext with ⟨before', rfl, hrest⟩ | ⟨q, hcut, -⟩
  · rw [isOpen_append hclosed] at hopen
    exact .inr ⟨before', rfl, hrest, hopen⟩
  · refine (hstart before q hcut).imp_right fun hbefore => ?_
    rw [hopen] at hbefore
    cases hbefore

theorem starts_of_not_mem {c : CodePoint} {t : Text} (ht : backslash ∉ t) (p q : Text)
    (h : c :: t = p ++ backslash :: q) : p = [] ∨ isOpen p = true := by
  cases p with
  | nil => exact .inl rfl
  | cons d p =>
      obtain ⟨-, rfl⟩ := List.cons.inj h
      exact absurd (List.mem_append_right p List.mem_cons_self) ht

theorem starts_escaped (c : CodePoint) (p q : Text) (h : [backslash, c] = p ++ backslash :: q) :
    p = [] ∨ isOpen p = true := by
  match p with
  | [] => exact .inl rfl
  | [d] =>
      obtain ⟨rfl, -⟩ := List.cons.inj h
      exact .inr rfl
  | d :: e :: p => simp at h

/-- An escape by number is read for itself: what stands before it is read, the next four code points
give a code point, and what is behind them is read. -/
def IsReadAt (before after text : Text) : Prop :=
  ∃ pre c post, 4 ≤ after.length ∧ unescape before = .ok pre ∧
    codePointOf? (after.take 4) = some c ∧ unescape (after.drop 4) = .ok post ∧
    text = pre ++ c :: post

theorem IsReadAt.append {start before after text : Text} {x : CodePoint}
    (hstart : ∀ t, unescape (start ++ t) = (unescape t).map (x :: ·))
    (h : IsReadAt before after text) : IsReadAt (start ++ before) after (x :: text) := by
  obtain ⟨pre, c, post, hlength, hpre, hc, hpost, rfl⟩ := h
  refine ⟨x :: pre, c, post, hlength, ?_, hc, hpost, rfl⟩
  rw [hstart, hpre]
  rfl

theorem exists_of_map_eq_ok {ε α β : Type} {f : α → β} {r : Except ε α} {b : β}
    (h : r.map f = .ok b) : ∃ a, r = .ok a ∧ f a = b := by
  cases r with
  | error e => cases h
  | ok a => exact ⟨a, rfl, Except.ok.inj h⟩

theorem isReadAt_of_unescape {raw before after text : Text} (h : unescape raw = .ok text)
    (he : NumberEscape raw before after) : IsReadAt before after text := by
  fun_induction unescape raw generalizing before text with
  | case1 a b c d rest x hx ih =>
      obtain ⟨post, hrest, rfl⟩ := exists_of_map_eq_ok h
      have hslash : backslash ∉ (.scalar 'u' :: [a, b, c, d] : Text) :=
        List.not_mem_cons_of_ne_of_not_mem (by decide) (not_mem_of_codePointOf? hx)
      have hclosed : isOpen ([backslash, .scalar 'u'] ++ [a, b, c, d]) = false := by
        rw [List.cons_append, List.cons_append, isOpen_escaped]
        exact isOpen_of_not_mem (not_mem_of_codePointOf? hx)
      have hread : ∀ t, unescape ([backslash, .scalar 'u', a, b, c, d] ++ t) =
          (unescape t).map (x :: ·) := by
        intro t
        change unescape (.scalar '\\' :: .scalar 'u' :: a :: b :: c :: d :: t) = _
        rw [unescape, hx]
      obtain rfl | ⟨before', rfl, he'⟩ :=
        numberEscape_append (starts_of_not_mem hslash) hclosed he
      · obtain ⟨htext, -⟩ := he
        cases htext
        refine ⟨[], x, post, ?_, ?_, hx, hrest, rfl⟩
        · exact Nat.le_add_left 4 rest.length
        · rw [unescape]
      · exact (ih hrest he').append hread
  | case2 a b c d rest hx => cases h
  | case3 rest _ => cases h
  | case4 c rest _ hu ih =>
      obtain ⟨post, hrest, rfl⟩ := exists_of_map_eq_ok h
      obtain rfl | ⟨before', rfl, he'⟩ :=
        numberEscape_append (starts_escaped c) (isOpen_escaped c []) he
      · obtain ⟨htext, -⟩ := he
        cases htext
        exact absurd rfl hu
      · exact (ih hrest he').append (unescape_escaped hu)
  | case5 c rest _ _ hslash ih =>
      obtain ⟨post, hrest, rfl⟩ := exists_of_map_eq_ok h
      have hc : c ≠ backslash := by
        rintro rfl
        cases rest with
        | nil =>
            have hlength := congrArg List.length he.text
            simp at hlength
            omega
        | cons d rest => exact hslash d rest rfl rfl
      obtain rfl | ⟨before', rfl, he'⟩ :=
        numberEscape_append (starts_of_not_mem List.not_mem_nil) (isOpen_cons hc []) he
      · obtain ⟨htext, -⟩ := he
        cases htext
        exact absurd rfl hc
      · exact (ih hrest he').append (unescape_bare hc)
  | case6 =>
      have htext := congrArg List.length he.text
      simp at htext

/-- Every escape by number in a raw text has four hexadecimal digits behind it. -/
def HasDigits (raw : Text) : Prop :=
  ∀ before after, NumberEscape raw before after → ∃ n, hexNumber? (after.take 4) = some n

/-- A text has, for each escape by number with four hexadecimal digits in a raw text, the code point
that these denote: behind what stands before the escape is read as, and in front of what stands
behind it is read as. -/
def Denotes (raw text : Text) : Prop :=
  ∀ before after n, NumberEscape raw before after → hexNumber? (after.take 4) = some n →
    ∃ pre c post, c.toNat = n ∧ unescape before = .ok pre ∧ unescape (after.drop 4) = .ok post ∧
      text = pre ++ c :: post

/-- Some escape by number in a raw text has four code points behind it that are no hexadecimal
digits, but an integer in base sixteen all the same. -/
def HasLooseNumber (raw : Text) : Prop :=
  ∃ before after, NumberEscape raw before after ∧ 4 ≤ after.length ∧
    hexNumber? (after.take 4) = none ∧
    ∃ n : Nat, Numeral.readInteger 16 (after.take 4) = .ok n

theorem denotes_of_unescape {raw text : Text} (h : unescape raw = .ok text) :
    Denotes raw text := by
  intro before after n he hn
  obtain ⟨pre, c, post, -, hpre, hc, hpost, htext⟩ := isReadAt_of_unescape h he
  obtain ⟨c', hc', hnumber⟩ := codePointOf?_hexNumber? hn
  obtain rfl := Option.some_inj.1 (hc.symm.trans hc')
  exact ⟨pre, c, post, hnumber, hpre, hpost, htext⟩

/-- A text that is read has digits behind every escape by number, or a loose number behind one. -/
theorem hasDigits_or_hasLooseNumber {raw text : Text} (h : unescape raw = .ok text) :
    HasDigits raw ∨ HasLooseNumber raw := by
  by_cases hloose : HasLooseNumber raw
  · exact .inr hloose
  · left
    intro before after he
    obtain ⟨pre, c, post, hlength, -, hc, -⟩ := isReadAt_of_unescape h he
    rw [← Option.isSome_iff_exists, Option.isSome_iff_ne_none]
    intro hnone
    apply hloose
    refine ⟨before, after, he, hlength, hnone, ?_⟩
    rw [codePointOf?] at hc
    split at hc
    · rename_i n hread
      exact ⟨n, hread⟩
    · cases hc

theorem HasLooseNumber.not_hasDigits {raw : Text} (h : HasLooseNumber raw) : ¬ HasDigits raw := by
  obtain ⟨before, after, he, -, hnone, -⟩ := h
  intro hdigits
  obtain ⟨n, hn⟩ := hdigits before after he
  rw [hnone] at hn
  cases hn

end Escapes

section Lines

theorem splitName_append (t : Text) : (splitName t).1 ++ (splitName t).2 = t := by
  fun_induction splitName t with
  | case1 => rfl
  | case2 => rfl
  | case3 => rfl
  | case4 d rest name rest' hsplit ih =>
      rw [hsplit] at ih
      exact congrArg (backslash :: d :: ·) ih
  | case5 => rfl
  | case6 c d rest _ _ name rest' hsplit ih =>
      rw [hsplit] at ih
      exact congrArg (c :: ·) ih

/-- A name that ends before the line does has no backslash left at its end. -/
theorem isOpen_splitName (t : Text) : (splitName t).2 = [] ∨ isOpen (splitName t).1 = false := by
  fun_induction splitName t with
  | case1 => exact .inl rfl
  | case2 => exact .inr rfl
  | case3 => exact .inl rfl
  | case4 d rest name rest' hsplit ih =>
      rw [hsplit] at ih
      exact ih.imp_right (isOpen_escaped d name).trans
  | case5 => exact .inr rfl
  | case6 c d rest hc _ name rest' hsplit ih =>
      rw [hsplit] at ih
      exact ih.imp_right (isOpen_cons hc name).trans

theorem exists_gap_dropSeparator (t : Text) :
    ∃ gap, t = gap ++ dropSeparator t ∧ backslash ∉ gap := by
  have hblanks : ∀ u : Text, u = u.takeWhile isBlank ++ Text.dropLeading isBlank u :=
    fun u => List.takeWhile_append_dropWhile.symm
  rw [dropSeparator]
  split
  · rename_i hnil
    refine ⟨t.takeWhile isBlank, ?_, not_mem_takeWhile_isBlank t⟩
    rw [← hnil]
    exact hblanks t
  · rename_i c rest hcons
    split
    · rename_i hc
      refine ⟨t.takeWhile isBlank ++ c :: rest.takeWhile isBlank, ?_, ?_⟩
      · rw [List.append_assoc, List.cons_append, ← hblanks, ← hcons]
        exact hblanks t
      · have hne : backslash ≠ c := by
          rintro rfl
          exact absurd hc (by decide)
        rw [List.mem_append, List.mem_cons, not_or, not_or]
        exact ⟨not_mem_takeWhile_isBlank t, hne, not_mem_takeWhile_isBlank rest⟩
    · refine ⟨t.takeWhile isBlank, ?_, not_mem_takeWhile_isBlank t⟩
      rw [← hcons]
      exact hblanks t

/-- An escape by number in a line is one in its name or in its value. -/
theorem numberEscape_line {l : LogicalLine} {before after : Text}
    (h : NumberEscape l.text before after) :
    (∃ rest, NumberEscape l.rawName before rest ∧ rest <+: after) ∨
      ∃ before', NumberEscape l.rawValue before' after := by
  obtain ⟨htext, hopen⟩ := h
  have hname := isOpen_splitName l.text
  rw [← splitName_append l.text] at htext
  rcases append_eq_append_cons htext with ⟨before', rfl, hrest⟩ | ⟨rest, hsplit, hafter⟩
  · have hclosed := hname.resolve_left (by simp [hrest])
    obtain ⟨gap, hgap, hslash⟩ := exists_gap_dropSeparator (splitName l.text).2
    rw [hgap] at hrest
    rw [isOpen_append hclosed] at hopen
    rcases append_eq_append_cons hrest with ⟨before'', rfl, hvalue⟩ | ⟨q, rfl, -⟩
    · rw [isOpen_append (isOpen_of_not_mem hslash)] at hopen
      exact .inr ⟨before'', hvalue, hopen⟩
    · exact absurd (List.mem_append_right before' List.mem_cons_self) hslash
  · cases rest with
    | nil =>
        -- The name ends between the backslash and the `u`, which it cannot.
        have hmore : (splitName l.text).2 ≠ [] := by
          rw [← List.nil_append (splitName l.text).2, ← hafter]
          exact List.cons_ne_nil _ after
        have hclosed := hname.resolve_left hmore
        rw [hsplit, isOpen_append hopen] at hclosed
        cases hclosed
    | cons c rest =>
        obtain ⟨rfl, rfl⟩ := List.cons.inj hafter
        exact .inl ⟨rest, ⟨hsplit, hopen⟩, List.prefix_append rest _⟩

end Lines

section Documents

/-- A logical line whose escapes by number all have four hexadecimal digits. -/
def LogicalLine.HasDigits (l : LogicalLine) : Prop :=
  PropertiesText.HasDigits l.rawName ∧ PropertiesText.HasDigits l.rawValue

def LogicalLine.HasLooseNumber (l : LogicalLine) : Prop :=
  PropertiesText.HasLooseNumber l.rawName ∨ PropertiesText.HasLooseNumber l.rawValue

/-- Escapes by number are read as they should be. -/
structure ReadsNumbers (t : Text) : Prop where
  /-- A logical line has the number of the natural line where it begins. -/
  begins : ∀ l ∈ logicalLines t, BeginsIn false 1 (Text.lines t) l
  /-- An escape by number in a logical line is one in its name or in its value. -/
  escapes : ∀ l ∈ logicalLines t, ∀ before after, NumberEscape l.text before after →
    (∃ rest, NumberEscape l.rawName before rest ∧ rest <+: after) ∨
      ∃ before', NumberEscape l.rawValue before' after
  /-- A document that is read has four hexadecimal digits behind each escape by number, and the code
  point that they denote is in the entry of the line. -/
  read : ∀ m, decode t = .ok m → ∃ entries, m = .ofList entries ∧
    List.Forall₂ (fun l e => entryOf l = .ok e ∧ l.HasDigits ∧ Denotes l.rawName e.1 ∧
      Denotes l.rawValue e.2) (logicalLines t) entries
  /-- A line with any other escape by number is reported if no line before it is. -/
  refused : ∀ earlier l later, logicalLines t = earlier ++ l :: later →
    (∀ l' ∈ earlier, l'.IsRead) → ¬ l.HasDigits →
    ∃ fault, decode t = .error ⟨fault, some l.number⟩

theorem LogicalLine.IsRead.hasDigits {l : LogicalLine} (h : l.IsRead)
    (hloose : ¬ l.HasLooseNumber) : l.HasDigits := by
  obtain ⟨e, he⟩ := h
  obtain ⟨hname, hvalue⟩ := unescape_of_entryOf he
  rw [LogicalLine.HasLooseNumber, not_or] at hloose
  exact ⟨(hasDigits_or_hasLooseNumber hname).resolve_right hloose.1,
    (hasDigits_or_hasLooseNumber hvalue).resolve_right hloose.2⟩

theorem LogicalLine.HasLooseNumber.not_hasDigits {l : LogicalLine} (h : l.HasLooseNumber) :
    ¬ l.HasDigits := by
  intro hdigits
  exact h.elim (fun h => h.not_hasDigits hdigits.1) fun h => h.not_hasDigits hdigits.2

/-- An error is in none of the first lines if these can be read. -/
theorem number_lt_of_error {t : Text} {earlier later : List LogicalLine} {l : LogicalLine}
    (hlines : logicalLines t = earlier ++ l :: later) (hearlier : ∀ l' ∈ earlier, l'.IsRead)
    (hl : l.IsRead) {e : FormatError} (he : decode t = .error e) :
    ∃ number, e.line = some number ∧ l.number < number := by
  have hread : ∀ l' ∈ earlier ++ [l], l'.IsRead :=
    List.forall_mem_append.2 ⟨hearlier, List.forall_mem_singleton.2 hl⟩
  obtain ⟨m, hm⟩ := readEntries_of_isRead hread Mapping.empty
  have hlater : readEntries m later = .error e := by
    rw [decode, hlines, List.append_cons, readEntries_append, hm] at he
    exact he
  obtain ⟨wrong, hwrong, -, hnumber⟩ := exists_line_of_readEntries_error hlater
  have hordered : (logicalLines t).Pairwise fun l l' => l.number < l'.number :=
    pairwise_joinLines (fun u hu => absurd hu (Option.not_mem_none u)) _
  rw [hlines, List.pairwise_append, List.pairwise_cons] at hordered
  exact ⟨wrong.number, hnumber, hordered.2.1.1 wrong hwrong⟩

/-- Escapes by number are read as they should be just if no line has a loose number, up to the first
line that cannot be read. -/
theorem readsNumbers_iff (t : Text) :
    ReadsNumbers t ↔ ¬ ∃ earlier l later, logicalLines t = earlier ++ l :: later ∧
      (∀ l' ∈ earlier, l'.IsRead) ∧ l.IsRead ∧ l.HasLooseNumber := by
  constructor
  · rintro h ⟨earlier, l, later, hlines, hearlier, hl, hloose⟩
    obtain ⟨fault, hdecode⟩ := h.refused earlier l later hlines hearlier hloose.not_hasDigits
    obtain ⟨number, hnumber, hlt⟩ := number_lt_of_error hlines hearlier hl hdecode
    cases hnumber
    exact absurd hlt (Nat.lt_irrefl _)
  · intro h
    refine ⟨fun l hl => beginsIn_of_mem hl, fun l _ before after => numberEscape_line, ?_, ?_⟩
    · intro m hm
      obtain ⟨entries, hentries, rfl⟩ := exists_entries_of_readEntries hm
      have hread := isRead_of_forall₂ hentries
      have hdigits : ∀ l ∈ logicalLines t, l.HasDigits := by
        intro l hl
        refine (hread l hl).hasDigits fun hloose => ?_
        obtain ⟨earlier, later, hlines⟩ := List.append_of_mem hl
        rw [hlines, List.forall_mem_append, List.forall_mem_cons] at hread
        exact h ⟨earlier, l, later, hlines, hread.1, hread.2.1, hloose⟩
      have hboth := (List.forall₂_and_left _ _).2 ⟨hdigits, hentries⟩
      refine ⟨entries, rfl, hboth.imp ?_⟩
      rintro l e ⟨hl, he⟩
      obtain ⟨hname, hvalue⟩ := unescape_of_entryOf he
      exact ⟨he, hl, denotes_of_unescape hname, denotes_of_unescape hvalue⟩
    · intro earlier l later hlines hearlier hdigits
      cases hentry : entryOf l with
      | ok e =>
          have hl : l.IsRead := ⟨e, hentry⟩
          refine absurd (hl.hasDigits fun hloose => ?_) hdigits
          exact h ⟨earlier, l, later, hlines, hearlier, hl, hloose⟩
      | error e =>
          obtain ⟨fault, line⟩ := e
          have hline : line = some l.number := line_of_entryOf_error hentry
          refine ⟨fault, ?_⟩
          rw [decode, hlines, readEntries_of_first hearlier hentry, hline]

/-- A value with a sign in place of a digit. -/
def signedNumber : Text := "k=\\u+041"

/-- The sign is taken for a part of the number, so that the escape is read as the letter `A`. -/
theorem not_readsNumbers_signedNumber :
    decode signedNumber = .ok (.ofList [("k", "A")]) ∧ ¬ ReadsNumbers signedNumber := by
  have hdecode : decode signedNumber = .ok (.ofList [("k", "A")]) := rfl
  have hlines : logicalLines signedNumber = [⟨1, signedNumber⟩] := rfl
  refine ⟨hdecode, fun h => ?_⟩
  obtain ⟨entries, -, hread⟩ := h.read _ hdecode
  rw [hlines] at hread
  cases hread with
  | cons hfirst _ =>
      obtain ⟨-, ⟨-, hdigits⟩, -⟩ := hfirst
      obtain ⟨n, hn⟩ := hdigits [] "+041" ⟨rfl, rfl⟩
      have hnone : hexNumber? (("+041" : Text).take 4) = none := rfl
      rw [hnone] at hn
      cases hn

end Documents

end VersionedProperties.PropertiesText
