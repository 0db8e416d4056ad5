import VersionedProperties.Proofs.Document.JsonNumber
import VersionedProperties.Proofs.Document.JsonText

/-!
# What a reader takes

A reader that succeeds takes a beginning of the text and looks at most at the next code point. So it
reads the same value in front of any other text that begins alike.
-/

namespace VersionedProperties.Json

section Strings

variable {α β : Type} {t rest : Text}

theorem map_eq_ok_iff {f : α → β} {r : Except ReadError α} {b : β} :
    r.map f = .ok b ↔ ∃ a, r = .ok a ∧ f a = b := by
  cases r with
  | error e => simp [Except.map]
  | ok a => simp [Except.map]

theorem map_eq_error_iff {f : α → β} {r : Except ReadError α} {e : ReadError} :
    r.map f = .error e ↔ r = .error e := by
  cases r with
  | error e => simp [Except.map]
  | ok a => simp [Except.map]

theorem map_part_eq_ok {part : StringPart} {r : Except ReadError (List StringPart × Text)}
    {parts : List StringPart}
    (h : r.map (fun (parts, rest) => (part :: parts, rest)) = .ok (parts, rest)) :
    ∃ parts', parts = part :: parts' ∧ r = .ok (parts', rest) := by
  obtain ⟨⟨parts', rest'⟩, hr, heq⟩ := map_eq_ok_iff.1 h
  obtain ⟨rfl, rfl⟩ := Prod.mk.inj heq
  exact ⟨parts', rfl, hr⟩

/-- The parts of a string end at its closing mark, whatever follows. -/
theorem readParts_append {quote : Text} {parts : List StringPart}
    (h : readParts quote t = .ok (parts, rest)) :
    ∃ w, w ≠ [] ∧ t = w ++ rest ∧
      ∀ quote' rest', readParts quote' (w ++ rest') = .ok (parts, rest') := by
  fun_induction readParts quote t generalizing parts rest with
  | case1 => cases h
  | case2 t =>
      obtain ⟨rfl, rfl⟩ := Prod.mk.inj (Except.ok.inj h)
      refine ⟨[.scalar '"'], List.cons_ne_nil _ _, rfl, fun quote' rest' => ?_⟩
      rw [List.singleton_append, readParts]
  | case3 => cases h
  | case4 => cases h
  | case5 a b c d e t n hn ih =>
      obtain ⟨parts, rfl, hread⟩ := map_part_eq_ok h
      obtain ⟨w, hw, htext, hlocal⟩ := ih hread
      obtain ⟨e', w, rfl⟩ := List.exists_cons_of_ne_nil hw
      obtain ⟨rfl, rfl⟩ := List.cons.inj htext
      refine ⟨.scalar '\\' :: .scalar 'u' :: a :: b :: c :: d :: e :: w, List.cons_ne_nil _ _, rfl,
        fun quote' rest' => ?_⟩
      have hrest := hlocal quote' rest'
      rw [List.cons_append] at hrest
      simp only [List.cons_append]
      rw [readParts, hn]
      dsimp only
      rw [hrest]
      rfl
  | case6 => cases h
  | case7 c t _ hc x hx ih =>
      obtain ⟨parts, rfl, hread⟩ := map_part_eq_ok h
      obtain ⟨w, -, rfl, hlocal⟩ := ih hread
      refine ⟨.scalar '\\' :: c :: w, List.cons_ne_nil _ _, rfl, fun quote' rest' => ?_⟩
      simp only [List.cons_append]
      rw [readParts_letter quote' hc hx, hlocal]
      rfl
  | case8 => cases h
  | case9 => cases h
  | case10 c t hquote hlast _ _ hmore hc ih =>
      obtain ⟨parts, rfl, hread⟩ := map_part_eq_ok h
      obtain ⟨w, -, rfl, hlocal⟩ := ih hread
      have hslash : c ≠ .scalar '\\' := by
        intro hslash
        cases htext : w ++ rest with
        | nil => exact hlast hslash htext
        | cons d more => exact hmore d more hslash htext
      refine ⟨c :: w, List.cons_ne_nil _ _, rfl, fun quote' rest' => ?_⟩
      rw [List.cons_append, readParts_plain quote' hquote hslash (by omega), hlocal]
      rfl

/-- The fault of a string is one of strings. -/
theorem readParts_error {quote : Text} {e : ReadError} (h : readParts quote t = .error e) :
    ∃ fault place, fault ≠ .expectingValue ∧ e = .malformed fault place := by
  fun_induction readParts quote t with
  | case1 => exact ⟨_, _, by decide, (Except.error.inj h).symm⟩
  | case2 => cases h
  | case3 => exact ⟨_, _, by decide, (Except.error.inj h).symm⟩
  | case4 => exact ⟨_, _, by decide, (Except.error.inj h).symm⟩
  | case5 a b c d e t n hn ih => exact ih (map_eq_error_iff.1 h)
  | case6 => exact ⟨_, _, by decide, (Except.error.inj h).symm⟩
  | case7 c t _ _ x hx ih => exact ih (map_eq_error_iff.1 h)
  | case8 => exact ⟨_, _, by decide, (Except.error.inj h).symm⟩
  | case9 => exact ⟨_, _, by decide, (Except.error.inj h).symm⟩
  | case10 c t _ _ _ _ _ _ ih => exact ih (map_eq_error_iff.1 h)

theorem readString_append {quote name : Text} (h : readString quote t = .ok (name, rest)) :
    ∃ w, w ≠ [] ∧ t = w ++ rest ∧
      ∀ quote' rest', readString quote' (w ++ rest') = .ok (name, rest') := by
  obtain ⟨⟨parts, rest'⟩, hread, heq⟩ := map_eq_ok_iff.1 h
  obtain ⟨rfl, rfl⟩ := Prod.mk.inj heq
  obtain ⟨w, hw, rfl, hlocal⟩ := readParts_append hread
  refine ⟨w, hw, rfl, fun quote' rest'' => ?_⟩
  rw [readString, hlocal]
  rfl

end Strings

section Scalars

variable {t rest : Text} {v : Value}

theorem readWord?_append {word : Text} (h : (word, v) ∈ words) (rest : Text) :
    readWord? (word ++ rest) = some (v, rest) := by
  simp only [words, List.mem_cons, List.not_mem_nil, or_false, Prod.mk.injEq] at h
  rcases h with ⟨rfl, rfl⟩ | ⟨rfl, rfl⟩ | ⟨rfl, rfl⟩ | ⟨rfl, rfl⟩ | ⟨rfl, rfl⟩ | ⟨rfl, rfl⟩ <;> rfl

theorem readWord?_eq_some (h : readWord? t = some (v, rest)) :
    ∃ word, (word, v) ∈ words ∧ t = word ++ rest := by
  obtain ⟨⟨word, v'⟩, hmem, hword⟩ := List.exists_of_findSome?_eq_some h
  obtain ⟨rest', hrest, heq⟩ := Option.map_eq_some_iff.1 hword
  obtain ⟨rfl, rfl⟩ := Prod.mk.inj heq
  exact ⟨word, hmem, Text.after?_eq_some_iff.1 hrest⟩

/-- No word begins with a digit or with a minus and a digit. -/
theorem exists_cons_of_mem_words {word : Text} (h : (word, v) ∈ words) :
    ∃ c more, word = c :: more ∧ isDigit c = false ∧
      (c = .scalar '-' → ∃ c' more', more = c' :: more' ∧ isDigit c' = false) := by
  simp only [words, List.mem_cons, List.not_mem_nil, or_false, Prod.mk.injEq] at h
  rcases h with ⟨rfl, rfl⟩ | ⟨rfl, rfl⟩ | ⟨rfl, rfl⟩ | ⟨rfl, rfl⟩ | ⟨rfl, rfl⟩ | ⟨rfl, rfl⟩ <;>
    exact ⟨_, _, rfl, rfl, fun _ => ⟨_, _, rfl, rfl⟩⟩

theorem readWord?_of_isDigit {sign : Text} (hsign : IsSign sign) {d : CodePoint}
    (hd : isDigit d = true) (u : Text) : readWord? (sign ++ d :: u) = none := by
  cases hword : readWord? (sign ++ d :: u) with
  | none => rfl
  | some r =>
      obtain ⟨v, rest⟩ := r
      obtain ⟨word, hmem, htext⟩ := readWord?_eq_some hword
      obtain ⟨c, more, rfl, hc, hminus⟩ := exists_cons_of_mem_words hmem
      rcases hsign with rfl | rfl
      · rw [(List.cons.inj htext).1, hc] at hd
        exact absurd hd Bool.false_ne_true
      · obtain ⟨hfirst, htext⟩ := List.cons.inj htext
        obtain ⟨c', more', rfl, hc'⟩ := hminus hfirst.symm
        rw [(List.cons.inj htext).1, hc'] at hd
        exact absurd hd Bool.false_ne_true

/-- The value at the beginning of a text if it is no array and no object. -/
def readScalar : Text → Except ReadError (Value × Text)
  | [] => .error (.malformed .expectingValue [])
  | c :: rest =>
    if c = .scalar '"' then (readString (c :: rest) rest).map fun (t, rest) => (.string t, rest)
    else
      match readWord? (c :: rest) with
      | some r => .ok r
      | none => readNumber (c :: rest)

theorem readScalar_of_isDigit {sign : Text} (hsign : IsSign sign) {d : CodePoint}
    (hd : isDigit d = true) (u : Text) :
    readScalar (sign ++ d :: u) = readNumber (sign ++ d :: u) := by
  obtain ⟨c, more, htext, hc⟩ : ∃ c more, sign ++ d :: u = c :: more ∧ c ≠ .scalar '"' := by
    rcases hsign with rfl | rfl
    · refine ⟨d, u, rfl, ?_⟩
      rintro rfl
      exact absurd hd (by decide)
    · exact ⟨_, _, rfl, by decide⟩
  have hword := readWord?_of_isDigit hsign hd u
  rw [htext] at hword ⊢
  rw [readScalar, if_neg hc, hword]

theorem readScalar_append (h : readScalar t = .ok (v, rest)) :
    ∃ w, w ≠ [] ∧ t = w ++ rest ∧
      ∀ rest', Alike rest rest' → readScalar (w ++ rest') = .ok (v, rest') := by
  cases t with
  | nil => cases h
  | cons c t =>
      rw [readScalar] at h
      split at h
      case isTrue hquote =>
        obtain ⟨⟨name, r⟩, hread, heq⟩ := map_eq_ok_iff.1 h
        obtain ⟨rfl, rfl⟩ := Prod.mk.inj heq
        obtain ⟨w, -, rfl, hlocal⟩ := readString_append hread
        refine ⟨c :: w, List.cons_ne_nil c w, rfl, fun rest' _ => ?_⟩
        rw [List.cons_append, readScalar, if_pos hquote, hlocal]
        rfl
      case isFalse hquote =>
        split at h
        case h_1 r hword =>
          obtain rfl : r = (v, rest) := Except.ok.inj h
          obtain ⟨word, hmem, htext⟩ := readWord?_eq_some hword
          obtain ⟨c', more, rfl, -⟩ := exists_cons_of_mem_words hmem
          obtain rfl : c = c' := (List.cons.inj htext).1
          refine ⟨c :: more, List.cons_ne_nil c more, htext, fun rest' _ => ?_⟩
          have hword' := readWord?_append hmem rest'
          rw [List.cons_append] at hword' ⊢
          rw [readScalar, if_neg hquote, hword']
        case h_2 =>
          obtain ⟨sign, d, w, hsign, hd, htext, hread⟩ := readNumber_append h
          refine ⟨sign ++ d :: w, by simp, by rw [htext, List.append_assoc, List.cons_append],
            fun rest' hrest => ?_⟩
          rw [List.append_assoc, List.cons_append, readScalar_of_isDigit hsign hd,
            hread rest' hrest]

/-- No scalar is read where none begins, where a string has a fault, or where an integer begins that
has too many digits. -/
theorem readScalar_error {e : ReadError} (h : readScalar t = .error e) :
    (∃ fault place, e = .malformed fault place ∧ (fault = .expectingValue → place = t)) ∨
      (∃ n, e = .tooManyDigits n) ∧ BeginsTooLong t := by
  cases t with
  | nil => exact .inl ⟨_, _, (Except.error.inj h).symm, fun _ => rfl⟩
  | cons c t =>
      rw [readScalar] at h
      split at h
      case isTrue =>
        obtain ⟨fault, place, hfault, rfl⟩ :=
          readParts_error (map_eq_error_iff.1 (map_eq_error_iff.1 h))
        exact .inl ⟨fault, place, rfl, fun hvalue => absurd hvalue hfault⟩
      case isFalse =>
        split at h
        case h_1 => cases h
        case h_2 =>
          rcases readNumber_error h with rfl | htooLong
          · exact .inl ⟨_, _, rfl, fun _ => rfl⟩
          · exact .inr htooLong

end Scalars

section Items

variable {t rest : Text}

/-- A text that does not begin with a blank. -/
def Clean (t : Text) : Prop := ∀ c ∈ t.head?, isBlank c = false

theorem clean_skipBlanks (t : Text) : Clean (skipBlanks t) := by
  intro c hc
  have hnot := List.head?_dropWhile_not isBlank t
  rw [show (t.dropWhile isBlank).head? = some c from hc] at hnot
  exact hnot

theorem skipBlanks_append_clean {gap : Text} (hgap : ∀ c ∈ gap, isBlank c = true) (ht : Clean t) :
    skipBlanks (gap ++ t) = t := by
  rw [skipBlanks_append hgap]
  cases t with
  | nil => rfl
  | cons c t => exact skipBlanks_cons (ht c rfl) t

theorem exists_gap (t : Text) : ∃ gap, (∀ c ∈ gap, isBlank c = true) ∧ t = gap ++ skipBlanks t :=
  ⟨t.takeWhile isBlank, fun _ hc => List.mem_takeWhile_imp hc,
    List.takeWhile_append_dropWhile.symm⟩

/-- The code point that opens an array or an object. -/
def opening : Container → CodePoint
  | .array => .scalar '['
  | .object => .scalar '\x7b'

/-- The code point that closes an array or an object. -/
def closing : Container → CodePoint
  | .array => .scalar ']'
  | .object => .scalar '\x7d'

/-- A reader of values. -/
abbrev Reader : Type := Text → Except ReadError (Value × Text)

/-- What becomes of the value of an item: it ends its container, or further items follow. -/
def afterItem (k : Container) (finish : Value → Value) (more : Value → Reader) :
    Except ReadError (Value × Text) → Except ReadError (Value × Text)
  | .error e => .error e
  | .ok (v, rest) =>
    match skipBlanks rest with
    | [] => .error (.malformed .expectingComma [])
    | c :: rest =>
      if c = closing k then .ok (finish v, rest)
      else if c = .scalar ',' then more v (skipBlanks rest)
      else .error (.malformed .expectingComma (c :: rest))

section AfterItem

variable {k : Container} {finish : Value → Value} {more : Value → Reader} {v : Value} {u : Text}

theorem afterItem_closing (h : skipBlanks rest = closing k :: u) :
    afterItem k finish more (.ok (v, rest)) = .ok (finish v, u) := by
  simp only [afterItem, h, if_pos]

theorem afterItem_comma (h : skipBlanks rest = .scalar ',' :: u) :
    afterItem k finish more (.ok (v, rest)) = more v (skipBlanks u) := by
  have hne : .scalar ',' ≠ closing k := by cases k <;> decide
  simp only [afterItem, h, if_neg hne, if_pos]

theorem afterItem_fault (hclosing : ∀ u, skipBlanks rest ≠ closing k :: u)
    (hcomma : ∀ u, skipBlanks rest ≠ .scalar ',' :: u) :
    afterItem k finish more (.ok (v, rest)) =
      .error (.malformed .expectingComma (skipBlanks rest)) := by
  rw [afterItem]
  split
  case h_1 h => rw [h]
  case h_2 c u h =>
    have hclosing' : c ≠ closing k := by
      rintro rfl
      exact hclosing u h
    have hcomma' : c ≠ .scalar ',' := by
      rintro rfl
      exact hcomma u h
    rw [if_neg hclosing', if_neg hcomma', h]

end AfterItem

/-- Blanks and then a mark that ends the item in front of it. -/
structure IsDivider (w : Text) : Prop where
  ne_nil : w ≠ []
  alike (s t : Text) : Alike (w ++ s) (w ++ t)

theorem isDivider_append {gap : Text} (hgap : ∀ c ∈ gap, isBlank c = true) {mark : CodePoint}
    (hmark : isNumeric mark = false) (t : Text) : IsDivider (gap ++ mark :: t) where
  ne_nil := by simp
  alike := by
    intro s t
    cases gap with
    | nil =>
        refine ⟨rfl, fun c hc => ?_⟩
        obtain rfl : mark = c := Option.some_inj.1 hc
        exact hmark
    | cons d gap =>
        refine ⟨rfl, fun c hc => ?_⟩
        obtain rfl : d = c := Option.some_inj.1 hc
        have hd := hgap d List.mem_cons_self
        simp only [isBlank, Bool.or_eq_true, decide_eq_true_eq] at hd
        rcases hd with ((rfl | rfl) | rfl) | rfl <;> rfl

/-- What follows an item ends its container, leads to a further item or is a fault. -/
theorem afterItem_cases (k : Container) (rest : Text) :
    (∃ w u, IsDivider w ∧ rest = w ++ u ∧
        ∀ finish more v u', afterItem k finish more (.ok (v, w ++ u')) = .ok (finish v, u')) ∨
      (∃ w u, IsDivider w ∧ rest = w ++ u ∧ Clean u ∧ ∀ finish more v u', Clean u' →
        afterItem k finish more (.ok (v, w ++ u')) = more v u') ∨
      ∃ place, ∀ finish more v,
        afterItem k finish more (.ok (v, rest)) = .error (.malformed .expectingComma place) := by
  obtain ⟨gap, hgap, hrest⟩ := exists_gap rest
  by_cases hclosing : ∃ u, skipBlanks rest = closing k :: u
  · obtain ⟨u, hskip⟩ := hclosing
    have hblank : isBlank (closing k) = false := by cases k <;> rfl
    have hnumeric : isNumeric (closing k) = false := by cases k <;> rfl
    refine .inl ⟨gap ++ [closing k], u, isDivider_append hgap hnumeric [], ?_,
      fun finish more v u' => afterItem_closing ?_⟩
    · rw [List.append_assoc, List.singleton_append, ← hskip, ← hrest]
    · rw [List.append_assoc, List.singleton_append, skipBlanks_append hgap, skipBlanks_cons hblank]
  by_cases hcomma : ∃ u, skipBlanks rest = .scalar ',' :: u
  · obtain ⟨u, hskip⟩ := hcomma
    obtain ⟨gap', hgap', hu⟩ := exists_gap u
    refine .inr (.inl ⟨gap ++ .scalar ',' :: gap', skipBlanks u, isDivider_append hgap rfl gap', ?_,
      clean_skipBlanks u, fun finish more v u' hu' => ?_⟩)
    · rw [List.append_assoc, List.cons_append, ← hu, ← hskip, ← hrest]
    · have hnext : skipBlanks (gap ++ .scalar ',' :: gap' ++ u') = .scalar ',' :: (gap' ++ u') := by
        rw [List.append_assoc, List.cons_append, skipBlanks_append hgap, skipBlanks_cons rfl]
      rw [afterItem_comma hnext, skipBlanks_append_clean hgap' hu']
  · exact .inr (.inr ⟨_, fun finish more v =>
      afterItem_fault (not_exists.1 hclosing) (not_exists.1 hcomma)⟩)

/-- The name of a member, up to the value behind its colon. -/
def readName (t : Text) : Except ReadError (Text × Text) :=
  match t with
  | .scalar '"' :: rest =>
    match readString t rest with
    | .error e => .error e
    | .ok (name, rest) =>
      match skipBlanks rest with
      | .scalar ':' :: rest => .ok (name, skipBlanks rest)
      | t => .error (.malformed .expectingColon t)
  | t => .error (.malformed .expectingName t)

/-- The reader of a member whose value, and what follows it, is read by a reader for its name. -/
def afterName (f : Text → Reader) : Reader := fun t =>
  match readName t with
  | .error e => .error e
  | .ok (name, u) => f name u

theorem readName_fault {u name : Text} (hread : readString (.scalar '"' :: u) u = .ok (name, rest))
    (hcolon : ∀ r, skipBlanks rest ≠ .scalar ':' :: r) :
    readName (.scalar '"' :: u) = .error (.malformed .expectingColon (skipBlanks rest)) := by
  rw [readName, hread]
  dsimp only
  split
  · exact absurd ‹_› (hcolon _)
  · rfl

theorem readName_append {name : Text} (h : readName t = .ok (name, rest)) :
    Clean rest ∧ ∃ w, w ≠ [] ∧ t = w ++ rest ∧
      ∀ rest', Clean rest' → readName (w ++ rest') = .ok (name, rest') := by
  unfold readName at h
  split at h
  case h_2 => cases h
  case h_1 u =>
    split at h
    case h_1 => cases h
    case h_2 name' r hread =>
      split at h
      case h_2 => cases h
      case h_1 r' hcolon =>
        obtain ⟨rfl, rfl⟩ := Prod.mk.inj (Except.ok.inj h)
        obtain ⟨w, -, rfl, hlocal⟩ := readString_append hread
        obtain ⟨gap, hgap, hr⟩ := exists_gap r
        obtain ⟨gap', hgap', hr'⟩ := exists_gap r'
        rw [hcolon] at hr
        refine ⟨clean_skipBlanks r', .scalar '"' :: (w ++ (gap ++ .scalar ':' :: gap')),
          List.cons_ne_nil _ _, ?_, fun rest' hrest' => ?_⟩
        · rw [hr, List.cons_append, List.append_assoc, List.append_assoc, List.cons_append, ← hr']
        · rw [List.cons_append, List.append_assoc, List.append_assoc, List.cons_append, readName,
            hlocal]
          simp only [skipBlanks_append hgap, skipBlanks_cons (rfl : isBlank (.scalar ':') = false),
            skipBlanks_append_clean hgap' hrest']

/-- The fault of a name is none of values. -/
theorem readName_error {e : ReadError} (h : readName t = .error e) :
    ∃ fault place, fault ≠ .expectingValue ∧ e = .malformed fault place := by
  unfold readName at h
  split at h
  case h_2 => exact ⟨_, _, by decide, (Except.error.inj h).symm⟩
  case h_1 u =>
    split at h
    case h_1 e' hread =>
      obtain rfl := Except.error.inj h
      exact readParts_error (map_eq_error_iff.1 hread)
    case h_2 =>
      split at h
      case h_1 => cases h
      case h_2 => exact ⟨_, _, by decide, (Except.error.inj h).symm⟩

end Items

section Values

variable {t : Text}

/-- The empty array or object. -/
def emptyValue : Container → Value
  | .array => .array []
  | .object => .object []

/-- The reader of the items of an array or an object, from the first one on. -/
def readItems (k : Container) (steps room : Nat) : Reader :=
  match k with
  | .array => readElements steps room []
  | .object => readMembers steps room []

theorem readValue_of_scalar (h : ∀ k, t.head? ≠ some (opening k)) (steps room : Nat) :
    readValue (steps + 1) room t = readScalar t := by
  cases t with
  | nil => rw [readValue, readScalar]
  | cons c t =>
      have hbrace : c ≠ .scalar '\x7b' := fun hc => h .object (congrArg some hc)
      have hbracket : c ≠ .scalar '[' := fun hc => h .array (congrArg some hc)
      rw [readValue.eq_def]
      dsimp only
      rw [if_neg hbrace, if_neg hbracket]
      rfl

theorem readValue_tooNested (k : Container) (steps : Nat) (rest : Text) :
    readValue (steps + 1) 0 (opening k :: rest) = .error (.tooNested k) := by
  cases k
  · rw [readValue.eq_def]
    rfl
  · rw [readValue.eq_def]
    rfl

theorem readValue_closing {k : Container} {rest rest' : Text}
    (h : skipBlanks rest = closing k :: rest') (steps room : Nat) :
    readValue (steps + 1) (room + 1) (opening k :: rest) = .ok (emptyValue k, rest') := by
  cases k
  · rw [readValue.eq_def]
    dsimp only [opening]
    rw [if_neg (by decide), if_neg (by decide), if_pos rfl, h]
    rfl
  · rw [readValue.eq_def]
    dsimp only [opening]
    rw [if_neg (by decide), if_pos rfl, h]
    rfl

theorem readValue_opening {k : Container} {rest t : Text} (ht : skipBlanks rest = t)
    (hmore : t.head? ≠ some (closing k)) (steps room : Nat) :
    readValue (steps + 1) (room + 1) (opening k :: rest) = readItems k steps room t := by
  cases k
  · rw [readValue.eq_def]
    dsimp only [opening]
    rw [if_neg (by decide), if_neg (by decide), if_pos rfl, ht]
    split
    · exact absurd ‹room + 1 = 0› (Nat.succ_ne_zero room)
    · exact absurd rfl hmore
    · rename_i heq _
      cases heq
      rfl
  · exact readValue_brace steps room ht hmore

theorem readElements_succ (steps room : Nat) (elements : List Value) (t : Text) :
    readElements (steps + 1) room elements t =
      afterItem .array (fun v => .array (v :: elements).reverse)
        (fun v => readElements steps room (v :: elements)) (readValue steps room t) := by
  rw [readElements.eq_def]
  dsimp only
  cases readValue steps room t with
  | error e => rfl
  | ok r =>
      obtain ⟨v, rest⟩ := r
      dsimp only
      split
      case h_1 h => rw [afterItem_closing h]
      case h_2 h => rw [afterItem_comma h]
      case h_3 hclosing hcomma => rw [afterItem_fault hclosing hcomma]

theorem readMembers_succ (steps room : Nat) (members : List (Text × Value)) (t : Text) :
    readMembers (steps + 1) room members t =
      afterName (fun name u =>
        afterItem .object (fun v => .object (Mapping.insertEntry name v members))
          (fun v => readMembers steps room (Mapping.insertEntry name v members))
          (readValue steps room u)) t := by
  rw [readMembers.eq_def, afterName]
  dsimp only
  split
  case h_2 hname =>
    have hfault : readName t = .error (.malformed .expectingName t) := by
      rw [readName]
      exact hname
    rw [hfault]
  case h_1 u =>
    cases hread : readString (.scalar '"' :: u) u with
    | error e => simp only [readName, hread]
    | ok r =>
        obtain ⟨name, r⟩ := r
        dsimp only
        split
        case h_2 hcolon => rw [readName_fault hread hcolon]
        case h_1 r' hcolon =>
          simp only [readName, hread, hcolon]
          cases readValue steps room (skipBlanks r') with
          | error e => rfl
          | ok r =>
              obtain ⟨v, rest⟩ := r
              dsimp only
              split
              case h_1 h => rw [afterItem_closing h]
              case h_2 h => rw [afterItem_comma h]
              case h_3 hclosing hcomma => rw [afterItem_fault hclosing hcomma]

end Values

end VersionedProperties.Json
