import Mathlib.Data.List.Forall2
import VersionedProperties.Document.JsonText
import VersionedProperties.Proofs.Document.RoundTrip

/-!
# JSON documents read back

A code point within a string is written by a letter, by its number or as it is, and each of these is
read as a part that stands for it. Members are read one after the other up to the brace behind them.
So every mapping is read back from its document, with whatever names and values. No document holds a
carriage return.
-/

namespace VersionedProperties.Json

section Strings

/-- What a part of a string stands for if it is no half of a surrogate pair. -/
inductive Stands : StringPart → CodePoint → Prop
  | plain (c : CodePoint) : Stands (.plain c) c
  | unit {c : CodePoint} (hc : c.toNat < 0x20) : Stands (.unit c.toNat) c

theorem hexQuad?_hexadecimal {n : Nat} (hn : n < 0x20) :
    ∃ a b c d, hexadecimal 4 n = [a, b, c, d] ∧ hexQuad? a b c d = some n := by
  have hquad : ∀ n : Fin 0x20, ∃ digits ∈ [hexadecimal 4 n.val],
      digits.length = 4 ∧ hexQuad? digits[0]! digits[1]! digits[2]! digits[3]! = some n.val := by
    decide
  obtain ⟨digits, hdigits, hlength, hvalue⟩ := hquad ⟨n, hn⟩
  rw [List.mem_singleton] at hdigits
  rw [← hdigits]
  match digits, hlength with
  | [a, b, c, d], _ => exact ⟨a, b, c, d, rfl, hvalue⟩

/-- A code point within a string is written by a letter, by its number or as it is. -/
theorem escapeChar_cases (c : CodePoint) :
    (∃ d, escapeChar c = [.scalar '\\', d] ∧ d ≠ .scalar 'u' ∧ simpleEscape? d = some c) ∨
      (c.toNat < 0x20 ∧ escapeChar c = "\\u" ++ hexadecimal 4 c.toNat) ∨
      (escapeChar c = [c] ∧ c ≠ .scalar '"' ∧ c ≠ .scalar '\\' ∧ 0x20 ≤ c.toNat) := by
  unfold escapeChar
  split
  · subst c
    exact .inl ⟨.scalar '"', rfl, by decide, rfl⟩
  split
  · subst c
    exact .inl ⟨.scalar '\\', rfl, by decide, rfl⟩
  split
  · subst c
    exact .inl ⟨.scalar 'n', rfl, by decide, rfl⟩
  split
  · subst c
    exact .inl ⟨.scalar 'r', rfl, by decide, rfl⟩
  split
  · subst c
    exact .inl ⟨.scalar 't', rfl, by decide, rfl⟩
  split
  · subst c
    exact .inl ⟨.scalar 'f', rfl, by decide, rfl⟩
  split
  · subst c
    exact .inl ⟨.scalar 'b', rfl, by decide, rfl⟩
  split
  · exact .inr (.inl ⟨‹_›, rfl⟩)
  · exact .inr (.inr ⟨rfl, ‹_›, ‹_›, by omega⟩)

theorem readParts_letter (quote : Text) {c d : CodePoint} (hd : d ≠ .scalar 'u')
    (hc : simpleEscape? d = some c) (rest : Text) :
    readParts quote (.scalar '\\' :: d :: rest) =
      (readParts quote rest).map fun (parts, rest) => (.plain c :: parts, rest) := by
  rw [readParts, hc]
  · intro a b e f g rest h _
    exact hd h
  · intro h
    exact hd h

theorem readParts_number (quote : Text) {n : Nat} (hn : n < 0x20) (next : CodePoint) (rest : Text) :
    readParts quote ("\\u" ++ hexadecimal 4 n ++ next :: rest) =
      (readParts quote (next :: rest)).map fun (parts, rest) => (.unit n :: parts, rest) := by
  obtain ⟨a, b, c, d, hdigits, hvalue⟩ := hexQuad?_hexadecimal hn
  rw [hdigits]
  change readParts quote (.scalar '\\' :: .scalar 'u' :: a :: b :: c :: d :: next :: rest) = _
  rw [readParts, hvalue]

theorem readParts_plain (quote : Text) {c : CodePoint} (hquote : c ≠ .scalar '"')
    (hslash : c ≠ .scalar '\\') (hc : 0x20 ≤ c.toNat) (rest : Text) :
    readParts quote (c :: rest) =
      (readParts quote rest).map fun (parts, rest) => (.plain c :: parts, rest) := by
  rw [readParts, if_neg (by omega)]
  · exact hquote
  · intro h _
    exact hslash h
  · intro a b d e f rest h _
    exact hslash h
  · intro rest h _
    exact hslash h
  · intro d rest h _
    exact hslash h

/-- A code point in its escaped form is read as a part that stands for it. -/
theorem readParts_escapeChar (c : CodePoint) : ∃ part, Stands part c ∧
    ∀ quote next rest, readParts quote (escapeChar c ++ next :: rest) =
      (readParts quote (next :: rest)).map fun (parts, rest) => (part :: parts, rest) := by
  rcases escapeChar_cases c with ⟨d, htext, hd, hc⟩ | ⟨hc, htext⟩ | ⟨htext, hquote, hslash, hc⟩
  · exact ⟨.plain c, .plain c, fun quote next rest => by
      rw [htext]
      exact readParts_letter quote hd hc (next :: rest)⟩
  · exact ⟨.unit c.toNat, .unit hc, fun quote next rest => by
      rw [htext]
      exact readParts_number quote hc next rest⟩
  · exact ⟨.plain c, .plain c, fun quote next rest => by
      rw [htext]
      exact readParts_plain quote hquote hslash hc (next :: rest)⟩

theorem readParts_flatMap (quote t rest : Text) : ∃ parts, List.Forall₂ Stands parts t ∧
    readParts quote (t.flatMap escapeChar ++ .scalar '"' :: rest) = .ok (parts, rest) := by
  induction t with
  | nil => exact ⟨[], .nil, by rw [List.flatMap_nil, List.nil_append, readParts]⟩
  | cons c t ih =>
      obtain ⟨parts, hparts, hread⟩ := ih
      obtain ⟨part, hpart, hfirst⟩ := readParts_escapeChar c
      refine ⟨part :: parts, .cons hpart hparts, ?_⟩
      obtain ⟨next, more, hmore⟩ : ∃ next more,
          t.flatMap escapeChar ++ .scalar '"' :: rest = next :: more :=
        List.exists_cons_of_ne_nil (by simp)
      rw [List.flatMap_cons, List.append_assoc, hmore, hfirst, ← hmore, hread]
      rfl

theorem codePoint_toNat {c : CodePoint} (hc : c.toNat < 0x20) : codePoint c.toNat = c := by
  cases c with
  | surrogate u =>
      rw [CodePoint.toNat_surrogate] at hc
      omega
  | scalar c =>
      have hvalid : c.toNat.isValidChar := c.valid
      rw [CodePoint.toNat_scalar, codePoint, CodePoint.ofNat?, if_pos hvalid, Char.ofNat_toNat]
      rfl

theorem joinParts_unit {n : Nat} (hn : n < 0x20) (parts : List StringPart) :
    joinParts (.unit n :: parts) = codePoint n :: joinParts parts := by
  have hhigh : isHighSurrogate n = false := by
    rw [isHighSurrogate, Bool.and_eq_false_imp]
    intro h
    have := of_decide_eq_true h
    omega
  match parts with
  | [] => rfl
  | .plain c :: parts => rfl
  | .unit m :: parts =>
      rw [joinParts, hhigh]
      rfl

theorem joinParts_of_stands {parts : List StringPart} {t : Text} (h : List.Forall₂ Stands parts t) :
    joinParts parts = t := by
  induction h with
  | nil => rfl
  | cons hpart _ ih =>
      cases hpart with
      | plain c => rw [joinParts, ih]
      | unit hc => rw [joinParts_unit hc, codePoint_toNat hc, ih]

/-- A text written as a string is read back, with what follows it as the rest. -/
theorem readString_writeString (quote t rest : Text) :
    readString quote (t.flatMap escapeChar ++ .scalar '"' :: rest) = .ok (t, rest) := by
  obtain ⟨parts, hparts, hread⟩ := readParts_flatMap quote t rest
  rw [readString, hread, ← joinParts_of_stands hparts]
  rfl

end Strings

section Members

theorem writeString_append (t rest : Text) :
    writeString t ++ rest = .scalar '"' :: (t.flatMap escapeChar ++ .scalar '"' :: rest) := by
  rw [writeString, List.append_assoc, List.append_assoc]
  rfl

theorem skipBlanks_append {gap : Text} (hgap : ∀ c ∈ gap, isBlank c = true) (t : Text) :
    skipBlanks (gap ++ t) = skipBlanks t :=
  List.dropWhile_append_of_pos hgap

theorem skipBlanks_cons {c : CodePoint} (hc : isBlank c = false) (t : Text) :
    skipBlanks (c :: t) = c :: t :=
  List.dropWhile_cons_of_neg (Bool.eq_false_iff.1 hc)

theorem readValue_writeString (steps room : Nat) (t rest : Text) :
    readValue (steps + 1) room (writeString t ++ rest) = .ok (.string t, rest) := by
  rw [writeString_append, readValue.eq_def]
  dsimp only
  rw [if_pos rfl, readString_writeString]
  rfl

/-- A member is read, and what follows it tells whether the object ends there. -/
theorem readMembers_writeMember (steps room : Nat) (members : List (Text × Value)) (e : Text × Text)
    (rest next : Text) :
    (skipBlanks rest = .scalar '\x7d' :: next →
      readMembers (steps + 2) room members (writeMember e ++ rest) =
        .ok (.object (Mapping.insertEntry e.1 (.string e.2) members), next)) ∧
    (skipBlanks rest = .scalar ',' :: next →
      readMembers (steps + 2) room members (writeMember e ++ rest) =
        readMembers (steps + 1) room (Mapping.insertEntry e.1 (.string e.2) members)
          (skipBlanks next)) := by
  have htext : writeMember e ++ rest = .scalar '"' :: (e.1.flatMap escapeChar ++ .scalar '"' ::
      .scalar ':' :: .scalar ' ' :: (writeString e.2 ++ rest)) := by
    rw [writeMember, List.append_assoc, List.append_assoc, writeString_append]
    rfl
  have hcolon : skipBlanks (.scalar ':' :: .scalar ' ' :: (writeString e.2 ++ rest)) =
      .scalar ':' :: .scalar ' ' :: (writeString e.2 ++ rest) := skipBlanks_cons rfl _
  have hvalue : skipBlanks (.scalar ' ' :: (writeString e.2 ++ rest)) =
      writeString e.2 ++ rest := by
    rw [writeString_append]
    rfl
  rw [htext, readMembers]
  dsimp only
  rw [readString_writeString]
  dsimp only
  constructor
  · intro hend
    simp only [hcolon, hvalue, readValue_writeString, hend]
  · intro hcomma
    simp only [hcolon, hvalue, readValue_writeString, hcomma]

theorem joined_cons_cons (separator t next : Text) (others : List Text) :
    Text.joined separator (t :: next :: others) =
      t ++ (separator ++ Text.joined separator (next :: others)) := by
  rw [Text.joined, List.append_assoc]
  exact List.cons_ne_nil next others

theorem joined_starts (separator : Text) (e : Text × Text) (entries : List (Text × Text))
    (rest : Text) :
    ∃ t, Text.joined separator ((e :: entries).map writeMember) ++ rest = .scalar '"' :: t := by
  obtain ⟨others, hfirst⟩ : ∃ others,
      Text.joined separator ((e :: entries).map writeMember) = writeMember e ++ others := by
    cases entries with
    | nil => exact ⟨[], (List.append_nil _).symm⟩
    | cons next entries => exact ⟨_, joined_cons_cons ..⟩
  rw [hfirst, writeMember, List.append_assoc, List.append_assoc, List.append_assoc,
    writeString_append]
  exact ⟨_, rfl⟩

/-- The members of an object with the given ones put in place. -/
def withStrings (members : List (Text × Value)) (entries : List (Text × Text)) :
    List (Text × Value) :=
  entries.foldl (fun members e => Mapping.insertEntry e.1 (.string e.2) members) members

/-- Members between commas and blanks are read up to the end of their object. -/
theorem readMembers_joined {gap tail : Text} (hgap : ∀ c ∈ gap, isBlank c = true)
    (htail : ∀ c ∈ tail, isBlank c = true) (entries : List (Text × Text)) (e : Text × Text)
    (rest : Text) (room : Nat) {steps : Nat} (hsteps : entries.length + 2 ≤ steps)
    (members : List (Text × Value)) :
    readMembers steps room members
        (Text.joined (.scalar ',' :: gap) ((e :: entries).map writeMember) ++
          (tail ++ .scalar '\x7d' :: rest)) =
      .ok (.object (withStrings members (e :: entries)), rest) := by
  induction entries generalizing e steps members with
  | nil =>
      obtain ⟨steps, rfl⟩ := Nat.exists_eq_add_of_le' hsteps
      have hend : skipBlanks (tail ++ .scalar '\x7d' :: rest) = .scalar '\x7d' :: rest := by
        rw [skipBlanks_append htail, skipBlanks_cons rfl]
      exact (readMembers_writeMember steps room members e _ rest).1 hend
  | cons next entries ih =>
      rw [List.length_cons] at hsteps
      obtain ⟨steps, rfl⟩ := Nat.exists_eq_add_of_le' (Nat.le_of_add_left_le hsteps)
      let others := Text.joined (.scalar ',' :: gap) ((next :: entries).map writeMember) ++
        (tail ++ .scalar '\x7d' :: rest)
      have hcomma : skipBlanks (.scalar ',' :: (gap ++ others)) = .scalar ',' :: (gap ++ others) :=
        skipBlanks_cons rfl _
      have hothers : skipBlanks (gap ++ others) = others := by
        obtain ⟨t, ht⟩ := joined_starts (.scalar ',' :: gap) next entries
          (tail ++ .scalar '\x7d' :: rest)
        rw [skipBlanks_append hgap, show others = _ from ht, skipBlanks_cons rfl]
      have htext : Text.joined (.scalar ',' :: gap) ((e :: next :: entries).map writeMember) ++
          (tail ++ .scalar '\x7d' :: rest) =
            writeMember e ++ .scalar ',' :: (gap ++ others) := by
        rw [List.map_cons, List.map_cons, joined_cons_cons, List.append_assoc, List.append_assoc]
        rfl
      rw [htext, (readMembers_writeMember steps room members e _ _).2 hcomma, hothers]
      exact ih next (by omega) _

theorem withStrings_eq {members : List (Text × Value)} {entries : List (Text × Text)}
    (h : (members.map Prod.fst ++ entries.map Prod.fst).Nodup) :
    withStrings members entries = members ++ entries.map fun e => (e.1, .string e.2) := by
  induction entries generalizing members with
  | nil => exact (List.append_nil members).symm
  | cons e entries ih =>
      have hnew : e.1 ∉ members.map Prod.fst := by
        rw [List.map_cons, List.nodup_append] at h
        exact fun hold => h.2.2 _ hold _ List.mem_cons_self rfl
      have hsplit : (members ++ [(e.1, Value.string e.2)]).map Prod.fst ++ entries.map Prod.fst =
          members.map Prod.fst ++ (e :: entries).map Prod.fst := by
        rw [List.map_append, List.append_assoc]
        rfl
      have hinsert : withStrings members (e :: entries) =
          withStrings (members ++ [(e.1, .string e.2)]) entries := by
        rw [withStrings, List.foldl_cons, Mapping.insertEntry_of_not_mem _ hnew]
        rfl
      rw [hinsert, ih (by rwa [hsplit]), List.append_assoc]
      rfl

theorem scalarEntries_strings (entries : List (Text × Text)) :
    scalarEntries (entries.map fun e => (e.1, .string e.2)) = .ok entries := by
  induction entries with
  | nil => rfl
  | cons e entries ih =>
      rw [List.map_cons, scalarEntries, ih]
      rfl

end Members

section Documents

theorem encode_of_empty {values : Mapping Text Text}
    (hentries : PropertiesText.sortedEntries values = []) (indent : Option Int) :
    encode values indent = "\x7b\x7d\n" := by
  have hsorted : values.entries.mergeSort (fun a b => Text.le a.1 b.1) = [] := hentries
  unfold encode
  rw [hsorted]
  rfl

/-- A text of line feeds and spaces, as it stands between members. -/
def IsGap (t : Text) : Prop := ∀ c ∈ t, c = .scalar '\n' ∨ c = .scalar ' '

theorem IsGap.isBlank {t : Text} (h : IsGap t) : ∀ c ∈ t, isBlank c = true := by
  intro c hc
  rcases h c hc with rfl | rfl <;> rfl

/-- A mapping with entries is written as its members between commas and gaps. -/
theorem encode_eq {values : Mapping Text Text} {e : Text × Text} {entries : List (Text × Text)}
    (hentries : PropertiesText.sortedEntries values = e :: entries) (indent : Option Int) :
    ∃ opening gap tail : Text, IsGap opening ∧ IsGap gap ∧ IsGap tail ∧
      encode values indent = .scalar '\x7b' :: (opening ++
        (Text.joined (.scalar ',' :: gap) ((e :: entries).map writeMember) ++
          (tail ++ .scalar '\x7d' :: [.scalar '\n']))) := by
  have hsorted : values.entries.mergeSort (fun a b => Text.le a.1 b.1) = e :: entries := hentries
  cases indent with
  | none =>
      have hempty : IsGap [] := fun _ hc => nomatch hc
      have hspace : IsGap [.scalar ' '] := fun _ hc => .inr (List.mem_singleton.1 hc)
      refine ⟨[], [.scalar ' '], [], hempty, hspace, hempty, ?_⟩
      unfold encode
      rw [hsorted]
      rfl
  | some n =>
      let newLine : Text := .scalar '\n' :: List.replicate n.toNat (.scalar ' ')
      have hnewLine : IsGap newLine :=
        List.forall_mem_cons.2 ⟨.inl rfl, fun _ hc => .inr (List.eq_of_mem_replicate hc)⟩
      have hend : IsGap [.scalar '\n'] := fun _ hc => .inl (List.mem_singleton.1 hc)
      refine ⟨newLine, newLine, [.scalar '\n'], hnewLine, hnewLine, hend, ?_⟩
      unfold encode
      rw [hsorted]
      change [.scalar '\x7b'] ++ (newLine ++ Text.joined (.scalar ',' :: newLine) _ ++
        [.scalar '\n']) ++ [.scalar '\x7d', .scalar '\n'] = _
      rw [List.append_assoc, List.append_assoc, List.append_assoc]
      rfl

theorem length_joined (separator : Text) (entries : List (Text × Text)) :
    entries.length ≤ (Text.joined separator (entries.map writeMember)).length := by
  induction entries with
  | nil => exact Nat.zero_le _
  | cons e entries ih =>
      have hmember : 1 ≤ (writeMember e).length := by
        rw [writeMember, List.append_assoc, writeString_append, List.length_cons]
        exact Nat.le_add_left 1 _
      cases entries with
      | nil => exact hmember
      | cons next entries =>
          rw [List.map_cons, List.map_cons, joined_cons_cons, List.length_append,
            List.length_append, List.length_cons]
          rw [List.map_cons] at ih
          omega

theorem readValue_brace (steps room : Nat) {rest t : Text} (ht : skipBlanks rest = t)
    (hmore : t.head? ≠ some (.scalar '\x7d')) :
    readValue (steps + 1) (room + 1) (.scalar '\x7b' :: rest) = readMembers steps room [] t := by
  rw [readValue.eq_def]
  dsimp only
  rw [if_neg (by decide), if_pos rfl, ht]
  split
  · exact absurd ‹room + 1 = 0› (Nat.succ_ne_zero room)
  · exact absurd rfl hmore
  · rename_i heq _
    cases heq
    rfl

/-- A document is read as the object of its members. -/
theorem read_encode {values : Mapping Text Text} {e : Text × Text} {entries : List (Text × Text)}
    (hentries : PropertiesText.sortedEntries values = e :: entries) (indent : Option Int) :
    read (encode values indent) = .ok (.object (withStrings [] (e :: entries))) := by
  obtain ⟨opening, gap, tail, hopening, hgap, htail, htext⟩ := encode_eq hentries indent
  let body := Text.joined (.scalar ',' :: gap) ((e :: entries).map writeMember) ++
    (tail ++ .scalar '\x7d' :: [.scalar '\n'])
  obtain ⟨t, ht⟩ : ∃ t, body = .scalar '"' :: t := joined_starts ..
  have hbody : skipBlanks (opening ++ body) = body := by
    rw [skipBlanks_append hopening.isBlank, ht, skipBlanks_cons rfl]
  have hmore : body.head? ≠ some (.scalar '\x7d') := by
    rw [ht, List.head?_cons]
    decide
  have hsteps : entries.length + 2 ≤ 2 * (encode values indent).length := by
    have hlength := length_joined (.scalar ',' :: gap) (e :: entries)
    rw [List.length_cons] at hlength
    rw [htext]
    simp only [List.length_cons, List.length_append]
    omega
  have hmembers := readMembers_joined hgap.isBlank htail.isBlank entries e [.scalar '\n']
    (maxNesting - 1) hsteps []
  have hvalue : readValue (2 * (encode values indent).length + 1) maxNesting
      (skipBlanks (encode values indent)) =
        .ok (.object (withStrings [] (e :: entries)), [.scalar '\n']) := by
    have hbrace : skipBlanks (encode values indent) = .scalar '\x7b' :: (opening ++ body) := by
      rw [htext, skipBlanks_cons rfl]
    rw [hbrace]
    exact (readValue_brace _ (maxNesting - 1) hbody hmore).trans hmembers
  have hmark : (encode values indent).head? ≠ some (.scalar '\uFEFF') := by
    rw [htext, List.head?_cons]
    decide
  rw [read, if_neg hmark, hvalue]
  rfl

/-- A document is read as the sorted entries. -/
theorem decode_encode (values : Mapping Text Text) (indent : Option Int) :
    decode (encode values indent) = .ok (.ofList (PropertiesText.sortedEntries values)) := by
  cases hentries : PropertiesText.sortedEntries values with
  | nil =>
      rw [encode_of_empty hentries]
      rfl
  | cons e entries =>
      have hnodup : ((e :: entries).map Prod.fst).Nodup := by
        rw [← hentries]
        exact ((PropertiesText.sortedEntries_perm values).map Prod.fst).nodup_iff.2
          values.nodup_keys
      obtain ⟨opening, gap, tail, -, -, -, htext⟩ := encode_eq hentries indent
      have hblank : Text.isBlank (encode values indent) = false := by
        rw [htext]
        rfl
      rw [decode, hblank, read_encode hentries, withStrings_eq (by simpa using hnodup)]
      dsimp only
      rw [List.nil_append, scalarEntries_strings]
      rfl

/-- What a code point is written as holds no carriage return. -/
theorem return_not_mem_escapeChar (c : CodePoint) : CodePoint.scalar '\r' ∉ escapeChar c := by
  rcases escapeChar_cases c with ⟨d, htext, -, hd⟩ | ⟨hc, htext⟩ | ⟨htext, -, -, hc⟩
  · rw [htext, List.mem_cons, List.mem_singleton, not_or]
    refine ⟨by decide, ?_⟩
    rintro rfl
    cases hd
  · have hdigits : CodePoint.scalar '\r' ∉ hexadecimal 4 c.toNat := fun hmem =>
      absurd (PropertiesText.plain_hexadecimal ⟨c.toNat, by omega⟩ _ hmem).2.2.2 (by decide)
    rw [htext, List.mem_append, not_or]
    exact ⟨by decide, hdigits⟩
  · rw [htext, List.mem_singleton]
    rintro rfl
    exact absurd hc (by decide)

theorem return_not_mem_writeMember (e : Text × Text) : CodePoint.scalar '\r' ∉ writeMember e := by
  have hstring : ∀ t, CodePoint.scalar '\r' ∉ writeString t := by
    intro t hmem
    rw [writeString, List.mem_append, List.mem_append, List.mem_flatMap] at hmem
    rcases hmem with (hmem | ⟨c, -, hmem⟩) | hmem
    · exact absurd (List.mem_singleton.1 hmem) (by decide)
    · exact return_not_mem_escapeChar c hmem
    · exact absurd (List.mem_singleton.1 hmem) (by decide)
  rw [writeMember, List.mem_append, List.mem_append, not_or, not_or]
  exact ⟨⟨hstring e.1, by decide⟩, hstring e.2⟩

theorem return_not_mem_encode (values : Mapping Text Text) (indent : Option Int) :
    CodePoint.scalar '\r' ∉ encode values indent := by
  cases hentries : PropertiesText.sortedEntries values with
  | nil =>
      rw [encode_of_empty hentries]
      decide
  | cons e entries =>
      obtain ⟨opening, gap, tail, hopening, hgap, htail, htext⟩ := encode_eq hentries indent
      have hfree : ∀ {t : Text}, IsGap t → CodePoint.scalar '\r' ∉ t := by
        intro t ht hmem
        rcases ht _ hmem with h | h <;> exact absurd h (by decide)
      have hmembers : CodePoint.scalar '\r' ∉
          Text.joined (.scalar ',' :: gap) ((e :: entries).map writeMember) := by
        intro hmem
        rcases Text.mem_joined hmem with hmem | ⟨t, ht, hmem⟩
        · exact (List.mem_cons.1 hmem).elim (by decide) (hfree hgap)
        · obtain ⟨e, -, rfl⟩ := List.mem_map.1 ht
          exact return_not_mem_writeMember e hmem
      simp only [htext, List.mem_cons, List.mem_append, hfree hopening, hmembers, hfree htail,
        List.not_mem_nil, or_false, false_or]
      decide

end Documents

end VersionedProperties.Json
