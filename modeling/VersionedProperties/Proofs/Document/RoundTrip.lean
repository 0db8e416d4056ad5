import VersionedProperties.Proofs.Document.Escape
import VersionedProperties.Proofs.Mapping

/-!
# Reading back what has been written

Comment and timestamp take lines of their own, which are ignored. Where no entry holds a line end
beyond ASCII, the other lines are those of the entries, and each is read as its entry. Conversely
nothing that is read from a written document holds such a line end, whatever has been written. So a
mapping is read back just if its names are not empty and no name and no value holds one.
-/

namespace VersionedProperties

section Header

theorem isLineEnd_of_isDigit {d : Char} (hd : d.isDigit = true) :
    (CodePoint.scalar d).isLineEnd = false := by
  rw [Char.isDigit, Bool.and_eq_true, decide_eq_true_eq, decide_eq_true_eq, ge_iff_le,
    UInt32.le_iff_toNat_le, UInt32.le_iff_toNat_le] at hd
  have hnumber : 0x30 ≤ (CodePoint.scalar d).toNat ∧ (CodePoint.scalar d).toNat ≤ 0x39 := hd
  rw [← Bool.not_eq_true]
  intro hend
  have hwide := CodePoint.isWideLineEnd_of_isLineEnd hend (by omega)
  simp only [CodePoint.isWideLineEnd, Bool.or_eq_true, decide_eq_true_eq] at hwide
  omega

theorem isLine_decimal (n : Nat) : Text.IsLine (Numeral.decimal n) := by
  intro c hc
  obtain ⟨d, hd, rfl⟩ := List.mem_map.1 hc
  exact isLineEnd_of_isDigit (Nat.isDigit_of_mem_toDigits (by decide) (by decide) hd)

theorem isLine_twoDigits (n : Nat) : Text.IsLine (Timestamp.twoDigits n) := by
  unfold Timestamp.twoDigits
  split
  · exact Text.isLine_cons.2 ⟨rfl, isLine_decimal n⟩
  · exact isLine_decimal n

theorem isLine_render_timestamp (t : Timestamp) : Text.IsLine t.render := by
  have hweekday : ∀ d : Fin 7, Text.IsLine (Text.ofString Timestamp.weekdayNames[d]) := by decide
  have hmonth : ∀ m : Fin 12, Text.IsLine (Text.ofString Timestamp.monthNames[m]) := by decide
  have hmark : Text.IsLine (Text.ofString " ") ∧ Text.IsLine (Text.ofString ":") := by decide
  simp only [Timestamp.render, Text.isLine_append, hweekday, hmonth, hmark, isLine_twoDigits,
    isLine_decimal, and_self]

end Header

namespace PropertiesText

section Header

/-- The lines of a document before those of the entries. -/
def headerLines (comment : Option Text) (timestamp : Option Timestamp) : List Text :=
  commentLines comment ++ timestamp.toList.map fun t => .scalar '#' :: t.render

theorem mem_headerLines {comment : Option Text} {timestamp : Option Timestamp} {line : Text}
    (hline : line ∈ headerLines comment timestamp) :
    ∃ t, line = .scalar '#' :: t ∧ Text.IsLine t := by
  rcases List.mem_append.1 hline with hcomment | hstamp
  · obtain ⟨t, ht, rfl⟩ := List.mem_map.1 hcomment
    exact ⟨t, rfl, Text.isLine_of_mem_lines _ t ht⟩
  · obtain ⟨t, -, rfl⟩ := List.mem_map.1 hstamp
    exact ⟨t.render, rfl, isLine_render_timestamp t⟩

theorem joinLines_headerLines (comment : Option Text) (timestamp : Option Timestamp)
    (number : Nat) (rest : List Text) :
    joinLines number none (headerLines comment timestamp ++ rest) =
      joinLines (number + (headerLines comment timestamp).length) none rest := by
  apply joinLines_ignored
  intro line hline
  obtain ⟨t, rfl, -⟩ := mem_headerLines hline
  rfl

/-- What a written document is read as can be told from the lines of its entries. -/
theorem logicalLines_encode (values : Mapping Text Text) (comment : Option Text)
    (timestamp : Option Timestamp) :
    logicalLines (encode values comment timestamp) =
      joinLines (1 + (headerLines comment timestamp).length) none
        (Text.lines (Text.written ((sortedEntries values).map entryLine))) := by
  have hencode : encode values comment timestamp = Text.joined "\n"
      (headerLines comment timestamp ++ (sortedEntries values).map entryLine) ++ "\n" := rfl
  have hheader : ∀ line ∈ headerLines comment timestamp, Text.IsLine line := by
    intro line hline
    obtain ⟨t, rfl, ht⟩ := mem_headerLines hline
    exact Text.isLine_cons.2 ⟨rfl, ht⟩
  rw [logicalLines, hencode]
  by_cases hnone : headerLines comment timestamp ++ (sortedEntries values).map entryLine = []
  · rw [hnone]
    obtain ⟨hh, he⟩ := List.append_eq_nil_iff.1 hnone
    rw [hh, he]
    rfl
  · rw [Text.joined_eq_written hnone, Text.written_append, Text.lines_written_append hheader,
      joinLines_headerLines]

end Header

section Reading

theorem joinLines_entryLine (number : Nat) {e : Text × Text} (he : e.1 ≠ []) (rest : List Text) :
    joinLines number none (entryLine e :: rest) =
      ⟨number, entryLine e⟩ :: joinLines (number + 1) none rest := by
  obtain ⟨_ | ⟨c, name⟩, value⟩ := e
  · exact absurd rfl he
  · have hfirst : entryCode (c :: name, value) =
        token true c :: (nameCode name ++ .bare (.scalar '=') (by decide) :: valueCode value) := rfl
    rw [← render_entryCode, joinLines_render, hfirst,
      List.dropWhile_cons_of_neg (Bool.eq_false_iff.1 (isBare_isBlank_token c)),
      isIgnored_render_cons, isBare_isCommentMark_token]
    rfl

/-- The lines of entries are read as the entries, one after the other. -/
theorem readEntries_entryLines {entries : List (Text × Text)} (h : ∀ e ∈ entries, e.1 ≠ [])
    (number : Nat) (m : Mapping Text Text) :
    readEntries m (joinLines number none (entries.map entryLine)) =
      .ok (entries.foldl (fun m e => m.insert e.1 e.2) m) := by
  induction entries generalizing number m with
  | nil => rfl
  | cons e entries ih =>
      rw [List.forall_mem_cons] at h
      rw [List.map_cons, joinLines_entryLine number h.1, readEntries, entryOf_entryLine number h.1]
      exact ih h.2 (number + 1) (m.insert e.1 e.2)

theorem find?_readEntries {ls : List LogicalLine} {m m' : Mapping Text Text}
    (h : readEntries m ls = .ok m') {name value : Text} (hfind : m'.find? name = some value) :
    m.find? name = some value ∨ ∃ line ∈ ls, entryOf line = .ok (name, value) := by
  induction ls generalizing m with
  | nil =>
      cases h
      exact .inl hfind
  | cons line ls ih =>
      rw [readEntries] at h
      cases hentry : entryOf line with
      | error e =>
          rw [hentry] at h
          cases h
      | ok e =>
          rw [hentry] at h
          rcases ih h with hold | ⟨later, hlater, hread⟩
          · rw [Mapping.find?_insert] at hold
            split at hold
            · rename_i hname
              cases hold
              subst hname
              exact .inr ⟨line, List.mem_cons_self, hentry⟩
            · exact .inl hold
          · exact .inr ⟨later, List.mem_cons_of_mem line hlater, hread⟩

end Reading

section Written

theorem isWideLineEnd_meaning {a : Token} (ha : a.isBare CodePoint.isLineEnd = false) :
    a.meaning.isWideLineEnd = false := by
  have hnarrow : ∀ c : CodePoint, c.isLineEnd = false → c.isWideLineEnd = false := by
    intro c hc
    rw [← Bool.not_eq_true] at hc ⊢
    exact mt CodePoint.isLineEnd_of_isWideLineEnd hc
  cases a with
  | bare c hslash => exact hnarrow c ha
  | escaped c hu hc =>
      rw [Token.meaning, unescapeChar]
      split
      · rfl
      split
      · rfl
      split
      · rfl
      split
      · rfl
      · exact hnarrow c hc
  | numbered n =>
      revert n
      decide

theorem mem_of_mem_nameTokens {a : Token} {us : List Token} (ha : a ∈ nameTokens us) : a ∈ us :=
  (List.takeWhile_sublist _).mem ha

theorem mem_of_mem_afterSeparator {a : Token} {us : List Token} (ha : a ∈ afterSeparator us) :
    a ∈ us := by
  have hdrop : ∀ {us : List Token}, a ∈ us.dropWhile (Token.isBare isBlank) → a ∈ us :=
    fun h => (List.dropWhile_sublist _).mem h
  unfold afterSeparator at ha
  apply hdrop
  split at ha
  · cases ha
  · rename_i b rest hrest
    rw [hrest]
    split at ha
    · exact List.mem_cons_of_mem b (hdrop ha)
    · exact ha

theorem mem_of_mem_valueTokens {a : Token} {us : List Token} (ha : a ∈ valueTokens us) : a ∈ us :=
  (List.dropWhile_sublist _).mem (mem_of_mem_afterSeparator ha)

/-- What is read from the tokens of a line holds no line end beyond ASCII. -/
theorem entryOf_onLine {number : Nat} {us : List Token} (hus : OnLine us) {e : Text × Text}
    (h : entryOf ⟨number, render us⟩ = .ok e) :
    e.1 ≠ [] ∧ ∀ c ∈ e.1 ++ e.2, c.isWideLineEnd = false := by
  have hmeaning : ∀ vs : List Token, (∀ a ∈ vs, a ∈ us) →
      ∀ c ∈ vs.map Token.meaning, c.isWideLineEnd = false := by
    intro vs hvs
    rw [List.forall_mem_map]
    exact fun a ha => isWideLineEnd_meaning (hus a (hvs a ha))
  rw [entryOf_render] at h
  split at h
  · cases h
  · rename_i hname
    cases h
    constructor
    · exact hname
    · rw [List.forall_mem_append]
      exact ⟨hmeaning _ fun a => mem_of_mem_nameTokens,
        hmeaning _ fun a => mem_of_mem_valueTokens⟩

theorem joinLines_onLine {ls : List Text}
    (hls : ∀ line ∈ ls, ∃ us, line = render us ∧ OnLine us) (number : Nat) :
    ∀ l ∈ joinLines number none ls, ∃ us, l.text = render us ∧ OnLine us := by
  induction ls generalizing number with
  | nil => exact fun l hl => absurd hl List.not_mem_nil
  | cons line ls ih =>
      rw [List.forall_mem_cons] at hls
      obtain ⟨⟨us, rfl, hus⟩, hls⟩ := hls
      rw [joinLines_render]
      split
      · exact ih hls (number + 1)
      · refine List.forall_mem_cons.2 ⟨?_, ih hls (number + 1)⟩
        exact ⟨_, rfl, fun a ha => hus a ((List.dropWhile_sublist _).mem ha)⟩

theorem written_entryLines (entries : List (Text × Text)) :
    Text.written (entries.map entryLine) =
      render (entries.flatMap fun e => entryCode e ++ [.bare (.scalar '\n') (by decide)]) := by
  induction entries with
  | nil => rfl
  | cons e entries ih =>
      rw [List.map_cons, Text.written_cons, ih, List.flatMap_cons, render_append, render_append,
        render_entryCode, List.append_assoc]
      rfl

/-- What is read from a written document has a name and holds no line end beyond ASCII. -/
theorem mem_decode_encode {values : Mapping Text Text} {comment : Option Text}
    {timestamp : Option Timestamp} {m : Mapping Text Text}
    (h : decode (encode values comment timestamp) = .ok m) {e : Text × Text}
    (he : e ∈ m.entries) : e.1 ≠ [] ∧ ∀ c ∈ e.1 ++ e.2, c.isWideLineEnd = false := by
  rw [decode, logicalLines_encode, written_entryLines] at h
  rcases find?_readEntries h (Mapping.find?_eq_some_iff.2 he) with hempty | ⟨l, hl, hread⟩
  · rw [Mapping.find?_empty] at hempty
    cases hempty
  · obtain ⟨us, htext, hus⟩ := joinLines_onLine (exists_tokens_of_mem_lines _) _ l hl
    obtain ⟨number, text⟩ := l
    cases htext
    exact entryOf_onLine hus hread

end Written

theorem sortedEntries_perm (values : Mapping Text Text) :
    (sortedEntries values).Perm values.entries :=
  List.mergeSort_perm _ _

/-- A document in which every entry keeps to its line is read as the sorted entries. -/
theorem decode_encode {values : Mapping Text Text} (comment : Option Text)
    (timestamp : Option Timestamp)
    (h : ∀ e ∈ values.entries, e.1 ≠ [] ∧ ∀ c ∈ e.1 ++ e.2, c.isWideLineEnd = false) :
    decode (encode values comment timestamp) = .ok (.ofList (sortedEntries values)) := by
  have hsorted : ∀ e ∈ sortedEntries values,
      e.1 ≠ [] ∧ ∀ c ∈ e.1 ++ e.2, c.isWideLineEnd = false :=
    fun e he => h e ((sortedEntries_perm values).mem_iff.1 he)
  have hlines : ∀ line ∈ (sortedEntries values).map entryLine, Text.IsLine line := by
    rw [List.forall_mem_map]
    intro e he
    rw [← render_entryCode]
    exact isLine_render (onLine_entryCode.2 (hsorted e he).2)
  rw [decode, logicalLines_encode, Text.lines_written hlines,
    readEntries_entryLines fun e he => (hsorted e he).1]
  rfl

/-- A mapping is read back from its document just if its names are not empty and no name and no
value holds a line end beyond ASCII. -/
theorem decode_encode_iff (values : Mapping Text Text) (comment : Option Text)
    (timestamp : Option Timestamp) :
    (∃ m, decode (encode values comment timestamp) = .ok m ∧
        ∀ name, m.find? name = values.find? name) ↔
      ∀ e ∈ values.entries, e.1 ≠ [] ∧ ∀ c ∈ e.1 ++ e.2, c.isWideLineEnd = false := by
  constructor
  · rintro ⟨m, hm, hsame⟩ e he
    rw [← Mapping.find?_eq_some_iff, ← hsame, Mapping.find?_eq_some_iff] at he
    exact mem_decode_encode hm he
  · intro h
    have hperm := sortedEntries_perm values
    have hnodup : ((sortedEntries values).map Prod.fst).Nodup :=
      (hperm.map Prod.fst).nodup_iff.2 values.nodup_keys
    refine ⟨_, decode_encode comment timestamp h, ?_⟩
    apply Mapping.find?_eq_of_perm
    rw [Mapping.entries_ofList hnodup]
    exact hperm

/-- A mapping whose only value holds a line separator. -/
def lineSeparatorInside : Mapping Text Text := .ofList [("k", "a\u2028b")]

/-- The line separator ends the line when the document is read, and the rest of the value becomes a
name. -/
theorem decode_encode_lineSeparatorInside :
    (∀ e ∈ lineSeparatorInside.entries, e.1 ≠ [] ∧ Text.isScalar (e.1 ++ e.2) = true) ∧
      decode (encode lineSeparatorInside none none) = .ok (.ofList [("k", "a"), ("b", "")]) ∧
      ¬ ∃ m, decode (encode lineSeparatorInside none none) = .ok m ∧
        ∀ name, m.find? name = lineSeparatorInside.find? name := by
  have hsorted : sortedEntries lineSeparatorInside = lineSeparatorInside.entries :=
    List.mergeSort_singleton _
  have hread : decode (encode lineSeparatorInside none none) =
      .ok (.ofList [("k", "a"), ("b", "")]) := by
    rw [encode, hsorted]
    rfl
  refine ⟨by decide, hread, ?_⟩
  rintro ⟨m, hm, hsame⟩
  rw [hread] at hm
  cases hm
  exact absurd (hsame "k") (by decide)

end PropertiesText

end VersionedProperties
