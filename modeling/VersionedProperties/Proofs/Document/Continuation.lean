import VersionedProperties.Proofs.Document.Composition

/-!
# Lines that are continued

A line that begins a logical line may be cut in two: a backslash is put behind the first part, the
second one goes to a line of its own, and blanks may come in front of it. Both parts are joined to
what the line was, so the document is read as before, and what is below the cut has moved down by
one line.
-/

namespace VersionedProperties.PropertiesText

/-- A line that may be cut into two parts: the first one is no comment, not blank, and not open
itself, and the second one does not begin with a blank. -/
structure IsCut (a b : Text) : Prop where
  isLine : Text.IsLine (a ++ b)
  begins : isIgnored (Text.dropLeading isBlank a) = false
  closed : isOpen a = false
  second : ∀ c ∈ b.head?, c ≠ .scalar ' ' ∧ c ≠ .scalar '\t'

/-- Spaces and tabs. -/
def IsIndent (t : Text) : Prop := ∀ c ∈ t, c = .scalar ' ' ∨ c = .scalar '\t'

instance : DecidablePred IsIndent :=
  fun t => inferInstanceAs (Decidable (∀ c ∈ t, c = .scalar ' ' ∨ c = .scalar '\t'))

/-- The two lines of a cut line. -/
def continued (a blanks b : Text) : Text :=
  a ++ [backslash] ++ .scalar '\n' :: (blanks ++ b)

section Joining

theorem isIgnored_append {t : Text} (ht : isIgnored t = false) (u : Text) :
    isIgnored (t ++ u) = false := by
  cases t with
  | nil => cases ht
  | cons c t => exact ht

theorem isOpen_append_backslash {a : Text} (ha : isOpen a = false) :
    isOpen (a ++ [backslash]) = true := by
  rw [isOpen_append ha]
  rfl

theorem IsIndent.isBlank {t : Text} (ht : IsIndent t) : ∀ c ∈ t, isBlank c = true := by
  intro c hc
  rcases ht c hc with rfl | rfl <;> rfl

theorem IsIndent.isLine {t : Text} (ht : IsIndent t) : Text.IsLine t := by
  intro c hc
  rcases ht c hc with rfl | rfl <;> decide

theorem IsCut.dropLeading_append {a b : Text} (h : IsCut a b) (t : Text) :
    Text.dropLeading isBlank (a ++ t) = Text.dropLeading isBlank a ++ t := by
  rw [Text.dropLeading, Text.dropLeading, List.dropWhile_append, if_neg]
  intro hempty
  have hbegins := h.begins
  rw [Text.dropLeading, List.isEmpty_iff.1 hempty] at hbegins
  cases hbegins

theorem IsCut.isBlank_second {a b : Text} (h : IsCut a b) : ∀ c ∈ b.head?, isBlank c = false := by
  intro c hc
  have hfeed : c ≠ .scalar '\x0c' := by
    rintro rfl
    have hmem := List.mem_of_mem_head? hc
    exact absurd (h.isLine _ (List.mem_append_right a hmem)) (by decide)
  simp [PropertiesText.isBlank, h.second c hc, hfeed]

theorem IsCut.dropLeading_second {a b blanks : Text} (h : IsCut a b) (hblanks : IsIndent blanks) :
    Text.dropLeading PropertiesText.isBlank (blanks ++ b) = b := by
  rw [Text.dropLeading, List.dropWhile_append_of_pos hblanks.isBlank]
  cases b with
  | nil => rfl
  | cons c b => exact List.dropWhile_cons_of_neg (Bool.eq_false_iff.1 (h.isBlank_second c rfl))

variable {a b blanks : Text} (h : IsCut a b)

include h

theorem joinLine_first (number : Nat) : joinLine number none (a ++ [backslash]) =
    ([], some ⟨number, Text.dropLeading isBlank a⟩) := by
  rw [joinLine, isOpen_dropLeading, isOpen_append_backslash h.closed, h.dropLeading_append,
    isIgnored_append h.begins, List.dropLast_concat]
  rfl

theorem joinLine_second (hblanks : IsIndent blanks) (number : Nat) :
    joinLine (number + 1) (some ⟨number, Text.dropLeading isBlank a⟩) (blanks ++ b) =
      joinLine number none (a ++ b) := by
  have hsame : isOpen (Text.dropLeading isBlank a ++ b) = isOpen b := by
    rw [isOpen_append]
    rw [isOpen_dropLeading, h.closed]
  rw [joinLine, joinLine, h.dropLeading_second hblanks, h.dropLeading_append,
    isIgnored_append h.begins, hsame]
  dsimp only
  cases hopen : isOpen b with
  | false => rfl
  | true =>
      have hne : b ≠ [] := by
        rintro rfl
        cases hopen
      rw [List.dropLast_append_of_ne_nil hne]
      rfl

/-- Lines after the first part of a cut line. Where nothing is behind the cut line, the second part
need not be a line. -/
theorem joinLines_continued (hblanks : IsIndent blanks) (number : Nat) {rest ls : List Text}
    (hls : ls = (blanks ++ b) :: rest ∨ blanks ++ b = [] ∧ rest = [] ∧ ls = []) :
    joinLines number none ((a ++ [backslash]) :: ls) =
      (joinLine number none (a ++ b)).1 ++
        joinLines (number + 2) (joinLine number none (a ++ b)).2 rest := by
  rw [joinLines_cons, joinLine_first h, List.nil_append]
  rcases hls with rfl | ⟨hnil, rfl, rfl⟩
  · rw [joinLines_cons, joinLine_second h hblanks]
  · rw [← joinLine_second h hblanks, hnil, joinLines_nil, joinLines_nil]
    simp [joinLine, Text.dropLeading, isOpen]

end Joining

section Numbers

/-- The number of a line when there is one more line below line `cut`. -/
def movedDown (cut n : Nat) : Nat := if cut < n then n + 1 else n

theorem movedDown_of_lt {cut n : Nat} (hn : cut < n) : movedDown cut n = n + 1 := if_pos hn

theorem movedDown_of_le {cut n : Nat} (hn : n ≤ cut) : movedDown cut n = n :=
  if_neg (Nat.not_lt.2 hn)

theorem renumbered_of_eq {f : Nat → Nat} {l : LogicalLine} (hf : f l.number = l.number) :
    l.renumbered f = l := by
  rw [LogicalLine.renumbered, hf]

theorem joinLines_above (ls : List Text) :
    (joinLines 1 none ls).map (LogicalLine.renumbered (movedDown (ls.length + 1))) =
      joinLines 1 none ls := by
  have hkept : ∀ l ∈ joinLines 1 none ls, l.renumbered (movedDown (ls.length + 1)) = id l := by
    intro l hl
    obtain ⟨before, line, after, -, rfl, -, -, hnumber, -⟩ := beginsIn_of_mem hl
    apply renumbered_of_eq
    apply movedDown_of_le
    rw [hnumber, List.length_append]
    omega
  rw [List.map_congr_left hkept, List.map_id]

/-- A line that a logical line begins with keeps its number, and the lines below it are counted one
further. -/
theorem joinLines_below (cut : Nat) (line : Text) (rest : List Text) :
    (joinLine cut none line).1 ++ joinLines (cut + 2) (joinLine cut none line).2 rest =
      (joinLines cut none (line :: rest)).map (LogicalLine.renumbered (movedDown cut)) := by
  have hrest : ∀ n, cut + 1 ≤ n → movedDown cut (n + 1) = movedDown cut n + 1 := by
    intro n hn
    rw [movedDown_of_lt (Nat.lt_succ_of_lt hn), movedDown_of_lt hn]
  have hline := joinLine_renumbered (movedDown cut) cut none line
  rw [movedDown_of_le (Nat.le_refl cut), Option.map_none] at hline
  obtain ⟨hended, hleft⟩ := Prod.ext_iff.1 hline
  dsimp only at hended hleft
  rw [joinLines_cons, List.map_append, ← joinLines_renumbered hrest,
    movedDown_of_lt (Nat.lt_succ_self cut), ← hended, ← hleft]

end Numbers

section Documents

variable {before a b blanks after : Text}

theorem logicalLines_continued (hbefore : Text.IsBoundary before a)
    (hclosed : leavesOpen false (Text.lines before) = false) (h : IsCut a b)
    (hblanks : IsIndent blanks) (hafter : Text.IsBehindLine after) :
    logicalLines (before ++ (continued a blanks b ++ after)) =
      (logicalLines (before ++ (a ++ b ++ after))).map
        (LogicalLine.renumbered (movedDown ((Text.lines before).length + 1))) := by
  have hne : a ≠ [] := by
    rintro rfl
    cases h.begins
  have hslash : Text.IsLine [backslash] := Text.isLine_cons.2 ⟨rfl, Text.isLine_nil⟩
  have hfirst : Text.IsLine (a ++ [backslash]) :=
    Text.isLine_append.2 ⟨(Text.isLine_append.1 h.isLine).1, hslash⟩
  have hsecond : Text.IsLine (blanks ++ b) :=
    Text.isLine_append.2 ⟨hblanks.isLine, (Text.isLine_append.1 h.isLine).2⟩
  obtain ⟨rest, hrest⟩ := Text.exists_lines_append hafter
  have hwhole : Text.lines (before ++ (a ++ b ++ after)) =
      Text.lines before ++ (a ++ b) :: rest := by
    rw [List.append_assoc, Text.lines_append_of_isBoundary (hbefore.append hne _),
      ← List.append_assoc]
    rcases hrest _ h.isLine with hline | ⟨hnil, -⟩
    · rw [hline]
    · exact absurd (List.append_eq_nil_iff.1 hnil).1 hne
  have hcut : Text.lines (before ++ (continued a blanks b ++ after)) =
      Text.lines before ++ (a ++ [backslash]) :: Text.lines (blanks ++ b ++ after) := by
    rw [continued, List.append_assoc, List.append_assoc,
      Text.lines_append_of_isBoundary (hbefore.append hne _), ← List.append_assoc,
      List.cons_append, Text.lines_line hfirst]
  rw [logicalLines, logicalLines, hcut, hwhole, joinLines_append 1 none hclosed,
    joinLines_append 1 none hclosed, joinLines_continued h hblanks _ (hrest _ hsecond),
    List.map_append, joinLines_above, Nat.add_comm 1, joinLines_below]

/-- A line that a logical line begins with, in front of which nothing is left open, is cut in two.
What is read stays the same. An error stays, too, with the number of its line, which is one more
below the cut. -/
theorem decode_continued (hbefore : Text.IsBoundary before a)
    (hclosed : leavesOpen false (Text.lines before) = false) (h : IsCut a b)
    (hblanks : IsIndent blanks) (hafter : Text.IsBehindLine after) :
    (∀ m, decode (before ++ (a ++ b ++ after)) = .ok m →
        decode (before ++ (continued a blanks b ++ after)) = .ok m) ∧
      ∀ e, decode (before ++ (a ++ b ++ after)) = .error e →
        decode (before ++ (continued a blanks b ++ after)) =
          .error (e.renumbered (movedDown ((Text.lines before).length + 1))) := by
  have hread : decode (before ++ (continued a blanks b ++ after)) =
      (decode (before ++ (a ++ b ++ after))).mapError
        (FormatError.renumbered (movedDown ((Text.lines before).length + 1))) := by
    rw [decode, logicalLines_continued hbefore hclosed h hblanks hafter, readEntries_renumbered]
    rfl
  constructor
  · intro m hm
    rw [hread, hm]
    rfl
  · intro e he
    rw [hread, he]
    rfl

/-- An entry is cut within its name, in front of what would be a comment, and the line below it
goes on. -/
theorem decode_continued_insideName :
    decode "# names\nab\\\n\t #c = 1\\\n2" = .ok (.ofList [("ab#c", "12")]) := by
  have hbefore : Text.IsBoundary (("# names" : Text) ++ [CodePoint.scalar '\n']) "ab" :=
    Text.isBoundary_lineFeed _ _
  have hafter : Text.IsBehindLine "\n2" := .inr ⟨.scalar '\n', [.scalar '2'], rfl, by decide⟩
  have hcut : IsCut "ab" "#c = 1\\" := ⟨by decide, rfl, rfl, by decide⟩
  have hblanks : IsIndent "\t " := by decide
  exact (decode_continued hbefore rfl hcut hblanks hafter).1 _ rfl

end Documents

end VersionedProperties.PropertiesText
