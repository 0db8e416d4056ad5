import Mathlib.Data.List.Forall2
import VersionedProperties.Proofs.Document.LogicalLine
import VersionedProperties.Proofs.Mapping

/-!
# Documents put together

Entries are read one after the other: what has been read before a line does not matter to what the
line is read as, and an error is that of the first line that cannot be read. So a document that is
put together of two, where the first one leaves no line open, is read as the first one with the
second one put over it. An error in the second one is reported at the place where the line has come
to stand.
-/

namespace VersionedProperties

/-- An error at a line with another number. -/
def FormatError.renumbered (f : Nat → Nat) (e : FormatError) : FormatError :=
  ⟨e.fault, e.line.map f⟩

namespace PropertiesText

/-! One line -/

theorem entryOf_renumbered (f : Nat → Nat) (line : LogicalLine) :
    entryOf (line.renumbered f) = (entryOf line).mapError (FormatError.renumbered f) := by
  unfold entryOf LogicalLine.renumbered
  dsimp only
  cases unescape (splitEntry line.text).1 with
  | error fault => rfl
  | ok name =>
      cases name with
      | nil => rfl
      | cons c name =>
          dsimp only
          cases unescape (splitEntry line.text).2 <;> rfl

/-- The name of a logical line as it is written. -/
def LogicalLine.rawName (l : LogicalLine) : Text := (splitEntry l.text).1

/-- The value of a logical line as it is written. -/
def LogicalLine.rawValue (l : LogicalLine) : Text := (splitEntry l.text).2

/-- A line is refused with its number, or its name and its value can be read. -/
theorem entryOf_cases (l : LogicalLine) :
    (∃ fault, entryOf l = .error ⟨fault, some l.number⟩) ∨
      ∃ name value, unescape l.rawName = .ok name ∧ unescape l.rawValue = .ok value ∧
        entryOf l = .ok (name, value) := by
  unfold entryOf
  dsimp only
  split
  · exact .inl ⟨_, rfl⟩
  · exact .inl ⟨_, rfl⟩
  · rename_i hname
    split
    · exact .inl ⟨_, rfl⟩
    · rename_i hvalue
      exact .inr ⟨_, _, hname, hvalue, rfl⟩

theorem line_of_entryOf_error {l : LogicalLine} {e : FormatError} (h : entryOf l = .error e) :
    e.line = some l.number := by
  obtain ⟨fault, herror⟩ | ⟨name, value, -, -, hok⟩ := entryOf_cases l
  · rw [herror] at h
    cases h
    rfl
  · rw [hok] at h
    cases h

theorem unescape_of_entryOf {l : LogicalLine} {e : Text × Text} (h : entryOf l = .ok e) :
    unescape l.rawName = .ok e.1 ∧ unescape l.rawValue = .ok e.2 := by
  obtain ⟨fault, herror⟩ | ⟨name, value, hname, hvalue, hok⟩ := entryOf_cases l
  · rw [herror] at h
    cases h
  · rw [hok] at h
    cases h
    exact ⟨hname, hvalue⟩

/-! Line after line -/

/-- A logical line that can be read. -/
def LogicalLine.IsRead (l : LogicalLine) : Prop := ∃ e, entryOf l = .ok e

theorem readEntries_append (m : Mapping Text Text) (ls ls' : List LogicalLine) :
    readEntries m (ls ++ ls') = (readEntries m ls).bind fun m' => readEntries m' ls' := by
  induction ls generalizing m with
  | nil => rfl
  | cons line ls ih =>
      rw [List.cons_append, readEntries, readEntries]
      cases entryOf line with
      | error e => rfl
      | ok entry => exact ih (m.insert entry.1 entry.2)

/-- What is read does not depend on the mapping that it is put over. -/
theorem readEntries_overlay (lower m : Mapping Text Text) (ls : List LogicalLine) :
    readEntries (lower.overlay m) ls = (readEntries m ls).map (lower.overlay ·) := by
  induction ls generalizing m with
  | nil => rfl
  | cons line ls ih =>
      rw [readEntries, readEntries]
      cases entryOf line with
      | error e => rfl
      | ok entry =>
          dsimp only
          rw [← Mapping.overlay_insert, ih]

theorem readEntries_renumbered (f : Nat → Nat) (m : Mapping Text Text) (ls : List LogicalLine) :
    readEntries m (ls.map (LogicalLine.renumbered f)) =
      (readEntries m ls).mapError (FormatError.renumbered f) := by
  induction ls generalizing m with
  | nil => rfl
  | cons line ls ih =>
      rw [List.map_cons, readEntries, readEntries, entryOf_renumbered]
      cases entryOf line with
      | error e => rfl
      | ok entry => exact ih (m.insert entry.1 entry.2)

/-- An error is that of some line, and tells its number. -/
theorem exists_line_of_readEntries_error {m : Mapping Text Text} {ls : List LogicalLine}
    {e : FormatError} (h : readEntries m ls = .error e) :
    ∃ line ∈ ls, entryOf line = .error e ∧ e.line = some line.number := by
  induction ls generalizing m with
  | nil => cases h
  | cons line ls ih =>
      rw [readEntries] at h
      cases hentry : entryOf line with
      | error e' =>
          rw [hentry] at h
          cases h
          exact ⟨line, List.mem_cons_self, hentry, line_of_entryOf_error hentry⟩
      | ok entry =>
          rw [hentry] at h
          obtain ⟨later, hlater, hread⟩ := ih h
          exact ⟨later, List.mem_cons_of_mem line hlater, hread⟩

theorem readEntries_of_isRead {ls : List LogicalLine} (hls : ∀ l ∈ ls, l.IsRead)
    (m : Mapping Text Text) : ∃ m', readEntries m ls = .ok m' := by
  induction ls generalizing m with
  | nil => exact ⟨m, rfl⟩
  | cons l ls ih =>
      rw [List.forall_mem_cons] at hls
      obtain ⟨⟨e, he⟩, hls⟩ := hls
      rw [readEntries, he]
      exact ih hls (m.insert e.1 e.2)

/-- The first line that cannot be read is reported. -/
theorem readEntries_of_first {earlier : List LogicalLine} (hearlier : ∀ l ∈ earlier, l.IsRead)
    {l : LogicalLine} {e : FormatError} (hl : entryOf l = .error e) (later : List LogicalLine)
    (m : Mapping Text Text) : readEntries m (earlier ++ l :: later) = .error e := by
  obtain ⟨m', hm'⟩ := readEntries_of_isRead hearlier m
  rw [readEntries_append, hm']
  change readEntries m' (l :: later) = _
  rw [readEntries, hl]

/-- A mapping is read from lines that are read, and is that of their entries. -/
theorem exists_entries_of_readEntries {ls : List LogicalLine} {m m' : Mapping Text Text}
    (h : readEntries m ls = .ok m') :
    ∃ entries, List.Forall₂ (fun l e => entryOf l = .ok e) ls entries ∧
      m' = entries.foldl (fun m e => m.insert e.1 e.2) m := by
  induction ls generalizing m with
  | nil =>
      cases h
      exact ⟨[], .nil, rfl⟩
  | cons l ls ih =>
      rw [readEntries] at h
      cases hentry : entryOf l with
      | error e =>
          rw [hentry] at h
          cases h
      | ok e =>
          rw [hentry] at h
          obtain ⟨entries, hread, rfl⟩ := ih h
          exact ⟨e :: entries, .cons hentry hread, rfl⟩

theorem isRead_of_forall₂ {ls : List LogicalLine} {entries : List (Text × Text)}
    (h : List.Forall₂ (fun l e => entryOf l = .ok e) ls entries) : ∀ l ∈ ls, l.IsRead := by
  induction h with
  | nil => exact nofun
  | cons hl _ ih => exact List.forall_mem_cons.2 ⟨⟨_, hl⟩, ih⟩

/-! Two documents -/

theorem logicalLines_append {a b : Text} (hboundary : Text.IsBoundary a b)
    (hclosed : leavesOpen false (Text.lines a) = false) :
    logicalLines (a ++ b) = logicalLines a ++
      (logicalLines b).map (LogicalLine.renumbered (· + (Text.lines a).length)) := by
  have hcount : ∀ n, 1 ≤ n → n + 1 + (Text.lines a).length = n + (Text.lines a).length + 1 :=
    fun n _ => Nat.add_right_comm n 1 _
  rw [logicalLines, Text.lines_append_of_isBoundary hboundary, joinLines_append 1 none hclosed,
    logicalLines, logicalLines, ← joinLines_renumbered hcount]
  rfl

theorem decode_append {a b : Text} (hboundary : Text.IsBoundary a b)
    (hclosed : leavesOpen false (Text.lines a) = false) :
    decode (a ++ b) = (decode a).bind fun m =>
      ((decode b).mapError (FormatError.renumbered (· + (Text.lines a).length))).map
        (m.overlay ·) := by
  rw [decode, logicalLines_append hboundary hclosed, readEntries_append]
  congr 1
  funext m
  rw [← Mapping.overlay_empty m, readEntries_overlay, readEntries_renumbered]
  rfl

/-- A document is read part by part. Where a line ends between two parts and the first one leaves no
line open, both are read as the first with the second put over it, an error in the first is
reported as it is, and an error in the second so many lines further down as the first one has. -/
theorem decode_parts {a b : Text} (hboundary : Text.IsBoundary a b)
    (hclosed : leavesOpen false (Text.lines a) = false) :
    (∀ m n, decode a = .ok m → decode b = .ok n → decode (a ++ b) = .ok (m.overlay n)) ∧
      (∀ e, decode a = .error e → decode (a ++ b) = .error e) ∧
      ∀ m e, decode a = .ok m → decode b = .error e → ∃ number, e.line = some number ∧
        decode (a ++ b) = .error ⟨e.fault, some (number + (Text.lines a).length)⟩ := by
  have happend := decode_append hboundary hclosed
  refine ⟨?_, ?_, ?_⟩
  · intro m n ha hb
    rw [happend, ha, hb]
    rfl
  · intro e ha
    rw [happend, ha]
    rfl
  · intro m e ha hb
    obtain ⟨line, -, -, hline⟩ := exists_line_of_readEntries_error hb
    refine ⟨line.number, hline, ?_⟩
    rw [happend, ha, hb]
    change Except.error (e.renumbered _) = _
    rw [FormatError.renumbered, hline, Option.map_some]

/-- A document whose last comment ends in a backslash, and one that says `x` again and goes wrong
in its second entry. -/
def commentedPart : Text := "x = 1\\\n  2\n# no continuation \\\n"

def brokenPart : Text := "x = 3\ny = \\u00\n"

theorem decode_parts_commentedPart :
    Text.IsBoundary commentedPart brokenPart ∧
      leavesOpen false (Text.lines commentedPart) = false ∧
      decode commentedPart = .ok (.ofList [("x", "12")]) ∧
      decode (commentedPart ++ commentedPart) = .ok (.ofList [("x", "12")]) ∧
      decode (commentedPart ++ brokenPart) = .error ⟨.truncatedEscape "\\u00", some 5⟩ := by
  have hends : commentedPart =
      ("x = 1\\\n  2\n# no continuation \\" : Text) ++ [CodePoint.scalar '\n'] := rfl
  have hboundary : ∀ b, Text.IsBoundary commentedPart b := by
    intro b
    rw [hends]
    exact Text.isBoundary_lineFeed _ b
  have hclosed : leavesOpen false (Text.lines commentedPart) = false := rfl
  have hread : decode commentedPart = .ok (.ofList [("x", "12")]) := rfl
  have hbroken : decode brokenPart = .error ⟨.truncatedEscape "\\u00", some 2⟩ := rfl
  refine ⟨hboundary _, hclosed, hread, ?_, ?_⟩
  · exact (decode_parts (hboundary _) hclosed).1 _ _ hread hread
  · obtain ⟨number, hnumber, hdecode⟩ :=
      (decode_parts (hboundary _) hclosed).2.2 _ _ hread hbroken
    cases hnumber
    exact hdecode

end PropertiesText

end VersionedProperties
