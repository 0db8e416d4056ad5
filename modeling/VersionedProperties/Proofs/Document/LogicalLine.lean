import VersionedProperties.Document.PropertiesText
import VersionedProperties.Proofs.Text.Lines

/-!
# Joining natural lines

Natural lines are taken one after the other. Each ends a logical line, leaves one open, or is
ignored; `joinLine` is this step and `joinLine_cases` says what it can do. So natural lines behind
which nothing is left open are joined by themselves, whatever lines follow, and where the lines are
counted from matters to the numbers of the logical lines only. The number of a logical line is that
of the natural line where it begins.
-/

namespace VersionedProperties.PropertiesText

/-! Backslashes at the end of a line -/

theorem isOpen_of_not_mem {s : Text} (hs : backslash ∉ s) : isOpen s = false := by
  have hnone : s.reverse.takeWhile (· = backslash) = [] := by
    rw [← List.mem_reverse] at hs
    cases hreverse : s.reverse with
    | nil => rfl
    | cons c t =>
        rw [hreverse, List.mem_cons, not_or] at hs
        exact List.takeWhile_cons_of_neg fun hc => hs.1 (of_decide_eq_true hc).symm
  rw [isOpen, hnone]
  rfl

/-- Whether a line is left open does not depend on a part in front that is not. -/
theorem isOpen_append {s : Text} (hs : isOpen s = false) (t : Text) :
    isOpen (s ++ t) = isOpen t := by
  simp only [isOpen, decide_eq_false_iff_not] at hs
  simp only [isOpen, List.reverse_append, List.takeWhile_append]
  split
  · rename_i hall
    rw [List.length_append, decide_eq_decide, ← hall]
    omega
  · rfl

theorem isOpen_cons {c : CodePoint} (hc : c ≠ backslash) (t : Text) :
    isOpen (c :: t) = isOpen t := by
  have hone : isOpen [c] = false := isOpen_of_not_mem (mt List.mem_singleton.1 (Ne.symm hc))
  exact isOpen_append hone t

theorem isOpen_escaped (c : CodePoint) (t : Text) : isOpen (backslash :: c :: t) = isOpen t := by
  have hpair : isOpen [backslash, c] = false := by
    by_cases hc : c = backslash
    · rw [hc]
      rfl
    · simp [isOpen, hc]
  exact isOpen_append hpair t

theorem not_mem_takeWhile_isBlank (t : Text) : backslash ∉ t.takeWhile isBlank := by
  intro h
  have hblank := List.all_eq_true.1 List.all_takeWhile backslash h
  exact absurd hblank (by decide)

theorem isOpen_dropLeading (line : Text) :
    isOpen (Text.dropLeading isBlank line) = isOpen line := by
  have hblank := isOpen_of_not_mem (not_mem_takeWhile_isBlank line)
  rw [Text.dropLeading, ← isOpen_append hblank, List.takeWhile_append_dropWhile]

/-! One natural line -/

/-- What a natural line adds to the lines before it: the logical line that it ends, if it ends one,
and the unfinished one that it leaves. -/
def joinLine (number : Nat) (unfinished : Option LogicalLine) (line : Text) :
    List LogicalLine × Option LogicalLine :=
  let line := Text.dropLeading isBlank line
  match unfinished with
  | none =>
    if isIgnored line then ([], none)
    else if isOpen line then ([], some ⟨number, line.dropLast⟩)
    else ([⟨number, line⟩], none)
  | some u =>
    if isOpen line then ([], some ⟨u.number, u.text ++ line.dropLast⟩)
    else ([⟨u.number, u.text ++ line⟩], none)

theorem joinLines_nil (number : Nat) (unfinished : Option LogicalLine) :
    joinLines number unfinished [] = unfinished.toList := by
  rw [joinLines]

theorem joinLines_cons (number : Nat) (unfinished : Option LogicalLine) (line : Text)
    (rest : List Text) :
    joinLines number unfinished (line :: rest) =
      (joinLine number unfinished line).1 ++
        joinLines (number + 1) (joinLine number unfinished line).2 rest := by
  cases unfinished with
  | none =>
      rw [joinLines, joinLine]
      split
      · rfl
      · split <;> rfl
  | some u =>
      rw [joinLines, joinLine]
      split <;> rfl

/-- A natural line is ignored if no logical line goes on with it, or it belongs to a logical line
and leaves it open or ends it. -/
theorem joinLine_cases (number : Nat) (unfinished : Option LogicalLine) (line : Text) :
    (unfinished = none ∧ isIgnored (Text.dropLeading isBlank line) = true ∧
      joinLine number unfinished line = ([], none)) ∨
    ∃ l : LogicalLine, l.number = (unfinished.map LogicalLine.number).getD number ∧
      (unfinished = none → isIgnored (Text.dropLeading isBlank line) = false) ∧
      ((isOpen line = true ∧ joinLine number unfinished line = ([], some l)) ∨
        isOpen line = false ∧ joinLine number unfinished line = ([l], none)) := by
  cases unfinished with
  | none =>
      rw [joinLine, isOpen_dropLeading]
      cases hignored : isIgnored (Text.dropLeading isBlank line) with
      | true => exact .inl ⟨rfl, rfl, rfl⟩
      | false =>
          cases isOpen line with
          | true => exact .inr ⟨⟨number, _⟩, rfl, fun _ => rfl, .inl ⟨rfl, rfl⟩⟩
          | false => exact .inr ⟨⟨number, _⟩, rfl, fun _ => rfl, .inr ⟨rfl, rfl⟩⟩
  | some u =>
      rw [joinLine, isOpen_dropLeading]
      cases isOpen line with
      | true => exact .inr ⟨⟨u.number, u.text ++ _⟩, rfl, nofun, .inl ⟨rfl, rfl⟩⟩
      | false => exact .inr ⟨⟨u.number, u.text ++ _⟩, rfl, nofun, .inr ⟨rfl, rfl⟩⟩

/-- Comments and blank lines are passed over. -/
theorem joinLines_ignored (number : Nat) {ls : List Text}
    (hls : ∀ line ∈ ls, isIgnored (Text.dropLeading isBlank line) = true) (rest : List Text) :
    joinLines number none (ls ++ rest) = joinLines (number + ls.length) none rest := by
  induction ls generalizing number with
  | nil => rfl
  | cons line ls ih =>
      rw [List.forall_mem_cons] at hls
      have hskip : joinLine number none line = ([], none) := if_pos hls.1
      rw [List.cons_append, joinLines_cons, hskip, List.nil_append, ih _ hls.2, List.length_cons,
        Nat.add_assoc, Nat.add_comm 1]

/-! Open ends -/

/-- Whether natural lines leave a logical line open at their end. The flag tells whether one is open
in front of them. A line that is ignored leaves none open, whatever it ends in. -/
def leavesOpen : Bool → List Text → Bool
  | goesOn, [] => goesOn
  | goesOn, line :: rest =>
    leavesOpen (isOpen line && (goesOn || !isIgnored (Text.dropLeading isBlank line))) rest

theorem isSome_joinLine (number : Nat) (unfinished : Option LogicalLine) (line : Text) :
    (joinLine number unfinished line).2.isSome =
      (isOpen line && (unfinished.isSome || !isIgnored (Text.dropLeading isBlank line))) := by
  obtain ⟨rfl, hignored, hjoin⟩ | ⟨l, -, hbegins, ⟨hopen, hjoin⟩ | ⟨hopen, hjoin⟩⟩ :=
    joinLine_cases number unfinished line
  · rw [hjoin, hignored]
    simp
  · rw [hjoin, hopen]
    cases unfinished with
    | none => simp [hbegins rfl]
    | some u => rfl
  · rw [hjoin, hopen]
    rfl

/-- Lines that leave nothing open are joined by themselves. -/
theorem joinLines_append (number : Nat) (unfinished : Option LogicalLine) {ls : List Text}
    (h : leavesOpen unfinished.isSome ls = false) (ms : List Text) :
    joinLines number unfinished (ls ++ ms) =
      joinLines number unfinished ls ++ joinLines (number + ls.length) none ms := by
  induction ls generalizing number unfinished with
  | nil =>
      have hnone := Option.isNone_iff_eq_none.1 (Option.isSome_eq_false_iff.1 h)
      rw [hnone]
      rfl
  | cons line ls ih =>
      rw [leavesOpen, ← isSome_joinLine number] at h
      rw [List.cons_append, joinLines_cons, joinLines_cons, ih _ _ h, List.append_assoc,
        List.length_cons, Nat.add_assoc, Nat.add_comm 1]

/-! Numbers -/

/-- A logical line with another number. -/
def LogicalLine.renumbered (f : Nat → Nat) (l : LogicalLine) : LogicalLine := ⟨f l.number, l.text⟩

theorem joinLine_renumbered (f : Nat → Nat) (number : Nat) (unfinished : Option LogicalLine)
    (line : Text) :
    joinLine (f number) (unfinished.map (LogicalLine.renumbered f)) line =
      ((joinLine number unfinished line).1.map (LogicalLine.renumbered f),
        (joinLine number unfinished line).2.map (LogicalLine.renumbered f)) := by
  unfold joinLine
  cases unfinished with
  | none =>
      dsimp only [Option.map_none]
      split
      · rfl
      · split <;> rfl
  | some u =>
      dsimp only [Option.map_some, LogicalLine.renumbered]
      split <;> rfl

/-- Lines that are counted in another way are joined in the same way. -/
theorem joinLines_renumbered {f : Nat → Nat} {number : Nat}
    (hf : ∀ n, number ≤ n → f (n + 1) = f n + 1) (unfinished : Option LogicalLine)
    (ls : List Text) :
    joinLines (f number) (unfinished.map (LogicalLine.renumbered f)) ls =
      (joinLines number unfinished ls).map (LogicalLine.renumbered f) := by
  induction ls generalizing number unfinished with
  | nil =>
      rw [joinLines_nil, joinLines_nil]
      cases unfinished <;> rfl
  | cons line ls ih =>
      rw [joinLines_cons, joinLines_cons, joinLine_renumbered, List.map_append,
        ← ih fun n hn => hf n (Nat.le_of_succ_le hn), hf number (Nat.le_refl number)]

/-- A logical line begins with one of some natural lines, in front of which nothing is left open. It
has the number of this line and is what is joined from it on. -/
def BeginsIn (goesOn : Bool) (number : Nat) (ls : List Text) (l : LogicalLine) : Prop :=
  ∃ before line after later, ls = before ++ line :: after ∧ leavesOpen goesOn before = false ∧
    isIgnored (Text.dropLeading isBlank line) = false ∧ l.number = number + before.length ∧
    joinLines l.number none (line :: after) = l :: later

theorem BeginsIn.cons {number : Nat} {unfinished : Option LogicalLine} {line : Text}
    {ls : List Text} {l : LogicalLine}
    (h : BeginsIn (joinLine number unfinished line).2.isSome (number + 1) ls l) :
    BeginsIn unfinished.isSome number (line :: ls) l := by
  obtain ⟨before, first, after, later, rfl, hopen, hfirst, hnumber, hjoin⟩ := h
  rw [isSome_joinLine] at hopen
  refine ⟨line :: before, first, after, later, rfl, hopen, hfirst, ?_, hjoin⟩
  rw [hnumber, List.length_cons]
  omega

theorem beginsIn_of_head {number : Nat} {unfinished : Option LogicalLine} {line : Text}
    (hbegins : unfinished = none → isIgnored (Text.dropLeading isBlank line) = false)
    {ls : List Text} {l : LogicalLine} {later : List LogicalLine}
    (hjoin : joinLines number unfinished (line :: ls) = l :: later)
    (hnumber : l.number = (unfinished.map LogicalLine.number).getD number) :
    (∃ u later, unfinished = some u ∧ l.number = u.number ∧
      joinLines number unfinished (line :: ls) = l :: later) ∨
    BeginsIn unfinished.isSome number (line :: ls) l := by
  cases unfinished with
  | none =>
      refine .inr ⟨[], line, ls, later, rfl, rfl, hbegins rfl, hnumber, ?_⟩
      rw [hnumber]
      exact hjoin
  | some u => exact .inl ⟨u, later, rfl, hnumber, hjoin⟩

/-- A logical line begins in front of the natural lines or with one of them. -/
theorem beginsIn_of_mem_joinLines {number : Nat} {unfinished : Option LogicalLine}
    {ls : List Text} {l : LogicalLine} (hl : l ∈ joinLines number unfinished ls) :
    (∃ u later, unfinished = some u ∧ l.number = u.number ∧
      joinLines number unfinished ls = l :: later) ∨
    BeginsIn unfinished.isSome number ls l := by
  induction ls generalizing number unfinished with
  | nil =>
      rw [joinLines_nil, Option.mem_toList] at hl
      refine .inl ⟨l, [], hl, rfl, ?_⟩
      rw [joinLines_nil, hl]
      rfl
  | cons line ls ih =>
      have hjoins := joinLines_cons number unfinished line ls
      have hlater : l ∈ joinLines (number + 1) (joinLine number unfinished line).2 ls → _ :=
        fun hl => (ih hl).imp_right BeginsIn.cons
      rw [hjoins] at hl
      obtain ⟨rfl, -, hjoin⟩ | ⟨l', hnumber, hbegins, ⟨-, hjoin⟩ | ⟨-, hjoin⟩⟩ :=
        joinLine_cases number unfinished line
      · rw [hjoin] at hl hlater
        obtain ⟨u, later, h, -⟩ | hin := hlater hl
        · cases h
        · exact .inr hin
      · rw [hjoin] at hl hlater hjoins
        obtain ⟨u, later, h, hl', hrest⟩ | hin := hlater hl
        · cases h
          exact beginsIn_of_head hbegins (hjoins.trans hrest) (hl'.trans hnumber)
        · exact .inr hin
      · rw [hjoin] at hl hlater hjoins
        rcases List.mem_cons.1 hl with rfl | hl
        · exact beginsIn_of_head hbegins hjoins hnumber
        · obtain ⟨u, later, h, -⟩ | hin := hlater hl
          · cases h
          · exact .inr hin

theorem beginsIn_of_mem {number : Nat} {ls : List Text} {l : LogicalLine}
    (hl : l ∈ joinLines number none ls) : BeginsIn false number ls l := by
  obtain ⟨u, later, h, -⟩ | hin := beginsIn_of_mem_joinLines hl
  · cases h
  · exact hin

/-- Logical lines come in the order of their numbers. -/
theorem pairwise_joinLines {number : Nat} {unfinished : Option LogicalLine}
    (hunfinished : ∀ u ∈ unfinished, u.number < number) (ls : List Text) :
    (joinLines number unfinished ls).Pairwise fun l l' => l.number < l'.number := by
  induction ls generalizing number unfinished with
  | nil =>
      rw [joinLines_nil]
      cases unfinished <;> simp
  | cons line ls ih =>
      rw [joinLines_cons]
      obtain ⟨rfl, -, hjoin⟩ | ⟨l, hnumber, -, hends⟩ := joinLine_cases number unfinished line
      · rw [hjoin]
        exact ih nofun
      · have hle : l.number ≤ number := by
          rw [hnumber]
          cases unfinished with
          | none => exact Nat.le_refl number
          | some u => exact Nat.le_of_lt (hunfinished u rfl)
        rcases hends with ⟨-, hjoin⟩ | ⟨-, hjoin⟩
        · rw [hjoin]
          apply ih
          rintro u ⟨⟩
          exact Nat.lt_succ_of_le hle
        · rw [hjoin]
          refine List.pairwise_cons.2 ⟨?_, ih nofun⟩
          intro l' hl'
          obtain ⟨before, _, _, _, -, -, -, hlater, -⟩ := beginsIn_of_mem hl'
          omega

end VersionedProperties.PropertiesText
