import VersionedProperties.Text.Lines

/-!
# Cutting a text into lines

No line holds a line end. Code points that end no line go to the line that follows them, so a text
put together of such lines, each with a line feed behind it, is cut into these lines again. A text
of two, between which a line ends, has the lines of both.
-/

namespace VersionedProperties.Text

/-- A text without line ends. -/
def IsLine (t : Text) : Prop := ∀ c ∈ t, c.isLineEnd = false

instance : DecidablePred IsLine :=
  fun t => inferInstanceAs (Decidable (∀ c ∈ t, c.isLineEnd = false))

theorem isLine_nil : IsLine [] := by
  intro c hc
  cases hc

theorem isLine_cons {c : CodePoint} {t : Text} :
    IsLine (c :: t) ↔ c.isLineEnd = false ∧ IsLine t :=
  List.forall_mem_cons

theorem isLine_append {s t : Text} : IsLine (s ++ t) ↔ IsLine s ∧ IsLine t :=
  List.forall_mem_append

theorem lines_cons {c : CodePoint} (hc : c.isLineEnd = false) (t : Text) :
    lines (c :: t) = consLine c (lines t) := by
  have hreturn : c ≠ .scalar '\r' := by
    rintro rfl
    exact absurd hc (by decide)
  rw [lines]
  · rw [hc]
    rfl
  · intro rest h
    exact absurd h hreturn

theorem lines_lineFeed (t : Text) : lines (.scalar '\n' :: t) = [] :: lines t := by
  rw [lines]
  · rfl
  · intro rest h
    cases h

theorem eq_nil_or_mem_of_mem_lines_cons {c : CodePoint} (hc : c.isLineEnd = true) {t line : Text}
    (hline : line ∈ lines (c :: t)) : line = [] ∨ line ∈ lines t := by
  by_cases hboth : c = .scalar '\r' ∧ ∃ rest, t = .scalar '\n' :: rest
  · obtain ⟨rfl, rest, rfl⟩ := hboth
    rw [lines] at hline
    rw [lines_lineFeed]
    exact .inr hline
  · rw [lines, if_pos hc] at hline
    · exact List.mem_cons.1 hline
    · intro rest h₁ h₂
      exact hboth ⟨h₁, rest, h₂⟩

theorem foldr_consLine (s line : Text) (rest : List Text) :
    s.foldr consLine (line :: rest) = (s ++ line) :: rest := by
  induction s with
  | nil => rfl
  | cons c s ih => rw [List.foldr_cons, ih, consLine_cons, List.cons_append]

theorem foldr_consLine_nil {s : Text} (hs : s ≠ []) : s.foldr consLine [] = [s] := by
  induction s with
  | nil => exact absurd rfl hs
  | cons c s ih =>
      cases s with
      | nil => rfl
      | cons d s => rw [List.foldr_cons, ih (List.cons_ne_nil d s), consLine_cons]

theorem lines_append {s : Text} (hs : IsLine s) (t : Text) :
    lines (s ++ t) = s.foldr consLine (lines t) := by
  induction s with
  | nil => rfl
  | cons c s ih =>
      rw [isLine_cons] at hs
      rw [List.cons_append, lines_cons hs.1, ih hs.2, List.foldr_cons]

/-- Code points that end no line, put before lines: they go to the first one, which comes into being
if there is none. -/
theorem mem_foldr_consLine {s : Text} (hs : s ≠ []) {ls : List Text} {line : Text}
    (hline : line ∈ s.foldr consLine ls) :
    line = s ∨ (∃ first ∈ ls, line = s ++ first) ∨ line ∈ ls := by
  cases ls with
  | nil =>
      rw [foldr_consLine_nil hs] at hline
      exact .inl (List.mem_singleton.1 hline)
  | cons first ls =>
      rw [foldr_consLine] at hline
      rcases List.mem_cons.1 hline with rfl | hrest
      · exact .inr (.inl ⟨first, List.mem_cons_self, rfl⟩)
      · exact .inr (.inr (List.mem_cons_of_mem first hrest))

theorem lines_line {s : Text} (hs : IsLine s) (t : Text) :
    lines (s ++ .scalar '\n' :: t) = s :: lines t := by
  rw [lines_append hs, lines_lineFeed, foldr_consLine, List.append_nil]

/-- Lines written one after the other, each with a line feed behind it. -/
def written (ls : List Text) : Text := ls.flatMap fun line => line ++ [.scalar '\n']

theorem written_cons (line : Text) (ls : List Text) :
    written (line :: ls) = line ++ .scalar '\n' :: written ls := by
  rw [written, List.flatMap_cons, List.append_assoc]
  rfl

theorem written_append (ls ms : List Text) : written (ls ++ ms) = written ls ++ written ms :=
  List.flatMap_append

theorem lines_written_append {ls : List Text} (hls : ∀ line ∈ ls, IsLine line) (t : Text) :
    lines (written ls ++ t) = ls ++ lines t := by
  induction ls with
  | nil => rfl
  | cons line ls ih =>
      have hline := hls line List.mem_cons_self
      have hrest := fun l hl => hls l (List.mem_cons_of_mem line hl)
      rw [written_cons, List.append_assoc, List.cons_append, lines_line hline, ih hrest,
        List.cons_append]

theorem lines_written {ls : List Text} (hls : ∀ line ∈ ls, IsLine line) :
    lines (written ls) = ls := by
  have h := lines_written_append hls []
  rwa [List.append_nil, lines_nil, List.append_nil] at h

theorem joined_eq_written {ls : List Text} (hls : ls ≠ []) :
    joined "\n" ls ++ "\n" = written ls := by
  induction ls with
  | nil => exact absurd rfl hls
  | cons line ls ih =>
      cases ls with
      | nil => exact (written_cons line []).symm
      | cons next ls =>
          rw [joined, List.append_assoc, ih (List.cons_ne_nil next ls), List.append_assoc,
            written_cons line]
          · rfl
          · exact List.cons_ne_nil next ls

theorem isLine_of_mem_consLine {c : CodePoint} (hc : c.isLineEnd = false) {ls : List Text}
    (hls : ∀ line ∈ ls, IsLine line) : ∀ line ∈ consLine c ls, IsLine line := by
  cases ls with
  | nil =>
      intro line hline
      rw [List.mem_singleton.1 hline, isLine_cons]
      exact ⟨hc, isLine_nil⟩
  | cons first ls =>
      rw [consLine_cons, List.forall_mem_cons, isLine_cons]
      rw [List.forall_mem_cons] at hls
      exact ⟨⟨hc, hls.1⟩, hls.2⟩

theorem isLine_of_mem_lines (t : Text) : ∀ line ∈ lines t, IsLine line := by
  fun_induction lines t with
  | case1 => exact fun line hline => absurd hline List.not_mem_nil
  | case2 rest ih => exact List.forall_mem_cons.2 ⟨isLine_nil, ih⟩
  | case3 c rest _ _ ih => exact List.forall_mem_cons.2 ⟨isLine_nil, ih⟩
  | case4 c rest _ hc ih => exact isLine_of_mem_consLine (Bool.eq_false_iff.2 hc) ih

/-- What a joined text holds is in the separator or in one of the texts. -/
theorem mem_joined {separator : Text} {ts : List Text} {c : CodePoint}
    (hc : c ∈ joined separator ts) : c ∈ separator ∨ ∃ t ∈ ts, c ∈ t := by
  induction ts with
  | nil => cases hc
  | cons t ts ih =>
      cases ts with
      | nil => exact .inr ⟨t, List.mem_cons_self, hc⟩
      | cons next ts =>
          rw [joined, List.mem_append, List.mem_append] at hc
          · rcases hc with (hfirst | hseparator) | hrest
            · exact .inr ⟨t, List.mem_cons_self, hfirst⟩
            · exact .inl hseparator
            · exact (ih hrest).imp_right fun ⟨s, hs, hcs⟩ => ⟨s, List.mem_cons_of_mem t hs, hcs⟩
          · exact List.cons_ne_nil next ts

theorem withLineFeeds_of_not_mem {t : Text} (ht : CodePoint.scalar '\r' ∉ t) :
    withLineFeeds t = t := by
  induction t with
  | nil => exact withLineFeeds_nil
  | cons c t ih =>
      rw [List.mem_cons, not_or] at ht
      rw [withLineFeeds, ih ht.2, if_neg (Ne.symm ht.1)]
      intro rest h
      exact absurd h (Ne.symm ht.1)

/-! Texts between which a line ends -/

/-- Between two texts a line ends: the first one is empty or has a line end at its end. A carriage
return does not end its line where a line feed follows. -/
def IsBoundary (s t : Text) : Prop :=
  s = [] ∨ ∃ before c, s = before ++ [c] ∧ c.isLineEnd = true ∧
    ¬ (c = .scalar '\r' ∧ ∃ after, t = .scalar '\n' :: after)

theorem isBoundary_lineFeed (s t : Text) : IsBoundary (s ++ [.scalar '\n']) t := by
  refine .inr ⟨s, _, rfl, by decide, ?_⟩
  rintro ⟨h, -⟩
  cases h

theorem lines_returnLineFeed (t : Text) :
    lines (.scalar '\r' :: .scalar '\n' :: t) = [] :: lines t := by
  rw [lines]

theorem lines_cons_of_isLineEnd {c : CodePoint} (hc : c.isLineEnd = true) {t : Text}
    (hreturn : ¬ (c = .scalar '\r' ∧ ∃ after, t = .scalar '\n' :: after)) :
    lines (c :: t) = [] :: lines t := by
  rw [lines, if_pos hc]
  intro after h₁ h₂
  exact hreturn ⟨h₁, after, h₂⟩

theorem consLine_append (c : CodePoint) {ls : List Text} (hls : ls ≠ []) (ms : List Text) :
    consLine c (ls ++ ms) = consLine c ls ++ ms := by
  cases ls with
  | nil => exact absurd rfl hls
  | cons line ls => rfl

theorem consLine_ne_nil (c : CodePoint) (ls : List Text) : consLine c ls ≠ [] := by
  cases ls <;> simp

theorem lines_ne_nil {t : Text} (ht : t ≠ []) : lines t ≠ [] := by
  fun_cases lines t with
  | case1 => exact absurd rfl ht
  | case2 | case3 => exact List.cons_ne_nil _ _
  | case4 c rest => exact consLine_ne_nil c _

theorem lines_boundary {c : CodePoint} (hc : c.isLineEnd = true) {t : Text}
    (hreturn : ¬ (c = .scalar '\r' ∧ ∃ after, t = .scalar '\n' :: after)) (s : Text) :
    lines (s ++ c :: t) = lines (s ++ [c]) ++ lines t := by
  have hone : lines [c] = [[]] := by
    rw [lines_cons_of_isLineEnd hc, lines_nil]
    rintro ⟨-, after, h⟩
    cases h
  fun_induction lines s with
  | case1 =>
      rw [List.nil_append, List.nil_append, lines_cons_of_isLineEnd hc hreturn, hone]
      rfl
  | case2 rest ih =>
      rw [List.cons_append, List.cons_append, lines_returnLineFeed, ih, ← List.cons_append,
        ← lines_returnLineFeed]
      rfl
  | case3 d rest hpair hd ih =>
      by_cases hboth : rest = [] ∧ d = .scalar '\r' ∧ c = .scalar '\n'
      · obtain ⟨rfl, rfl, rfl⟩ := hboth
        change lines (.scalar '\r' :: .scalar '\n' :: t) =
          lines [.scalar '\r', .scalar '\n'] ++ lines t
        rw [lines_returnLineFeed, lines_returnLineFeed, lines_nil]
        rfl
      · have hbreak : ∀ u : Text,
            ¬ (d = .scalar '\r' ∧ ∃ after, rest ++ c :: u = .scalar '\n' :: after) := by
          rintro u ⟨rfl, after, hafter⟩
          cases rest with
          | nil => exact hboth ⟨rfl, rfl, (List.cons.inj hafter).1⟩
          | cons e rest =>
              obtain ⟨rfl, -⟩ := List.cons.inj hafter
              exact hpair rest rfl rfl
        rw [List.cons_append, List.cons_append, lines_cons_of_isLineEnd hd (hbreak t),
          lines_cons_of_isLineEnd hd (hbreak []), ih, List.cons_append]
  | case4 d rest hpair hd ih =>
      have hd := Bool.eq_false_iff.2 hd
      rw [List.cons_append, List.cons_append, lines_cons hd, lines_cons hd, ih,
        consLine_append d (lines_ne_nil (by simp))]

/-- The lines of two texts between which a line ends are those of the first, then those of the
second. -/
theorem lines_append_of_isBoundary {s t : Text} (h : IsBoundary s t) :
    lines (s ++ t) = lines s ++ lines t := by
  rcases h with rfl | ⟨before, c, rfl, hc, hreturn⟩
  · rw [List.nil_append, lines_nil, List.nil_append]
  · rw [List.append_assoc, List.singleton_append, lines_boundary hc hreturn]

theorem IsBoundary.append {s t : Text} (h : IsBoundary s t) (ht : t ≠ []) (u : Text) :
    IsBoundary s (t ++ u) := by
  rcases h with rfl | ⟨before, c, rfl, hc, hreturn⟩
  · exact .inl rfl
  · refine .inr ⟨before, c, rfl, hc, ?_⟩
    rintro ⟨rfl, after, hafter⟩
    cases t with
    | nil => exact ht rfl
    | cons d t =>
        obtain ⟨rfl, -⟩ := List.cons.inj hafter
        exact hreturn ⟨rfl, t, rfl⟩

/-! Texts behind a line -/

/-- What may stand behind a line: nothing, or a line end and more. -/
def IsBehindLine (t : Text) : Prop := t = [] ∨ ∃ c after, t = c :: after ∧ c.isLineEnd = true

theorem lines_isLineEnd {c : CodePoint} (hc : c.isLineEnd = true) (t : Text) :
    ∃ rest, lines (c :: t) = [] :: rest := by
  by_cases hboth : c = .scalar '\r' ∧ ∃ after, t = .scalar '\n' :: after
  · obtain ⟨rfl, after, rfl⟩ := hboth
    exact ⟨lines after, lines_returnLineFeed after⟩
  · exact ⟨lines t, lines_cons_of_isLineEnd hc hboth⟩

/-- A line with something behind it is cut off as it is. An empty one is there only if there is
something behind it. -/
theorem exists_lines_append {t : Text} (ht : IsBehindLine t) :
    ∃ rest, ∀ s, IsLine s →
      lines (s ++ t) = s :: rest ∨ s = [] ∧ rest = [] ∧ lines (s ++ t) = [] := by
  rcases ht with rfl | ⟨c, after, rfl, hc⟩
  · refine ⟨[], fun s hs => ?_⟩
    by_cases hne : s = []
    · subst hne
      exact .inr ⟨rfl, rfl, lines_nil⟩
    · left
      rw [lines_append hs, lines_nil, foldr_consLine_nil hne]
  · obtain ⟨rest, hrest⟩ := lines_isLineEnd hc after
    refine ⟨rest, fun s hs => .inl ?_⟩
    rw [lines_append hs, hrest, foldr_consLine, List.append_nil]

end VersionedProperties.Text
