import VersionedProperties.History

/-!
# Places in a history

A place in range reads an entry of the history and never the oldest one in its stead. `InRange` says
that the cursor and the saved mark are such places. It holds of a new history, every step keeps it,
and under it each part of a push (cutting off, appending, evicting) has its effect on the entries
and leaves the saved value alone.
-/

namespace VersionedProperties.History

/-- The cursor and the saved mark are places of entries. -/
structure InRange {α : Type} (h : History α) : Prop where
  cursor_lt : h.cursor < h.size
  saved_lt : ∀ place, h.saved = .entry place → place < h.size

theorem inRange_start {α : Type} (limit : Int) (value : α) : (start limit value).InRange := by
  constructor
  · exact Nat.zero_lt_one
  · intro place h
    cases h
    exact Nat.zero_lt_one

/-! Reading entries -/

theorem getElem?_entries {α : Type} (h : History α) {place : Nat} (hp : place < h.size) :
    h.entries[place]? = some (h.entryAt place) := by
  have hlt : place < h.entries.length := by rwa [length_entries]
  rw [entryAt, List.getD_eq_getElem?_getD, List.getElem?_eq_getElem hlt, Option.getD_some]

theorem entryAt_eq {α : Type} {h : History α} {place : Nat} {value : α}
    (hv : h.entries[place]? = some value) : h.entryAt place = value := by
  rw [entryAt, List.getD_eq_getElem?_getD, hv, Option.getD_some]

theorem entries_eq_append {α : Type} {h : History α} (hr : h.InRange) :
    h.entries = h.entries.take h.cursor ++ h.current :: h.entries.drop (h.cursor + 1) := by
  have hlt : h.cursor < h.entries.length := by
    rw [length_entries]
    exact hr.cursor_lt
  have hcur : h.entries[h.cursor] = h.current :=
    Option.some.inj (by rw [← List.getElem?_eq_getElem hlt, getElem?_entries h hr.cursor_lt]; rfl)
  rw [← hcur, List.getElem_cons_drop, List.take_append_drop]

theorem length_take_cursor {α : Type} {h : History α} (hr : h.InRange) :
    (h.entries.take h.cursor).length = h.cursor := by
  rw [List.length_take, length_entries]
  exact Nat.min_eq_left (Nat.le_of_lt hr.cursor_lt)

/-! Cutting off -/

theorem entries_cutRedo {α : Type} (h : History α) :
    h.cutRedo.entries = h.entries.take (h.cursor + 1) := rfl

theorem entries_cutRedo_eq_append {α : Type} {h : History α} (hr : h.InRange) :
    h.cutRedo.entries = h.entries.take h.cursor ++ [h.current] := by
  rw [entries_cutRedo, List.take_add_one, getElem?_entries h hr.cursor_lt]
  rfl

theorem size_cutRedo {α : Type} {h : History α} (hr : h.InRange) :
    h.cutRedo.size = h.cursor + 1 := by
  have hlt := hr.cursor_lt
  rw [← length_entries, entries_cutRedo, List.length_take, length_entries]
  omega

theorem inRange_cutRedo {α : Type} {h : History α} (hr : h.InRange) : h.cutRedo.InRange := by
  constructor
  · rw [size_cutRedo hr]
    exact Nat.lt_succ_self h.cursor
  · intro place hs
    rw [size_cutRedo hr]
    cases hsaved : h.saved with
    | entry p =>
        by_cases hp : h.cursor < p
        · simp [cutRedo, hsaved, hp] at hs
        · simp only [cutRedo, hsaved, hp, if_false, SavedMark.entry.injEq] at hs
          omega
    | dropped value => simp [cutRedo, hsaved] at hs

theorem entryAt_cutRedo {α : Type} {h : History α} (hr : h.InRange) {place : Nat}
    (hp : place ≤ h.cursor) : h.cutRedo.entryAt place = h.entryAt place := by
  apply entryAt_eq
  rw [entries_cutRedo, List.getElem?_take_of_lt (Nat.lt_succ_of_le hp)]
  exact getElem?_entries h (Nat.lt_of_le_of_lt hp hr.cursor_lt)

theorem saved_cutRedo_of_lt {α : Type} {h : History α} {place : Nat}
    (hs : h.saved = .entry place) (hp : h.cursor < place) :
    h.cutRedo.saved = .dropped (h.entryAt place) := by
  simp [cutRedo, hs, hp]

theorem saved_cutRedo_of_le {α : Type} {h : History α} {place : Nat}
    (hs : h.saved = .entry place) (hp : place ≤ h.cursor) : h.cutRedo.saved = .entry place := by
  simp [cutRedo, hs, Nat.not_lt.2 hp]

theorem saved_cutRedo_of_dropped {α : Type} {h : History α} {value : α}
    (hs : h.saved = .dropped value) : h.cutRedo.saved = .dropped value := by
  simp [cutRedo, hs]

theorem savedValue_cutRedo {α : Type} {h : History α} (hr : h.InRange) :
    h.cutRedo.savedValue = h.savedValue := by
  cases hsaved : h.saved with
  | entry p =>
      rcases Nat.lt_or_ge h.cursor p with hp | hp
      · simp only [savedValue, saved_cutRedo_of_lt hsaved hp, hsaved]
      · simp only [savedValue, saved_cutRedo_of_le hsaved hp, hsaved]
        exact entryAt_cutRedo hr hp
  | dropped value => simp only [savedValue, saved_cutRedo_of_dropped hsaved, hsaved]

/-! Appending -/

theorem entries_append {α : Type} (h : History α) (value : α) :
    (h.append value).entries = h.entries ++ [value] := rfl

theorem size_append {α : Type} (h : History α) (value : α) :
    (h.append value).size = h.size + 1 := by
  rw [← length_entries, entries_append, List.length_append, length_entries, List.length_singleton]

theorem inRange_append {α : Type} {h : History α} (hr : h.InRange) (value : α) :
    (h.append value).InRange := by
  constructor
  · rw [size_append]
    exact Nat.lt_succ_self h.size
  · intro place hs
    rw [size_append]
    exact Nat.lt_succ_of_lt (hr.saved_lt place hs)

theorem entryAt_append {α : Type} (h : History α) (value : α) {place : Nat}
    (hp : place < h.size) : (h.append value).entryAt place = h.entryAt place := by
  apply entryAt_eq
  rw [entries_append, List.getElem?_append_left (by rwa [length_entries])]
  exact getElem?_entries h hp

theorem savedValue_append {α : Type} {h : History α} (hr : h.InRange) (value : α) :
    (h.append value).savedValue = h.savedValue := by
  cases hsaved : h.saved with
  | entry p =>
      have hmark : (h.append value).saved = .entry p := hsaved
      simp only [savedValue, hmark, hsaved]
      exact entryAt_append h value (hr.saved_lt p hsaved)
  | dropped v =>
      have hmark : (h.append value).saved = .dropped v := hsaved
      simp only [savedValue, hmark, hsaved]

/-! Evicting -/

/-- A limit keeps the newest entry. -/
theorem overflow_lt_size {α : Type} (h : History α) : h.overflow < h.size := by
  have hpos : 0 < h.size := Nat.succ_pos _
  unfold overflow
  split <;> omega

/-- The saved mark after an eviction. -/
def evictedMark {α : Type} (h : History α) : SavedMark α :=
  match h.saved with
  | .entry place =>
    if place < h.overflow then .dropped (h.entryAt place) else .entry (place - h.overflow)
  | .dropped value => .dropped value

theorem evict_eq {α : Type} (h : History α) :
    h.evict.entries = h.entries.drop h.overflow ∧ h.evict.cursor = h.cursor - h.overflow ∧
      h.evict.saved = h.evictedMark ∧ h.evict.limit = h.limit := by
  have hlen : 0 < (h.entries.drop h.overflow).length := by
    have := h.overflow_lt_size
    rw [List.length_drop, length_entries]
    omega
  unfold evict
  split
  · rename_i hnil
    rw [hnil] at hlen
    exact absurd hlen (Nat.lt_irrefl 0)
  · rename_i hcons
    exact ⟨hcons.symm, rfl, rfl, rfl⟩

theorem size_evict {α : Type} (h : History α) : h.evict.size = h.size - h.overflow := by
  rw [← length_entries, h.evict_eq.1, List.length_drop, length_entries]

theorem inRange_evict {α : Type} {h : History α} (hr : h.InRange) : h.evict.InRange := by
  have hsize := h.size_evict
  have hover := h.overflow_lt_size
  obtain ⟨_, hcursor, hmark, _⟩ := h.evict_eq
  constructor
  · have := hr.cursor_lt
    omega
  · intro place hs
    rw [hmark] at hs
    cases hsaved : h.saved with
    | entry p =>
        have := hr.saved_lt p hsaved
        by_cases hp : p < h.overflow
        · simp [evictedMark, hsaved, hp] at hs
        · simp only [evictedMark, hsaved, hp, if_false, SavedMark.entry.injEq] at hs
          omega
    | dropped value => simp [evictedMark, hsaved] at hs

theorem entryAt_evict {α : Type} {h : History α} {place : Nat} (ho : h.overflow ≤ place)
    (hp : place < h.size) : h.evict.entryAt (place - h.overflow) = h.entryAt place := by
  apply entryAt_eq
  rw [h.evict_eq.1, List.getElem?_drop, Nat.add_sub_cancel' ho]
  exact getElem?_entries h hp

theorem saved_evict_of_lt {α : Type} {h : History α} {place : Nat}
    (hs : h.saved = .entry place) (hp : place < h.overflow) :
    h.evict.saved = .dropped (h.entryAt place) := by
  rw [h.evict_eq.2.2.1, evictedMark, hs]
  exact if_pos hp

theorem saved_evict_of_le {α : Type} {h : History α} {place : Nat}
    (hs : h.saved = .entry place) (hp : h.overflow ≤ place) :
    h.evict.saved = .entry (place - h.overflow) := by
  rw [h.evict_eq.2.2.1, evictedMark, hs]
  exact if_neg (Nat.not_lt.2 hp)

theorem saved_evict_of_dropped {α : Type} {h : History α} {value : α}
    (hs : h.saved = .dropped value) : h.evict.saved = .dropped value := by
  rw [h.evict_eq.2.2.1, evictedMark, hs]

theorem savedValue_evict {α : Type} {h : History α} (hr : h.InRange) :
    h.evict.savedValue = h.savedValue := by
  cases hsaved : h.saved with
  | entry p =>
      rcases Nat.lt_or_ge p h.overflow with hp | hp
      · simp only [savedValue, saved_evict_of_lt hsaved hp, hsaved]
      · simp only [savedValue, saved_evict_of_le hsaved hp, hsaved]
        exact entryAt_evict hp (hr.saved_lt p hsaved)
  | dropped value => simp only [savedValue, saved_evict_of_dropped hsaved, hsaved]

/-! Steps -/

theorem inRange_undo {α : Type} {h : History α} (hr : h.InRange) : h.undo.InRange := by
  unfold undo
  split
  · exact ⟨Nat.lt_of_le_of_lt (Nat.sub_le h.cursor 1) hr.cursor_lt, hr.saved_lt⟩
  · exact hr

theorem inRange_redo {α : Type} {h : History α} (hr : h.InRange) : h.redo.InRange := by
  unfold redo
  split
  · rename_i hc
    exact ⟨of_decide_eq_true hc, hr.saved_lt⟩
  · exact hr

theorem inRange_markSynced {α : Type} {h : History α} (hr : h.InRange) : h.markSynced.InRange := by
  constructor
  · exact hr.cursor_lt
  · intro place hs
    cases hs
    exact hr.cursor_lt

theorem inRange_push {α : Type} [DecidableEq α] {h : History α} (hr : h.InRange) (value : α) :
    (h.push value).InRange := by
  unfold push
  split
  · exact hr
  · exact inRange_evict (inRange_append (inRange_cutRedo hr) value)

theorem inRange_edit {α : Type} [DecidableEq α] {h : History α} (hr : h.InRange) (e : Edit α) :
    (h.edit e).2.InRange := by
  cases e with
  | push value => exact inRange_push hr value
  | sync value => exact inRange_markSynced (inRange_push hr value)
  | undo => exact inRange_undo hr
  | redo => exact inRange_redo hr
  | markSynced => exact inRange_markSynced hr

end VersionedProperties.History
