import VersionedProperties.Proofs.History.Placement

/-!
# Histories as timelines

A timeline is the reference for what a history does: the values before the current one with the
newest first, the current value, the values after it with the oldest first, and the saved value. It
has no places, so nothing in it shifts when old values are dropped. `History.timeline` reads a
history as a timeline; under this reading every step of a history is the step of the timeline, and
so all that a run of a history shows is what the run of the timeline shows.
-/

namespace VersionedProperties

/-- The values of a property around the current one, and its saved value. -/
structure Timeline (α : Type) where
  past : List α
  current : α
  future : List α
  saved : α

/-- What can be seen of the values of a property. -/
structure HistoryView (α : Type) where
  entries : List α
  current : α
  savedValue : α
  isModified : Bool
  canUndo : Bool
  canRedo : Bool

namespace Timeline

/-- A timeline with one value, which counts as saved. -/
def start {α : Type} (value : α) : Timeline α := ⟨[], value, [], value⟩

/-- The past under a limit on all entries: beside the current value, `limit - 1` values have a
place. A limit that is not positive bounds nothing. -/
def bounded {α : Type} (limit : Int) (past : List α) : List α :=
  if 0 < limit then past.take (limit.toNat - 1) else past

theorem bounded_cons {α : Type} {limit : Int} (hlimit : limit ≠ 1) (value : α) (past : List α) :
    ∃ older, bounded limit (value :: past) = value :: older := by
  unfold bounded
  split
  · have hplace : limit.toNat - 1 = limit.toNat - 2 + 1 := by omega
    rw [hplace, List.take_succ_cons]
    exact ⟨_, rfl⟩
  · exact ⟨past, rfl⟩

/-- A value made current. -/
def push {α : Type} [DecidableEq α] (limit : Int) (z : Timeline α) (value : α) : Timeline α :=
  if value = z.current then z
  else { z with past := bounded limit (z.current :: z.past), current := value, future := [] }

/-- The newest past value made current. -/
def undo {α : Type} (z : Timeline α) : Timeline α :=
  match z.past with
  | [] => z
  | value :: past => { z with past := past, current := value, future := z.current :: z.future }

/-- The oldest future value made current. -/
def redo {α : Type} (z : Timeline α) : Timeline α :=
  match z.future with
  | [] => z
  | value :: future => { z with past := z.current :: z.past, current := value, future := future }

/-- The current value marked as saved. -/
def markSynced {α : Type} (z : Timeline α) : Timeline α := { z with saved := z.current }

/-- A step taken under a limit: its answer, and the timeline after it. -/
def edit {α : Type} [DecidableEq α] (limit : Int) (z : Timeline α) :
    History.Edit α → History.Reply α × Timeline α
  | .push value => (.flag (value ≠ z.current), z.push limit value)
  | .sync value => (.flag (value ≠ z.current), (z.push limit value).markSynced)
  | .undo => (.value z.undo.current, z.undo)
  | .redo => (.value z.redo.current, z.redo)
  | .markSynced => (.nothing, z.markSynced)

/-- What can be seen of a timeline. -/
def view {α : Type} [DecidableEq α] (z : Timeline α) : HistoryView α where
  entries := z.past.reverse ++ [z.current] ++ z.future
  current := z.current
  savedValue := z.saved
  isModified := z.current ≠ z.saved
  canUndo := !z.past.isEmpty
  canRedo := !z.future.isEmpty

/-- What a run shows: the answer to each step, and what can be seen after it. -/
def trace {α : Type} [DecidableEq α] (limit : Int) (z : Timeline α) :
    List (History.Edit α) → List (History.Reply α × HistoryView α)
  | [] => []
  | e :: rest =>
    ((z.edit limit e).1, (z.edit limit e).2.view) :: (z.edit limit e).2.trace limit rest

end Timeline

namespace History

/-- What can be seen of a history. -/
def view {α : Type} [DecidableEq α] (h : History α) : HistoryView α where
  entries := h.entries
  current := h.current
  savedValue := h.savedValue
  isModified := h.isModified
  canUndo := h.canUndo
  canRedo := h.canRedo

/-- What a run shows: the answer to each step, and what can be seen after it. -/
def trace {α : Type} [DecidableEq α] (h : History α) :
    List (Edit α) → List (Reply α × HistoryView α)
  | [] => []
  | e :: rest => ((h.edit e).1, (h.edit e).2.view) :: (h.edit e).2.trace rest

/-- A history read as a timeline. -/
def timeline {α : Type} (h : History α) : Timeline α where
  past := (h.entries.take h.cursor).reverse
  current := h.current
  future := h.entries.drop (h.cursor + 1)
  saved := h.savedValue

theorem timeline_start {α : Type} (limit : Int) (value : α) :
    (start limit value).timeline = Timeline.start value := rfl

theorem timeline_eq {α : Type} {h : History α} {older newer : List α} {value : α}
    (he : h.entries = older ++ value :: newer) (hc : h.cursor = older.length) :
    h.timeline = ⟨older.reverse, value, newer, h.savedValue⟩ := by
  have hcur : h.current = value := entryAt_eq (by rw [he, hc]; simp)
  have hpast : h.entries.take h.cursor = older := by
    rw [he, hc]
    exact List.take_left
  have hfuture : h.entries.drop (h.cursor + 1) = newer := by
    rw [he, hc]
    simp
  rw [timeline, hcur, hpast, hfuture]

theorem view_timeline {α : Type} [DecidableEq α] {h : History α} (hr : h.InRange) :
    h.timeline.view = h.view := by
  have hentries : h.timeline.past.reverse ++ [h.timeline.current] ++ h.timeline.future =
      h.entries := by
    rw [entries_eq_append hr, List.append_assoc]
    simp [timeline]
  have hundo : (!h.timeline.past.isEmpty) = h.canUndo := by
    have hlength : h.timeline.past.length = h.cursor := by
      rw [timeline, List.length_reverse, length_take_cursor hr]
    rw [Bool.eq_iff_iff, Bool.not_eq_true', ← Bool.not_eq_true, List.isEmpty_iff_length_eq_zero,
      hlength, canUndo, decide_eq_true_eq]
    omega
  have hredo : (!h.timeline.future.isEmpty) = h.canRedo := by
    rw [Bool.eq_iff_iff]
    simp [timeline, canRedo]
  rw [Timeline.view, hentries, hundo, hredo]
  rfl

/-- The entries that an eviction leaves in front of the newest one are the bounded past. -/
theorem reverse_drop_overflow {α : Type} (limit : Int) (older : List α) {overflow : Nat}
    (ho : overflow = if 0 < limit then older.length + 1 - limit.toNat else 0) :
    (older.drop overflow).reverse = Timeline.bounded limit older.reverse := by
  rw [List.reverse_drop, ho, Timeline.bounded]
  split
  · rw [List.take_eq_take_iff, List.length_reverse]
    omega
  · rw [Nat.sub_zero, ← List.length_reverse, List.take_length]

theorem timeline_push {α : Type} [DecidableEq α] {h : History α} (hr : h.InRange) (value : α) :
    (h.push value).timeline = h.timeline.push h.limit value := by
  by_cases hv : value = h.current
  · have htime : value = h.timeline.current := hv
    rw [push, if_pos hv, Timeline.push, if_pos htime]
  · have htime : value ≠ h.timeline.current := hv
    rw [push, if_neg hv, Timeline.push, if_neg htime]
    -- `older` is all that is left in front of the new value before the eviction
    let older := h.entries.take h.cursor ++ [h.current]
    let longer := h.cutRedo.append value
    have hcut : h.cutRedo.entries = older := entries_cutRedo_eq_append hr
    have hlen : older.length = h.cutRedo.size := by rw [← hcut, length_entries]
    have hover : longer.overflow =
        if 0 < h.limit then older.length + 1 - h.limit.toNat else 0 := by
      rw [overflow, size_append, ← hlen]
      rfl
    have hover_le : longer.overflow ≤ older.length := by
      have := overflow_lt_size longer
      rw [size_append, ← hlen] at this
      exact Nat.le_of_lt_succ this
    have hentries : longer.evict.entries = older.drop longer.overflow ++ [value] := by
      rw [longer.evict_eq.1, entries_append, hcut, List.drop_append_of_le_length hover_le]
    have hcursor : longer.evict.cursor = (older.drop longer.overflow).length := by
      rw [longer.evict_eq.2.1, List.length_drop, hlen]
      rfl
    have hsaved : longer.evict.savedValue = h.savedValue := by
      have hcutRange := inRange_cutRedo hr
      rw [savedValue_evict (inRange_append hcutRange value), savedValue_append hcutRange value,
        savedValue_cutRedo hr]
    rw [timeline_eq hentries hcursor, hsaved, reverse_drop_overflow h.limit older hover]
    simp [timeline, older]

theorem timeline_undo {α : Type} {h : History α} (hr : h.InRange) :
    h.undo.timeline = h.timeline.undo := by
  have hentries := entries_eq_append hr
  have hlen := length_take_cursor hr
  rcases List.eq_nil_or_concat (h.entries.take h.cursor) with hnil | ⟨older, value, hcons⟩
  · have hzero : h.cursor = 0 := by rw [← hlen, hnil, List.length_nil]
    have hpast : h.timeline.past = [] := by rw [timeline, hnil, List.reverse_nil]
    rw [Timeline.undo, hpast]
    simp [undo, canUndo, hzero]
  · rw [hcons] at hentries hlen
    have hpast : h.timeline.past = value :: older.reverse := by
      rw [timeline, hcons]
      simp
    have hcan : h.canUndo = true := by
      rw [canUndo, ← hlen]
      simp
    have hstep : h.undo = { h with cursor := h.cursor - 1 } := by rw [undo, if_pos hcan]
    have hcursor : h.undo.cursor = older.length := by
      rw [hstep]
      simp [← hlen]
    have hundone : h.undo.entries =
        older ++ value :: h.current :: h.entries.drop (h.cursor + 1) := by
      rw [hstep]
      change h.entries = _
      simpa using hentries
    rw [timeline_eq hundone hcursor, Timeline.undo, hpast, hstep]
    rfl

theorem timeline_redo {α : Type} {h : History α} (hr : h.InRange) :
    h.redo.timeline = h.timeline.redo := by
  have hentries := entries_eq_append hr
  have hlen := length_take_cursor hr
  cases hrest : h.entries.drop (h.cursor + 1) with
  | nil =>
      have hlast : h.size ≤ h.cursor + 1 := by
        rw [← length_entries]
        exact List.drop_eq_nil_iff.1 hrest
      have hfuture : h.timeline.future = [] := hrest
      rw [Timeline.redo, hfuture]
      simp [redo, canRedo, Nat.not_lt.2 hlast]
  | cons value newer =>
      have hfuture : h.timeline.future = value :: newer := hrest
      have hcan : h.canRedo = true := by
        have : (h.entries.drop (h.cursor + 1)).length = newer.length + 1 := by
          rw [hrest, List.length_cons]
        rw [List.length_drop, length_entries] at this
        rw [canRedo, decide_eq_true_eq]
        omega
      have hstep : h.redo = { h with cursor := h.cursor + 1 } := by rw [redo, if_pos hcan]
      have hcursor : h.redo.cursor = (h.entries.take h.cursor ++ [h.current]).length := by
        rw [hstep, List.length_append, hlen, List.length_singleton]
      have hredone : h.redo.entries =
          (h.entries.take h.cursor ++ [h.current]) ++ value :: newer := by
        rw [hstep, List.append_assoc]
        rw [hrest] at hentries
        exact hentries
      rw [timeline_eq hredone hcursor, Timeline.redo, hfuture, hstep]
      simp [timeline]
      rfl

theorem limit_push {α : Type} [DecidableEq α] (h : History α) (value : α) :
    (h.push value).limit = h.limit := by
  unfold push
  split
  · rfl
  · exact ((h.cutRedo).append value).evict_eq.2.2.2

theorem limit_edit {α : Type} [DecidableEq α] (h : History α) (e : Edit α) :
    (h.edit e).2.limit = h.limit := by
  cases e with
  | push value => exact limit_push h value
  | sync value => exact limit_push h value
  | undo =>
      simp only [edit, undo]
      split <;> rfl
  | redo =>
      simp only [edit, redo]
      split <;> rfl
  | markSynced => rfl

/-- A step of a history is the step of its timeline, with the same answer. -/
theorem timeline_edit {α : Type} [DecidableEq α] {h : History α} (hr : h.InRange) (e : Edit α) :
    ((h.edit e).1, (h.edit e).2.timeline) = h.timeline.edit h.limit e := by
  cases e with
  | push value =>
      rw [Timeline.edit, ← timeline_push hr value]
      rfl
  | sync value =>
      rw [Timeline.edit, ← timeline_push hr value]
      rfl
  | undo =>
      rw [Timeline.edit, ← timeline_undo hr]
      rfl
  | redo =>
      rw [Timeline.edit, ← timeline_redo hr]
      rfl
  | markSynced => rfl

theorem trace_timeline {α : Type} [DecidableEq α] {h : History α} (hr : h.InRange)
    (edits : List (Edit α)) : h.trace edits = h.timeline.trace h.limit edits := by
  induction edits generalizing h with
  | nil => rfl
  | cons e rest ih =>
      have hnext := inRange_edit hr e
      have hstep := timeline_edit hr e
      rw [trace, Timeline.trace, ← hstep, ih hnext, limit_edit, view_timeline hnext]

/-- A history and a timeline that start with the same value cannot be told apart: neither before any
step, nor by the answer to a step, nor by what can be seen after it. -/
theorem trace_start {α : Type} [DecidableEq α] (limit : Int) (initial : α)
    (edits : List (Edit α)) :
    (start limit initial).view = (Timeline.start initial).view ∧
      (start limit initial).trace edits = (Timeline.start initial).trace limit edits := by
  have hr := inRange_start limit initial
  constructor
  · rw [← view_timeline hr, timeline_start]
  · rw [trace_timeline hr, timeline_start]
    rfl

end History

end VersionedProperties
