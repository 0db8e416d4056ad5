import Mathlib.Data.List.Count
import Mathlib.Data.List.DropRight
import Mathlib.Data.List.Nodup
import VersionedProperties.Proofs.History.Neighbours

/-!
# The entries of a history

Equal values can stand at several places of a history, so a value does not tell which entry it
belongs to. A register keeps the entries apart: it shows a timeline of entries, each with a number
that no other entry has, and collects those that pushes have cut off and those that the limit has
evicted. Like a timeline it has no places, so nothing in it shifts.

The entry that a register shows as saved is the one that was current after the last step that saves,
or the first entry if there was no such step.
-/

namespace VersionedProperties

namespace Timeline

variable {α β : Type}

/-- The values from the oldest to the newest. -/
def entries (z : Timeline α) : List α := z.past.reverse ++ z.current :: z.future

/-- A timeline with the image of every value. -/
def map (f : α → β) (z : Timeline α) : Timeline β where
  past := z.past.map f
  current := f z.current
  future := z.future.map f
  saved := f z.saved

/-- The part of the past that has no place under a limit. -/
def beyond (limit : Int) (past : List α) : List α :=
  if 0 < limit then past.drop (limit.toNat - 1) else []

theorem bounded_append_beyond (limit : Int) (past : List α) :
    bounded limit past ++ beyond limit past = past := by
  unfold bounded beyond
  split
  · exact List.take_append_drop _ past
  · exact List.append_nil past

theorem map_bounded (f : α → β) (limit : Int) (past : List α) :
    (bounded limit past).map f = bounded limit (past.map f) := by
  unfold bounded
  split
  · exact List.map_take
  · rfl

theorem entries_map (f : α → β) (z : Timeline α) : (z.map f).entries = z.entries.map f := by
  simp [entries, map]

theorem getElem?_entries_past (z : Timeline α) : z.entries[z.past.length]? = some z.current := by
  simp [entries]

theorem entries_undo (z : Timeline α) : z.undo.entries = z.entries := by
  unfold undo
  split <;> simp [entries, *]

theorem entries_redo (z : Timeline α) : z.redo.entries = z.entries := by
  unfold redo
  split <;> simp [entries, *]

theorem map_undo (f : α → β) (z : Timeline α) : z.undo.map f = (z.map f).undo := by
  unfold undo
  cases hpast : z.past <;> simp [map, hpast]

theorem map_redo (f : α → β) (z : Timeline α) : z.redo.map f = (z.map f).redo := by
  unfold redo
  cases hfuture : z.future <;> simp [map, hfuture]

theorem saved_undo (z : Timeline α) : z.undo.saved = z.saved := by
  unfold undo
  split <;> rfl

theorem saved_redo (z : Timeline α) : z.redo.saved = z.saved := by
  unfold redo
  split <;> rfl

end Timeline

namespace History

/-- The entries that an eviction takes away are the past that has no place. -/
theorem reverse_take_overflow {α : Type} (limit : Int) (older : List α) {overflow : Nat}
    (ho : overflow = if 0 < limit then older.length + 1 - limit.toNat else 0) :
    (older.take overflow).reverse = Timeline.beyond limit older.reverse := by
  have hsplit : (older.drop overflow).reverse ++ (older.take overflow).reverse =
      (older.drop overflow).reverse ++ Timeline.beyond limit older.reverse := by
    calc (older.drop overflow).reverse ++ (older.take overflow).reverse
        = older.reverse := by rw [← List.reverse_append, List.take_append_drop]
      _ = Timeline.bounded limit older.reverse ++ Timeline.beyond limit older.reverse :=
        (Timeline.bounded_append_beyond limit older.reverse).symm
      _ = (older.drop overflow).reverse ++ Timeline.beyond limit older.reverse := by
        rw [reverse_drop_overflow limit older ho]
  exact List.append_cancel_left hsplit

/-- An entry: a value, and a number that is not given to another entry. -/
structure Entry (α : Type) where
  number : Nat
  value : α
  deriving DecidableEq

/-- All entries that a history has had: those that it has, those that pushes have cut off, and those
that the limit has evicted. -/
structure Register (α : Type) where
  shown : Timeline (Entry α)
  truncated : List (Entry α)
  evicted : List (Entry α)

namespace Register

variable {α : Type}

/-- A register with one entry, which counts as saved. -/
def start (value : α) : Register α := ⟨Timeline.start ⟨0, value⟩, [], []⟩

/-- The entries that the history has, from the oldest to the newest. -/
def entries (r : Register α) : List (Entry α) := r.shown.entries

/-- The entries that the history has no more. -/
def gone (r : Register α) : List (Entry α) := r.truncated ++ r.evicted

/-- Every entry there has been. -/
def all (r : Register α) : List (Entry α) := r.entries ++ r.gone

/-- The entries up to the current one, the oldest first. -/
def older (r : Register α) : List (Entry α) := r.shown.past.reverse ++ [r.shown.current]

theorem entries_eq_older (r : Register α) : r.entries = r.older ++ r.shown.future := by
  simp [entries, older, Timeline.entries]

theorem reverse_older (r : Register α) : r.older.reverse = r.shown.current :: r.shown.past := by
  simp [older]

/-- Every number is given to one entry only, and smaller than the next one. -/
structure IsNumbered (r : Register α) : Prop where
  nodup : (r.all.map Entry.number).Nodup
  number_lt : ∀ e ∈ r.all, e.number < r.all.length

theorem isNumbered_start (value : α) : (start value).IsNumbered where
  nodup := List.nodup_singleton 0
  number_lt e he := by
    rw [List.mem_singleton.1 he]
    exact Nat.zero_lt_one

theorem IsNumbered.of_all_eq {r r' : Register α} (hr : r.IsNumbered) (hall : r'.all = r.all) :
    r'.IsNumbered := by
  obtain ⟨hnodup, hlt⟩ := hr
  rw [← hall] at hnodup hlt
  exact ⟨hnodup, hlt⟩

/-- An entry that is kept is not gone. -/
theorem IsNumbered.not_mem_gone {r : Register α} (hr : r.IsNumbered) {x : Entry α}
    (hx : x ∈ r.entries) : x ∉ r.gone :=
  List.disjoint_of_nodup_append (List.Nodup.of_map Entry.number hr.nodup) hx

/-- The current entry marked as saved. -/
def markSynced (r : Register α) : Register α := { r with shown := r.shown.markSynced }

variable [DecidableEq α]

/-- A value made current, as a new entry unless it is the current value already. -/
def push (limit : Int) (r : Register α) (value : α) : Register α :=
  if value = r.shown.current.value then r
  else
    { shown :=
        { r.shown with
          past := Timeline.bounded limit (r.shown.current :: r.shown.past)
          current := ⟨r.all.length, value⟩
          future := [] }
      truncated := r.shown.future ++ r.truncated
      evicted := Timeline.beyond limit (r.shown.current :: r.shown.past) ++ r.evicted }

/-- A register after a step. -/
def edit (limit : Int) (r : Register α) : Edit α → Register α
  | .push value => r.push limit value
  | .sync value => (r.push limit value).markSynced
  | .undo => { r with shown := r.shown.undo }
  | .redo => { r with shown := r.shown.redo }
  | .markSynced => r.markSynced

/-- A register after steps. -/
def after (limit : Int) (r : Register α) (edits : List (Edit α)) : Register α :=
  edits.foldl (edit limit) r

theorem after_concat (limit : Int) (r : Register α) (edits : List (Edit α)) (e : Edit α) :
    r.after limit (edits ++ [e]) = (r.after limit edits).edit limit e :=
  List.foldl_concat ..

/-- The values of a register take their steps as those of a timeline. -/
theorem map_edit (limit : Int) (r : Register α) (e : Edit α) :
    (r.edit limit e).shown.map Entry.value = ((r.shown.map Entry.value).edit limit e).2 := by
  have hpush (value : α) : (r.push limit value).shown.map Entry.value =
      (r.shown.map Entry.value).push limit value := by
    by_cases hv : value = r.shown.current.value
    · have hv' : value = (r.shown.map Entry.value).current := hv
      rw [push, if_pos hv, Timeline.push, if_pos hv']
    · have hv' : value ≠ (r.shown.map Entry.value).current := hv
      rw [push, if_neg hv, Timeline.push, if_neg hv']
      simp [Timeline.map, Timeline.map_bounded]
  cases e with
  | push value => exact hpush value
  | sync value => exact congrArg Timeline.markSynced (hpush value)
  | undo => exact r.shown.map_undo Entry.value
  | redo => exact r.shown.map_redo Entry.value
  | markSynced => rfl

/-! Pushes of another value -/

section Push

variable {limit : Int} {r : Register α} {value : α}

/-- One entry is added to those that there have been. -/
theorem perm_all_push (hv : value ≠ r.shown.current.value) :
    (r.push limit value).all.Perm (⟨r.all.length, value⟩ :: r.all) := by
  have hsplit := Timeline.bounded_append_beyond limit (r.shown.current :: r.shown.past)
  rw [push, if_neg hv, List.perm_iff_count]
  intro e
  have hcount := congrArg (List.count e) hsplit
  simp only [List.count_append, List.count_cons] at hcount
  simp only [all, entries, gone, Timeline.entries, List.count_append, List.count_cons,
    List.count_reverse, List.count_nil]
  omega

/-- Of the entries up to the current one, all are kept but those that the limit takes from the
front, and the new one comes last. -/
theorem entries_push {overflow : Nat} (hv : value ≠ r.shown.current.value)
    (ho : overflow = if 0 < limit then r.older.length + 1 - limit.toNat else 0) :
    (r.push limit value).entries = r.older.drop overflow ++ [⟨r.all.length, value⟩] := by
  rw [push, if_neg hv]
  simp only [entries, Timeline.entries]
  rw [← reverse_older, ← reverse_drop_overflow limit r.older ho, List.reverse_reverse]

theorem subset_gone_push {overflow : Nat} (hv : value ≠ r.shown.current.value)
    (ho : overflow = if 0 < limit then r.older.length + 1 - limit.toNat else 0) :
    r.older.take overflow ++ (r.shown.future ++ r.gone) ⊆ (r.push limit value).gone := by
  intro e he
  rw [push, if_neg hv]
  simp only [gone, ← reverse_older, ← reverse_take_overflow limit r.older ho, List.mem_append,
    List.mem_reverse] at he ⊢
  tauto

end Push

/-! Numbers -/

theorem IsNumbered.push {r : Register α} (hr : r.IsNumbered) (limit : Int) (value : α) :
    (r.push limit value).IsNumbered := by
  by_cases hv : value = r.shown.current.value
  · rw [Register.push, if_pos hv]
    exact hr
  · have hperm : (r.push limit value).all.Perm (⟨r.all.length, value⟩ :: r.all) :=
      perm_all_push hv
    constructor
    · rw [(hperm.map Entry.number).nodup_iff, List.map_cons, List.nodup_cons]
      refine ⟨?_, hr.nodup⟩
      intro hmem
      obtain ⟨e, he, hnumber⟩ := List.mem_map.1 hmem
      exact absurd hnumber (hr.number_lt e he).ne
    · intro e he
      rw [hperm.length_eq, List.length_cons]
      rcases List.mem_cons.1 (hperm.mem_iff.1 he) with rfl | hold
      · exact Nat.lt_succ_self _
      · exact Nat.lt_succ_of_lt (hr.number_lt e hold)

theorem IsNumbered.edit {r : Register α} (hr : r.IsNumbered) (limit : Int) (e : Edit α) :
    (r.edit limit e).IsNumbered := by
  cases e with
  | push value => exact hr.push limit value
  | sync value => exact (hr.push limit value).of_all_eq rfl
  | undo =>
      apply hr.of_all_eq
      exact congrArg (· ++ r.gone) r.shown.entries_undo
  | redo =>
      apply hr.of_all_eq
      exact congrArg (· ++ r.gone) r.shown.entries_redo
  | markSynced => exact hr.of_all_eq rfl

/-! Saved entries -/

/-- The steps of a run up to the last one that saves. -/
def settledPart (edits : List (Edit α)) : List (Edit α) := edits.rdropWhile fun e => !e.saves

theorem saved_push (limit : Int) (r : Register α) (value : α) :
    (r.push limit value).shown.saved = r.shown.saved := by
  unfold push
  split <;> rfl

theorem saved_edit_of_saves (limit : Int) (r : Register α) {e : Edit α} (he : e.saves = true) :
    (r.edit limit e).shown.saved = (r.edit limit e).shown.current := by
  cases e with
  | push => cases he
  | sync => rfl
  | undo => cases he
  | redo => cases he
  | markSynced => rfl

theorem saved_edit_of_not_saves (limit : Int) (r : Register α) {e : Edit α}
    (he : e.saves = false) : (r.edit limit e).shown.saved = r.shown.saved := by
  cases e with
  | push value => exact r.saved_push limit value
  | sync => cases he
  | undo => exact r.shown.saved_undo
  | redo => exact r.shown.saved_redo
  | markSynced => cases he

/-- The saved entry is the one that was current after the last step that saves, or the first. -/
theorem saved_after_start (limit : Int) (initial : α) (edits : List (Edit α)) :
    ((start initial).after limit edits).shown.saved =
      ((start initial).after limit (settledPart edits)).shown.current := by
  induction edits using List.reverseRecOn with
  | nil => rfl
  | append_singleton edits e ih =>
      cases he : e.saves with
      | true =>
          have hpart : settledPart (edits ++ [e]) = edits ++ [e] :=
            List.rdropWhile_concat_neg _ _ _ (by simp [he])
          rw [hpart, after_concat, saved_edit_of_saves limit _ he]
      | false =>
          have hpart : settledPart (edits ++ [e]) = settledPart edits :=
            List.rdropWhile_concat_pos _ _ _ (by simp [he])
          rw [hpart, after_concat, saved_edit_of_not_saves limit _ he, ih]

end Register

end History

end VersionedProperties
