import VersionedProperties.Proofs.History.Cells
import VersionedProperties.Proofs.History.Register

/-!
# Histories that keep to their entries

A history goes with the register of its entries through a run. At every moment it has the entries of
the register at their places, not more of them than a positive limit allows, and none next to one
with the same value. Its saved cursor is at the very entry that was current after the last step that
saves, or it is `-1`, and this just if that entry was cut off or evicted.

So neither the current nor the saved value is ever read out of range, and a value is kept beside the
entries whenever the saved cursor leads there: the same steps taken on plain cells, where nothing of
this is built in, never read what is missing.
-/

namespace VersionedProperties.History

variable {α : Type} {h : History α} {r : Register α}

/-! Marks -/

/-- A mark stands for an entry: by its place among the kept ones, or for one that is gone. -/
def StandsFor (mark : SavedMark α) (kept gone : List (Entry α)) (x : Entry α) : Prop :=
  match mark with
  | .entry place => kept[place]? = some x
  | .dropped _ => x ∈ gone

section Marks

variable {mark : SavedMark α} {kept gone : List (Entry α)} {x : Entry α}

theorem StandsFor.mono {gone' : List (Entry α)} (hm : StandsFor mark kept gone x)
    (hgone : gone ⊆ gone') : StandsFor mark kept gone' x := by
  cases mark with
  | entry place => exact hm
  | dropped value => exact hgone hm

theorem StandsFor.cutRedo (hm : StandsFor h.saved kept gone x) :
    StandsFor h.cutRedo.saved (kept.take (h.cursor + 1)) (kept.drop (h.cursor + 1) ++ gone) x := by
  cases hs : h.saved with
  | entry place =>
      rw [hs] at hm
      rcases Nat.lt_or_ge h.cursor place with hp | hp
      · have hbehind : (kept.drop (h.cursor + 1))[place - (h.cursor + 1)]? = some x := by
          rw [List.getElem?_drop, Nat.add_sub_cancel' hp]
          exact hm
        rw [saved_cutRedo_of_lt hs hp]
        exact List.mem_append_left _ (List.mem_of_getElem? hbehind)
      · rw [saved_cutRedo_of_le hs hp]
        exact (List.getElem?_take_of_lt (Nat.lt_succ_of_le hp)).trans hm
  | dropped value =>
      rw [hs] at hm
      rw [saved_cutRedo_of_dropped hs]
      exact List.mem_append_right _ hm

theorem StandsFor.append (hm : StandsFor mark kept gone x) (y : Entry α) :
    StandsFor mark (kept ++ [y]) gone x := by
  cases mark with
  | entry place =>
      have hplace : kept[place]? = some x := hm
      have hlt := (List.getElem?_eq_some_iff.1 hplace).1
      exact (List.getElem?_append_left hlt).trans hplace
  | dropped value => exact hm

theorem StandsFor.evict (hm : StandsFor h.saved kept gone x) :
    StandsFor h.evict.saved (kept.drop h.overflow) (kept.take h.overflow ++ gone) x := by
  cases hs : h.saved with
  | entry place =>
      rw [hs] at hm
      rcases Nat.lt_or_ge place h.overflow with hp | hp
      · have hfront : (kept.take h.overflow)[place]? = some x :=
          (List.getElem?_take_of_lt hp).trans hm
        rw [saved_evict_of_lt hs hp]
        exact List.mem_append_left _ (List.mem_of_getElem? hfront)
      · rw [saved_evict_of_le hs hp]
        change (kept.drop h.overflow)[place - h.overflow]? = some x
        rw [List.getElem?_drop, Nat.add_sub_cancel' hp]
        exact hm
  | dropped value =>
      rw [hs] at hm
      rw [saved_evict_of_dropped hs]
      exact List.mem_append_right _ hm

theorem StandsFor.mem_gone_iff (hn : r.IsNumbered) (hm : StandsFor mark r.entries r.gone x) :
    x ∈ r.gone ↔ ∃ value, mark = .dropped value := by
  cases mark with
  | entry place =>
      have hkept : x ∈ r.entries := List.mem_of_getElem? hm
      constructor
      · intro hgone
        exact absurd hgone (hn.not_mem_gone hkept)
      · rintro ⟨value, hvalue⟩
        cases hvalue
  | dropped value => exact ⟨fun _ => ⟨value, rfl⟩, fun _ => hm⟩

end Marks

/-! Registered histories -/

theorem saved_undo (h : History α) : h.undo.saved = h.saved := by
  unfold undo
  split <;> rfl

theorem saved_redo (h : History α) : h.redo.saved = h.saved := by
  unfold redo
  split <;> rfl

/-- The register shows the history, and the saved mark stands for the entry that it shows as
saved. -/
structure IsRegisteredIn (h : History α) (r : Register α) : Prop where
  timeline_eq : h.timeline = r.shown.map Entry.value
  standsFor : StandsFor h.saved r.entries r.gone r.shown.saved

theorem isRegisteredIn_start (limit : Int) (value : α) :
    (start limit value).IsRegisteredIn (Register.start value) := ⟨rfl, rfl⟩

namespace IsRegisteredIn

theorem cursor_eq (hg : h.IsRegisteredIn r) (hr : h.InRange) :
    h.cursor = r.shown.past.length := by
  have hpast := congrArg (fun z => z.past.length) hg.timeline_eq
  simpa [timeline, Timeline.map, length_take_cursor hr] using hpast

theorem current_eq (hg : h.IsRegisteredIn r) : h.current = r.shown.current.value :=
  congrArg Timeline.current hg.timeline_eq

theorem entries_eq (hg : h.IsRegisteredIn r) (hr : h.InRange) :
    h.entries = r.entries.map Entry.value := by
  rw [Register.entries, ← Timeline.entries_map, ← hg.timeline_eq, Timeline.entries, timeline,
    List.reverse_reverse]
  exact entries_eq_append hr

theorem getElem?_cursor (hg : h.IsRegisteredIn r) (hr : h.InRange) :
    r.entries[h.cursor]? = some r.shown.current := by
  rw [hg.cursor_eq hr]
  exact r.shown.getElem?_entries_past

/-- A step back or forward takes no entry away and leaves the mark where it is. -/
theorem of_moved {h' : History α} {z : Timeline (Entry α)} (hg : h.IsRegisteredIn r)
    (hsaved : h'.saved = h.saved) (htimeline : h'.timeline = z.map Entry.value)
    (hentries : z.entries = r.shown.entries) (hz : z.saved = r.shown.saved) :
    h'.IsRegisteredIn { r with shown := z } where
  timeline_eq := htimeline
  standsFor := by
    change StandsFor h'.saved z.entries r.gone z.saved
    rw [hsaved, hentries, hz]
    exact hg.standsFor

variable [DecidableEq α]

theorem timeline_edit (hg : h.IsRegisteredIn r) (hr : h.InRange) (e : Edit α) :
    (h.edit e).2.timeline = (r.edit h.limit e).shown.map Entry.value := by
  have hstep : (h.edit e).2.timeline = (h.timeline.edit h.limit e).2 :=
    congrArg Prod.snd (History.timeline_edit hr e)
  rw [hstep, hg.timeline_eq, Register.map_edit]

/-- The mark goes along with its entry through a push of another value, or the entry is gone. -/
theorem standsFor_push (hg : h.IsRegisteredIn r) (hr : h.InRange) {value : α}
    (hv : value ≠ h.current) :
    StandsFor (h.push value).saved (r.push h.limit value).entries (r.push h.limit value).gone
      r.shown.saved := by
  have hv' : value ≠ r.shown.current.value := hg.current_eq ▸ hv
  let newest : Entry α := ⟨r.all.length, value⟩
  let longer := h.cutRedo.append value
  have hlength : r.older.length = h.cursor + 1 := by simp [Register.older, hg.cursor_eq hr]
  have hover : longer.overflow =
      if 0 < h.limit then r.older.length + 1 - h.limit.toNat else 0 := by
    rw [overflow, size_append, size_cutRedo hr, hlength]
    rfl
  have hover_le : longer.overflow ≤ r.older.length := by
    have := overflow_lt_size longer
    rw [size_append, size_cutRedo hr, ← hlength] at this
    exact Nat.le_of_lt_succ this
  -- The three parts of a push take their entries away one after the other.
  have hcut : StandsFor h.cutRedo.saved r.older (r.shown.future ++ r.gone) r.shown.saved := by
    have := hg.standsFor.cutRedo
    rwa [r.entries_eq_older, List.take_left' hlength, List.drop_left' hlength] at this
  have hlonger : StandsFor longer.saved (r.older ++ [newest]) (r.shown.future ++ r.gone)
      r.shown.saved := hcut.append newest
  have hevict := hlonger.evict
  rw [List.drop_append_of_le_length hover_le, List.take_append_of_le_length hover_le] at hevict
  rw [History.push, if_neg hv, Register.entries_push hv' hover]
  exact hevict.mono (Register.subset_gone_push hv' hover)

theorem push (hg : h.IsRegisteredIn r) (hr : h.InRange) (value : α) :
    (h.push value).IsRegisteredIn (r.push h.limit value) where
  timeline_eq := hg.timeline_edit hr (.push value)
  standsFor := by
    by_cases hv : value = h.current
    · have hv' : value = r.shown.current.value := hg.current_eq ▸ hv
      rw [History.push, if_pos hv, Register.push, if_pos hv']
      exact hg.standsFor
    · rw [Register.saved_push]
      exact hg.standsFor_push hr hv

theorem markSynced (hg : h.IsRegisteredIn r) (hr : h.InRange) :
    h.markSynced.IsRegisteredIn r.markSynced where
  timeline_eq := hg.timeline_edit hr .markSynced
  standsFor := hg.getElem?_cursor hr

theorem edit (hg : h.IsRegisteredIn r) (hr : h.InRange) (e : Edit α) :
    (h.edit e).2.IsRegisteredIn (r.edit h.limit e) := by
  cases e with
  | push value => exact hg.push hr value
  | sync value => exact (hg.push hr value).markSynced (inRange_push hr value)
  | undo =>
      exact hg.of_moved h.saved_undo (hg.timeline_edit hr .undo) r.shown.entries_undo
        r.shown.saved_undo
  | redo =>
      exact hg.of_moved h.saved_redo (hg.timeline_edit hr .redo) r.shown.entries_redo
        r.shown.saved_redo
  | markSynced => exact hg.markSynced hr

end IsRegisteredIn

/-! Limits -/

/-- A positive limit bounds the number of entries. -/
def WithinLimit (h : History α) : Prop := 0 < h.limit → (h.size : Int) ≤ h.limit

theorem withinLimit_evict (h : History α) : h.evict.WithinLimit := by
  intro hpos
  rw [h.evict_eq.2.2.2] at hpos ⊢
  rw [size_evict, overflow, if_pos hpos]
  omega

theorem WithinLimit.edit [DecidableEq α] (hw : h.WithinLimit) (e : Edit α) :
    (h.edit e).2.WithinLimit := by
  have hpush (value : α) : (h.push value).WithinLimit := by
    unfold push
    split
    · exact hw
    · exact withinLimit_evict _
  cases e with
  | push value => exact hpush value
  | sync value => exact hpush value
  | undo =>
      simp only [History.edit, undo]
      split <;> exact hw
  | redo =>
      simp only [History.edit, redo]
      split <;> exact hw
  | markSynced => exact hw

/-! Saved cursors -/

theorem savedCursor_eq_neg_one_iff : h.savedCursor = -1 ↔ ∃ value, h.saved = .dropped value := by
  cases hs : h.saved with
  | entry place => simp [savedCursor_of_entry hs]
  | dropped value => simp [savedCursor_of_dropped hs]

theorem IsRegisteredIn.getElem?_savedCursor (hg : h.IsRegisteredIn r) (hne : h.savedCursor ≠ -1) :
    ∃ place : Nat, h.savedCursor = place ∧ r.entries[place]? = some r.shown.saved := by
  have hstands := hg.standsFor
  cases hs : h.saved with
  | entry place =>
      rw [hs] at hstands
      exact ⟨place, savedCursor_of_entry hs, hstands⟩
  | dropped value => exact absurd (savedCursor_of_dropped hs) hne

theorem IsRegisteredIn.savedCursor_eq_neg_one_iff (hg : h.IsRegisteredIn r) (hn : r.IsNumbered) :
    h.savedCursor = -1 ↔ r.shown.saved ∈ r.truncated ∨ r.shown.saved ∈ r.evicted := by
  rw [History.savedCursor_eq_neg_one_iff, ← hg.standsFor.mem_gone_iff hn, Register.gone,
    List.mem_append]

/-! Runs -/

/-- What every step keeps of a history and its register. -/
structure IsTracked (limit : Int) (h : History α) (r : Register α) : Prop where
  inRange : h.InRange
  limit_eq : h.limit = limit
  withinLimit : h.WithinLimit
  neighboursDiffer : h.NeighboursDiffer
  isRegisteredIn : h.IsRegisteredIn r
  isNumbered : r.IsNumbered

theorem isTracked_start (limit : Int) (value : α) :
    IsTracked limit (start limit value) (Register.start value) where
  inRange := inRange_start limit value
  limit_eq := rfl
  withinLimit hpos := Int.add_one_le_of_lt hpos
  neighboursDiffer := neighboursDiffer_start limit value
  isRegisteredIn := isRegisteredIn_start limit value
  isNumbered := Register.isNumbered_start value

/-- What holds of a history beside its register at every moment of a run, where `marked` is the
entry that was current when the current value was last marked as saved. -/
structure IsConsistent (limit : Int) (h : History α) (r : Register α) (marked : Entry α) :
    Prop where
  entries_ne_nil : h.entries ≠ []
  length_entries_le : 0 < limit → (h.entries.length : Int) ≤ limit
  cursor_lt : h.cursor < h.entries.length
  neighbours_ne : h.entries.IsChain (· ≠ ·)
  -- The register has the entries at their places, and tells them apart.
  entries_eq : h.entries = r.entries.map Entry.value
  numbers_nodup : (r.all.map Entry.number).Nodup
  current_entry : r.entries[h.cursor]? = some r.shown.current
  -- The saved cursor is at the marked entry, or it is `-1` and that entry is gone.
  saved_entry : h.savedCursor ≠ -1 →
    ∃ place : Nat, h.savedCursor = place ∧ r.entries[place]? = some marked
  saved_gone : h.savedCursor = -1 ↔ marked ∈ r.truncated ∨ marked ∈ r.evicted
  -- Reading by the cursors finds a value.
  current_read : h.cells.current? = some h.current
  saved_read : h.cells.savedValue? = some h.savedValue
  savedValue_eq : h.savedValue = marked.value

theorem IsTracked.isConsistent {limit : Int} (ht : IsTracked limit h r) :
    IsConsistent limit h r r.shown.saved where
  entries_ne_nil := List.cons_ne_nil _ _
  length_entries_le := by
    rw [length_entries, ← ht.limit_eq]
    exact ht.withinLimit
  cursor_lt := by
    rw [length_entries]
    exact ht.inRange.cursor_lt
  neighbours_ne := ht.neighboursDiffer
  entries_eq := ht.isRegisteredIn.entries_eq ht.inRange
  numbers_nodup := ht.isNumbered.nodup
  current_entry := ht.isRegisteredIn.getElem?_cursor ht.inRange
  saved_entry := ht.isRegisteredIn.getElem?_savedCursor
  saved_gone := ht.isRegisteredIn.savedCursor_eq_neg_one_iff ht.isNumbered
  current_read := current?_cells ht.inRange
  saved_read := savedValue?_cells ht.inRange
  savedValue_eq := congrArg Timeline.saved ht.isRegisteredIn.timeline_eq

variable [DecidableEq α]

theorem IsTracked.edit {limit : Int} (ht : IsTracked limit h r) (e : Edit α) :
    IsTracked limit (h.edit e).2 (r.edit limit e) where
  inRange := inRange_edit ht.inRange e
  limit_eq := (limit_edit h e).trans ht.limit_eq
  withinLimit := ht.withinLimit.edit e
  neighboursDiffer := neighboursDiffer_edit ht.inRange ht.neighboursDiffer e
  isRegisteredIn := ht.limit_eq ▸ ht.isRegisteredIn.edit ht.inRange e
  isNumbered := ht.isNumbered.edit limit e

theorem IsTracked.after {limit : Int} (ht : IsTracked limit h r) (edits : List (Edit α)) :
    IsTracked limit (h.after edits) (r.after limit edits) := by
  induction edits generalizing h r with
  | nil => exact ht
  | cons e edits ih => exact ih (ht.edit e)

/-- After any steps from any value, under any limit, the history is consistent with the register of
its entries, where the marked entry is the one that was current after the last step that saves, or
the first one if no step saves. Taken on plain cells, the steps never read what is not there, and
they end in the cells of the history. -/
theorem isConsistent_after_start (limit : Int) (initial : α) (edits : List (Edit α)) :
    let first := Register.start initial
    let register := first.after limit edits
    let marked := (first.after limit (Register.settledPart edits)).shown.current
    let history := (start limit initial).after edits
    history.IsConsistent limit register marked ∧
      (Cells.start limit initial).after edits = some history.cells := by
  intro first register marked history
  have hmarked : register.shown.saved = marked := Register.saved_after_start limit initial edits
  constructor
  · rw [← hmarked]
    exact ((isTracked_start limit initial).after edits).isConsistent
  · exact after_cells (inRange_start limit initial) edits

/-- The saved entry is evicted here, though another entry has its value. -/
example : ((start 2 'a').after [.push 'b', .push 'a']).savedCursor = -1 := by decide

end VersionedProperties.History
