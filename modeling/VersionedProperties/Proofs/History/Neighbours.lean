import Mathlib.Data.List.Chain
import VersionedProperties.Proofs.History.Timeline

/-!
# Neighbours in a history

Neighbouring entries of a history differ, since a value is put behind the current one only if it is
another one, and taking entries away at either end brings no two together. So a step back or forward
always changes the current value.

No step brings an entry that was not there, except for the value that it makes current.
-/

namespace VersionedProperties.History

variable {α : Type} {h : History α}

/-- No value stands next to itself. -/
def NeighboursDiffer (h : History α) : Prop := h.entries.IsChain (· ≠ ·)

theorem neighboursDiffer_start (limit : Int) (value : α) : (start limit value).NeighboursDiffer :=
  List.isChain_singleton value

theorem NeighboursDiffer.undo (hn : h.NeighboursDiffer) : h.undo.NeighboursDiffer := by
  unfold History.undo
  split <;> exact hn

theorem NeighboursDiffer.redo (hn : h.NeighboursDiffer) : h.redo.NeighboursDiffer := by
  unfold History.redo
  split <;> exact hn

/-- The values of two places next to each other. -/
theorem entryAt_ne_succ (hn : h.NeighboursDiffer) {place : Nat} (hp : place + 1 < h.size) :
    h.entryAt place ≠ h.entryAt (place + 1) := by
  have hlt : place + 1 < h.entries.length := by rwa [length_entries]
  have hhere := getElem?_entries h (Nat.lt_of_succ_lt hp)
  have hnext := getElem?_entries h hp
  rw [List.getElem?_eq_getElem (Nat.lt_of_succ_lt hlt)] at hhere
  rw [List.getElem?_eq_getElem hlt] at hnext
  rw [← Option.some.inj hhere, ← Option.some.inj hnext]
  exact List.isChain_iff_getElem.1 hn place hlt

theorem current_undo_ne (hr : h.InRange) (hn : h.NeighboursDiffer) (hc : h.canUndo = true) :
    h.undo.current ≠ h.current := by
  have hpos : 0 < h.cursor := of_decide_eq_true hc
  have hplace : h.cursor - 1 + 1 = h.cursor := Nat.sub_add_cancel hpos
  have hlt : h.cursor - 1 + 1 < h.size := by
    rw [hplace]
    exact hr.cursor_lt
  have hne := entryAt_ne_succ hn hlt
  rw [hplace] at hne
  rw [undo, if_pos hc]
  exact hne

theorem current_redo_ne (hn : h.NeighboursDiffer) (hc : h.canRedo = true) :
    h.redo.current ≠ h.current := by
  have hlt : h.cursor + 1 < h.size := of_decide_eq_true hc
  rw [redo, if_pos hc]
  exact (entryAt_ne_succ hn hlt).symm

variable [DecidableEq α]

theorem neighboursDiffer_push (hr : h.InRange) (hn : h.NeighboursDiffer) (value : α) :
    (h.push value).NeighboursDiffer := by
  unfold push
  split
  · exact hn
  · rename_i hv
    have hcut : h.cutRedo.entries.IsChain (· ≠ ·) := by
      rw [entries_cutRedo]
      exact hn.take _
    -- The one new pair of neighbours is the current value and the value put behind it.
    have happend : (h.cutRedo.append value).entries.IsChain (· ≠ ·) := by
      rw [entries_append, List.isChain_append]
      refine ⟨hcut, List.isChain_singleton value, ?_⟩
      rw [entries_cutRedo_eq_append hr]
      intro last hlast first hfirst
      simp only [List.getLast?_append, List.getLast?_singleton, Option.some_or, Option.mem_def,
        Option.some.injEq, List.head?_cons] at hlast hfirst
      rw [← hlast, ← hfirst]
      exact Ne.symm hv
    rw [NeighboursDiffer, evict_eq _ |>.1]
    exact happend.drop _

theorem neighboursDiffer_edit (hr : h.InRange) (hn : h.NeighboursDiffer) (e : Edit α) :
    (h.edit e).2.NeighboursDiffer := by
  cases e with
  | push value => exact neighboursDiffer_push hr hn value
  | sync value => exact neighboursDiffer_push hr hn value
  | undo => exact hn.undo
  | redo => exact hn.redo
  | markSynced => exact hn

theorem current_push (hr : h.InRange) (value : α) : (h.push value).current = value := by
  have hcurrent : (h.push value).current = (h.timeline.push h.limit value).current := by
    rw [← timeline_push hr value]
    rfl
  rw [hcurrent, Timeline.push]
  split
  · rename_i hv
    exact hv.symm
  · rfl

theorem past_sync (hr : h.InRange) {value : α} (hne : value ≠ h.current) :
    (h.sync value).timeline.past = Timeline.bounded h.limit (h.current :: h.timeline.past) := by
  have hsync : (h.sync value).timeline = (h.timeline.push h.limit value).markSynced :=
    congrArg Prod.snd (timeline_edit hr (.sync value))
  have hne' : value ≠ h.timeline.current := hne
  rw [hsync, Timeline.push, if_neg hne']
  rfl

/-- A sync with another value can be taken back if the limit leaves room for the value before. -/
theorem current_undo_sync (hr : h.InRange) {value : α} (hne : value ≠ h.current)
    (hlimit : h.limit ≠ 1) : (h.sync value).undo.current = h.current := by
  have hrange : (h.sync value).InRange := inRange_edit hr (.sync value)
  have hundo : (h.sync value).undo.current = (h.sync value).timeline.undo.current := by
    rw [← timeline_undo hrange]
    rfl
  obtain ⟨older, hpast⟩ := Timeline.bounded_cons hlimit h.current h.timeline.past
  rw [hundo, Timeline.undo, past_sync hr hne, hpast]

theorem canUndo_sync_of_limit_one (hr : h.InRange) {value : α} (hne : value ≠ h.current)
    (hlimit : h.limit = 1) : (h.sync value).canUndo = false := by
  have hview := congrArg HistoryView.canUndo (view_timeline (inRange_edit hr (.sync value)))
  have hcan : (h.sync value).canUndo = !(h.sync value).timeline.past.isEmpty := hview.symm
  rw [hcan, past_sync hr hne, hlimit]
  rfl

/-! Entries -/

theorem mem_entries_push {value a : α} (ha : a ∈ (h.push value).entries) :
    a ∈ h.entries ∨ a = value := by
  unfold push at ha
  split at ha
  · exact .inl ha
  · rw [evict_eq _ |>.1] at ha
    have happend := List.mem_of_mem_drop ha
    rw [entries_append, entries_cutRedo, List.mem_append, List.mem_singleton] at happend
    rcases happend with hcut | hvalue
    · exact .inl (List.mem_of_mem_take hcut)
    · exact .inr hvalue

theorem mem_entries_edit (hr : h.InRange) {e : Edit α} {a : α} (ha : a ∈ (h.edit e).2.entries) :
    a ∈ h.entries ∨ a = (h.edit e).2.current := by
  cases e with
  | push value =>
      change a ∈ h.entries ∨ a = (h.push value).current
      rw [current_push hr]
      exact mem_entries_push ha
  | sync value =>
      change a ∈ h.entries ∨ a = (h.push value).current
      rw [current_push hr]
      exact mem_entries_push ha
  | undo =>
      simp only [edit, undo] at ha
      split at ha <;> exact .inl ha
  | redo =>
      simp only [edit, redo] at ha
      split at ha <;> exact .inl ha
  | markSynced => exact .inl ha

/-! Saved values -/

/-- Whether a step marks the current value as saved. -/
def Edit.saves {α : Type} : Edit α → Bool
  | .push _ => false
  | .sync _ => true
  | .undo => false
  | .redo => false
  | .markSynced => true

theorem savedValue_edit_of_saves {e : Edit α} (he : e.saves = true) :
    (h.edit e).2.savedValue = (h.edit e).2.current := by
  cases e with
  | push => cases he
  | sync => rfl
  | undo => cases he
  | redo => cases he
  | markSynced => rfl

theorem savedValue_edit_of_not_saves (hr : h.InRange) {e : Edit α} (he : e.saves = false) :
    (h.edit e).2.savedValue = h.savedValue := by
  have hsaved : (h.edit e).2.savedValue = (h.timeline.edit h.limit e).2.saved := by
    rw [← timeline_edit hr e]
    rfl
  rw [hsaved]
  cases e with
  | push value =>
      simp only [Timeline.edit, Timeline.push]
      split <;> rfl
  | sync => cases he
  | undo =>
      simp only [Timeline.edit, Timeline.undo]
      split <;> rfl
  | redo =>
      simp only [Timeline.edit, Timeline.redo]
      split <;> rfl
  | markSynced => cases he

end VersionedProperties.History
