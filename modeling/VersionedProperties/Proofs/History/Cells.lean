import VersionedProperties.Proofs.History.Placement

/-!
# Histories in plain cells

A history is bound by its type to have an oldest entry, places that are not negative, and a value
wherever its mark points at no entry. Cells are not: they are a list, two indices, and a value that
may be missing beside the list, so that a step can come to read what is not there. `History.cells`
writes a history down in cells. A step of the cells is the step of the history, and under
`History.InRange` it never reads in vain.
-/

namespace VersionedProperties.History

/-- A history written down. The saved value stands beside the entries when its own entry is gone. -/
structure Cells (α : Type) where
  entries : List α
  cursor : Int
  savedCursor : Int
  beside : Option α
  limit : Int

namespace Cells

variable {α : Type}

/-- Cells with one entry, which counts as saved. -/
def start (limit : Int) (value : α) : Cells α := ⟨[value], 0, 0, none, limit⟩

/-- The entry at an index, if the index is in range. -/
def read (c : Cells α) (index : Int) : Option α :=
  if index < 0 then none else c.entries[index.toNat]?

/-- The value at the cursor. -/
def current? (c : Cells α) : Option α := c.read c.cursor

/-- The value at the saved cursor, or for a negative one the value beside the entries. -/
def savedValue? (c : Cells α) : Option α :=
  if c.savedCursor < 0 then c.beside else c.read c.savedCursor

/-- What is behind the cursor cut off, with a saved value among it put beside the entries. -/
def cutRedo (c : Cells α) : Option (Cells α) :=
  let kept := c.entries.take (c.cursor + 1).toNat
  if c.cursor < c.savedCursor then
    (c.read c.savedCursor).map fun value =>
      { c with entries := kept, savedCursor := -1, beside := some value }
  else some { c with entries := kept }

/-- A value put behind the last entry, and the cursor moved on. -/
def append (c : Cells α) (value : α) : Cells α :=
  { c with entries := c.entries ++ [value], cursor := c.cursor + 1 }

/-- The first entries beyond the limit taken away, with a saved value among them put beside the
others, and both cursors moved back. -/
def evict (c : Cells α) : Option (Cells α) :=
  let overflow : Int := c.entries.length - c.limit
  let kept := c.entries.drop overflow.toNat
  if c.limit ≤ 0 ∨ overflow ≤ 0 then some c
  else if c.savedCursor < 0 then some { c with entries := kept, cursor := c.cursor - overflow }
  else if c.savedCursor < overflow then
    (c.read c.savedCursor).map fun value =>
      { c with entries := kept, cursor := c.cursor - overflow, savedCursor := -1,
               beside := some value }
  else
    some { c with entries := kept, cursor := c.cursor - overflow,
                  savedCursor := c.savedCursor - overflow }

/-- One entry back. -/
def undo (c : Cells α) : Cells α := if 0 < c.cursor then { c with cursor := c.cursor - 1 } else c

/-- One entry forward. -/
def redo (c : Cells α) : Cells α :=
  if c.cursor < c.entries.length - 1 then { c with cursor := c.cursor + 1 } else c

/-- The cursor taken as the saved cursor. -/
def markSynced (c : Cells α) : Cells α := { c with savedCursor := c.cursor, beside := none }

variable [DecidableEq α]

/-- A value made current, with the answer whether it is another one. -/
def push (c : Cells α) (value : α) : Option (Bool × Cells α) :=
  c.current?.bind fun current =>
    if value = current then some (false, c)
    else (c.cutRedo.bind fun cut => (cut.append value).evict).map fun next => (true, next)

/-- A step taken, if all that it reads is there. -/
def edit (c : Cells α) : Edit α → Option (Reply α × Cells α)
  | .push value => (c.push value).map fun (changed, next) => (.flag changed, next)
  | .sync value => (c.push value).map fun (changed, next) => (.flag changed, next.markSynced)
  | .undo => c.undo.current?.map fun value => (.value value, c.undo)
  | .redo => c.redo.current?.map fun value => (.value value, c.redo)
  | .markSynced => some (.nothing, c.markSynced)

/-- The cells after steps, if all of them can be taken. -/
def after (c : Cells α) : List (Edit α) → Option (Cells α)
  | [] => some c
  | e :: rest => (c.edit e).bind fun next => next.2.after rest

end Cells

variable {α : Type} {h : History α}

/-- A history written down in cells. -/
def cells (h : History α) : Cells α where
  entries := h.entries
  cursor := h.cursor
  savedCursor := h.savedCursor
  beside :=
    match h.saved with
    | .entry _ => none
    | .dropped value => some value
  limit := h.limit

theorem savedCursor_of_entry {place : Nat} (hs : h.saved = .entry place) :
    h.savedCursor = place := by
  rw [savedCursor, hs]

theorem savedCursor_of_dropped {value : α} (hs : h.saved = .dropped value) :
    h.savedCursor = -1 := by
  rw [savedCursor, hs]

theorem cells_of_entry {place : Nat} (hs : h.saved = .entry place) :
    h.cells = ⟨h.entries, h.cursor, place, none, h.limit⟩ := by
  rw [cells, savedCursor_of_entry hs, hs]

theorem cells_of_dropped {value : α} (hs : h.saved = .dropped value) :
    h.cells = ⟨h.entries, h.cursor, -1, some value, h.limit⟩ := by
  rw [cells, savedCursor_of_dropped hs, hs]

/-! Reading -/

theorem read_cells {place : Nat} (hp : place < h.size) :
    h.cells.read place = some (h.entryAt place) := by
  rw [Cells.read, if_neg (Int.not_lt.2 (Int.natCast_nonneg place)), Int.toNat_natCast]
  exact getElem?_entries h hp

theorem current?_cells (hr : h.InRange) : h.cells.current? = some h.current :=
  read_cells hr.cursor_lt

theorem savedValue?_cells (hr : h.InRange) : h.cells.savedValue? = some h.savedValue := by
  cases hs : h.saved with
  | entry place =>
      have hread := read_cells (hr.saved_lt place hs)
      rw [cells_of_entry hs] at hread ⊢
      rw [Cells.savedValue?, if_neg (Int.not_lt.2 (Int.natCast_nonneg place)), hread, savedValue,
        hs]
  | dropped value =>
      rw [cells_of_dropped hs, savedValue, hs]
      rfl

/-! Parts of a push -/

theorem cutRedo_cells (hr : h.InRange) : h.cells.cutRedo = some h.cutRedo.cells := by
  have htake : ((h.cursor : Int) + 1).toNat = h.cursor + 1 := by omega
  cases hs : h.saved with
  | entry place =>
      have hread := read_cells (hr.saved_lt place hs)
      rw [cells_of_entry hs] at hread ⊢
      rcases Nat.lt_or_ge h.cursor place with hp | hp
      · have hp' : (h.cursor : Int) < place := Int.ofNat_lt.2 hp
        rw [cells_of_dropped (saved_cutRedo_of_lt hs hp)]
        simp only [Cells.cutRedo, hp', if_true, hread, Option.map_some, htake]
        rfl
      · have hp' : ¬ (h.cursor : Int) < place := Int.not_lt.2 (Int.ofNat_le.2 hp)
        rw [cells_of_entry (saved_cutRedo_of_le hs hp)]
        simp only [Cells.cutRedo, hp', if_false, htake]
        rfl
  | dropped value =>
      have hp : ¬ (h.cursor : Int) < -1 := by omega
      rw [cells_of_dropped hs, cells_of_dropped (saved_cutRedo_of_dropped hs)]
      simp only [Cells.cutRedo, hp, if_false, htake]
      rfl

theorem append_cells (hlast : h.size = h.cursor + 1) (value : α) :
    h.cells.append value = (h.append value).cells := by
  have hcursor : ((h.append value).cursor : Int) = h.cursor + 1 := by
    change ((h.size : Nat) : Int) = h.cursor + 1
    rw [hlast]
    rfl
  simp only [cells, Cells.append, hcursor]
  rfl

theorem evict_of_overflow_eq_zero (ho : h.overflow = 0) : h.evict = h := by
  rcases h with ⟨oldest, newer, cursor, saved, limit⟩
  simp only [evict, ho, entries, List.drop_zero, Nat.sub_zero, Nat.not_lt_zero, if_false]
  cases saved <;> rfl

/-- The cursor of the newest entry is moved back by an eviction, but never out of range. -/
theorem evict_cells (hr : h.InRange) (hlast : h.size = h.cursor + 1) :
    h.cells.evict = some h.evict.cells := by
  have hlength : (h.entries.length : Int) = h.size := by rw [length_entries]
  by_cases hwithin : h.limit ≤ 0 ∨ (h.entries.length : Int) - h.limit ≤ 0
  · have hzero : h.overflow = 0 := by
      unfold overflow
      split <;> omega
    rw [evict_of_overflow_eq_zero hzero]
    exact if_pos hwithin
  · have hover : (h.entries.length : Int) - h.limit = h.overflow := by
      unfold overflow
      split <;> omega
    have hback : (h.cursor : Int) - h.overflow = (h.cursor - h.overflow : Nat) := by
      have := h.overflow_lt_size
      omega
    rw [hover] at hwithin
    obtain ⟨hentries, hcursor, -, hlimit⟩ := h.evict_eq
    cases hs : h.saved with
    | entry place =>
        have hread := read_cells (hr.saved_lt place hs)
        have hnonneg : ¬ (place : Int) < 0 := Int.not_lt.2 (Int.natCast_nonneg place)
        rw [cells_of_entry hs] at hread ⊢
        rcases Nat.lt_or_ge place h.overflow with hp | hp
        · have hp' : (place : Int) < h.overflow := Int.ofNat_lt.2 hp
          rw [cells_of_dropped (saved_evict_of_lt hs hp), hentries, hcursor, hlimit]
          simp only [Cells.evict, hover, hwithin, hnonneg, hp', if_false, if_true, hread, hback,
            Option.map_some, Int.toNat_natCast]
        · have hp' : ¬ (place : Int) < h.overflow := Int.not_lt.2 (Int.ofNat_le.2 hp)
          have hplace : (place : Int) - h.overflow = (place - h.overflow : Nat) :=
            (Int.ofNat_sub hp).symm
          rw [cells_of_entry (saved_evict_of_le hs hp), hentries, hcursor, hlimit]
          simp only [Cells.evict, hover, hwithin, hnonneg, hp', if_false, hback, hplace,
            Int.toNat_natCast]
    | dropped value =>
        have hneg : (-1 : Int) < 0 := by decide
        rw [cells_of_dropped hs, cells_of_dropped (saved_evict_of_dropped hs), hentries, hcursor,
          hlimit]
        simp only [Cells.evict, hover, hwithin, hneg, if_false, if_true, hback, Int.toNat_natCast]

/-! Steps -/

theorem undo_cells (h : History α) : h.cells.undo = h.undo.cells := by
  by_cases hc : 0 < h.cursor
  · have hc' : (0 : Int) < h.cursor := Int.natCast_pos.2 hc
    have hback : (h.cursor : Int) - 1 = (h.cursor - 1 : Nat) := by omega
    simp only [Cells.undo, cells, undo, canUndo, hc, hc', decide_true, if_true, hback]
    rfl
  · have hc' : ¬ (0 : Int) < h.cursor := fun hlt => hc (Int.natCast_pos.1 hlt)
    simp only [Cells.undo, cells, undo, canUndo, hc, hc', decide_false, if_false]
    rfl

theorem redo_cells (h : History α) : h.cells.redo = h.redo.cells := by
  have hlength : (h.entries.length : Int) = h.size := by rw [length_entries]
  by_cases hc : h.cursor + 1 < h.size
  · have hc' : (h.cursor : Int) < h.entries.length - 1 := by omega
    simp only [Cells.redo, cells, redo, canRedo, hc, hc', decide_true, if_true]
    rfl
  · have hc' : ¬ (h.cursor : Int) < h.entries.length - 1 := by omega
    simp only [Cells.redo, cells, redo, canRedo, hc, hc', decide_false, if_false]
    rfl

variable [DecidableEq α]

theorem push_cells (hr : h.InRange) (value : α) :
    h.cells.push value = some (h.accepts value, (h.push value).cells) := by
  rw [Cells.push, current?_cells hr, Option.bind_some, push]
  by_cases hv : value = h.current
  · simp [hv, accepts]
  · have hcut := inRange_cutRedo hr
    have hnewest : (h.cutRedo.append value).size = (h.cutRedo.append value).cursor + 1 :=
      size_append h.cutRedo value
    rw [if_neg hv, if_neg hv, cutRedo_cells hr, Option.bind_some,
      append_cells (size_cutRedo hr), evict_cells (inRange_append hcut value) hnewest]
    simp [hv, accepts]

theorem edit_cells (hr : h.InRange) (e : Edit α) :
    h.cells.edit e = some ((h.edit e).1, (h.edit e).2.cells) := by
  cases e with
  | push value =>
      rw [Cells.edit, push_cells hr]
      rfl
  | sync value =>
      rw [Cells.edit, push_cells hr]
      rfl
  | undo =>
      rw [Cells.edit, undo_cells, current?_cells (inRange_undo hr)]
      rfl
  | redo =>
      rw [Cells.edit, redo_cells, current?_cells (inRange_redo hr)]
      rfl
  | markSynced => rfl

/-! Runs -/

/-- A history after steps. -/
def after (h : History α) (edits : List (Edit α)) : History α :=
  edits.foldl (fun h e => (h.edit e).2) h

theorem after_cells (hr : h.InRange) (edits : List (Edit α)) :
    h.cells.after edits = some (h.after edits).cells := by
  induction edits generalizing h with
  | nil => rfl
  | cons e rest ih =>
      rw [Cells.after, edit_cells hr, Option.bind_some]
      exact ih (inRange_edit hr e)

end VersionedProperties.History
