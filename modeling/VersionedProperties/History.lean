import VersionedProperties.Error

/-!
# Histories

A history lists the values that a property has held, oldest first, with the place of the current
value and a mark at the saved value. Making a new value current cuts off what could have been redone
and, where the history is bounded, drops the oldest entries. Either can take away the entry that the
mark points at; the mark then keeps the value itself, so that `isModified` still compares with it.

There is always at least one entry, and the current value is read with the oldest one standing in
for a place out of range. No sequence of operations leads there.
-/

namespace VersionedProperties

/-- The saved value of a history: the value of an entry, or a value whose entry is gone. -/
inductive SavedMark (α : Type) where
  | entry (place : Nat)
  | dropped (value : α)
  deriving DecidableEq

/-- The values that a property has held. A limit that is not positive keeps every entry. -/
structure History (α : Type) where
  oldest : α
  newer : List α
  cursor : Nat
  saved : SavedMark α
  limit : Int
  deriving DecidableEq

namespace History

variable {α : Type}

/-- A history with one value, which counts as saved. -/
def start (limit : Int) (value : α) : History α := ⟨value, [], 0, .entry 0, limit⟩

/-- The values from the oldest to the newest. -/
def entries (h : History α) : List α := h.oldest :: h.newer

/-- The number of entries. -/
def size (h : History α) : Nat := h.newer.length + 1

@[simp] theorem length_entries (h : History α) : h.entries.length = h.size := by
  simp [entries, size]

/-- The value at a place. -/
def entryAt (h : History α) (place : Nat) : α := h.entries.getD place h.oldest

/-- The current value. -/
def current (h : History α) : α := h.entryAt h.cursor

/-- The value that was last read from or written to the store. -/
def savedValue (h : History α) : α :=
  match h.saved with
  | .entry place => h.entryAt place
  | .dropped value => value

/-- The place of the saved value, or `-1` when its entry is gone. -/
def savedCursor (h : History α) : Int :=
  match h.saved with
  | .entry place => place
  | .dropped _ => -1

/-- Whether there is an older value to go back to. -/
def canUndo (h : History α) : Bool := 0 < h.cursor

/-- Whether there is a newer value to go forward to. -/
def canRedo (h : History α) : Bool := h.cursor + 1 < h.size

/-- One value back; at the oldest value nothing changes. -/
def undo (h : History α) : History α :=
  if h.canUndo then { h with cursor := h.cursor - 1 } else h

/-- One value forward; at the newest value nothing changes. -/
def redo (h : History α) : History α :=
  if h.canRedo then { h with cursor := h.cursor + 1 } else h

/-- The current value marked as saved. -/
def markSynced (h : History α) : History α := { h with saved := .entry h.cursor }

/-- The history cut off after the current value. A saved entry in the part that is cut off is kept
as a value. -/
def cutRedo (h : History α) : History α :=
  { h with
    newer := h.newer.take h.cursor
    saved :=
      match h.saved with
      | .entry place => if h.cursor < place then .dropped (h.entryAt place) else .entry place
      | .dropped value => .dropped value }

/-- The history with a value put behind the newest entry and made current. -/
def append (h : History α) (value : α) : History α :=
  { h with newer := h.newer ++ [value], cursor := h.size }

/-- The number of entries beyond the limit. -/
def overflow (h : History α) : Nat :=
  if 0 < h.limit then h.size - h.limit.toNat else 0

/-- The history without its oldest entries beyond the limit. A saved entry among them is kept as a
value. -/
def evict (h : History α) : History α :=
  match h.entries.drop h.overflow with
  | [] => h
  | oldest :: newer =>
    { h with
      oldest := oldest
      newer := newer
      cursor := h.cursor - h.overflow
      saved :=
        match h.saved with
        | .entry place =>
          if place < h.overflow then .dropped (h.entryAt place) else .entry (place - h.overflow)
        | .dropped value => .dropped value }

section Equality

variable [DecidableEq α]

/-- A value made current. Pushing the current value changes nothing. -/
def push (h : History α) (value : α) : History α :=
  if value = h.current then h else ((h.cutRedo).append value).evict

/-- Whether pushing a value changes the history. -/
def accepts (h : History α) (value : α) : Bool := value ≠ h.current

/-- A value made current and marked as saved. -/
def sync (h : History α) (value : α) : History α := (h.push value).markSynced

/-- Whether the current value differs from the saved one. -/
def isModified (h : History α) : Bool := h.current ≠ h.savedValue

end Equality

/-- A step of a history. -/
inductive Edit (α : Type) where
  | push (value : α)
  | sync (value : α)
  | undo
  | redo
  | markSynced
  deriving DecidableEq

/-- What a step answers: whether the current value has changed, or the current value after it. -/
inductive Reply (α : Type) where
  | nothing
  | flag (b : Bool)
  | value (a : α)
  deriving DecidableEq

/-- A step taken: its answer, and the history after it. -/
def edit [DecidableEq α] (h : History α) : Edit α → Reply α × History α
  | .push value => (.flag (h.accepts value), h.push value)
  | .sync value => (.flag (h.accepts value), h.sync value)
  | .undo => (.value h.undo.current, h.undo)
  | .redo => (.value h.redo.current, h.redo)
  | .markSynced => (.nothing, h.markSynced)

/-- A history of a value that may be absent. -/
def start? (limit : Int) : Option α → Except Error (History α)
  | some value => .ok (start limit value)
  | none => .error (.missingValue .tracked)

end History

/-- Items between brackets, as shown in messages. -/
def bracketed (items : List Text) : Text := "[" ++ Text.joined ", " items ++ "]"

/-- A history in words. -/
def History.describe (h : History Text) : Text :=
  "ChangeHistory(entries=" ++ bracketed (h.entries.map Text.quoted) ++ ", cursor=" ++
    Text.ofString (toString h.cursor) ++ ", saved_cursor=" ++
    Text.ofString (toString h.savedCursor) ++ ")"

namespace History

/-- An operation on a history of texts. -/
inductive Command where
  | push (value : Option Text)
  | sync (value : Option Text)
  | undo
  | redo
  | markSynced
  | isModified
  | describe
  deriving DecidableEq

/-- What an operation answers. -/
abbrev Answer := Reply Text

/-- A step taken by an operation that does not fail. -/
def answered (r : Reply Text × History Text) : Except Error Answer × History Text := (.ok r.1, r.2)

/-- An operation performed: its answer, or an error, and the history after it. -/
def perform (h : History Text) : Command → Except Error Answer × History Text
  | .push none => (.error (.missingValue .pushed), h)
  | .push (some value) => answered (h.edit (.push value))
  | .sync none => (.error (.missingValue .pushed), h)
  | .sync (some value) => answered (h.edit (.sync value))
  | .undo => answered (h.edit .undo)
  | .redo => answered (h.edit .redo)
  | .markSynced => answered (h.edit .markSynced)
  | .isModified => (.ok (.flag h.isModified), h)
  | .describe => (.ok (.value h.describe), h)

end History

end VersionedProperties
