import VersionedProperties.Proofs.Document.Composition
import VersionedProperties.Proofs.Document.RoundTrip

/-!
# Comments and timestamps are inert

The lines in front of the entries are comments when the document is read, wherever the comment ends
its own lines and however these begin and end: each gets a mark in front, none holds a line end, and
a comment never goes on in the next line. So they only move the entries down. The document is read
as the one without comment and timestamp, and an error in it is the same one, so many lines further
down.
-/

namespace VersionedProperties.PropertiesText

/-- The logical lines of a document are those of its entries, moved down. -/
theorem logicalLines_encode_header (values : Mapping Text Text) (comment : Option Text)
    (timestamp : Option Timestamp) :
    logicalLines (encode values comment timestamp) = (logicalLines (encode values none none)).map
      (LogicalLine.renumbered (· + (headerLines comment timestamp).length)) := by
  have hcount : ∀ n, 1 ≤ n → n + 1 + (headerLines comment timestamp).length =
      n + (headerLines comment timestamp).length + 1 := fun n _ => Nat.add_right_comm n 1 _
  have hbare : (headerLines none none).length = 0 := rfl
  rw [logicalLines_encode, logicalLines_encode, hbare, ← joinLines_renumbered hcount]
  rfl

theorem decode_encode_eq_mapError (values : Mapping Text Text) (comment : Option Text)
    (timestamp : Option Timestamp) :
    decode (encode values comment timestamp) = (decode (encode values none none)).mapError
      (FormatError.renumbered (· + (headerLines comment timestamp).length)) := by
  rw [decode, logicalLines_encode_header, readEntries_renumbered]
  rfl

/-- With whatever comment and timestamp, a document is read as the same mapping as without, or both
are refused for the same fault, in the line of the same entry. -/
theorem decode_encode_header (values : Mapping Text Text) (comment : Option Text)
    (timestamp : Option Timestamp) :
    (∃ m, decode (encode values none none) = .ok m ∧
        decode (encode values comment timestamp) = .ok m) ∨
      ∃ fault number, decode (encode values none none) = .error ⟨fault, some number⟩ ∧
        decode (encode values comment timestamp) =
          .error ⟨fault, some (number + (headerLines comment timestamp).length)⟩ := by
  rw [decode_encode_eq_mapError values comment timestamp]
  cases h : decode (encode values none none) with
  | ok m => exact .inl ⟨m, rfl, rfl⟩
  | error e =>
      obtain ⟨fault, line⟩ := e
      obtain ⟨l, -, -, hline⟩ := exists_line_of_readEntries_error h
      dsimp only at hline
      rw [hline]
      exact .inr ⟨fault, l.number, rfl, rfl⟩

/-- A comment with entries, with a backslash at the end of a line and with line ends beyond ASCII
adds nothing and takes nothing away. -/
example : decode (encode (.ofList [("k", "v")]) (some "a=1\\\n  b=2\u2028c=3\x0cd \\") none) =
    .ok (.ofList [("k", "v")]) := by
  have hsorted : sortedEntries (.ofList [("k", "v")]) = [(("k" : Text), ("v" : Text))] :=
    List.mergeSort_singleton _
  rw [encode, hsorted]
  rfl

end VersionedProperties.PropertiesText
