import VersionedProperties.Document.Format
import VersionedProperties.Proofs.Document.JsonText

/-!
# Formats read back what they write

JSON keeps every mapping. Properties text keeps those without empty names and without line ends
beyond ASCII. What is kept is read back also through a reader that turns carriage returns into line
feeds, since none is written.
-/

namespace VersionedProperties

namespace PropertiesText

theorem entries_ofList_sortedEntries (values : Mapping Text Text) :
    (Mapping.ofList (sortedEntries values)).entries = sortedEntries values :=
  Mapping.entries_ofList
    (((sortedEntries_perm values).map Prod.fst).nodup_iff.2 values.nodup_keys)

theorem find?_ofList_sortedEntries (values : Mapping Text Text) (name : Text) :
    (Mapping.ofList (sortedEntries values)).find? name = values.find? name := by
  apply Mapping.find?_eq_of_perm
  rw [entries_ofList_sortedEntries]
  exact sortedEntries_perm values

theorem return_not_mem_encode {values : Mapping Text Text} (comment : Option Text)
    (timestamp : Option Timestamp)
    (h : ∀ e ∈ values.entries, ∀ c ∈ e.1 ++ e.2, c.isWideLineEnd = false) :
    CodePoint.scalar '\r' ∉ encode values comment timestamp := by
  have hlines : ∀ line ∈ headerLines comment timestamp ++ (sortedEntries values).map entryLine,
      Text.IsLine line := by
    rw [List.forall_mem_append]
    constructor
    · intro line hline
      obtain ⟨t, rfl, ht⟩ := mem_headerLines hline
      exact Text.isLine_cons.2 ⟨rfl, ht⟩
    · rw [List.forall_mem_map]
      intro e he
      rw [← render_entryCode]
      exact isLine_render (onLine_entryCode.2 (h e ((sortedEntries_perm values).mem_iff.1 he)))
  intro hmem
  have hencode : encode values comment timestamp = Text.joined "\n"
      (headerLines comment timestamp ++ (sortedEntries values).map entryLine) ++ "\n" := rfl
  rw [hencode, List.mem_append] at hmem
  rcases hmem with hmem | hmem
  · rcases Text.mem_joined hmem with hmem | ⟨line, hline, hmem⟩
    · exact absurd hmem (by decide)
    · exact absurd (hlines line hline _ hmem) (by decide)
  · exact absurd hmem (by decide)

end PropertiesText

namespace Format

/-- Whether a format reads a mapping back from what it writes of it. -/
def Keeps : Format → Mapping Text Text → Prop
  | .properties _, values =>
    ∀ e ∈ values.entries, e.1 ≠ [] ∧ ∀ c ∈ e.1 ++ e.2, c.isWideLineEnd = false
  | .json _, _ => True

variable {f : Format} {values : Mapping Text Text}

/-- A format that keeps a mapping keeps every part of it. -/
theorem Keeps.part (h : f.Keeps values) {part : Mapping Text Text}
    (hpart : ∀ name value, part.find? name = some value → values.find? name = some value) :
    f.Keeps part := by
  cases f with
  | properties timestamp =>
      intro e he
      exact h e (Mapping.find?_eq_some_iff.1 (hpart e.1 e.2 (Mapping.find?_eq_some_iff.2 he)))
  | json indent => trivial

theorem return_not_mem_encode (h : f.Keeps values) (now : Timestamp) (comment : Option Text) :
    CodePoint.scalar '\r' ∉ f.encode now values comment := by
  cases f with
  | properties timestamp =>
      exact PropertiesText.return_not_mem_encode comment _ fun e he => (h e he).2
  | json indent => exact Json.return_not_mem_encode values indent

/-- A text that a format has written is read as the mapping that it keeps. -/
theorem decode_encode (h : f.Keeps values) (now : Timestamp) (comment : Option Text) :
    ∃ m, f.decode (Text.withLineFeeds (f.encode now values comment)) = .ok m ∧
      ∀ name, m.find? name = values.find? name := by
  refine ⟨_, ?_, PropertiesText.find?_ofList_sortedEntries values⟩
  rw [Text.withLineFeeds_of_not_mem (return_not_mem_encode h now comment)]
  cases f with
  | properties timestamp =>
      have hread := PropertiesText.decode_encode comment (if timestamp then some now else none) h
      rw [decode, encode, hread]
      rfl
  | json indent => exact Json.decode_encode values indent

/-- JSON reads every mapping back as it was, the entries in the order of their names, whether or not
a reader turns carriage returns into line feeds: there are none in what is written. -/
theorem decode_encode_json (values : Mapping Text Text) (indent : Option Int) (now : Timestamp)
    (comment : Option Text) :
    CodePoint.scalar '\r' ∉ encode (.json indent) now values comment ∧
      ∃ m, m.entries.Perm values.entries ∧ (∀ name, m.find? name = values.find? name) ∧
        decode (.json indent) (encode (.json indent) now values comment) = .ok m ∧
        decode (.json indent) (Text.withLineFeeds (encode (.json indent) now values comment)) =
          .ok m := by
  have hnone : CodePoint.scalar '\r' ∉ encode (.json indent) now values comment :=
    Json.return_not_mem_encode values indent
  have hread : decode (.json indent) (encode (.json indent) now values comment) =
      .ok (.ofList (PropertiesText.sortedEntries values)) := Json.decode_encode values indent
  refine ⟨hnone, .ofList (PropertiesText.sortedEntries values), ?_,
    PropertiesText.find?_ofList_sortedEntries values, hread, ?_⟩
  · rw [PropertiesText.entries_ofList_sortedEntries]
    exact PropertiesText.sortedEntries_perm values
  · rw [Text.withLineFeeds_of_not_mem hnone, hread]

end Format

end VersionedProperties
