import VersionedProperties.Document.Format
import VersionedProperties.Proofs.Document.JsonExpected

/-!
# What decoding reports

Decoding a text gives a mapping or tells what is wrong with the text. One document is refused
otherwise: JSON with an integer of more digits than can be read.
-/

namespace VersionedProperties

namespace Json

variable {t : Text}

theorem not_isBlank_of_isDigit {d : CodePoint} (hd : isDigit d = true) :
    CodePoint.isBlank d = false := by
  have hranges : ∀ n : Fin 0x3a, 0x30 ≤ n.val → blankRanges.has n.val = false := by decide
  rw [isDigit, Bool.and_eq_true, decide_eq_true_eq, decide_eq_true_eq] at hd
  exact hranges ⟨d.toNat, by omega⟩ hd.1

theorem HasTooLongInteger.not_isBlank (h : HasTooLongInteger t) : Text.isBlank t = false := by
  obtain ⟨before, after, rfl, hafter, -⟩ := h
  obtain ⟨sign, d, u, -, hd, rfl⟩ := hafter.exists_isDigit
  rw [Text.isBlank, List.all_eq_false]
  refine ⟨d, by simp, ?_⟩
  rw [not_isBlank_of_isDigit hd]
  exact Bool.false_ne_true

theorem decode_of_hasTooLongInteger (h : HasTooLongInteger t) :
    ∃ n, decode t = .error (.numeral (.tooManyDigits n)) := by
  obtain ⟨n, hread⟩ := h.read
  refine ⟨n, ?_⟩
  rw [decode, h.not_isBlank, hread]
  rfl

theorem lt_openings_of_tooNested {c : Container} (h : read t = .error (.tooNested c)) :
    maxNesting < openings t := by
  rw [read] at h
  split at h
  case isTrue => cases h
  case isFalse =>
    cases hread : readValue (2 * t.length + 1) maxNesting (skipBlanks t) with
    | error e =>
        rw [hread] at h
        obtain rfl := Except.error.inj h
        have hopened := (nestsWithin_read _).1 maxNesting hread
        obtain ⟨gap, -, ht⟩ := exists_gap t
        rw [ht, openings_append]
        omega
    | ok r =>
        rw [hread] at h
        dsimp only at h
        split at h <;> cases h

/-- A document is read, or has a fault, or nests too deeply, or holds an integer of too many
digits. -/
theorem decode_cases (t : Text) : (∃ values, decode t = .ok values) ∨
    (∃ e, decode t = .error (.format e)) ∨
    (∃ c, decode t = .error (.tooNested c) ∧ maxNesting < openings t) ∨
    HasTooLongInteger t := by
  rw [decode]
  split
  case isTrue => exact .inl ⟨_, rfl⟩
  case isFalse =>
    split
    case h_1 fault place _ => exact .inr (.inl ⟨_, rfl⟩)
    case h_2 n hread => exact .inr (.inr (.inr (hasTooLongInteger_of_read hread)))
    case h_3 c hread =>
      exact .inr (.inr (.inl ⟨c, rfl, lt_openings_of_tooNested hread⟩))
    case h_4 members _ =>
      cases scalarEntries members with
      | error fault => exact .inr (.inl ⟨_, rfl⟩)
      | ok entries => exact .inl ⟨_, rfl⟩
    case h_5 => exact .inr (.inl ⟨_, rfl⟩)

end Json

namespace Format

/-- Decoding gives a mapping or reports what is wrong with the text, up to the depth to which arrays
and objects may nest. The one exception is a JSON document with an integer of more digits than can
be read, whose error tells of no fault in the document. -/
theorem decode_reports_iff (f : Format) (t : Text) :
    ((∃ values, f.decode t = .ok values) ∨ (∃ e, f.decode t = .error (.format e)) ∨
        ∃ c, f.decode t = .error (.tooNested c) ∧ Json.maxNesting < Json.openings t) ↔
      ¬ ((∃ indent, f = .json indent) ∧ Json.HasTooLongInteger t) := by
  cases f with
  | properties timestamp =>
      refine iff_of_true ?_ ?_
      · rw [decode]
        cases PropertiesText.decode t with
        | ok values => exact .inl ⟨values, rfl⟩
        | error e => exact .inr (.inl ⟨e, rfl⟩)
      · rintro ⟨⟨indent, h⟩, -⟩
        cases h
  | json indent =>
      rw [decode]
      constructor
      · rintro h ⟨-, hlong⟩
        obtain ⟨n, hdecode⟩ := Json.decode_of_hasTooLongInteger hlong
        rw [hdecode] at h
        rcases h with ⟨values, h⟩ | ⟨e, h⟩ | ⟨c, h, -⟩ <;> cases h
      · intro h
        rcases Json.decode_cases t with hok | hfault | hnested | hlong
        · exact .inl hok
        · exact .inr (.inl hfault)
        · exact .inr (.inr hnested)
        · exact absurd ⟨⟨indent, rfl⟩, hlong⟩ h

/-- An object with one member, an integer of one digit more than can be read. -/
def longMember : Text :=
  ("\x7b\"a\": " : Text) ++ (List.replicate 4301 (.scalar '1') ++ [.scalar '\x7d'])

theorem hasTooLongInteger_longMember : Json.HasTooLongInteger longMember := by
  have hends : ¬ Json.NumberGoesOn [.scalar '\x7d'] :=
    Json.not_numberGoesOn_iff.2 ⟨fun d hd => by obtain rfl := Option.some_inj.1 hd; rfl, rfl, rfl⟩
  refine ⟨_, _, rfl, ⟨[], List.replicate 4301 (.scalar '1'), _, .inl rfl, ?_, ?_, ?_, hends, rfl⟩,
    rfl⟩
  · intro d hd
    rw [List.eq_of_mem_replicate hd]
    rfl
  · rw [List.head?_replicate]
    decide
  · rw [List.length_replicate]
    decide

/-- A document that is refused although no fault in it is told. -/
theorem not_reports_decode_longMember :
    ¬ ((∃ values, decode (.json (some 2)) longMember = .ok values) ∨
      (∃ e, decode (.json (some 2)) longMember = .error (.format e)) ∨
      ∃ c, decode (.json (some 2)) longMember = .error (.tooNested c)) := by
  intro h
  obtain ⟨n, hdecode⟩ := Json.decode_of_hasTooLongInteger hasTooLongInteger_longMember
  have hjson : decode (.json (some 2)) longMember = .error (.numeral (.tooManyDigits n)) := hdecode
  rw [hjson] at h
  rcases h with ⟨values, h⟩ | ⟨e, h⟩ | ⟨c, h⟩ <;> cases h

end Format

end VersionedProperties
