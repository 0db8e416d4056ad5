import Mathlib.Data.List.DropRight
import VersionedProperties.Text.Blank

/-!
# Trimming

Trimming leaves a text without blanks as it is, and so it does with a text that has been trimmed.
-/

namespace VersionedProperties.Text

theorem isPrefix_dropTrailing (p : CodePoint → Bool) (t : Text) : dropTrailing p t <+: t :=
  List.rdropWhile_prefix p t

theorem mem_of_mem_trim {t : Text} {c : CodePoint} (hc : c ∈ trim t) : c ∈ t :=
  (List.dropWhile_sublist _).mem ((isPrefix_dropTrailing _ _).subset hc)

/-- A text without blanks is trimmed. -/
theorem trim_eq_self {t : Text} (ht : ∀ c ∈ t, c.isBlank = false) : trim t = t := by
  have hleading : ∀ u : Text, (∀ c ∈ u, c.isBlank = false) → dropLeading CodePoint.isBlank u = u := by
    intro u hu
    cases u with
    | nil => rfl
    | cons c u =>
        exact List.dropWhile_cons_of_neg (Bool.eq_false_iff.1 (hu c List.mem_cons_self))
  have hreverse : ∀ c ∈ t.reverse, c.isBlank = false :=
    fun c hc => ht c (List.mem_reverse.1 hc)
  have htrailing : dropLeading CodePoint.isBlank t.reverse = t.reverse := hleading _ hreverse
  rw [trim, hleading t ht, dropTrailing]
  exact (congrArg List.reverse htrailing).trans t.reverse_reverse

/-- Nothing is left out in front of a beginning of what is left of a text. -/
theorem dropLeading_of_prefix {p : CodePoint → Bool} {s t : Text} (hs : s <+: dropLeading p t) :
    dropLeading p s = s := by
  cases s with
  | nil => rfl
  | cons c s =>
      obtain ⟨rest, hrest⟩ := hs
      have hc : ¬ p c = true := by
        have hhead := List.head?_dropWhile_not p t
        rw [dropLeading] at hrest
        rw [← hrest] at hhead
        exact Bool.eq_false_iff.1 hhead
      exact List.dropWhile_cons_of_neg hc

theorem trim_trim (t : Text) : trim (trim t) = trim t := by
  have hleading : dropLeading CodePoint.isBlank (trim t) = trim t :=
    dropLeading_of_prefix (isPrefix_dropTrailing _ _)
  rw [trim, hleading, trim]
  exact List.rdropWhile_idempotent _ _

end VersionedProperties.Text
