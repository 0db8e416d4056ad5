import Mathlib.Data.List.Nodup
import VersionedProperties.Key.NameUse
import VersionedProperties.Key.Naming
import VersionedProperties.Proofs.Mapping
import VersionedProperties.Proofs.Text.LetterCase
import VersionedProperties.Proofs.Text.Replacement

/-!
# Keys and names lead to each other

A key that is a word of capital letters, digits and underscores has a name that leads back to it,
whatever the separator is, as long as it is not empty, has neither letter nor digit, and has no
letter case. So keys have names of their own, and so have their defaults.
-/

namespace VersionedProperties

open NameUse (underscore)

namespace CodePoint

/-- ASCII letters and ASCII digits. -/
def isAlphanumeric (c : CodePoint) : Bool :=
  (0x41 ≤ c.toNat && c.toNat ≤ 0x5a) || (0x61 ≤ c.toNat && c.toNat ≤ 0x7a) ||
    (0x30 ≤ c.toNat && c.toNat ≤ 0x39)

theorem isAlphanumeric_of_isNameChar {c : CodePoint} (hc : c.isNameChar = true)
    (hmark : c ≠ underscore) : c.isAlphanumeric = true := by
  have hname : c ≠ underscore → c.isAlphanumeric = true :=
    forall_isNameChar (P := fun c => c ≠ underscore → c.isAlphanumeric = true)
      (by decide +kernel) hc
  exact hname hmark

theorem underscore_not_mem_lower {c : CodePoint} (hc : c.isNameChar = true)
    (hmark : c ≠ underscore) : underscore ∉ c.lower := by
  have hname : c ≠ underscore → underscore ∉ c.lower :=
    forall_isNameChar (P := fun c => c ≠ underscore → underscore ∉ c.lower) (by decide +kernel) hc
  exact hname hmark

end CodePoint

namespace Text

/-- Texts that can stand between the words of a name. -/
structure IsSeparator (separator : Text) : Prop where
  nonempty : separator ≠ []
  apart : ∀ c ∈ separator, c.isAlphanumeric = false
  upper : Text.upper separator = separator

theorem isSeparator_point : IsSeparator "." where
  nonempty := List.cons_ne_nil _ _
  apart := by decide
  upper := by decide +kernel

/-- A word in lower case with separators, in upper case again. -/
theorem upper_withMark_lower {separator t : Text} (hs : Text.upper separator = separator)
    (ht : t.IsNameWord) : Text.upper (withMark underscore separator (lower t)) =
      withMark underscore separator t := by
  rw [lower, lowerAfter_of_isNameWord ht]
  induction t with
  | nil => rfl
  | cons c t ih =>
      rw [IsNameWord, List.forall_mem_cons] at ht
      rw [List.flatMap_cons, withMark_append, upper_append, ih ht.2]
      by_cases hc : c = underscore
      · subst hc
        have hlower : CodePoint.lower underscore = [underscore] := by decide +kernel
        rw [hlower, withMark_cons_self, withMark_cons_self, upper_append, hs]
        exact congrArg (· ++ _) (List.append_nil _)
      · rw [withMark_of_not_mem (CodePoint.underscore_not_mem_lower ht.1 hc),
          CodePoint.upper_lower_of_isNameChar ht.1, withMark_cons hc, List.singleton_append]

end Text

namespace Naming

variable {n : Naming} {k l : Key}

theorem nameOf_eq (n : Naming) (k : Key) :
    n.nameOf k = Text.withMark underscore n.separator (Text.lower k) :=
  Text.replace_mark _ _ _

/-- What is made of a name to find its key. -/
def candidate (n : Naming) (name : Text) : Key := Text.replace n.separator "_" (Text.upper name)

theorem keyOf_eq_ok_iff {name : Text} :
    n.keyOf name = .ok k ↔ n.candidate name = k ∧ k ∈ n.type.keys := by
  change (if n.candidate name ∈ n.type.keys then _ else _) = _ ↔ _
  split
  · rename_i hmem
    constructor
    · intro h
      cases h
      exact ⟨rfl, hmem⟩
    · rintro ⟨rfl, -⟩
      rfl
  · rename_i hmem
    constructor
    · exact fun h => nomatch h
    · rintro ⟨rfl, hk⟩
      exact absurd hk hmem

section Words

variable (hs : n.separator.IsSeparator)

include hs

theorem candidate_nameOf (hk : k.IsNameWord) : n.candidate (n.nameOf k) = k := by
  rw [candidate, nameOf_eq, Text.upper_withMark_lower hs.upper hk]
  cases hsep : n.separator with
  | nil => exact absurd hsep hs.nonempty
  | cons a rest =>
      apply Text.replace_withMark
      rintro c hc hmark rfl
      have hapart := hs.apart c (hsep ▸ List.mem_cons_self)
      rw [CodePoint.isAlphanumeric_of_isNameChar (hk c hc) hmark] at hapart
      cases hapart

/-- The name of a key leads back to it. -/
theorem keyOf_nameOf (hk : k.IsNameWord) (hmem : k ∈ n.type.keys) :
    n.keyOf (n.nameOf k) = .ok k :=
  keyOf_eq_ok_iff.2 ⟨candidate_nameOf hs hk, hmem⟩

theorem nameOf_inj (hk : k.IsNameWord) (hl : l.IsNameWord) (h : n.nameOf k = n.nameOf l) :
    k = l := by
  rw [← candidate_nameOf hs hk, h, candidate_nameOf hs hl]

/-- Different keys have different names. -/
theorem nodup_names (hwords : ∀ k ∈ n.type.keys, k.IsNameWord) (hkeys : n.type.keys.Nodup) :
    (n.type.keys.map n.nameOf).Nodup :=
  hkeys.map_on fun k hk l hl => nameOf_inj hs (hwords k hk) (hwords l hl)

/-- The defaults of the keys that have one, in the order of the keys. -/
theorem entries_defaults (hwords : ∀ k ∈ n.type.keys, k.IsNameWord)
    (hkeys : n.type.keys.Nodup) :
    n.defaults.entries = n.type.members.filterMap fun m => m.2.map (n.nameOf m.1, ·) := by
  apply Mapping.entries_ofList
  have hsublist := Mapping.keys_filterMap_sublist (fun _ value => value)
    (n.type.members.map fun m => (n.nameOf m.1, m.2))
  have hnames : (n.type.members.map fun m => (n.nameOf m.1, m.2)).map Prod.fst =
      n.type.keys.map n.nameOf := by
    rw [KeyType.keys, List.map_map, List.map_map]
    rfl
  rw [hnames, List.filterMap_map] at hsublist
  exact (nodup_names hs hwords hkeys).sublist hsublist

end Words

end Naming

end VersionedProperties
