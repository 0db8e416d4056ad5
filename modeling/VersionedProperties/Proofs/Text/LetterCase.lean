import VersionedProperties.Proofs.Text.Blank
import VersionedProperties.Text.LetterCase

/-!
# Lower case and back

The tables of letter case send no code point to one below the small letters, so every mark that is
in a text in lower case has been in the text itself. The words of capital ASCII letters, digits and
underscores are those that names are usually made of. In lower case they have no blanks, and in
upper case again they are what they were.
-/

namespace VersionedProperties

/-- Runs whose images are characters from a number on. -/
def CaseRun.isAbove (least : Nat) (run : CaseRun) : Bool :=
  least ≤ run.target &&
    (run.target + (run.last - run.first) < 0xD800 ||
      (0xE000 ≤ run.target && run.target + (run.last - run.first) < 0x110000))

theorem CaseRun.image_of_isAbove {least n : Nat} {run : CaseRun} (hrun : run.isAbove least = true)
    (hn : run.has n = true) : least ≤ run.image n ∧ (run.image n).isValidChar := by
  simp only [isAbove, Bool.and_eq_true, Bool.or_eq_true, decide_eq_true_eq] at hrun
  simp only [has, Bool.and_eq_true, decide_eq_true_eq] at hn
  rw [image, Nat.isValidChar]
  omega

theorem lowerRuns_isAbove : ∀ run ∈ lowerRuns, run.isAbove 0x61 = true := by decide +kernel

theorem lowerSpecial_isAbove :
    ∀ e ∈ lowerSpecial, ∀ n ∈ e.2, 0x61 ≤ n ∧ n.isValidChar := by decide

namespace CodePoint

theorem toNat_ofNat {n : Nat} (hn : n.isValidChar) : (scalar (Char.ofNat n)).toNat = n := by
  rw [toNat_scalar, Char.ofNat, dif_pos hn]
  rfl

/-- The numbers that a case mapping makes of another are its own, or those of the tables. -/
theorem mem_mapCase {runs : List CaseRun} {special : List (Nat × List Nat)} {n m : Nat}
    (hm : m ∈ mapCase runs special n) :
    m = n ∨ (∃ e ∈ special, m ∈ e.2) ∨ ∃ run ∈ runs, run.has n = true ∧ m = run.image n := by
  unfold mapCase at hm
  split at hm
  · rename_i image hspecial
    obtain ⟨before, after, rfl, -⟩ := List.lookup_eq_some_iff.1 hspecial
    exact .inr (.inl ⟨(n, image), List.mem_append_right _ List.mem_cons_self, hm⟩)
  · split at hm
    · rename_i run hrun
      have hhas : run.has n = true := by simpa using List.find?_some hrun
      exact .inr (.inr ⟨run, List.mem_of_find?_eq_some hrun, hhas, List.mem_singleton.1 hm⟩)
    · exact .inl (List.mem_singleton.1 hm)

/-- A code point in lower case is the code point itself, or a small letter or one above. -/
theorem mem_lower {c d : CodePoint} (hd : d ∈ c.lower) : d = c ∨ 0x61 ≤ d.toNat := by
  cases c with
  | surrogate u => exact .inl (List.mem_singleton.1 hd)
  | scalar c =>
      obtain ⟨n, hn, rfl⟩ := List.mem_map.1 hd
      rcases mem_mapCase hn with rfl | ⟨e, he, hspecial⟩ | ⟨run, hrun, hhas, rfl⟩
      · exact .inl (by rw [Char.ofNat_toNat])
      · obtain ⟨hleast, hvalid⟩ := lowerSpecial_isAbove e he n hspecial
        exact .inr (by rwa [toNat_ofNat hvalid])
      · obtain ⟨hleast, hvalid⟩ := CaseRun.image_of_isAbove (lowerRuns_isAbove run hrun) hhas
        exact .inr (by rwa [toNat_ofNat hvalid])

/-- Capital ASCII letters, ASCII digits and the underscore. -/
def isNameChar (c : CodePoint) : Bool :=
  (0x41 ≤ c.toNat && c.toNat ≤ 0x5a) || (0x30 ≤ c.toNat && c.toNat ≤ 0x39) || c.toNat = 0x5f

/-- What holds of all ASCII characters among those of names holds of all characters of names. -/
theorem forall_isNameChar {P : CodePoint → Prop}
    (h : ∀ n : Fin 0x80, isNameChar (.scalar (Char.ofNat n)) = true → P (.scalar (Char.ofNat n)))
    {c : CodePoint} (hc : c.isNameChar = true) : P c := by
  have hsmall : c.toNat < 0x80 := by
    simp only [isNameChar, Bool.or_eq_true, Bool.and_eq_true, decide_eq_true_eq] at hc
    omega
  cases c with
  | surrogate u =>
      rw [toNat_surrogate] at hsmall
      omega
  | scalar c =>
      have hn := h ⟨c.toNat, hsmall⟩
      rw [Char.ofNat_toNat] at hn
      exact hn hc

theorem upper_lower_of_isNameChar {c : CodePoint} (hc : c.isNameChar = true) :
    Text.upper c.lower = [c] :=
  forall_isNameChar (P := fun c => Text.upper c.lower = [c]) (by decide +kernel) hc

theorem isBlank_lower_of_isNameChar {c : CodePoint} (hc : c.isNameChar = true) :
    ∀ d ∈ c.lower, d.isBlank = false :=
  forall_isNameChar (P := fun c => ∀ d ∈ c.lower, d.isBlank = false) (by decide +kernel) hc

end CodePoint

namespace Text

theorem mem_lowerAfter {before t : Text} {d : CodePoint} (hd : d ∈ lowerAfter before t) :
    d ∈ t ∨ 0x61 ≤ d.toNat := by
  induction t generalizing before with
  | nil => exact .inl hd
  | cons c t ih =>
      rw [lowerAfter] at hd
      rcases List.mem_append.1 hd with hd | hd
      · split at hd
        · right
          obtain rfl := List.mem_singleton.1 hd
          split <;> decide
        · rcases CodePoint.mem_lower hd with rfl | hletter
          · exact .inl List.mem_cons_self
          · exact .inr hletter
      · exact (ih hd).imp (List.mem_cons_of_mem c) id

/-- A code point below the small letters is in a text in lower case only if it is in the text. -/
theorem mem_of_mem_lower {t : Text} {d : CodePoint} (hd : d ∈ lower t) (hsmall : d.toNat < 0x61) :
    d ∈ t :=
  (mem_lowerAfter hd).resolve_right (Nat.not_le.2 hsmall)

/-- Words of capital ASCII letters, digits and underscores. -/
def IsNameWord (t : Text) : Prop := ∀ c ∈ t, c.isNameChar = true

instance : DecidablePred IsNameWord :=
  fun t => inferInstanceAs (Decidable (∀ c ∈ t, c.isNameChar = true))

/-- No letter of a word depends on what is around it. -/
theorem lowerAfter_of_isNameWord {t : Text} (ht : t.IsNameWord) (before : Text) :
    lowerAfter before t = t.flatMap CodePoint.lower := by
  induction t generalizing before with
  | nil => rfl
  | cons c t ih =>
      rw [IsNameWord, List.forall_mem_cons] at ht
      have hsigma : c ≠ .scalar 'Σ' := by
        rintro rfl
        exact absurd ht.1 (by decide)
      rw [lowerAfter, if_neg hsigma, ih ht.2, List.flatMap_cons]

theorem upper_lower_of_isNameWord {t : Text} (ht : t.IsNameWord) : upper (lower t) = t := by
  rw [lower, lowerAfter_of_isNameWord ht]
  induction t with
  | nil => rfl
  | cons c t ih =>
      rw [IsNameWord, List.forall_mem_cons] at ht
      rw [List.flatMap_cons, upper_append, CodePoint.upper_lower_of_isNameChar ht.1, ih ht.2]
      rfl

theorem trim_lower_of_isNameWord {t : Text} (ht : t.IsNameWord) : trim (lower t) = lower t := by
  apply trim_eq_self
  rw [lower, lowerAfter_of_isNameWord ht]
  intro d hd
  obtain ⟨c, hc, hd⟩ := List.mem_flatMap.1 hd
  exact CodePoint.isBlank_lower_of_isNameChar (ht c hc) d hd

end Text

end VersionedProperties
