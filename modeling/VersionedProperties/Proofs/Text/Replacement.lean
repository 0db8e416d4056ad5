import VersionedProperties.Text.Basic

/-!
# A mark replaced by a text and back

Where a mark is replaced by a text, every other code point stays. Replacing goes from the left and
takes what it finds at once, so the text is turned into the mark again where it has been put, and
nowhere else, if it does not begin with a code point that stayed. Marks may stand side by side, and
the text may hold the mark.
-/

namespace VersionedProperties.Text

variable {a mark : CodePoint} {old new : Text}

theorem replaceFrom_nil : replaceFrom a old new [] = [] := by
  rw [replaceFrom]

/-- An occurrence at the beginning is replaced. -/
theorem replaceFrom_append (t : Text) :
    replaceFrom a old new (a :: (old ++ t)) = new ++ replaceFrom a old new t := by
  have hfound : after? (a :: old) (a :: (old ++ t)) = some t := after?_eq_some_iff.2 rfl
  rw [replaceFrom]
  split
  · rename_i rest hrest
    rw [hfound] at hrest
    cases hrest
    rfl
  · rename_i hnone
    rw [hfound] at hnone
    cases hnone

/-- A code point with which no occurrence begins stays. -/
theorem replaceFrom_cons {c : CodePoint} (hc : c ≠ a) (t : Text) :
    replaceFrom a old new (c :: t) = c :: replaceFrom a old new t := by
  have hnone : after? (a :: old) (c :: t) = none := if_neg (Ne.symm hc)
  rw [replaceFrom]
  split
  · rename_i hrest
    rw [hnone] at hrest
    cases hrest
  · rfl

/-- A text with another text in place of each mark. -/
def withMark (mark : CodePoint) (new t : Text) : Text :=
  t.flatMap fun c => if c = mark then new else [c]

theorem withMark_cons_self (new t : Text) :
    withMark mark new (mark :: t) = new ++ withMark mark new t := by
  rw [withMark, List.flatMap_cons, if_pos rfl, withMark]

theorem withMark_cons {c : CodePoint} (hc : c ≠ mark) (new t : Text) :
    withMark mark new (c :: t) = c :: withMark mark new t := by
  rw [withMark, List.flatMap_cons, if_neg hc, withMark, List.singleton_append]

theorem withMark_append (new s t : Text) :
    withMark mark new (s ++ t) = withMark mark new s ++ withMark mark new t :=
  List.flatMap_append

theorem withMark_of_not_mem {t : Text} (ht : mark ∉ t) (new : Text) : withMark mark new t = t := by
  induction t with
  | nil => rfl
  | cons c t ih =>
      rw [List.mem_cons, not_or] at ht
      rw [withMark_cons (Ne.symm ht.1), ih ht.2]

theorem replace_mark (mark : CodePoint) (new t : Text) :
    replace [mark] new t = withMark mark new t := by
  have hfrom : replaceFrom mark [] new t = withMark mark new t := by
    induction t with
    | nil => exact replaceFrom_nil
    | cons c t ih =>
        by_cases hc : c = mark
        · subst hc
          have hfirst : replaceFrom c [] new (c :: t) = new ++ replaceFrom c [] new t :=
            replaceFrom_append t
          rw [hfirst, ih, withMark_cons_self]
        · rw [replaceFrom_cons hc, ih, withMark_cons hc]
  exact hfrom

/-- A text that has been put in place of a mark is replaced by the mark again. -/
theorem replace_withMark {t : Text} (ht : ∀ c ∈ t, c ≠ mark → c ≠ a) :
    replace (a :: old) [mark] (withMark mark (a :: old) t) = t := by
  have hfrom : replaceFrom a old [mark] (withMark mark (a :: old) t) = t := by
    induction t with
    | nil => exact replaceFrom_nil
    | cons c t ih =>
        rw [List.forall_mem_cons] at ht
        by_cases hc : c = mark
        · subst hc
          rw [withMark_cons_self, List.cons_append, replaceFrom_append, ih ht.2,
            List.singleton_append]
        · rw [withMark_cons hc, replaceFrom_cons (ht.1 hc), ih ht.2]
  exact hfrom

end VersionedProperties.Text
