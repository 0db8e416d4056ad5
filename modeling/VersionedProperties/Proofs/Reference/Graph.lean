import Mathlib.Logic.Relation
import VersionedProperties.Proofs.Reference.Closure

/-!
# Dependence as paths

A text depends on a name if references lead to it: from a name in the text to a name in its value,
and so on. The walk over dependencies finds just the names at the end of such paths. A path that
ends at its first visit to a name looks at no value of this name, so the value of a name is of no
account for what depends on it.
-/

namespace VersionedProperties.Source

/-- The value of the first name refers to the second. -/
def Refers (s : Source) (n m : Text) : Prop := m ∈ s.namesOf n

/-- References lead from a text to a name. -/
def Leads (s : Source) (raw target : Text) : Prop :=
  ∃ n ∈ namesIn raw, Relation.ReflTransGen s.Refers n target

theorem path_of_mem_reach (s : Source) {target : Text} {seen pending : List Text}
    (h : target ∈ s.reach seen pending) :
    target ∈ seen ∨ ∃ n ∈ pending, Relation.ReflTransGen s.Refers n target := by
  fun_induction reach s seen pending with
  | case1 seen => exact .inl h
  | case2 seen name pending hs ih =>
      rcases ih h with hseen | ⟨n, hn, hpath⟩
      · exact .inl hseen
      · exact .inr ⟨n, List.mem_cons_of_mem name hn, hpath⟩
  | case3 seen name pending hs ih =>
      rcases ih h with hseen | ⟨n, hn, hpath⟩
      · rcases List.mem_cons.1 hseen with rfl | hseen
        · exact .inr ⟨target, List.mem_cons_self, .refl⟩
        · exact .inl hseen
      · rcases List.mem_append.1 hn with hn | hn
        · exact .inr ⟨name, List.mem_cons_self, .head hn hpath⟩
        · exact .inr ⟨n, List.mem_cons_of_mem name hn, hpath⟩

theorem IsClosed.mem_of_path {s : Source} {names : List Text} (hclosed : s.IsClosed names)
    {n target : Text} (hn : n ∈ names) (hpath : Relation.ReflTransGen s.Refers n target) :
    target ∈ names := by
  induction hpath with
  | refl => exact hn
  | tail _ hlast ih => exact hclosed _ ih _ hlast

theorem dependsOn_iff_leads (s : Source) (raw target : Text) :
    s.dependsOn raw target = true ↔ s.Leads raw target := by
  rw [dependsOn_iff]
  constructor
  · intro h
    exact (s.path_of_mem_reach h).resolve_left List.not_mem_nil
  · rintro ⟨n, hn, hpath⟩
    exact (s.isClosed_dependencies raw).mem_of_path (s.mem_dependencies_of_mem_namesIn hn) hpath

theorem path_congr {s t : Source} {target : Text}
    (hagree : ∀ n, n ≠ target → t.lookup n = s.lookup n) {n : Text}
    (hpath : Relation.ReflTransGen s.Refers n target) :
    Relation.ReflTransGen t.Refers n target := by
  induction hpath using Relation.ReflTransGen.head_induction_on with
  | refl => exact .refl
  | @head n m hfirst _ ih =>
      by_cases hn : n = target
      · rw [hn]
      · have hnames : t.namesOf n = s.namesOf n := by rw [namesOf, namesOf, hagree n hn]
        have hrefers : t.Refers n m := by rwa [Refers, hnames]
        exact .head hrefers ih

/-- What depends on a name is told by the values of the other names. -/
theorem leads_congr {s t : Source} {target : Text}
    (hagree : ∀ n, n ≠ target → t.lookup n = s.lookup n) {raw : Text} (h : s.Leads raw target) :
    t.Leads raw target := by
  obtain ⟨n, hn, hpath⟩ := h
  exact ⟨n, hn, path_congr hagree hpath⟩

end VersionedProperties.Source
