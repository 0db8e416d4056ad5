import VersionedProperties.Reference.Dependency

/-!
# The names that a text depends on

The walk over dependencies ends in a set of names that holds every name it began with and, with each
name, every name that its value refers to. The walk that looks for one name finds it exactly if the
full walk meets it.
-/

namespace VersionedProperties

/-- Names that hold, with each of them, the names that its value refers to. -/
def Source.IsClosed (s : Source) (names : List Text) : Prop :=
  ∀ n ∈ names, ∀ m ∈ s.namesOf n, m ∈ names

theorem mem_referredNames_reference {n : Text} {p : Placeholder} {rest : List Piece} :
    n ∈ referredNames (.reference p :: rest) ↔
      n = p.name ∨ (∃ fallback, p.fallback = some fallback ∧ n ∈ namesIn fallback) ∨
        n ∈ referredNames rest := by
  rw [referredNames]
  cases hf : p.fallback with
  | none => simp
  | some fallback => simp [namesIn]

theorem referredNames_literal (c : CodePoint) (rest : List Piece) :
    referredNames (.literal c :: rest) = referredNames rest := by
  rw [referredNames]

theorem referredNames_doubled (rest : List Piece) :
    referredNames (.doubled :: rest) = referredNames rest := by
  rw [referredNames]

namespace Source

theorem namesOf_of_lookup {s : Source} {name value : Text} (h : s.lookup name = some value) :
    s.namesOf name = namesIn value := by
  rw [namesOf, h]

theorem mem_reach_of_mem_seen (s : Source) {n : Text} {seen : List Text} (hn : n ∈ seen)
    (pending : List Text) : n ∈ s.reach seen pending := by
  fun_induction reach s seen pending with
  | case1 => exact hn
  | case2 seen name pending hs ih => exact ih hn
  | case3 seen name pending hs ih => exact ih (List.mem_cons_of_mem name hn)

theorem mem_reach_of_mem_pending (s : Source) {n : Text} (seen : List Text) {pending : List Text}
    (hn : n ∈ pending) : n ∈ s.reach seen pending := by
  fun_induction reach s seen pending with
  | case1 => cases hn
  | case2 seen name pending hs ih =>
      rcases List.mem_cons.1 hn with rfl | hrest
      · exact s.mem_reach_of_mem_seen hs pending
      · exact ih hrest
  | case3 seen name pending hs ih =>
      rcases List.mem_cons.1 hn with rfl | hrest
      · exact s.mem_reach_of_mem_seen List.mem_cons_self _
      · exact ih (List.mem_append_right _ hrest)

/-- What the walk keeps: the names that seen values refer to are seen or to be visited. -/
theorem isClosed_reach (s : Source) {seen pending : List Text}
    (h : ∀ n ∈ seen, ∀ m ∈ s.namesOf n, m ∈ seen ∨ m ∈ pending) :
    s.IsClosed (s.reach seen pending) := by
  fun_induction reach s seen pending with
  | case1 seen =>
      intro n hn m hm
      exact (h n hn m hm).resolve_right List.not_mem_nil
  | case2 seen name pending hs ih =>
      apply ih
      intro n hn m hm
      rcases h n hn m hm with hseen | hpending
      · exact .inl hseen
      · rcases List.mem_cons.1 hpending with rfl | hrest
        · exact .inl hs
        · exact .inr hrest
  | case3 seen name pending hs ih =>
      apply ih
      intro n hn m hm
      rcases List.mem_cons.1 hn with rfl | hold
      · exact .inr (List.mem_append_left _ hm)
      · rcases h n hold m hm with hseen | hpending
        · exact .inl (List.mem_cons_of_mem name hseen)
        · rcases List.mem_cons.1 hpending with rfl | hrest
          · exact .inl List.mem_cons_self
          · exact .inr (List.mem_append_right _ hrest)

theorem mem_dependencies_of_mem_namesIn (s : Source) {raw n : Text} (hn : n ∈ namesIn raw) :
    n ∈ s.dependencies raw :=
  s.mem_reach_of_mem_pending [] hn

theorem isClosed_dependencies (s : Source) (raw : Text) : s.IsClosed (s.dependencies raw) := by
  apply s.isClosed_reach
  intro n hn
  cases hn

theorem reaches_iff (s : Source) {target : Text} {seen : List Text} (ht : target ∉ seen)
    (pending : List Text) :
    s.reaches target seen pending = true ↔ target ∈ s.reach seen pending := by
  fun_induction reach s seen pending with
  | case1 seen => simp [reaches, ht]
  | case2 seen name pending hs ih =>
      have hne : name ≠ target := by
        rintro rfl
        exact ht hs
      rw [reaches, if_neg hne, if_pos hs]
      exact ih ht
  | case3 seen name pending hs ih =>
      by_cases he : name = target
      · subst he
        rw [reaches, if_pos rfl]
        exact iff_of_true rfl (s.mem_reach_of_mem_seen List.mem_cons_self _)
      · rw [reaches, if_neg he, if_neg hs]
        apply ih
        intro hmem
        rcases List.mem_cons.1 hmem with rfl | hold
        · exact he rfl
        · exact ht hold

theorem dependsOn_iff (s : Source) (raw target : Text) :
    s.dependsOn raw target = true ↔ target ∈ s.dependencies raw :=
  s.reaches_iff List.not_mem_nil (namesIn raw)

end Source

end VersionedProperties
