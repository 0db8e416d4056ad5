import VersionedProperties.Mapping
import VersionedProperties.Reference.Scan

/-!
# Dependencies between properties

A text depends on the names it refers to, fallbacks included, and on everything that their values
depend on. The names are found by a walk that keeps the names seen and those still to be visited.
`dependencies` walks to the end, `dependsOn` stops at the name it looks for.

Only finitely many names have a value, and a `Source` lists them: each visit either meets a listed
name for the first time or leaves fewer names to be visited.
-/

namespace VersionedProperties

/-- Values by name, with a list that contains every name that has one. -/
structure Source where
  lookup : Text → Option Text
  known : List Text
  known_of_lookup : ∀ {name value : Text}, lookup name = some value → name ∈ known

namespace Source

/-- The values of a mapping, each changed by a function. -/
def ofMapping {α : Type} (m : Mapping Text α) (f : α → Text) : Source where
  lookup name := (m.find? name).map f
  known := m.keys
  known_of_lookup h := by
    obtain ⟨v, hv, _⟩ := Option.map_eq_some_iff.1 h
    exact Mapping.contains_iff.1 (by simp [Mapping.contains, hv])

end Source

/-- The names that pieces refer to, those in fallbacks included. -/
def referredNames : List Piece → List Text
  | [] => []
  | .reference p :: rest =>
    p.name ::
      (match _given : p.fallback with
        | some fallback => referredNames (pieces fallback)
        | none => []) ++ referredNames rest
  | .literal _ :: rest => referredNames rest
  | .doubled :: rest => referredNames rest
termination_by ps => (writtenPieces ps).length
decreasing_by
  · exact length_fallback_lt p rest (by assumption)
  · exact length_rest_lt _ rest
  · exact length_rest_lt _ rest
  · exact length_rest_lt _ rest

/-- The names that a text refers to, those in fallbacks included. -/
def namesIn (raw : Text) : List Text := referredNames (pieces raw)

/-- The names that the value of a name refers to. -/
def Source.namesOf (s : Source) (name : Text) : List Text :=
  match s.lookup name with
  | some value => namesIn value
  | none => []

theorem Source.namesOf_eq_nil (s : Source) {name : Text} (h : name ∉ s.known) :
    s.namesOf name = [] := by
  unfold Source.namesOf
  split
  · rename_i hv
    exact absurd (s.known_of_lookup hv) h
  · rfl

/-- The number of listed names that have not been seen. -/
def Source.unseen (s : Source) (seen : List Text) : Nat := (s.known.filter (· ∉ seen)).length

theorem Source.unseen_cons_lt (s : Source) {seen : List Text} {name : Text}
    (hs : name ∉ seen) (hk : name ∈ s.known) : s.unseen (name :: seen) < s.unseen seen := by
  unfold Source.unseen
  have hsub : (s.known.filter (· ∉ name :: seen)) =
      (s.known.filter (· ∉ seen)).filter (· ≠ name) := by
    rw [List.filter_filter]
    congr 1
    funext n
    by_cases h : n = name <;> simp [h]
  rw [hsub]
  refine List.length_filter_lt_length_iff_exists.2 ⟨name, ?_, by simp⟩
  simp [hk, hs]

theorem Source.unseen_cons_of_unknown (s : Source) {seen : List Text} {name : Text}
    (hk : name ∉ s.known) : s.unseen (name :: seen) = s.unseen seen := by
  unfold Source.unseen
  congr 1
  refine List.filter_congr fun n hn => ?_
  have : n ≠ name := by
    rintro rfl
    exact hk hn
  simp [this]

/-- One visit leaves less to do: either fewer listed names are unseen, or as many and fewer names
are to be visited. -/
theorem Source.visit_lt (s : Source) {seen pending : List Text} {name : Text} (h : name ∉ seen) :
    Prod.Lex (· < ·) (· < ·)
      (s.unseen (name :: seen), (s.namesOf name ++ pending).length)
      (s.unseen seen, (name :: pending).length) := by
  by_cases hk : name ∈ s.known
  · exact Prod.Lex.left _ _ (s.unseen_cons_lt h hk)
  · rw [s.unseen_cons_of_unknown hk, s.namesOf_eq_nil hk]
    exact Prod.Lex.right _ (by simp)

/-- All names reached from names to be visited, beside those seen. -/
def Source.reach (s : Source) (seen : List Text) : (pending : List Text) → List Text
  | [] => seen
  | name :: pending =>
    if name ∈ seen then s.reach seen pending
    else s.reach (name :: seen) (s.namesOf name ++ pending)
termination_by pending => (s.unseen seen, pending.length)
decreasing_by
  · exact Prod.Lex.right _ (by simp)
  · exact s.visit_lt (by assumption)

/-- Whether a name is reached from names to be visited without going through a seen one. -/
def Source.reaches (s : Source) (target : Text) (seen : List Text) : (pending : List Text) → Bool
  | [] => false
  | name :: pending =>
    if name = target then true
    else if name ∈ seen then s.reaches target seen pending
    else s.reaches target (name :: seen) (s.namesOf name ++ pending)
termination_by pending => (s.unseen seen, pending.length)
decreasing_by
  · exact Prod.Lex.right _ (by simp)
  · exact s.visit_lt (by assumption)

/-- The names that a text depends on. -/
def Source.dependencies (s : Source) (raw : Text) : List Text := s.reach [] (namesIn raw)

/-- Whether a text depends on a name. -/
def Source.dependsOn (s : Source) (raw target : Text) : Bool := s.reaches target [] (namesIn raw)

end VersionedProperties
