import VersionedProperties.Reference.Evaluation

/-!
# The steps of an expansion

Expanding pieces from the left means resolving one reference at a time. `resolve` is the expansion
of a single reference, so that each piece has one short equation, and `expand_induction` is the
induction that goes with them: from a reference it descends to the value of its name on a longer
path, to its fallback, and to the pieces behind it.
-/

namespace VersionedProperties.Evaluator

/-- The expansion of a reference met on a resolution path. -/
def resolve (e : Evaluator) (lookup : Text → Option Text) (path : List Text) (p : Placeholder) :
    Except EvaluationError Text :=
  if p.name ∈ path then .error (.cyclic (cycle path p.name))
  else
    match lookup p.name with
    | some value =>
      if e.maxDepth < path.length + 1 then .error (.tooDeep e.maxDepth (path ++ [p.name]))
      else e.expand lookup (path ++ [p.name]) (pieces value)
    | none =>
      match p.fallback with
      | some fallback => e.expand lookup path (pieces fallback)
      | none => e.missing p

section Resolve

variable (e : Evaluator) {lookup : Text → Option Text} {path : List Text} {p : Placeholder}

theorem resolve_of_mem (hcycle : p.name ∈ path) :
    e.resolve lookup path p = .error (.cyclic (cycle path p.name)) := by
  rw [resolve, if_pos hcycle]

theorem resolve_of_tooDeep {value : Text} (hcycle : p.name ∉ path)
    (hvalue : lookup p.name = some value) (hdepth : e.maxDepth < path.length + 1) :
    e.resolve lookup path p = .error (.tooDeep e.maxDepth (path ++ [p.name])) := by
  rw [resolve, if_neg hcycle, hvalue]
  exact if_pos hdepth

theorem resolve_of_value {value : Text} (hcycle : p.name ∉ path)
    (hvalue : lookup p.name = some value) (hdepth : ¬ e.maxDepth < path.length + 1) :
    e.resolve lookup path p = e.expand lookup (path ++ [p.name]) (pieces value) := by
  rw [resolve, if_neg hcycle, hvalue]
  exact if_neg hdepth

theorem resolve_of_fallback {fallback : Text} (hcycle : p.name ∉ path)
    (hvalue : lookup p.name = none) (hf : p.fallback = some fallback) :
    e.resolve lookup path p = e.expand lookup path (pieces fallback) := by
  rw [resolve, if_neg hcycle, hvalue, hf]

theorem resolve_of_missing (hcycle : p.name ∉ path) (hvalue : lookup p.name = none)
    (hf : p.fallback = none) : e.resolve lookup path p = e.missing p := by
  rw [resolve, if_neg hcycle, hvalue, hf]

end Resolve

variable (e : Evaluator) (lookup : Text → Option Text)

@[simp] theorem expand_nil (path : List Text) : e.expand lookup path [] = .ok [] := by
  rw [expand]

theorem expand_literal (path : List Text) (c : CodePoint) (rest : List Piece) :
    e.expand lookup path (.literal c :: rest) = (e.expand lookup path rest).map (c :: ·) := by
  rw [expand]

theorem expand_doubled (path : List Text) (rest : List Piece) :
    e.expand lookup path (.doubled :: rest) =
      (e.expand lookup path rest).map (CodePoint.marker :: ·) := by
  rw [expand]

theorem expand_reference (path : List Text) (p : Placeholder) (rest : List Piece) :
    e.expand lookup path (.reference p :: rest) =
      (e.resolve lookup path p).bind fun t => (e.expand lookup path rest).map (t ++ ·) := by
  rw [expand, resolve]
  by_cases hcycle : p.name ∈ path
  · rw [if_pos hcycle, if_pos hcycle]
    rfl
  rw [if_neg hcycle, if_neg hcycle]
  cases lookup p.name with
  | some value =>
      by_cases hdepth : e.maxDepth < path.length + 1
      · simp only [if_pos hdepth]
        rfl
      · simp only [if_neg hdepth]
        cases e.expand lookup (path ++ [p.name]) (pieces value) <;> rfl
  | none =>
      cases hf : p.fallback with
      | some fallback =>
          dsimp only
          cases e.expand lookup path (pieces fallback) <;> rfl
      | none =>
          dsimp only
          cases e.missing p <;> rfl

theorem expand_singleton (path : List Text) (p : Placeholder) :
    e.expand lookup path [.reference p] = e.resolve lookup path p := by
  rw [expand_reference, expand_nil]
  cases e.resolve lookup path p with
  | error err => rfl
  | ok t => exact congrArg Except.ok (List.append_nil t)

/-- Induction along an expansion. A value is met only where the path can still be extended by a
name that is not on it. -/
theorem expand_induction {motive : List Text → List Piece → Prop}
    (nil : ∀ path, motive path [])
    (literal : ∀ path c rest, motive path rest → motive path (.literal c :: rest))
    (doubled : ∀ path rest, motive path rest → motive path (.doubled :: rest))
    (reference : ∀ path p rest,
      (∀ value, lookup p.name = some value → p.name ∉ path → ¬ e.maxDepth < path.length + 1 →
        motive (path ++ [p.name]) (pieces value)) →
      (∀ fallback, p.fallback = some fallback → motive path (pieces fallback)) →
      motive path rest → motive path (.reference p :: rest))
    (path : List Text) (ps : List Piece) : motive path ps := by
  match ps with
  | [] => exact nil path
  | .literal c :: rest =>
      exact literal path c rest (expand_induction nil literal doubled reference path rest)
  | .doubled :: rest =>
      exact doubled path rest (expand_induction nil literal doubled reference path rest)
  | .reference p :: rest =>
      apply reference path p rest
      · intro value _ _ hdepth
        exact expand_induction nil literal doubled reference (path ++ [p.name]) (pieces value)
      · intro fallback hf
        exact expand_induction nil literal doubled reference path (pieces fallback)
      · exact expand_induction nil literal doubled reference path rest
termination_by ((e.maxDepth - path.length).toNat, (writtenPieces ps).length)
decreasing_by
  · exact Prod.Lex.right _ (length_rest_lt _ rest)
  · exact Prod.Lex.right _ (length_rest_lt _ rest)
  · exact Prod.Lex.left _ _ (by rw [List.length_append, List.length_singleton]; omega)
  · exact Prod.Lex.right _ (length_fallback_lt p rest hf)
  · exact Prod.Lex.right _ (length_rest_lt _ rest)

end VersionedProperties.Evaluator
