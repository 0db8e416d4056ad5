import VersionedProperties.Options
import VersionedProperties.Reference.Scan

/-!
# Expansion of references

A text is expanded piece by piece from the left. A reference to a name with a value is replaced by
the expansion of the value; a name without value by the expansion of its fallback, and failing that
as the policy says. The resolution path lists the names being expanded, the outermost first: a name
that is on the path closes a cycle, and the path may not become longer than the greatest depth.

The recursion ends because a value lengthens the path, which is bounded, and because a fallback is
shorter than the text it is written in.
-/

namespace VersionedProperties

/-- How references are expanded. -/
structure Evaluator where
  maxDepth : Int
  policy : MissingPolicy
  deriving DecidableEq

namespace Evaluator

/-- An evaluator that takes what is not given from the options. -/
def ofOptions (o : Options) (maxDepth : Option Int) (policy : Option MissingPolicy) :
    Evaluator where
  maxDepth := maxDepth.getD o.maxReferenceDepth
  policy := policy.getD o.missingPolicy

/-- The expansion of a reference without value and fallback. -/
def missing (e : Evaluator) (p : Placeholder) : Except EvaluationError Text :=
  match e.policy with
  | .keep => .ok p.written
  | .empty => .ok []
  | .fail => .error (.unresolved p.name)

/-- The cycle that a name closes on a path: from its first place there up to the name again. -/
def cycle (path : List Text) (name : Text) : List Text := path.dropWhile (· ≠ name) ++ [name]

/-- The expansion of pieces met on a resolution path. -/
def expand (e : Evaluator) (lookup : Text → Option Text) (path : List Text) :
    List Piece → Except EvaluationError Text
  | [] => .ok []
  | .literal c :: rest => (expand e lookup path rest).map (c :: ·)
  | .doubled :: rest => (expand e lookup path rest).map (.marker :: ·)
  | .reference p :: rest =>
    let expansion : Except EvaluationError Text :=
      if p.name ∈ path then .error (.cyclic (cycle path p.name))
      else
        match lookup p.name with
        | some value =>
          if e.maxDepth < path.length + 1 then .error (.tooDeep e.maxDepth (path ++ [p.name]))
          else expand e lookup (path ++ [p.name]) (pieces value)
        | none =>
          match _given : p.fallback with
          | some fallback => expand e lookup path (pieces fallback)
          | none => e.missing p
    match expansion with
    | .error err => .error err
    | .ok t => (expand e lookup path rest).map (t ++ ·)
termination_by ps => ((e.maxDepth - path.length).toNat, (writtenPieces ps).length)
decreasing_by
  · exact Prod.Lex.right _ (length_rest_lt _ rest)
  · exact Prod.Lex.right _ (length_rest_lt _ rest)
  · exact Prod.Lex.left _ _ (by rw [List.length_append, List.length_singleton]; omega)
  · exact Prod.Lex.right _ (length_fallback_lt p rest (by assumption))
  · exact Prod.Lex.right _ (length_rest_lt _ rest)

/-- The resolution path at the beginning: the property that the text belongs to, if it is known. -/
def seed (name : Option Text) : List Text := name.toList

/-- The expansion of a text that belongs to a property. -/
def evaluate (e : Evaluator) (lookup : Text → Option Text) (name : Option Text) (raw : Text) :
    Except EvaluationError Text :=
  e.expand lookup (seed name) (pieces raw)

/-- The expansion of a text that may be absent. -/
def evaluate? (e : Evaluator) (lookup : Text → Option Text) (name : Option Text) :
    Option Text → Except EvaluationError (Option Text)
  | none => .ok none
  | some raw => (e.evaluate lookup name raw).map some

end Evaluator

end VersionedProperties
