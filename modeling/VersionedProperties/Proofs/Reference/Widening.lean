import VersionedProperties.Proofs.Reference.Expansion

/-!
# Wider options

An evaluator widens another one if it follows longer paths and does not mind more references that
nothing stands for. It goes on where the other one gives up. What the other one comes to without
giving up, a text or a cycle, the wider one comes to as well: at each step it meets the same
reference on the same path, and only the refusals are fewer.
-/

namespace VersionedProperties.Evaluator

/-- The second evaluator goes at least as deep as the first and has its policy, unless the first one
fails at references that nothing stands for. -/
structure Widens (e e' : Evaluator) : Prop where
  maxDepth_le : e.maxDepth ≤ e'.maxDepth
  policy_eq : e.policy = e'.policy ∨ e.policy = .fail

/-- An outcome of the first evaluator that is no refusal which the second one might not share. -/
def Settled (e e' : Evaluator) : Except EvaluationError Text → Prop
  | .ok _ => True
  | .error (.cyclic _) => True
  | .error (.tooDeep _ _) => False
  | .error (.unresolved _) => e.policy = e'.policy

variable {e e' : Evaluator} {lookup : Text → Option Text} {path : List Text}

/-- Where a part is taken over and what follows it is taken over, the whole is. -/
theorem Settled.bind {r r' : Except EvaluationError Text}
    {next next' : Text → Except EvaluationError Text} (hr : Settled e e' r → r' = r)
    (hnext : ∀ t, Settled e e' (next t) → next' t = next t) (h : Settled e e' (r.bind next)) :
    r'.bind next' = r.bind next := by
  cases r with
  | error err =>
      rw [hr h]
      rfl
  | ok t =>
      rw [hr trivial]
      exact hnext t h

theorem Settled.map {r r' : Except EvaluationError Text} (hr : Settled e e' r → r' = r)
    (f : Text → Text) (h : Settled e e' (r.map f)) : r'.map f = r.map f := by
  cases r with
  | error err => rw [hr h]
  | ok t => rw [hr trivial]

theorem missing_of_settled (hwider : e.Widens e') {p : Placeholder}
    (h : Settled e e' (e.missing p)) : e'.missing p = e.missing p := by
  have hpolicy : e.policy = e'.policy := by
    rcases hwider.policy_eq with heq | hfail
    · exact heq
    · rw [missing, hfail] at h
      exact h
  rw [missing, missing, hpolicy]

theorem resolve_of_settled (hwider : e.Widens e') {p : Placeholder}
    (hvalue : ∀ value, lookup p.name = some value → p.name ∉ path →
      ¬ e.maxDepth < path.length + 1 →
      Settled e e' (e.expand lookup (path ++ [p.name]) (pieces value)) →
      e'.expand lookup (path ++ [p.name]) (pieces value) =
        e.expand lookup (path ++ [p.name]) (pieces value))
    (hfallback : ∀ fallback, p.fallback = some fallback →
      Settled e e' (e.expand lookup path (pieces fallback)) →
      e'.expand lookup path (pieces fallback) = e.expand lookup path (pieces fallback))
    (h : Settled e e' (e.resolve lookup path p)) :
    e'.resolve lookup path p = e.resolve lookup path p := by
  by_cases hcycle : p.name ∈ path
  · rw [resolve_of_mem e' hcycle, resolve_of_mem e hcycle]
  cases hv : lookup p.name with
  | some value =>
      by_cases hdepth : e.maxDepth < path.length + 1
      · rw [resolve_of_tooDeep e hcycle hv hdepth] at h
        exact absurd h id
      have hdepth' : ¬ e'.maxDepth < path.length + 1 := by
        have := hwider.maxDepth_le
        omega
      rw [resolve_of_value e hcycle hv hdepth] at h ⊢
      rw [resolve_of_value e' hcycle hv hdepth']
      exact hvalue value hv hcycle hdepth h
  | none =>
      cases hf : p.fallback with
      | some fallback =>
          rw [resolve_of_fallback e hcycle hv hf] at h ⊢
          rw [resolve_of_fallback e' hcycle hv hf]
          exact hfallback fallback hf h
      | none =>
          rw [resolve_of_missing e hcycle hv hf] at h ⊢
          rw [resolve_of_missing e' hcycle hv hf]
          exact missing_of_settled hwider h

/-- The induction follows the narrower evaluator, which is the one that runs out of depth. -/
theorem expand_of_settled (hwider : e.Widens e') (path : List Text) (ps : List Piece)
    (h : Settled e e' (e.expand lookup path ps)) :
    e'.expand lookup path ps = e.expand lookup path ps := by
  induction path, ps using e.expand_induction lookup with
  | nil path => rw [expand_nil, expand_nil]
  | literal path c rest ih =>
      rw [expand_literal] at h ⊢
      rw [expand_literal]
      exact h.map ih _
  | doubled path rest ih =>
      rw [expand_doubled] at h ⊢
      rw [expand_doubled]
      exact h.map ih _
  | reference path p rest ihValue ihFallback ihRest =>
      rw [expand_reference] at h ⊢
      rw [expand_reference]
      exact h.bind (resolve_of_settled hwider ihValue ihFallback) fun t ht => ht.map ihRest _

theorem evaluate_of_settled (hwider : e.Widens e') {name : Option Text} {raw : Text}
    (h : Settled e e' (e.evaluate lookup name raw)) :
    e'.evaluate lookup name raw = e.evaluate lookup name raw :=
  expand_of_settled hwider (seed name) (pieces raw) h

/-- Under the same policy, a greater depth keeps every outcome but that the depth is exceeded. A
text that is found although references that nothing stands for would fail is found under every
policy and at every greater depth. -/
theorem evaluate_widened (lookup : Text → Option Text) (name : Option Text) (raw : Text) :
    (∀ (policy : MissingPolicy) (d d' : Int), d ≤ d' →
      (∀ depth chain,
        (Evaluator.mk d policy).evaluate lookup name raw ≠ .error (.tooDeep depth chain)) →
      (Evaluator.mk d' policy).evaluate lookup name raw =
        (Evaluator.mk d policy).evaluate lookup name raw) ∧
    ∀ (policy : MissingPolicy) (d d' : Int) (t : Text), d ≤ d' →
      (Evaluator.mk d .fail).evaluate lookup name raw = .ok t →
      (Evaluator.mk d' policy).evaluate lookup name raw = .ok t := by
  constructor
  · intro policy d d' hdepth hne
    have hwider : (Evaluator.mk d policy).Widens (Evaluator.mk d' policy) := ⟨hdepth, .inl rfl⟩
    apply evaluate_of_settled hwider
    match hr : (Evaluator.mk d policy).evaluate lookup name raw with
    | .ok _ => trivial
    | .error (.cyclic _) => trivial
    | .error (.tooDeep depth chain) => exact absurd hr (hne depth chain)
    | .error (.unresolved _) => rfl
  · intro policy d d' t hdepth hok
    have hwider : (Evaluator.mk d .fail).Widens (Evaluator.mk d' policy) := ⟨hdepth, .inr rfl⟩
    rw [evaluate_of_settled hwider (by rw [hok]; trivial), hok]

/-- Values where `a` and `b` lead in a circle, and `c` is found through a fallback. -/
def circleBesideFallback : Text → Option Text :=
  (Mapping.ofList [(("a" : Text), ("$\x7bb\x7d" : Text)), ("b", "$\x7ba\x7d"),
    ("c", "$\x7bx:$\x7bd\x7d\x7d"), ("d", "1")]).find?

theorem evaluate_widened_circleBesideFallback :
    (Evaluator.mk 2 .fail).evaluate circleBesideFallback none "$\x7ba\x7d" =
        .error (.cyclic ["a", "b", "a"]) ∧
      (Evaluator.mk 9 .fail).evaluate circleBesideFallback none "$\x7ba\x7d" =
        .error (.cyclic ["a", "b", "a"]) ∧
      (Evaluator.mk 2 .fail).evaluate circleBesideFallback none "$\x7bc\x7d" = .ok "1" ∧
      (Evaluator.mk 9 .empty).evaluate circleBesideFallback none "$\x7bc\x7d" = .ok "1" := by
  have hcircle : (Evaluator.mk 2 .fail).evaluate circleBesideFallback none "$\x7ba\x7d" =
      .error (.cyclic ["a", "b", "a"]) := by
    have hpieces : pieces "$\x7ba\x7d" = [.reference ⟨"a", none⟩] := by decide +kernel
    have hpiecesA : pieces "$\x7bb\x7d" = [.reference ⟨"b", none⟩] := by decide +kernel
    have hvalueA : circleBesideFallback "a" = some "$\x7bb\x7d" := by decide
    have hvalueB : circleBesideFallback "b" = some "$\x7ba\x7d" := by decide
    rw [evaluate, hpieces, expand_singleton, resolve_of_value _ (by decide) hvalueA (by decide),
      hpiecesA, expand_singleton, resolve_of_value _ (by decide) hvalueB (by decide),
      hpieces, expand_singleton, resolve_of_mem _ (by decide)]
    rfl
  have htext : (Evaluator.mk 2 .fail).evaluate circleBesideFallback none "$\x7bc\x7d" =
      .ok "1" := by
    have hpieces : pieces "$\x7bc\x7d" = [.reference ⟨"c", none⟩] := by decide +kernel
    have hpiecesC : pieces "$\x7bx:$\x7bd\x7d\x7d" = [.reference ⟨"x", some "$\x7bd\x7d"⟩] := by
      decide +kernel
    have hfallback : pieces "$\x7bd\x7d" = [.reference ⟨"d", none⟩] := by decide +kernel
    have hpiecesD : pieces "1" = [.literal '1'] := by decide +kernel
    have hvalueC : circleBesideFallback "c" = some "$\x7bx:$\x7bd\x7d\x7d" := by decide
    have hvalueX : circleBesideFallback "x" = none := by decide
    have hvalueD : circleBesideFallback "d" = some "1" := by decide
    rw [evaluate, hpieces, expand_singleton, resolve_of_value _ (by decide) hvalueC (by decide),
      hpiecesC, expand_singleton, resolve_of_fallback _ (by decide) hvalueX rfl,
      hfallback, expand_singleton, resolve_of_value _ (by decide) hvalueD (by decide),
      hpiecesD, expand_literal, expand_nil]
    rfl
  have hdeep : ∀ depth chain, (Evaluator.mk 2 .fail).evaluate circleBesideFallback none
      "$\x7ba\x7d" ≠ .error (.tooDeep depth chain) := by
    intro depth chain h
    rw [hcircle] at h
    cases h
  have hcircle' := (evaluate_widened circleBesideFallback none "$\x7ba\x7d").1 .fail 2 9
    (by decide) hdeep
  exact ⟨hcircle, hcircle'.trans hcircle, htext,
    (evaluate_widened circleBesideFallback none "$\x7bc\x7d").2 .empty 2 9 "1" (by decide) htext⟩

end VersionedProperties.Evaluator
