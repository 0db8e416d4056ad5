import Mathlib.Data.List.Permutation
import VersionedProperties.Proofs.Reference.Closure
import VersionedProperties.Proofs.Reference.Expansion

/-!
# What an expansion looks at

An expansion reads values of names only, and only of names that the text depends on. So two ways to
look up values that agree on these names give the same outcome, text or error, and a value that the
text does not depend on can be changed, added or removed without effect.
-/

namespace VersionedProperties.Evaluator

/-- Two look-ups that agree on a closed set of names expand pieces that refer to these names alike.
The descent into values stays within the set because it is closed. -/
theorem expand_congr (e : Evaluator) {s : Source} {lookup : Text → Option Text}
    {names : List Text} (hclosed : s.IsClosed names)
    (hagree : ∀ n ∈ names, lookup n = s.lookup n) (path : List Text) (ps : List Piece)
    (hps : ∀ n ∈ referredNames ps, n ∈ names) :
    e.expand lookup path ps = e.expand s.lookup path ps := by
  induction path, ps using e.expand_induction s.lookup with
  | nil path => rw [expand_nil, expand_nil]
  | literal path c rest ih =>
      rw [referredNames_literal] at hps
      rw [expand_literal, expand_literal, ih hps]
  | doubled path rest ih =>
      rw [referredNames_doubled] at hps
      rw [expand_doubled, expand_doubled, ih hps]
  | reference path p rest ihValue ihFallback ihRest =>
      have hname : p.name ∈ names := hps _ (mem_referredNames_reference.2 (.inl rfl))
      have hresolve : e.resolve lookup path p = e.resolve s.lookup path p := by
        have hsame := hagree _ hname
        by_cases hcycle : p.name ∈ path
        · rw [e.resolve_of_mem hcycle, e.resolve_of_mem hcycle]
        cases hvalue : s.lookup p.name with
        | some value =>
            rw [hvalue] at hsame
            by_cases hdepth : e.maxDepth < path.length + 1
            · rw [e.resolve_of_tooDeep hcycle hsame hdepth,
                e.resolve_of_tooDeep hcycle hvalue hdepth]
            rw [e.resolve_of_value hcycle hsame hdepth, e.resolve_of_value hcycle hvalue hdepth]
            apply ihValue value hvalue hcycle hdepth
            intro n hn
            exact hclosed _ hname n (by rwa [Source.namesOf_of_lookup hvalue])
        | none =>
            rw [hvalue] at hsame
            cases hf : p.fallback with
            | some fallback =>
                rw [e.resolve_of_fallback hcycle hsame hf, e.resolve_of_fallback hcycle hvalue hf]
                apply ihFallback fallback hf
                intro n hn
                exact hps n (mem_referredNames_reference.2 (.inr (.inl ⟨fallback, hf, hn⟩)))
            | none =>
                rw [e.resolve_of_missing hcycle hsame hf, e.resolve_of_missing hcycle hvalue hf]
      have hrest : e.expand lookup path rest = e.expand s.lookup path rest :=
        ihRest fun n hn => hps n (mem_referredNames_reference.2 (.inr (.inr hn)))
      rw [expand_reference, expand_reference, hresolve, hrest]

theorem evaluate_congr (e : Evaluator) {s : Source} {lookup : Text → Option Text} {raw : Text}
    (hagree : ∀ n ∈ s.dependencies raw, lookup n = s.lookup n) (name : Option Text) :
    e.evaluate lookup name raw = e.evaluate s.lookup name raw :=
  e.expand_congr (s.isClosed_dependencies raw) hagree (seed name) (pieces raw)
    fun _ hn => s.mem_dependencies_of_mem_namesIn hn

/-- The outcome of an evaluation depends on nothing but the values of the names that the text
depends on. In particular the value of a name that it does not depend on is of no account. -/
theorem evaluate_local (e : Evaluator) (s : Source) (name : Option Text) (raw : Text) :
    (∀ lookup : Text → Option Text, (∀ n ∈ s.dependencies raw, lookup n = s.lookup n) →
      e.evaluate lookup name raw = e.evaluate s.lookup name raw) ∧
    ∀ (target : Text) (value : Option Text), s.dependsOn raw target = false →
      e.evaluate (fun n => if n = target then value else s.lookup n) name raw =
        e.evaluate s.lookup name raw := by
  constructor
  · intro lookup hagree
    exact e.evaluate_congr hagree name
  · intro target value hfree
    apply e.evaluate_congr
    intro n hn
    have hne : n ≠ target := by
      rintro rfl
      rw [(s.dependsOn_iff raw n).2 hn] at hfree
      cases hfree
    rw [if_neg hne]

/-- Values where `c` stands in the fallback of a reference that needs none. -/
def sparedFallback : Source :=
  .ofMapping (.ofList [(("a" : Text), ("$\x7bb:$\x7bc\x7d\x7d" : Text)), ("b", "1"), ("t", "2")]) id

theorem dependencies_sparedFallback :
    sparedFallback.dependencies "<$\x7ba\x7d>" = [("c" : Text), "b", "a"] := by cbv

theorem evaluate_local_sparedFallback :
    let lookup : Text → Option Text := fun n =>
      if n = ("t" : Text) then some "$\x7bt\x7d" else sparedFallback.lookup n
    (∀ n ∈ sparedFallback.dependencies "<$\x7ba\x7d>", lookup n = sparedFallback.lookup n) ∧
      (Evaluator.mk 64 .fail).evaluate lookup none "<$\x7ba\x7d>" =
        (Evaluator.mk 64 .fail).evaluate sparedFallback.lookup none "<$\x7ba\x7d>" ∧
      sparedFallback.dependsOn "<$\x7ba\x7d>" "t" = false ∧
      (Evaluator.mk 64 .fail).evaluate
          (fun n => if n = ("t" : Text) then none else sparedFallback.lookup n) none
          "<$\x7ba\x7d>" =
        (Evaluator.mk 64 .fail).evaluate sparedFallback.lookup none "<$\x7ba\x7d>" := by
  intro lookup
  have hagree : ∀ n ∈ sparedFallback.dependencies "<$\x7ba\x7d>",
      lookup n = sparedFallback.lookup n := by
    intro n hn
    have hne : n ≠ ("t" : Text) := by
      rintro rfl
      rw [dependencies_sparedFallback] at hn
      revert hn
      decide
    exact if_neg hne
  have hfree : sparedFallback.dependsOn "<$\x7ba\x7d>" "t" = false := by cbv
  have hlocal := (Evaluator.mk 64 .fail).evaluate_local sparedFallback none "<$\x7ba\x7d>"
  exact ⟨hagree, hlocal.1 lookup hagree, hfree, hlocal.2 "t" none hfree⟩

end VersionedProperties.Evaluator
