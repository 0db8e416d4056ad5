import Mathlib.Data.List.Chain
import Mathlib.Data.List.Nodup
import VersionedProperties.Proofs.Reference.Expansion
import VersionedProperties.Proofs.Reference.Graph

/-!
# What an error proves

The error of an evaluation can be checked without evaluating again. The chain of a cycle is a closed
walk along references in which no other name comes twice. The chain of an exceeded depth is a walk
without repetition that is one name too long. A name that nothing stands for has no value, and
references lead to it.

The walks come from the resolution path. `Reached` says what a path is when a text is reached by it:
no name comes twice on it, each name is referred to in the text of the one before, and it has grown
no further than the depth allows.
-/

namespace VersionedProperties

section Mention

variable (lookup : Text → Option Text)

/-- The value of the first name refers to the second. -/
def Refers (n m : Text) : Prop := ∃ value, lookup n = some value ∧ m ∈ namesIn value

/-- References lead from a text to a name, through values only. -/
def LeadsTo (raw target : Text) : Prop :=
  ∃ n ∈ namesIn raw, Relation.ReflTransGen (Refers lookup) n target

/-- The text of a name in the evaluation of a text: this text itself for the property that it
belongs to, and the value for any other. -/
def textOf (name : Option Text) (raw n : Text) : Option Text :=
  if name = some n then some raw else lookup n

/-- The text of the first name refers to the second. -/
def Mentions (name : Option Text) (raw n m : Text) : Prop :=
  ∃ text, textOf lookup name raw n = some text ∧ m ∈ namesIn text

end Mention

theorem Source.refers_lookup_iff {s : Source} {n m : Text} :
    VersionedProperties.Refers s.lookup n m ↔ s.Refers n m := by
  unfold VersionedProperties.Refers Source.Refers Source.namesOf
  cases s.lookup n <;> simp

theorem LeadsTo.mem_dependencies {s : Source} {raw target : Text}
    (h : LeadsTo s.lookup raw target) : target ∈ s.dependencies raw := by
  obtain ⟨n, hn, hpath⟩ := h
  rw [← s.dependsOn_iff, s.dependsOn_iff_leads]
  exact ⟨n, hn, hpath.lift id fun _ _ => Source.refers_lookup_iff.1⟩

namespace Evaluator

/-- What the error of an evaluation proves. -/
def IsEvidence (e : Evaluator) (lookup : Text → Option Text) (name : Option Text) (raw : Text) :
    EvaluationError → Prop
  | .cyclic chain =>
    (∃ first others, chain = first :: others ++ [first] ∧ (first :: others).Nodup) ∧
      chain.IsChain (Mentions lookup name raw)
  | .tooDeep depth chain =>
    depth = e.maxDepth ∧ chain.Nodup ∧ chain.IsChain (Mentions lookup name raw) ∧
      seed name <+: chain ∧ (chain.length : Int) = max e.maxDepth (seed name).length + 1
  | .unresolved n =>
    e.policy = .fail ∧ lookup n = none ∧ LeadsTo lookup raw n ∧
      ∀ s : Source, s.lookup = lookup → n ∈ s.dependencies raw

/-- What a path is by which a text is reached from a text that belongs to a property. -/
structure Reached (e : Evaluator) (lookup : Text → Option Text) (name : Option Text) (raw : Text)
    (path : List Text) (text : Text) : Prop where
  nodup : path.Nodup
  linked : path.IsChain (Mentions lookup name raw)
  begins : seed name <+: path
  length_le : (path.length : Int) ≤ max e.maxDepth (seed name).length
  ends : ∀ n ∈ path.getLast?, textOf lookup name raw n = some text
  leads : ∀ n ∈ namesIn text, LeadsTo lookup raw n

variable {e : Evaluator} {lookup : Text → Option Text} {name : Option Text} {raw text : Text}
  {path : List Text} {p : Placeholder}

theorem reached_seed (e : Evaluator) (lookup : Text → Option Text) (name : Option Text)
    (raw : Text) : Reached e lookup name raw (seed name) raw where
  nodup := by cases name <;> simp [seed]
  linked := by cases name <;> simp [seed]
  begins := List.prefix_rfl
  length_le := Int.le_max_right _ _
  ends := by
    intro n hn
    cases name with
    | none => cases hn
    | some m =>
        obtain rfl : m = n := Option.some.inj hn
        exact if_pos rfl
  leads := fun n hn => ⟨n, hn, .refl⟩

namespace Reached

theorem nodup_append (h : Reached e lookup name raw path text) {n : Text} (hcycle : n ∉ path) :
    (path ++ [n]).Nodup := by
  rw [← List.concat_eq_append]
  exact h.nodup.concat hcycle

/-- A path can be continued by what the text that it reaches refers to. -/
theorem linked_append (h : Reached e lookup name raw path text) {n : Text}
    (hn : n ∈ namesIn text) : (path ++ [n]).IsChain (Mentions lookup name raw) := by
  apply h.linked.append (List.isChain_singleton n)
  intro last hlast m hm
  obtain rfl : n = m := Option.some.inj hm
  exact ⟨text, h.ends last hlast, hn⟩

/-- The name of a value that is gone into extends the path. It is not the property that the text at
hand belongs to, which is on every path. -/
theorem extend (h : Reached e lookup name raw path text) {n value : Text} (hn : n ∈ namesIn text)
    (hcycle : n ∉ path) (hvalue : lookup n = some value)
    (hdepth : ¬ e.maxDepth < path.length + 1) :
    Reached e lookup name raw (path ++ [n]) value where
  nodup := h.nodup_append hcycle
  linked := h.linked_append hn
  begins := h.begins.trans (List.prefix_append path [n])
  length_le := by
    rw [List.length_append, List.length_singleton]
    omega
  ends := by
    intro m hm
    rw [List.getLast?_concat] at hm
    obtain rfl : n = m := Option.some.inj hm
    have hne : name ≠ some n := by
      rintro rfl
      exact hcycle (h.begins.mem List.mem_cons_self)
    rw [textOf, if_neg hne, hvalue]
  leads := by
    intro m hm
    obtain ⟨first, hfirst, hpath⟩ := h.leads n hn
    exact ⟨first, hfirst, hpath.tail ⟨value, hvalue, hm⟩⟩

theorem isEvidence_cyclic (h : Reached e lookup name raw path text) {n : Text}
    (hn : n ∈ namesIn text) (hcycle : n ∈ path) :
    IsEvidence e lookup name raw (.cyclic (cycle path n)) := by
  have hlinked := h.linked_append hn
  have hnodup := h.nodup
  obtain ⟨before, after, rfl⟩ := List.append_of_mem hcycle
  have hnew : n ∉ before := fun hmem =>
    (List.nodup_append.1 hnodup).2.2 n hmem n List.mem_cons_self rfl
  have hcut : cycle (before ++ n :: after) n = n :: after ++ [n] := by
    have hdrop : (before ++ n :: after).dropWhile (· ≠ n) = n :: after := by
      rw [List.dropWhile_append_of_pos]
      · exact List.dropWhile_cons_of_neg (by simp)
      · intro m hm
        apply decide_eq_true
        rintro rfl
        exact hnew hm
    rw [cycle, hdrop]
  rw [hcut]
  constructor
  · exact ⟨n, after, rfl, (List.nodup_append.1 hnodup).2.1⟩
  · rw [List.append_assoc] at hlinked
    exact hlinked.right_of_append

theorem isEvidence_tooDeep (h : Reached e lookup name raw path text) {n : Text}
    (hn : n ∈ namesIn text) (hcycle : n ∉ path) (hdepth : e.maxDepth < path.length + 1) :
    IsEvidence e lookup name raw (.tooDeep e.maxDepth (path ++ [n])) := by
  refine ⟨rfl, h.nodup_append hcycle, h.linked_append hn,
    h.begins.trans (List.prefix_append path [n]), ?_⟩
  have hseed := h.begins.length_le
  have hlength := h.length_le
  rw [List.length_append, List.length_singleton]
  omega

theorem isEvidence_missing (h : Reached e lookup name raw path text) (hn : p.name ∈ namesIn text)
    (hvalue : lookup p.name = none) {err : EvaluationError} (herr : e.missing p = .error err) :
    IsEvidence e lookup name raw err := by
  unfold missing at herr
  split at herr
  · cases herr
  · cases herr
  · cases herr
    refine ⟨‹_›, hvalue, h.leads _ hn, ?_⟩
    rintro s rfl
    exact (h.leads _ hn).mem_dependencies

end Reached

theorem eq_error_of_map {r : Except EvaluationError Text} {f : Text → Text} {err : EvaluationError}
    (h : r.map f = .error err) : r = .error err := by
  cases r with
  | error err' =>
      cases h
      rfl
  | ok t => cases h

theorem eq_error_of_bind {r : Except EvaluationError Text}
    {next : Text → Except EvaluationError Text} {err : EvaluationError}
    (h : r.bind next = .error err) : r = .error err ∨ ∃ t, next t = .error err := by
  cases r with
  | error err' =>
      cases h
      exact .inl rfl
  | ok t => exact .inr ⟨t, h⟩

/-- Whatever is expanded is part of a text that is reached by a path, be it a fallback of a fallback
in it, and this is what makes its errors evidence. -/
theorem isEvidence_expand (path : List Text) (ps : List Piece)
    (h : Reached e lookup name raw path text) (hps : ∀ n ∈ referredNames ps, n ∈ namesIn text)
    {err : EvaluationError} (herr : e.expand lookup path ps = .error err) :
    IsEvidence e lookup name raw err := by
  induction path, ps using e.expand_induction lookup generalizing text with
  | nil path =>
      rw [expand_nil] at herr
      cases herr
  | literal path c rest ih =>
      rw [referredNames_literal] at hps
      rw [expand_literal] at herr
      exact ih h hps (eq_error_of_map herr)
  | doubled path rest ih =>
      rw [referredNames_doubled] at hps
      rw [expand_doubled] at herr
      exact ih h hps (eq_error_of_map herr)
  | reference path p rest ihValue ihFallback ihRest =>
      have hname : p.name ∈ namesIn text := hps _ (mem_referredNames_reference.2 (.inl rfl))
      rw [expand_reference] at herr
      rcases eq_error_of_bind herr with hresolve | ⟨t, hrest⟩
      · by_cases hcycle : p.name ∈ path
        · rw [e.resolve_of_mem hcycle] at hresolve
          cases hresolve
          exact h.isEvidence_cyclic hname hcycle
        cases hvalue : lookup p.name with
        | some value =>
            by_cases hdepth : e.maxDepth < path.length + 1
            · rw [e.resolve_of_tooDeep hcycle hvalue hdepth] at hresolve
              cases hresolve
              exact h.isEvidence_tooDeep hname hcycle hdepth
            · rw [e.resolve_of_value hcycle hvalue hdepth] at hresolve
              exact ihValue value hvalue hcycle hdepth (h.extend hname hcycle hvalue hdepth)
                (fun _ hn => hn) hresolve
        | none =>
            cases hf : p.fallback with
            | some fallback =>
                rw [e.resolve_of_fallback hcycle hvalue hf] at hresolve
                apply ihFallback fallback hf h _ hresolve
                intro n hn
                exact hps n (mem_referredNames_reference.2 (.inr (.inl ⟨fallback, hf, hn⟩)))
            | none =>
                rw [e.resolve_of_missing hcycle hvalue hf] at hresolve
                exact h.isEvidence_missing hname hvalue hresolve
      · exact ihRest h (fun n hn => hps n (mem_referredNames_reference.2 (.inr (.inr hn))))
          (eq_error_of_map hrest)

/-- The error of an evaluation is evidence: a closed walk along references, a walk that is one name
too long, or a name without value that the text depends on. -/
theorem evaluate_isEvidence {err : EvaluationError}
    (herr : e.evaluate lookup name raw = .error err) : IsEvidence e lookup name raw err :=
  isEvidence_expand (seed name) (pieces raw) (reached_seed e lookup name raw) (fun _ hn => hn) herr

/-- Values where `a` leads through a fallback into a circle of `b` and `c`. -/
def circleBehindFallback : Text → Option Text :=
  (Mapping.ofList [(("a" : Text), ("$\x7bx:$\x7bb\x7d\x7d" : Text)), ("b", "$\x7bc\x7d"),
    ("c", "$\x7bb\x7d")]).find?

theorem evaluate_isEvidence_circleBehindFallback :
    (Evaluator.mk 4 .fail).evaluate circleBehindFallback none "$\x7ba\x7d" =
        .error (.cyclic ["b", "c", "b"]) ∧
      IsEvidence ⟨4, .fail⟩ circleBehindFallback none "$\x7ba\x7d" (.cyclic ["b", "c", "b"]) ∧
      (Evaluator.mk 2 .fail).evaluate circleBehindFallback (some "s") "$\x7ba\x7d" =
        .error (.tooDeep 2 ["s", "a", "b"]) ∧
      IsEvidence ⟨2, .fail⟩ circleBehindFallback (some "s") "$\x7ba\x7d"
        (.tooDeep 2 ["s", "a", "b"]) := by
  have hpieces : pieces "$\x7ba\x7d" = [.reference ⟨"a", none⟩] := by decide +kernel
  have hpiecesA : pieces "$\x7bx:$\x7bb\x7d\x7d" = [.reference ⟨"x", some "$\x7bb\x7d"⟩] := by
    decide +kernel
  have hfallback : pieces "$\x7bb\x7d" = [.reference ⟨"b", none⟩] := by decide +kernel
  have hpiecesB : pieces "$\x7bc\x7d" = [.reference ⟨"c", none⟩] := by decide +kernel
  have hvalueA : circleBehindFallback "a" = some "$\x7bx:$\x7bb\x7d\x7d" := by decide
  have hvalueX : circleBehindFallback "x" = none := by decide
  have hvalueB : circleBehindFallback "b" = some "$\x7bc\x7d" := by decide
  have hvalueC : circleBehindFallback "c" = some "$\x7bb\x7d" := by decide
  have hcircle : (Evaluator.mk 4 .fail).evaluate circleBehindFallback none "$\x7ba\x7d" =
      .error (.cyclic ["b", "c", "b"]) := by
    rw [evaluate, hpieces, expand_singleton, resolve_of_value _ (by decide) hvalueA (by decide),
      hpiecesA, expand_singleton, resolve_of_fallback _ (by decide) hvalueX rfl,
      hfallback, expand_singleton, resolve_of_value _ (by decide) hvalueB (by decide),
      hpiecesB, expand_singleton, resolve_of_value _ (by decide) hvalueC (by decide),
      hfallback, expand_singleton, resolve_of_mem _ (by decide)]
    rfl
  have hdeep : (Evaluator.mk 2 .fail).evaluate circleBehindFallback (some "s") "$\x7ba\x7d" =
      .error (.tooDeep 2 ["s", "a", "b"]) := by
    rw [evaluate, hpieces, expand_singleton, resolve_of_value _ (by decide) hvalueA (by decide),
      hpiecesA, expand_singleton, resolve_of_fallback _ (by decide) hvalueX rfl,
      hfallback, expand_singleton, resolve_of_tooDeep _ (by decide) hvalueB (by decide)]
    rfl
  exact ⟨hcircle, evaluate_isEvidence hcircle, hdeep, evaluate_isEvidence hdeep⟩

end Evaluator

end VersionedProperties
