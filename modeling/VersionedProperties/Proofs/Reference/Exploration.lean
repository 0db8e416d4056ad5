import Mathlib.Data.List.Basic
import Mathlib.Data.Set.Finite.Basic
import VersionedProperties.Proofs.Reference.Expansion

/-!
# The first bad reference

Exploring a text means following its references from the left, depth first, without putting anything
together: through a name with a value into the value, on a path longer by the name, and through a
name without value into its fallback, on the same path. A reference so met is bad if its name is on
the path already, or if its name has a value that the path has no room for; nothing is explored
behind a bad reference.

`Meets` says which references are met, each at a place: the positions of the pieces that lead to it,
the outermost first. The order of places is lexicographic, so that it is the order in which a
depth-first exploration from the left meets them. An expansion fails exactly if a reference that is
met is bad, and its error is that of the first one.
-/

namespace VersionedProperties.Evaluator

/-- Exploring pieces of a text that was reached by a path, one meets at a place a reference, in a
text reached by the path `met`. -/
inductive Meets (e : Evaluator) (lookup : Text → Option Text) :
    (path : List Text) → List Piece → (place : List Nat) → (met : List Text) → Placeholder → Prop
  | here {path : List Text} {ps : List Piece} {i : Nat} {p : Placeholder}
      (at_i : ps[i]? = some (.reference p)) : Meets e lookup path ps [i] path p
  | value {path met : List Text} {ps : List Piece} {i : Nat} {p q : Placeholder} {value : Text}
      {place : List Nat} (at_i : ps[i]? = some (.reference p)) (hcycle : p.name ∉ path)
      (hvalue : lookup p.name = some value) (hdepth : ¬ e.maxDepth < path.length + 1)
      (inner : Meets e lookup (path ++ [p.name]) (pieces value) place met q) :
      Meets e lookup path ps (i :: place) met q
  | fallback {path met : List Text} {ps : List Piece} {i : Nat} {p q : Placeholder}
      {fallback : Text} {place : List Nat} (at_i : ps[i]? = some (.reference p))
      (hcycle : p.name ∉ path) (hvalue : lookup p.name = none) (hf : p.fallback = some fallback)
      (inner : Meets e lookup path (pieces fallback) place met q) :
      Meets e lookup path ps (i :: place) met q

/-- What is bad about a reference in a text reached by a path. -/
inductive Bad (e : Evaluator) (lookup : Text → Option Text) (path : List Text) (p : Placeholder) :
    EvaluationError → Prop
  | cyclic (hcycle : p.name ∈ path) : Bad e lookup path p (.cyclic (cycle path p.name))
  | tooDeep {value : Text} (hcycle : p.name ∉ path) (hvalue : lookup p.name = some value)
      (hdepth : e.maxDepth < path.length + 1) :
      Bad e lookup path p (.tooDeep e.maxDepth (path ++ [p.name]))

/-- Exploring pieces, one meets a bad reference at a place. -/
def BadAt (e : Evaluator) (lookup : Text → Option Text) (path : List Text) (ps : List Piece)
    (place : List Nat) (err : EvaluationError) : Prop :=
  ∃ met p, e.Meets lookup path ps place met p ∧ Bad e lookup met p err

/-- The first of all bad references that are met has an error. -/
def FirstBad (e : Evaluator) (lookup : Text → Option Text) (path : List Text) (ps : List Piece)
    (err : EvaluationError) : Prop :=
  ∃ place, e.BadAt lookup path ps place err ∧
    ∀ other err', e.BadAt lookup path ps other err' → other ≠ place →
      List.Lex (· < ·) place other

variable {e : Evaluator} {lookup : Text → Option Text} {path met : List Text} {ps rest : List Piece}
  {place : List Nat} {p q : Placeholder} {piece : Piece} {i : Nat} {err : EvaluationError}

/-! Places of the references met -/

theorem not_meets_nil : ¬ e.Meets lookup path ps [] met p := by
  rintro ⟨⟩

theorem not_meets_no_pieces : ¬ e.Meets lookup path [] (i :: place) met p := by
  intro h
  cases h with
  | here at_i => cases at_i
  | value at_i => cases at_i
  | fallback at_i => cases at_i

theorem meets_succ :
    e.Meets lookup path (piece :: rest) ((i + 1) :: place) met p ↔
      e.Meets lookup path rest (i :: place) met p := by
  constructor
  · intro h
    cases h with
    | here at_i => exact .here at_i
    | value at_i hcycle hvalue hdepth inner => exact .value at_i hcycle hvalue hdepth inner
    | fallback at_i hcycle hvalue hf inner => exact .fallback at_i hcycle hvalue hf inner
  · intro h
    cases h with
    | here at_i => exact .here at_i
    | value at_i hcycle hvalue hdepth inner => exact .value at_i hcycle hvalue hdepth inner
    | fallback at_i hcycle hvalue hf inner => exact .fallback at_i hcycle hvalue hf inner

/-- What is met through the first piece is met through a reference. -/
theorem exists_reference_of_meets_zero
    (h : e.Meets lookup path (piece :: rest) (0 :: place) met p) :
    ∃ q, piece = .reference q := by
  cases h with
  | here at_i => exact ⟨_, Option.some.inj at_i⟩
  | value at_i => exact ⟨_, Option.some.inj at_i⟩
  | fallback at_i => exact ⟨_, Option.some.inj at_i⟩

/-- What is met through a reference: itself, what its value leads to, or what its fallback leads
to. -/
theorem meets_reference :
    e.Meets lookup path (.reference q :: rest) (0 :: place) met p ↔
      (place = [] ∧ met = path ∧ p = q) ∨
      (∃ value, q.name ∉ path ∧ lookup q.name = some value ∧ ¬ e.maxDepth < path.length + 1 ∧
        e.Meets lookup (path ++ [q.name]) (pieces value) place met p) ∨
      ∃ fallback, q.name ∉ path ∧ lookup q.name = none ∧ q.fallback = some fallback ∧
        e.Meets lookup path (pieces fallback) place met p := by
  constructor
  · intro h
    cases h with
    | here at_i =>
        cases at_i
        exact .inl ⟨rfl, rfl, rfl⟩
    | value at_i hcycle hvalue hdepth inner =>
        cases at_i
        exact .inr (.inl ⟨_, hcycle, hvalue, hdepth, inner⟩)
    | fallback at_i hcycle hvalue hf inner =>
        cases at_i
        exact .inr (.inr ⟨_, hcycle, hvalue, hf, inner⟩)
  · rintro (⟨rfl, rfl, rfl⟩ | ⟨value, hcycle, hvalue, hdepth, inner⟩ |
      ⟨fallback, hcycle, hvalue, hf, inner⟩)
    · exact .here rfl
    · exact .value rfl hcycle hvalue hdepth inner
    · exact .fallback rfl hcycle hvalue hf inner

/-- At a place at most one reference is met. -/
theorem Meets.unique {met' : List Text} {p' : Placeholder}
    (h : e.Meets lookup path ps place met p) (h' : e.Meets lookup path ps place met' p') :
    met = met' ∧ p = p' := by
  induction h with
  | here at_i =>
      cases h' with
      | here at_i' =>
          rw [at_i] at at_i'
          cases at_i'
          exact ⟨rfl, rfl⟩
      | value _ _ _ _ inner => exact absurd inner not_meets_nil
      | fallback _ _ _ _ inner => exact absurd inner not_meets_nil
  | value at_i hcycle hvalue hdepth inner ih =>
      cases h' with
      | here => exact absurd inner not_meets_nil
      | value at_i' _ hvalue' _ inner' =>
          rw [at_i] at at_i'
          cases at_i'
          rw [hvalue] at hvalue'
          cases hvalue'
          exact ih inner'
      | fallback at_i' _ hvalue' =>
          rw [at_i] at at_i'
          cases at_i'
          rw [hvalue] at hvalue'
          cases hvalue'
  | fallback at_i hcycle hvalue hf inner ih =>
      cases h' with
      | here => exact absurd inner not_meets_nil
      | value at_i' _ hvalue' =>
          rw [at_i] at at_i'
          cases at_i'
          rw [hvalue] at hvalue'
          cases hvalue'
      | fallback at_i' _ _ hf' inner' =>
          rw [at_i] at at_i'
          cases at_i'
          rw [hf] at hf'
          cases hf'
          exact ih inner'

theorem Bad.unique {err' : EvaluationError} (h : Bad e lookup path p err)
    (h' : Bad e lookup path p err') : err = err' := by
  cases h with
  | cyclic hcycle =>
      cases h' with
      | cyclic => rfl
      | tooDeep hcycle' => exact absurd hcycle hcycle'
  | tooDeep hcycle =>
      cases h' with
      | cyclic hcycle' => exact absurd hcycle' hcycle
      | tooDeep => rfl

theorem BadAt.unique {err' : EvaluationError} (h : e.BadAt lookup path ps place err)
    (h' : e.BadAt lookup path ps place err') : err = err' := by
  obtain ⟨met, p, hmeets, hbad⟩ := h
  obtain ⟨met', p', hmeets', hbad'⟩ := h'
  obtain ⟨rfl, rfl⟩ := hmeets.unique hmeets'
  exact hbad.unique hbad'

/-! Exploration ends -/

/-- The places of the references met. -/
def places (e : Evaluator) (lookup : Text → Option Text) (path : List Text) (ps : List Piece) :
    Set (List Nat) :=
  {place | ∃ met p, e.Meets lookup path ps place met p}

/-- The places met through pieces behind another one. -/
def shifted : List Nat → List Nat
  | [] => []
  | i :: place => (i + 1) :: place

theorem mem_places_cons (h : place ∈ e.places lookup path (piece :: rest)) :
    (∃ inner met p, place = 0 :: inner ∧
      e.Meets lookup path (piece :: rest) (0 :: inner) met p) ∨
      place ∈ shifted '' e.places lookup path rest := by
  obtain ⟨met, p, hmeets⟩ := h
  match place with
  | [] => exact absurd hmeets not_meets_nil
  | 0 :: inner => exact .inl ⟨inner, met, p, rfl, hmeets⟩
  | (i + 1) :: inner => exact .inr ⟨i :: inner, ⟨met, p, meets_succ.1 hmeets⟩, rfl⟩

/-- The places met through a reference, the reference itself apart. -/
def innerPlaces (e : Evaluator) (lookup : Text → Option Text) (path : List Text) (q : Placeholder) :
    Set (List Nat) :=
  {place | ∃ value, lookup q.name = some value ∧ q.name ∉ path ∧ ¬ e.maxDepth < path.length + 1 ∧
    place ∈ e.places lookup (path ++ [q.name]) (pieces value)} ∪
  {place | ∃ fallback, q.fallback = some fallback ∧ place ∈ e.places lookup path (pieces fallback)}

theorem finite_innerPlaces
    (hvalue : ∀ value, lookup q.name = some value → q.name ∉ path →
      ¬ e.maxDepth < path.length + 1 →
      (e.places lookup (path ++ [q.name]) (pieces value)).Finite)
    (hfallback : ∀ fallback, q.fallback = some fallback →
      (e.places lookup path (pieces fallback)).Finite) :
    (e.innerPlaces lookup path q).Finite := by
  apply Set.Finite.union
  · by_cases h : ∃ value, lookup q.name = some value ∧ q.name ∉ path ∧
      ¬ e.maxDepth < path.length + 1
    · obtain ⟨value, hv, hcycle, hdepth⟩ := h
      apply (hvalue value hv hcycle hdepth).subset
      rintro place ⟨value', hv', _, _, hplace⟩
      rw [hv] at hv'
      cases hv'
      exact hplace
    · apply Set.finite_empty.subset
      rintro place ⟨value, hv, hcycle, hdepth, _⟩
      exact h ⟨value, hv, hcycle, hdepth⟩
  · cases hf : q.fallback with
    | none => simp
    | some fallback => simpa using hfallback fallback hf

theorem finite_places_plain (hpiece : ∀ q, piece ≠ .reference q)
    (h : (e.places lookup path rest).Finite) : (e.places lookup path (piece :: rest)).Finite := by
  apply (h.image shifted).subset
  intro place hplace
  rcases mem_places_cons hplace with ⟨inner, met, p, _, hmeets⟩ | hrest
  · obtain ⟨q, hq⟩ := exists_reference_of_meets_zero hmeets
    exact absurd hq (hpiece q)
  · exact hrest

/-- Only finitely many references are met: a value lengthens the path, which is bounded, and a
fallback is shorter than the text it stands in. -/
theorem finite_places (e : Evaluator) (lookup : Text → Option Text) (path : List Text)
    (ps : List Piece) : (e.places lookup path ps).Finite := by
  induction path, ps using e.expand_induction lookup with
  | nil path =>
      apply Set.finite_empty.subset
      rintro (_ | ⟨i, place⟩) ⟨met, p, hmeets⟩
      · exact not_meets_nil hmeets
      · exact not_meets_no_pieces hmeets
  | literal path c rest ih => exact finite_places_plain (by simp) ih
  | doubled path rest ih => exact finite_places_plain (by simp) ih
  | reference path q rest ihValue ihFallback ihRest =>
      have hinner := finite_innerPlaces ihValue ihFallback
      apply (((hinner.insert []).image (0 :: ·)).union (ihRest.image shifted)).subset
      intro place hplace
      rcases mem_places_cons hplace with ⟨inner, met, p, rfl, hmeets⟩ | hrest
      · refine .inl ⟨inner, ?_, rfl⟩
        rcases meets_reference.1 hmeets with ⟨rfl, _, _⟩ | ⟨value, hcycle, hv, hdepth, hin⟩ |
          ⟨fallback, _, _, hf, hin⟩
        · exact .inl rfl
        · exact .inr (.inl ⟨value, hv, hcycle, hdepth, met, p, hin⟩)
        · exact .inr (.inr ⟨fallback, hf, met, p, hin⟩)
      · exact .inr hrest

/-! The first bad reference -/

/-- An outcome that reports the first bad place, of places that are bad with an error. -/
def Reports (bad : List Nat → EvaluationError → Prop) : Except EvaluationError Text → Prop
  | .ok _ => ∀ place err, ¬ bad place err
  | .error err => ∃ place, bad place err ∧
      ∀ other err', bad other err' → other ≠ place → List.Lex (· < ·) place other

theorem Reports.congr {bad bad' : List Nat → EvaluationError → Prop}
    {r : Except EvaluationError Text} (h : Reports bad r)
    (hiff : ∀ place err, bad' place err ↔ bad place err) : Reports bad' r := by
  have : bad' = bad := by
    funext place err
    exact propext (hiff place err)
  rwa [this]

/-- What is reported of the first piece and of those behind it is reported of all: places behind
come later, and are looked at only if there is nothing bad before. -/
theorem Reports.bind {bad : List Nat → EvaluationError → Prop} {r : Except EvaluationError Text}
    {next : Text → Except EvaluationError Text} (hnil : ∀ err, ¬ bad [] err)
    (hfirst : Reports (fun place err => bad (0 :: place) err) r)
    (hrest : ∀ t, Reports
      (fun place err => ∃ i inner, place = i :: inner ∧ bad ((i + 1) :: inner) err) (next t)) :
    Reports bad (r.bind next) := by
  cases r with
  | error err =>
      obtain ⟨place, hbad, hleast⟩ := hfirst
      refine ⟨0 :: place, hbad, ?_⟩
      rintro (_ | ⟨_ | i, other⟩) err' hother hne
      · exact absurd hother (hnil err')
      · exact .cons (hleast other err' hother fun heq => hne (by rw [heq]))
      · exact .rel (Nat.succ_pos i)
  | ok t =>
      -- Nothing is bad through the first piece, so that the first bad place, if any, is behind it.
      change Reports bad (next t)
      have hnext := hrest t
      cases hcase : next t with
      | error err =>
          rw [hcase] at hnext
          obtain ⟨_, ⟨i, place, rfl, hbad⟩, hleast⟩ := hnext
          refine ⟨(i + 1) :: place, hbad, ?_⟩
          rintro (_ | ⟨_ | j, other⟩) err' hother hne
          · exact absurd hother (hnil err')
          · exact absurd hother (hfirst other err')
          · have hlater := hleast (j :: other) err' ⟨j, other, rfl, hother⟩ fun heq =>
              hne (by rw [List.cons.inj heq |>.1, List.cons.inj heq |>.2])
            cases hlater with
            | rel hlt => exact .rel (Nat.succ_lt_succ hlt)
            | cons htail => exact .cons htail
      | ok u =>
          rw [hcase] at hnext
          rintro (_ | ⟨_ | j, other⟩) err' hother
          · exact hnil err' hother
          · exact hfirst other err' hother
          · exact hnext (j :: other) err' ⟨j, other, rfl, hother⟩

theorem Reports.map {bad : List Nat → EvaluationError → Prop} {r : Except EvaluationError Text}
    (h : Reports bad r) (f : Text → Text) : Reports bad (r.map f) := by
  cases r with
  | error err => exact h
  | ok t => exact h

theorem not_badAt_nil : ¬ e.BadAt lookup path ps [] err := by
  rintro ⟨met, p, hmeets, _⟩
  exact not_meets_nil hmeets

theorem badAt_succ :
    (∃ i inner, place = i :: inner ∧ e.BadAt lookup path (piece :: rest) ((i + 1) :: inner) err) ↔
      e.BadAt lookup path rest place err := by
  constructor
  · rintro ⟨i, inner, rfl, met, p, hmeets, hbad⟩
    exact ⟨met, p, meets_succ.1 hmeets, hbad⟩
  · intro h
    match place with
    | [] => exact absurd h not_badAt_nil
    | i :: inner =>
        obtain ⟨met, p, hmeets, hbad⟩ := h
        exact ⟨i, inner, rfl, met, p, meets_succ.2 hmeets, hbad⟩

/-- A reference that is bad itself comes before all that is met through it. -/
theorem reports_bad (hbad : Bad e lookup path q err) :
    Reports (fun place err => e.BadAt lookup path (.reference q :: rest) (0 :: place) err)
      (.error err) := by
  refine ⟨[], ⟨path, q, .here rfl, hbad⟩, ?_⟩
  intro other _ _ hne
  cases other with
  | nil => exact absurd rfl hne
  | cons => exact .nil

theorem badAt_value {value : Text} (hcycle : q.name ∉ path) (hvalue : lookup q.name = some value)
    (hdepth : ¬ e.maxDepth < path.length + 1) :
    e.BadAt lookup path (.reference q :: rest) (0 :: place) err ↔
      e.BadAt lookup (path ++ [q.name]) (pieces value) place err := by
  constructor
  · rintro ⟨met, p, hmeets, hbad⟩
    rcases meets_reference.1 hmeets with ⟨_, rfl, rfl⟩ | ⟨value', _, hv, _, hin⟩ | ⟨_, _, hv, _⟩
    · cases hbad with
      | cyclic hmem => exact absurd hmem hcycle
      | tooDeep _ _ hdeep => exact absurd hdeep hdepth
    · rw [hvalue] at hv
      cases hv
      exact ⟨met, p, hin, hbad⟩
    · rw [hvalue] at hv
      cases hv
  · rintro ⟨met, p, hin, hbad⟩
    exact ⟨met, p, .value rfl hcycle hvalue hdepth hin, hbad⟩

/-- Behind a reference to a name without value, only its fallback can hold anything bad. -/
theorem badAt_fallback (hcycle : q.name ∉ path) (hvalue : lookup q.name = none) :
    e.BadAt lookup path (.reference q :: rest) (0 :: place) err ↔
      ∃ fallback, q.fallback = some fallback ∧
        e.BadAt lookup path (pieces fallback) place err := by
  constructor
  · rintro ⟨met, p, hmeets, hbad⟩
    rcases meets_reference.1 hmeets with ⟨_, rfl, rfl⟩ | ⟨_, _, hv, _⟩ | ⟨fallback, _, _, hf, hin⟩
    · cases hbad with
      | cyclic hmem => exact absurd hmem hcycle
      | tooDeep _ hv =>
          rw [hvalue] at hv
          cases hv
    · rw [hvalue] at hv
      cases hv
    · exact ⟨fallback, hf, met, p, hin, hbad⟩
  · rintro ⟨fallback, hf, met, p, hin, hbad⟩
    exact ⟨met, p, .fallback rfl hcycle hvalue hf hin, hbad⟩

theorem exists_missing_eq_ok (hpolicy : e.policy ≠ .fail) (q : Placeholder) :
    ∃ t, e.missing q = .ok t := by
  unfold missing
  split
  · exact ⟨_, rfl⟩
  · exact ⟨_, rfl⟩
  · exact absurd ‹_› hpolicy

theorem reports_resolve (hpolicy : e.policy ≠ .fail)
    (hvalue : ∀ value, lookup q.name = some value → q.name ∉ path →
      ¬ e.maxDepth < path.length + 1 →
      Reports (e.BadAt lookup (path ++ [q.name]) (pieces value))
        (e.expand lookup (path ++ [q.name]) (pieces value)))
    (hfallback : ∀ fallback, q.fallback = some fallback →
      Reports (e.BadAt lookup path (pieces fallback)) (e.expand lookup path (pieces fallback))) :
    Reports (fun place err => e.BadAt lookup path (.reference q :: rest) (0 :: place) err)
      (e.resolve lookup path q) := by
  by_cases hcycle : q.name ∈ path
  · rw [e.resolve_of_mem hcycle]
    exact reports_bad (.cyclic hcycle)
  cases hlookup : lookup q.name with
  | some value =>
      by_cases hdepth : e.maxDepth < path.length + 1
      · rw [e.resolve_of_tooDeep hcycle hlookup hdepth]
        exact reports_bad (.tooDeep hcycle hlookup hdepth)
      · rw [e.resolve_of_value hcycle hlookup hdepth]
        apply (hvalue value hlookup hcycle hdepth).congr
        intro place err
        exact badAt_value hcycle hlookup hdepth
  | none =>
      cases hf : q.fallback with
      | some fallback =>
          rw [e.resolve_of_fallback hcycle hlookup hf]
          apply (hfallback fallback hf).congr
          intro place err
          rw [badAt_fallback hcycle hlookup, hf]
          simp
      | none =>
          obtain ⟨t, ht⟩ := exists_missing_eq_ok hpolicy q
          rw [e.resolve_of_missing hcycle hlookup hf, ht]
          intro place err hbad
          obtain ⟨_, hf', _⟩ := (badAt_fallback hcycle hlookup).1 hbad
          rw [hf] at hf'
          cases hf'

/-- A first piece that is no reference changes nothing about what is reported. -/
theorem reports_plain (hpiece : ∀ q, piece ≠ .reference q) {r : Except EvaluationError Text}
    (h : Reports (e.BadAt lookup path rest) r) :
    Reports (e.BadAt lookup path (piece :: rest)) r := by
  have hbind : (Except.ok [] : Except EvaluationError Text).bind (fun _ => r) = r := rfl
  rw [← hbind]
  refine Reports.bind (fun _ => not_badAt_nil) ?_ ?_
  · rintro place err ⟨met, p, hmeets, _⟩
    obtain ⟨q, hq⟩ := exists_reference_of_meets_zero hmeets
    exact hpiece q hq
  · intro _
    exact h.congr fun _ _ => badAt_succ

/-- What an expansion reports, by induction along it: the first piece is reported of, and then the
pieces behind it. -/
theorem reports_expand (hpolicy : e.policy ≠ .fail) (lookup : Text → Option Text)
    (path : List Text) (ps : List Piece) :
    Reports (e.BadAt lookup path ps) (e.expand lookup path ps) := by
  induction path, ps using e.expand_induction lookup with
  | nil path =>
      rw [expand_nil]
      rintro (_ | ⟨i, place⟩) err ⟨met, p, hmeets, _⟩
      · exact not_meets_nil hmeets
      · exact not_meets_no_pieces hmeets
  | literal path c rest ih =>
      rw [expand_literal]
      exact reports_plain (by simp) (ih.map _)
  | doubled path rest ih =>
      rw [expand_doubled]
      exact reports_plain (by simp) (ih.map _)
  | reference path q rest ihValue ihFallback ihRest =>
      rw [expand_reference]
      apply Reports.bind (fun _ => not_badAt_nil) (reports_resolve hpolicy ihValue ihFallback)
      intro t
      exact (ihRest.map (t ++ ·)).congr fun _ _ => badAt_succ

theorem FirstBad.unique {err' : EvaluationError} (h : e.FirstBad lookup path ps err)
    (h' : e.FirstBad lookup path ps err') : err = err' := by
  obtain ⟨place, hbad, hleast⟩ := h
  obtain ⟨place', hbad', hleast'⟩ := h'
  by_cases heq : place' = place
  · subst heq
    exact hbad.unique hbad'
  · -- Each of two different places would come before the other.
    have hlt := hleast place' err' hbad' heq
    have hgt := hleast' place err hbad (Ne.symm heq)
    exact absurd hgt (List.lt_asymm hlt)

/-- Evaluation ends, since only finitely many references are met on the way, and unless missing
names are errors it gives a text exactly if none of them is bad; otherwise its error is that of the
first bad one. -/
theorem evaluate_eq_error_iff_firstBad (e : Evaluator) (hpolicy : e.policy ≠ .fail)
    (lookup : Text → Option Text) (name : Option Text) (raw : Text) :
    {place | ∃ met p, e.Meets lookup (seed name) (pieces raw) place met p}.Finite ∧
    ((∃ t, e.evaluate lookup name raw = .ok t) ↔
      ∀ place met p err, e.Meets lookup (seed name) (pieces raw) place met p →
        ¬ Bad e lookup met p err) ∧
    ∀ err, e.evaluate lookup name raw = .error err ↔
      e.FirstBad lookup (seed name) (pieces raw) err := by
  have hreports := reports_expand hpolicy lookup (seed name) (pieces raw)
  refine ⟨e.finite_places lookup (seed name) (pieces raw), ?_, ?_⟩
  · constructor
    · rintro ⟨t, ht⟩ place met p err hmeets hbad
      rw [← evaluate, ht] at hreports
      exact hreports place err ⟨met, p, hmeets, hbad⟩
    · intro hgood
      cases hcase : e.evaluate lookup name raw with
      | ok t => exact ⟨t, rfl⟩
      | error err =>
          rw [← evaluate, hcase] at hreports
          obtain ⟨place, ⟨met, p, hmeets, hbad⟩, _⟩ := hreports
          exact absurd hbad (hgood place met p err hmeets)
  · intro err
    constructor
    · intro herr
      rw [← evaluate, herr] at hreports
      exact hreports
    · intro hfirst
      cases hcase : e.evaluate lookup name raw with
      | ok t =>
          rw [← evaluate, hcase] at hreports
          obtain ⟨place, hbad, _⟩ := hfirst
          exact absurd hbad (hreports place err)
      | error err' =>
          rw [← evaluate, hcase] at hreports
          have hsame : err' = err := FirstBad.unique hreports hfirst
          rw [hsame]

/-- Values where `a` is referred to through the fallback of a missing name, behind a reference that
is fine and in front of one that is too deep. -/
def mixedFaults : Text → Option Text :=
  (Mapping.ofList [(("a" : Text), ("$\x7bok\x7d$\x7bm:$\x7ba\x7d\x7d$\x7bb\x7d" : Text)),
    ("b", "$\x7bc\x7d"), ("c", "1"), ("ok", "2")]).find?

theorem pieces_reference_a : pieces "$\x7ba\x7d" = [.reference ⟨"a", none⟩] := by cbv

theorem expand_mixedFaults :
    (Evaluator.mk 2 .keep).expand mixedFaults ["a"]
      [.reference ⟨"ok", none⟩, .reference ⟨"m", some "$\x7ba\x7d"⟩, .reference ⟨"b", none⟩] =
      .error (.cyclic ["a", "a"]) := by
  have hok : (Evaluator.mk 2 .keep).resolve mixedFaults ["a"] ⟨"ok", none⟩ = .ok "2" := by
    have hvalue : mixedFaults "ok" = some "2" := by decide
    have hpieces : pieces "2" = [.literal '2'] := by cbv
    rw [resolve_of_value _ (by decide) hvalue (by decide), hpieces, expand_literal, expand_nil]
    rfl
  have hcyclic : (Evaluator.mk 2 .keep).resolve mixedFaults ["a"] ⟨"m", some "$\x7ba\x7d"⟩ =
      .error (.cyclic ["a", "a"]) := by
    have hvalue : mixedFaults "m" = none := by decide
    rw [resolve_of_fallback _ (by decide) hvalue rfl, pieces_reference_a, expand_reference,
      resolve_of_mem _ (by decide)]
    rfl
  rw [expand_reference, hok, expand_reference, hcyclic]
  rfl

theorem evaluate_mixedFaults :
    (Evaluator.mk 2 .keep).policy ≠ .fail ∧
      (Evaluator.mk 2 .keep).evaluate mixedFaults none "$\x7ba\x7d" = .error (.cyclic ["a", "a"]) ∧
      (Evaluator.mk 2 .keep).FirstBad mixedFaults (seed none) (pieces "$\x7ba\x7d")
        (.cyclic ["a", "a"]) := by
  have hresolve : (Evaluator.mk 2 .keep).resolve mixedFaults (seed none) ⟨"a", none⟩ =
      .error (.cyclic ["a", "a"]) := by
    have hvalue : mixedFaults "a" = some "$\x7bok\x7d$\x7bm:$\x7ba\x7d\x7d$\x7bb\x7d" := by
      decide
    have hpieces : pieces "$\x7bok\x7d$\x7bm:$\x7ba\x7d\x7d$\x7bb\x7d" =
        [.reference ⟨"ok", none⟩, .reference ⟨"m", some "$\x7ba\x7d"⟩,
          .reference ⟨"b", none⟩] := by cbv
    rw [resolve_of_value _ (by decide) hvalue (by decide), hpieces]
    exact expand_mixedFaults
  have herr : (Evaluator.mk 2 .keep).evaluate mixedFaults none "$\x7ba\x7d" =
      .error (.cyclic ["a", "a"]) := by
    rw [evaluate, pieces_reference_a, expand_reference, hresolve]
    rfl
  have hpolicy : (Evaluator.mk 2 .keep).policy ≠ .fail := by decide
  exact ⟨hpolicy, herr,
    (((Evaluator.mk 2 .keep).evaluate_eq_error_iff_firstBad hpolicy mixedFaults none _).2.2 _).1
      herr⟩

end VersionedProperties.Evaluator
