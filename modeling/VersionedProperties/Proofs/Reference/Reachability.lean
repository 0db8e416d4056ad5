import Mathlib.Data.List.Permutation
import Mathlib.Logic.Function.Iterate
import Mathlib.Order.Bounds.Defs
import VersionedProperties.Proofs.Reference.Grammar
import VersionedProperties.Proofs.Reference.Graph

/-!
# What the walk over dependencies finds

A text cites the names of its references and those cited in their fallbacks. The dependencies of a
text are the least set that holds the names it cites and, with each name, those that its value
cites.

`Source.round` is one turn of the loop that both walks share: it takes one name from those to be
visited. `dependencies` is what has been seen when there is none left, which is so after one round
for every citation met; `dependsOn` tells whether the name it looks for is ever the next one.
-/

namespace VersionedProperties

/-- A text cites a name: by one of its references, or in the fallback of one. -/
inductive Cites : Text → Text → Prop
  | reference {raw : Text} {r : Reference} (hr : r ∈ references raw) : Cites raw r.name
  | fallback {raw fallback name : Text} {r : Reference} (hr : r ∈ references raw)
      (hf : r.fallback = some fallback) (inner : Cites fallback name) : Cites raw name

/-- A set holds the names that a text cites, and with each name those that its value cites. -/
structure Source.HoldsDependencies (s : Source) (raw : Text) (names : Set Text) : Prop where
  cited : ∀ name, Cites raw name → name ∈ names
  closed : ∀ name ∈ names, ∀ value, s.lookup name = some value →
    ∀ other, Cites value other → other ∈ names

/-- One round of a walk, on the names seen and those to be visited: the first of the latter is seen,
unless it has been before, and the names in its value are to be visited. -/
def Source.round (s : Source) : List Text × List Text → List Text × List Text
  | (seen, []) => (seen, [])
  | (seen, name :: pending) =>
    if name ∈ seen then (seen, pending) else (name :: seen, s.namesOf name ++ pending)

/-- The number of citations in the values of names. -/
def Source.citationCount (s : Source) (names : List Text) : Nat :=
  (names.flatMap s.namesOf).length

/-! Citations -/

theorem mem_referredNames_iff {name : Text} {ps : List Piece} :
    name ∈ referredNames ps ↔ ∃ p, .reference p ∈ ps ∧
      (name = p.name ∨ ∃ fallback, p.fallback = some fallback ∧ name ∈ namesIn fallback) := by
  induction ps with
  | nil => simp [referredNames]
  | cons piece rest ih =>
      cases piece with
      | literal c => simp [referredNames_literal, ih]
      | doubled => simp [referredNames_doubled, ih]
      | reference p =>
          rw [mem_referredNames_reference, ih]
          constructor
          · rintro (hname | hfallback | ⟨q, hq, hname⟩)
            · exact ⟨p, List.mem_cons_self, .inl hname⟩
            · exact ⟨p, List.mem_cons_self, .inr hfallback⟩
            · exact ⟨q, List.mem_cons_of_mem _ hq, hname⟩
          · rintro ⟨q, hq, hname⟩
            rcases List.mem_cons.1 hq with heq | hrest
            · cases heq
              exact hname.imp_right .inl
            · exact .inr (.inr ⟨q, hrest, hname⟩)

theorem exists_reference_of_mem_pieces {raw : Text} {p : Placeholder}
    (hp : .reference p ∈ pieces raw) :
    ∃ r ∈ references raw, r.name = p.name ∧ r.fallback = p.fallback := by
  obtain ⟨before, after, hpieces⟩ := List.append_of_mem hp
  exact ⟨_, mem_references_iff.2 ⟨before, p, after, hpieces, rfl⟩, rfl, rfl⟩

theorem exists_placeholder_of_mem_references {raw : Text} {r : Reference}
    (hr : r ∈ references raw) :
    ∃ p, .reference p ∈ pieces raw ∧ p.name = r.name ∧ p.fallback = r.fallback := by
  obtain ⟨before, p, after, hpieces, rfl⟩ := mem_references_iff.1 hr
  refine ⟨p, ?_, rfl, rfl⟩
  rw [hpieces]
  exact List.mem_append_right _ List.mem_cons_self

theorem mem_namesIn_of_cites {raw name : Text} (h : Cites raw name) :
    name ∈ namesIn raw := by
  induction h with
  | reference hr =>
      obtain ⟨p, hp, hname, -⟩ := exists_placeholder_of_mem_references hr
      exact mem_referredNames_iff.2 ⟨p, hp, .inl hname.symm⟩
  | fallback hr hf _ ih =>
      obtain ⟨p, hp, -, hfallback⟩ := exists_placeholder_of_mem_references hr
      exact mem_referredNames_iff.2 ⟨p, hp, .inr ⟨_, hfallback.trans hf, ih⟩⟩

/-- A fallback is shorter than the text that it is written in, so the nesting ends. -/
theorem length_fallback_lt_of_mem {raw fallback : Text} {p : Placeholder}
    (hp : .reference p ∈ pieces raw) (hf : p.fallback = some fallback) :
    fallback.length < raw.length := by
  obtain ⟨before, after, hpieces⟩ := List.append_of_mem hp
  have hwritten : writtenPieces before ++ (p.written ++ writtenPieces after) = raw := by
    rw [← writtenPieces_pieces raw, hpieces]
    simp [writtenPieces, Piece.written]
  have hlt := Placeholder.fallback_length_lt hf
  rw [← hwritten, List.length_append, List.length_append]
  omega

theorem cites_of_mem_namesIn {raw name : Text} (h : name ∈ namesIn raw) :
    Cites raw name := by
  obtain ⟨p, hp, hname | ⟨fallback, hf, hinner⟩⟩ := mem_referredNames_iff.1 h
  · obtain ⟨r, hr, hsame, -⟩ := exists_reference_of_mem_pieces hp
    rw [hname, ← hsame]
    exact .reference hr
  · obtain ⟨r, hr, -, hsame⟩ := exists_reference_of_mem_pieces hp
    have := length_fallback_lt_of_mem hp hf
    exact .fallback hr (hsame.trans hf) (cites_of_mem_namesIn hinner)
termination_by raw.length

namespace Source

variable (s : Source)

/-! Rounds -/

theorem round_of_mem {seen : List Text} {name : Text} (hs : name ∈ seen) (pending : List Text) :
    s.round (seen, name :: pending) = (seen, pending) := by
  rw [round, if_pos hs]

theorem round_of_not_mem {seen : List Text} {name : Text} (hs : name ∉ seen)
    (pending : List Text) :
    s.round (seen, name :: pending) = (name :: seen, s.namesOf name ++ pending) := by
  rw [round, if_neg hs]

theorem nodup_reach {seen : List Text} (hseen : seen.Nodup) (pending : List Text) :
    (s.reach seen pending).Nodup := by
  fun_induction reach s seen pending with
  | case1 => exact hseen
  | case2 seen name pending hs ih => exact ih hseen
  | case3 seen name pending hs ih => exact ih (List.nodup_cons.2 ⟨hs, hseen⟩)

/-- Each round takes one citation away, and those in a value are added just once, when its name is
first seen. -/
theorem exists_rounds_reach (seen pending : List Text) :
    ∃ k, k + s.citationCount seen = pending.length + s.citationCount (s.reach seen pending) ∧
      s.round^[k] (seen, pending) = (s.reach seen pending, []) := by
  fun_induction reach s seen pending with
  | case1 seen => exact ⟨0, by simp, rfl⟩
  | case2 seen name pending hs ih =>
      obtain ⟨k, hk, hround⟩ := ih
      refine ⟨k + 1, ?_, ?_⟩
      · rw [List.length_cons]
        omega
      · rw [Function.iterate_succ_apply, s.round_of_mem hs, hround]
  | case3 seen name pending hs ih =>
      obtain ⟨k, hk, hround⟩ := ih
      refine ⟨k + 1, ?_, ?_⟩
      · rw [citationCount, List.flatMap_cons, List.length_append] at hk
        rw [citationCount, List.length_cons]
        rw [List.length_append] at hk
        omega
      · rw [Function.iterate_succ_apply, s.round_of_not_mem hs, hround]

theorem rounds_dependencies (raw : Text) :
    s.round^[(namesIn raw).length + s.citationCount (s.dependencies raw)] ([], namesIn raw) =
      (s.dependencies raw, []) := by
  obtain ⟨k, hk, hround⟩ := s.exists_rounds_reach [] (namesIn raw)
  have hcount : (namesIn raw).length + s.citationCount (s.dependencies raw) = k := hk.symm
  rw [hcount, hround, dependencies]

/-- Whether a name is the next one to be visited after some number of rounds. -/
def Meets (target : Text) (walk : List Text × List Text) : Prop :=
  ∃ k, (s.round^[k] walk).2.head? = some target

variable {s} {target : Text}

theorem not_meets_nil (seen : List Text) : ¬ s.Meets target (seen, []) := by
  rintro ⟨k, hk⟩
  rw [Function.iterate_fixed rfl] at hk
  cases hk

theorem meets_iff_of_ne {seen : List Text} {name : Text} (hne : name ≠ target)
    (pending : List Text) :
    s.Meets target (seen, name :: pending) ↔ s.Meets target (s.round (seen, name :: pending)) := by
  constructor
  · rintro ⟨k, hk⟩
    cases k with
    | zero => exact absurd (Option.some.inj hk) hne
    | succ k => exact ⟨k, hk⟩
  · rintro ⟨k, hk⟩
    exact ⟨k + 1, hk⟩

theorem reaches_iff_meets (seen pending : List Text) :
    s.reaches target seen pending = true ↔ s.Meets target (seen, pending) := by
  fun_induction reaches s target seen pending with
  | case1 seen => exact iff_of_false Bool.false_ne_true (not_meets_nil seen)
  | case2 seen pending => exact iff_of_true rfl ⟨0, rfl⟩
  | case3 seen name pending hne hs ih =>
      rw [meets_iff_of_ne hne, s.round_of_mem hs]
      exact ih
  | case4 seen name pending hne hs ih =>
      rw [meets_iff_of_ne hne, s.round_of_not_mem hs]
      exact ih

/-! The least set -/

theorem holdsDependencies_dependencies (s : Source) (raw : Text) :
    s.HoldsDependencies raw {name | name ∈ s.dependencies raw} where
  cited name hname := s.mem_dependencies_of_mem_namesIn (mem_namesIn_of_cites hname)
  closed name hname value hvalue other hother := by
    apply s.isClosed_dependencies raw name hname
    rw [namesOf_of_lookup hvalue]
    exact mem_namesIn_of_cites hother

theorem HoldsDependencies.mem_of_refers {raw : Text} {names : Set Text}
    (h : s.HoldsDependencies raw names) {name other : Text} (hname : name ∈ names)
    (hrefers : s.Refers name other) : other ∈ names := by
  rw [Refers, namesOf] at hrefers
  split at hrefers
  · exact h.closed name hname _ ‹_› other (cites_of_mem_namesIn hrefers)
  · cases hrefers

theorem HoldsDependencies.mem_of_mem_dependencies {raw : Text} {names : Set Text}
    (h : s.HoldsDependencies raw names) {name : Text} (hname : name ∈ s.dependencies raw) :
    name ∈ names := by
  obtain ⟨first, hfirst, hpath⟩ :=
    (s.dependsOn_iff_leads raw name).1 ((s.dependsOn_iff raw name).2 hname)
  induction hpath with
  | refl => exact h.cited _ (cites_of_mem_namesIn hfirst)
  | tail hpath hlast ih =>
      exact h.mem_of_refers (ih ((s.isClosed_dependencies raw).mem_of_path
        (s.mem_dependencies_of_mem_namesIn hfirst) hpath)) hlast

theorem dependsOn_congr_of_ne {t : Source} (hagree : ∀ n, n ≠ target → t.lookup n = s.lookup n)
    (raw : Text) : t.dependsOn raw target = s.dependsOn raw target := by
  rw [Bool.eq_iff_iff, dependsOn_iff_leads, dependsOn_iff_leads]
  exact ⟨leads_congr fun n hn => (hagree n hn).symm, leads_congr hagree⟩

/-- The dependencies of a text, each listed once, are the least set that holds the names cited in it
and with each name those cited in its value. The walk has found them, with nothing left to visit,
after as many rounds as there are citations in the text and in the values of its dependencies. A
text depends on a name just if it is among them, which is so just if the name is ever the next to be
visited, and the value of the name itself is of no account for that. -/
theorem isLeast_dependencies (s : Source) (raw : Text) :
    IsLeast {names : Set Text | s.HoldsDependencies raw names} {n | n ∈ s.dependencies raw} ∧
      (s.dependencies raw).Nodup ∧
      s.round^[(namesIn raw).length + s.citationCount (s.dependencies raw)] ([], namesIn raw) =
        (s.dependencies raw, []) ∧
      ∀ target,
        (s.dependsOn raw target = true ↔ target ∈ s.dependencies raw) ∧
        (s.dependsOn raw target = true ↔ s.Meets target ([], namesIn raw)) ∧
        ∀ t : Source, (∀ n, n ≠ target → t.lookup n = s.lookup n) →
          t.dependsOn raw target = s.dependsOn raw target := by
  refine ⟨⟨s.holdsDependencies_dependencies raw, ?_⟩, s.nodup_reach List.nodup_nil _,
    s.rounds_dependencies raw, ?_⟩
  · intro names hnames name hname
    exact hnames.mem_of_mem_dependencies hname
  · intro target
    exact ⟨s.dependsOn_iff raw target, reaches_iff_meets [] _,
      fun t hagree => dependsOn_congr_of_ne hagree raw⟩

/-- Values of which two lead in a circle, one of them to itself, and `c` stands in a fallback. -/
def circleWithFallback : Mapping Text Text :=
  .ofList [("a", "$\x7bb:$\x7bc\x7d\x7d"), ("b", "$\x7ba\x7d$\x7bb\x7d")]

theorem dependencies_circleWithFallback :
    (ofMapping circleWithFallback id).dependencies "<$\x7ba\x7d>" = [("c" : Text), "b", "a"] := by
  cbv

theorem isLeast_dependencies_circleWithFallback :
    let s := ofMapping circleWithFallback id
    let t := ofMapping (circleWithFallback.insert "c" "$\x7bd\x7d") id
    (∀ n, n ≠ ("c" : Text) → t.lookup n = s.lookup n) ∧
      ("c" : Text) ∈ s.dependencies "<$\x7ba\x7d>" ∧ (s.dependencies "<$\x7ba\x7d>").Nodup ∧
      s.Meets "c" ([], namesIn "<$\x7ba\x7d>") ∧ t.dependsOn "<$\x7ba\x7d>" "c" = true := by
  intro s t
  have hagree : ∀ n, n ≠ ("c" : Text) → t.lookup n = s.lookup n := by
    intro n hn
    change ((circleWithFallback.insert "c" _).find? n).map id = (circleWithFallback.find? n).map id
    rw [Mapping.find?_insert, if_neg hn]
  have hfound : ("c" : Text) ∈ s.dependencies "<$\x7ba\x7d>" := by
    rw [dependencies_circleWithFallback]
    exact List.mem_cons_self
  obtain ⟨-, hnodup, -, htarget⟩ := s.isLeast_dependencies "<$\x7ba\x7d>"
  obtain ⟨hmem, hmeets, hlocal⟩ := htarget "c"
  have hdepends : s.dependsOn "<$\x7ba\x7d>" "c" = true := hmem.2 hfound
  exact ⟨hagree, hfound, hnodup, hmeets.1 hdepends, (hlocal t hagree).trans hdepends⟩

end Source

end VersionedProperties
