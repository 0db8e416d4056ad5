import VersionedProperties.Proofs.Reference.Expansion
import VersionedProperties.Reference.Located

/-!
# Templates

A template is a text as it is meant: literal texts and references, where a reference may have a
template as its fallback. `render` writes a template down, with every marker of a literal doubled,
and `meaning` says directly what it stands for. Reading a rendered template gives its references
back at their positions, and evaluating it gives its meaning.

A literal inside a fallback must not hold a closing brace, which would end the fallback: there is no
way to write one. The type of templates keeps to this, and the names of references hold nothing that
ends a name.
-/

namespace VersionedProperties

/-- A name that a reference can be written with. -/
structure ReferenceName where
  text : Text
  trim_text : Text.trim text = text
  text_ne_nil : text ≠ []
  isFree : ∀ c ∈ text, c ≠ .marker ∧ c ≠ .closing ∧ c ≠ .colon

/-- Literal texts and references in a row. Inside a fallback, literals hold no closing brace. -/
inductive Template : (inFallback : Bool) → Type where
  | nil {inFallback : Bool} : Template inFallback
  | literal {inFallback : Bool} (t : Text) (closed : inFallback = true → CodePoint.closing ∉ t)
      (rest : Template inFallback) : Template inFallback
  | reference {inFallback : Bool} (name : ReferenceName) (rest : Template inFallback) :
      Template inFallback
  | referenceOr {inFallback : Bool} (name : ReferenceName) (fallback : Template true)
      (rest : Template inFallback) : Template inFallback

namespace Template

/-- A literal text with every marker doubled. -/
def doubled (t : Text) : Text :=
  t.flatMap fun c => if c = .marker then [.marker, .marker] else [c]

/-- A reference without fallback, as it is written. -/
def plain (name : ReferenceName) : Placeholder := ⟨name.text, none⟩

/-- A reference with a fallback, as it is written. -/
def withFallback (name : ReferenceName) (fallback : Text) : Placeholder :=
  ⟨name.text, some fallback⟩

/-- A template written down. -/
def render {inFallback : Bool} : Template inFallback → Text
  | .nil => []
  | .literal t _ rest => doubled t ++ rest.render
  | .reference name rest => (plain name).written ++ rest.render
  | .referenceOr name fallback rest =>
    (withFallback name fallback.render).written ++ rest.render

/-- The references of a template that is written at a position, those in fallbacks left out. -/
def located {inFallback : Bool} (position : Nat) : Template inFallback → List Reference
  | .nil => []
  | .literal t _ rest => rest.located (position + (doubled t).length)
  | .reference name rest =>
    let stop := position + (plain name).written.length
    ⟨position, stop, name.text, none⟩ :: rest.located stop
  | .referenceOr name fallback rest =>
    let stop := position + (withFallback name fallback.render).written.length
    ⟨position, stop, name.text, some fallback.render⟩ :: rest.located stop

section Meaning

variable (e : Evaluator) (lookup : Text → Option Text)

/-- What a name on a path stands for: for the evaluation of its value, and without value for what is
given in its place. A name that is on the path already closes a cycle, with or without value. -/
def meaningOfName (path : List Text) (name : Text) (missing : Except EvaluationError Text) :
    Except EvaluationError Text :=
  if name ∈ path then .error (.cyclic (Evaluator.cycle path name))
  else
    match lookup name with
    | some value =>
      if e.maxDepth < path.length + 1 then .error (.tooDeep e.maxDepth (path ++ [name]))
      else e.expand lookup (path ++ [name]) (pieces value)
    | none => missing

/-- What stands for a name that has neither value nor fallback. -/
def meaningOfMissing (name written : Text) : Except EvaluationError Text :=
  match e.policy with
  | .keep => .ok written
  | .empty => .ok []
  | .fail => .error (.unresolved name)

/-- What a template stands for in a text that is reached by a path. -/
def meaning (path : List Text) {inFallback : Bool} :
    Template inFallback → Except EvaluationError Text
  | .nil => .ok []
  | .literal t _ rest => (rest.meaning path).map (t ++ ·)
  | .reference name rest =>
    (meaningOfName e lookup path name.text
      (meaningOfMissing e name.text (plain name).written)).bind
      fun t => (rest.meaning path).map (t ++ ·)
  | .referenceOr name fallback rest =>
    (meaningOfName e lookup path name.text (fallback.meaning path)).bind
      fun t => (rest.meaning path).map (t ++ ·)

end Meaning

/-! Reading what was written -/

/-- The pieces of a literal text. -/
def literalPieces (t : Text) : List Piece :=
  t.map fun c => if c = .marker then .doubled else .literal c

/-- The pieces of a template. -/
def toPieces {inFallback : Bool} : Template inFallback → List Piece
  | .nil => []
  | .literal t _ rest => literalPieces t ++ rest.toPieces
  | .reference name rest => .reference (plain name) :: rest.toPieces
  | .referenceOr name fallback rest =>
    .reference (withFallback name fallback.render) :: rest.toPieces

end Template

theorem scanName_append {name : Text} (h : ∀ c ∈ name, c ≠ .marker ∧ c ≠ .closing ∧ c ≠ .colon)
    (rest : Text) :
    scanName (name ++ rest) =
      (scanName rest).map fun (n, more, rest) => (name ++ n, more, rest) := by
  induction name with
  | nil => simp
  | cons c name ih =>
      obtain ⟨hmarker, hclosing, hcolon⟩ := h c List.mem_cons_self
      rw [List.cons_append, scanName, if_neg hmarker, if_neg hclosing, if_neg hcolon,
        ih fun d hd => h d (List.mem_cons_of_mem c hd), Option.map_map]
      rfl

/-! A fallback is read up to the brace that closes it -/

section Fallback

variable (depth : Nat) (t : Text)

theorem scanFallback_plain {c : CodePoint} (hmarker : c ≠ .marker) (hclosing : c ≠ .closing) :
    scanFallback depth (c :: t) = (scanFallback depth t).map fun (f, rest) => (c :: f, rest) := by
  cases t with
  | nil => simp [scanFallback, hclosing]
  | cons d t => simp [scanFallback, hmarker, hclosing]

theorem scanFallback_doubled :
    scanFallback depth (.marker :: .marker :: t) =
      (scanFallback depth t).map fun (f, rest) => (.marker :: .marker :: f, rest) := by
  simp [scanFallback]

theorem scanFallback_opening :
    scanFallback depth (.marker :: .opening :: t) =
      (scanFallback (depth + 1) t).map fun (f, rest) => (.marker :: .opening :: f, rest) := by
  have hne : CodePoint.opening ≠ .marker := by decide
  simp [scanFallback, hne]

theorem scanFallback_closing :
    scanFallback (depth + 1) (.closing :: t) =
      (scanFallback depth t).map fun (f, rest) => (.closing :: f, rest) := by
  have hne : CodePoint.closing ≠ .marker := by decide
  cases t with
  | nil => simp [scanFallback]
  | cons d t => simp [scanFallback, hne]

theorem scanFallback_end : scanFallback 0 (.closing :: t) = some ([], t) := by
  have hne : CodePoint.closing ≠ .marker := by decide
  cases t with
  | nil => simp [scanFallback]
  | cons d t => simp [scanFallback, hne]

end Fallback

/-- A text that leaves a reader of fallbacks as deep as it was. -/
def IsBalanced (t : Text) : Prop :=
  ∀ (depth : Nat) (more : Text),
    scanFallback depth (t ++ more) = (scanFallback depth more).map fun (f, rest) => (t ++ f, rest)

theorem isBalanced_nil : IsBalanced [] := by
  intro depth more
  simp

theorem IsBalanced.append {s t : Text} (hs : IsBalanced s) (ht : IsBalanced t) :
    IsBalanced (s ++ t) := by
  intro depth more
  rw [List.append_assoc, hs, ht, Option.map_map]
  simp [Function.comp_def]

theorem isBalanced_plain {t : Text} (h : ∀ c ∈ t, c ≠ .marker ∧ c ≠ .closing) : IsBalanced t := by
  induction t with
  | nil => exact isBalanced_nil
  | cons c t ih =>
      intro depth more
      obtain ⟨hmarker, hclosing⟩ := h c List.mem_cons_self
      rw [List.cons_append, scanFallback_plain depth _ hmarker hclosing,
        ih (fun d hd => h d (List.mem_cons_of_mem c hd)), Option.map_map]
      rfl

theorem isBalanced_doubled {t : Text} (h : CodePoint.closing ∉ t) :
    IsBalanced (Template.doubled t) := by
  induction t with
  | nil => exact isBalanced_nil
  | cons c t ih =>
      rw [List.mem_cons, not_or] at h
      have hrest := ih h.2
      by_cases hc : c = .marker
      · intro depth more
        have hsplit : Template.doubled (c :: t) ++ more =
            .marker :: .marker :: (Template.doubled t ++ more) := by simp [Template.doubled, hc]
        rw [hsplit, scanFallback_doubled, hrest, Option.map_map]
        simp [Template.doubled, hc, Function.comp_def]
      · have hsplit : Template.doubled (c :: t) = [c] ++ Template.doubled t := by
          simp [Template.doubled, hc]
        rw [hsplit]
        apply IsBalanced.append _ hrest
        apply isBalanced_plain
        intro d hd
        rw [List.mem_singleton.1 hd]
        exact ⟨hc, Ne.symm h.1⟩

/-- Braces around a balanced text are balanced. -/
theorem isBalanced_braced {t : Text} (h : IsBalanced t) :
    IsBalanced (.marker :: .opening :: (t ++ [.closing])) := by
  intro depth more
  have hsplit : .marker :: .opening :: (t ++ [.closing]) ++ more =
      .marker :: .opening :: (t ++ .closing :: more) := by simp
  rw [hsplit, scanFallback_opening, h, scanFallback_closing, Option.map_map, Option.map_map]
  simp [Function.comp_def]

theorem isBalanced_name (name : ReferenceName) : IsBalanced name.text := by
  apply isBalanced_plain
  intro c hc
  exact ⟨(name.isFree c hc).1, (name.isFree c hc).2.1⟩

theorem isBalanced_written_plain (name : ReferenceName) :
    IsBalanced (Template.plain name).written :=
  isBalanced_braced (isBalanced_name name)

theorem isBalanced_written_withFallback (name : ReferenceName) {fallback : Text}
    (h : IsBalanced fallback) : IsBalanced (Template.withFallback name fallback).written := by
  have hcolon : IsBalanced [.colon] := by
    apply isBalanced_plain
    intro c hc
    rw [List.mem_singleton.1 hc]
    decide
  have hinner := isBalanced_braced ((isBalanced_name name).append (hcolon.append h))
  simpa [Placeholder.written, Placeholder.body, Template.withFallback] using hinner

/-- Inside a fallback, what a template is written as is balanced: its literals have no closing
brace, and its references have their own. -/
theorem isBalanced_render (t : Template true) : IsBalanced t.render := by
  -- The induction is over templates of both kinds, and only its hypothesis says which this one is.
  generalize hinner : true = inFallback at t
  induction t with
  | nil => exact isBalanced_nil
  | literal t closed rest ih => exact (isBalanced_doubled (closed hinner.symm)).append (ih hinner)
  | reference name rest ih => exact (isBalanced_written_plain name).append (ih hinner)
  | referenceOr name fallback rest ihFallback ih =>
      exact (isBalanced_written_withFallback name (ihFallback rfl)).append (ih hinner)

/-! Cutting a rendered template into pieces -/

theorem pieces_nil : pieces [] = [] := by
  rw [pieces]
  rfl

theorem pieces_of_split? {t rest : Text} {piece : Piece} (h : split? t = some (piece, rest)) :
    pieces t = piece :: pieces rest := by
  rw [pieces]
  split
  · rename_i hnone
    rw [h] at hnone
    cases hnone
  · rename_i piece' rest' hsome
    rw [h] at hsome
    cases hsome
    rfl

theorem split?_plain {c : CodePoint} (hc : c ≠ .marker) (t : Text) :
    split? (c :: t) = some (.literal c, t) := by
  cases t with
  | nil => rfl
  | cons d t => simp [split?, hc]

theorem split?_doubled (t : Text) : split? (.marker :: .marker :: t) = some (.doubled, t) := by
  simp [split?]

theorem split?_written {p : Placeholder} {rest : Text}
    (h : scanPlaceholder (p.body ++ rest) = some (p, rest)) :
    split? (p.written ++ rest) = some (.reference p, rest) := by
  have hne : CodePoint.opening ≠ .marker := by decide
  simp [Placeholder.written, split?, hne, h]

theorem scanPlaceholder_plain (name : ReferenceName) (rest : Text) :
    scanPlaceholder ((Template.plain name).body ++ rest) = some (Template.plain name, rest) := by
  have hend : scanName (.closing :: rest) = some ([], false, rest) := by
    have hne : CodePoint.closing ≠ .marker := by decide
    simp [scanName, hne]
  have hname : scanName (name.text ++ .closing :: rest) = some (name.text, false, rest) := by
    rw [scanName_append name.isFree, hend]
    simp
  have hbody : (Template.plain name).body ++ rest = name.text ++ .closing :: rest := by
    simp [Template.plain, Placeholder.body]
  have hblank : Text.trim name.text ≠ [] := by
    rw [name.trim_text]
    exact name.text_ne_nil
  rw [hbody, scanPlaceholder, hname]
  simp [hblank, Template.plain]

theorem scanPlaceholder_withFallback (name : ReferenceName) {fallback : Text}
    (h : IsBalanced fallback) (rest : Text) :
    scanPlaceholder ((Template.withFallback name fallback).body ++ rest) =
      some (Template.withFallback name fallback, rest) := by
  have hend : scanName (.colon :: (fallback ++ .closing :: rest)) =
      some ([], true, fallback ++ .closing :: rest) := by
    have hmarker : CodePoint.colon ≠ .marker := by decide
    have hclosing : CodePoint.colon ≠ .closing := by decide
    simp [scanName, hmarker, hclosing]
  have hname : scanName (name.text ++ .colon :: (fallback ++ .closing :: rest)) =
      some (name.text, true, fallback ++ .closing :: rest) := by
    rw [scanName_append name.isFree, hend]
    simp
  have hbody : (Template.withFallback name fallback).body ++ rest =
      name.text ++ .colon :: (fallback ++ .closing :: rest) := by
    simp [Template.withFallback, Placeholder.body]
  have hblank : Text.trim name.text ≠ [] := by
    rw [name.trim_text]
    exact name.text_ne_nil
  have hfallback : scanFallback 0 (fallback ++ .closing :: rest) = some (fallback, rest) := by
    rw [h, scanFallback_end]
    simp
  rw [hbody, scanPlaceholder, hname]
  simp [hblank, hfallback, Template.withFallback]

theorem pieces_doubled (t more : Text) :
    pieces (Template.doubled t ++ more) = Template.literalPieces t ++ pieces more := by
  induction t with
  | nil => rfl
  | cons c t ih =>
      by_cases hc : c = .marker
      · have hsplit : Template.doubled (c :: t) ++ more =
            .marker :: .marker :: (Template.doubled t ++ more) := by simp [Template.doubled, hc]
        rw [hsplit, pieces_of_split? (split?_doubled _), ih]
        simp [Template.literalPieces, hc]
      · have hsplit : Template.doubled (c :: t) ++ more = c :: (Template.doubled t ++ more) := by
          simp [Template.doubled, hc]
        rw [hsplit, pieces_of_split? (split?_plain hc _), ih]
        simp [Template.literalPieces, hc]

namespace Template

theorem pieces_render {inFallback : Bool} (t : Template inFallback) :
    pieces t.render = t.toPieces := by
  induction t with
  | nil => exact pieces_nil
  | literal t closed rest ih => rw [render, pieces_doubled, ih, toPieces]
  | reference name rest ih =>
      rw [render, pieces_of_split? (split?_written (scanPlaceholder_plain name _)), ih, toPieces]
  | referenceOr name fallback rest _ ih =>
      have hscan := scanPlaceholder_withFallback name (isBalanced_render fallback) rest.render
      rw [render, pieces_of_split? (split?_written hscan), ih, toPieces]

/-! Positions -/

theorem locate_literal (position : Nat) (c : CodePoint) (ps : List Piece) :
    locate position (.literal c :: ps) = locate (position + 1) ps := rfl

theorem locate_doubled (position : Nat) (ps : List Piece) :
    locate position (.doubled :: ps) = locate (position + 2) ps := rfl

theorem locate_literalPieces (position : Nat) (t : Text) (ps : List Piece) :
    locate position (literalPieces t ++ ps) = locate (position + (doubled t).length) ps := by
  induction t generalizing position with
  | nil => rfl
  | cons c t ih =>
      by_cases hc : c = .marker
      · have hpiece : literalPieces (c :: t) = .doubled :: literalPieces t := by
          simp [literalPieces, hc]
        have hlen : (doubled (c :: t)).length = 2 + (doubled t).length := by
          simp [doubled, hc]
          omega
        rw [hpiece, List.cons_append, locate_doubled, ih, hlen, ← Nat.add_assoc]
      · have hpiece : literalPieces (c :: t) = .literal c :: literalPieces t := by
          simp [literalPieces, hc]
        have hlen : (doubled (c :: t)).length = 1 + (doubled t).length := by
          simp [doubled, hc]
          omega
        rw [hpiece, List.cons_append, locate_literal, ih, hlen, ← Nat.add_assoc]

theorem name_plain (name : ReferenceName) : (plain name).name = name.text := name.trim_text

theorem name_withFallback (name : ReferenceName) (fallback : Text) :
    (withFallback name fallback).name = name.text :=
  name.trim_text

theorem locate_toPieces {inFallback : Bool} (t : Template inFallback) (position : Nat) :
    locate position t.toPieces = t.located position := by
  induction t generalizing position with
  | nil => rfl
  | literal t closed rest ih => rw [toPieces, locate_literalPieces, ih, located]
  | reference name rest ih =>
      rw [toPieces, locate, name_plain, ih, located]
      rfl
  | referenceOr name fallback rest _ ih =>
      rw [toPieces, locate, name_withFallback, ih, located]
      rfl

/-! Meaning -/

section Meaning

variable (e : Evaluator) (lookup : Text → Option Text) (path : List Text)

theorem expand_literalPieces (t : Text) (ps : List Piece) :
    e.expand lookup path (literalPieces t ++ ps) = (e.expand lookup path ps).map (t ++ ·) := by
  induction t with
  | nil =>
      cases h : e.expand lookup path ps <;> simp [literalPieces, h, Except.map]
  | cons c t ih =>
      have hcons : ∀ r : Except EvaluationError Text,
          (r.map (t ++ ·)).map (c :: ·) = r.map (c :: t ++ ·) := by
        intro r
        cases r <;> rfl
      by_cases hc : c = .marker
      · have hpiece : literalPieces (c :: t) = .doubled :: literalPieces t := by
          simp [literalPieces, hc]
        rw [hpiece, List.cons_append, Evaluator.expand_doubled, ih, ← hc, hcons]
      · have hpiece : literalPieces (c :: t) = .literal c :: literalPieces t := by
          simp [literalPieces, hc]
        rw [hpiece, List.cons_append, Evaluator.expand_literal, ih, hcons]

theorem doubled_of_not_mem {t : Text} (ht : CodePoint.marker ∉ t) : doubled t = t := by
  induction t with
  | nil => rfl
  | cons c t ih =>
      rw [List.mem_cons, not_or] at ht
      rw [doubled, List.flatMap_cons, if_neg (Ne.symm ht.1)]
      exact congrArg (c :: ·) (ih ht.2)

/-- A text without markers stands for itself. -/
theorem expand_of_not_mem {t : Text} (ht : CodePoint.marker ∉ t) :
    e.expand lookup path (pieces t) = .ok t := by
  have hpieces : pieces t = literalPieces t ++ [] := by
    have happend := pieces_doubled t []
    rwa [doubled_of_not_mem ht, List.append_nil, pieces_nil] at happend
  rw [hpieces, expand_literalPieces, Evaluator.expand_nil, Except.map, List.append_nil]

theorem evaluate_of_not_mem (name : Option Text) {t : Text} (ht : CodePoint.marker ∉ t) :
    e.evaluate lookup name t = .ok t :=
  expand_of_not_mem e lookup _ ht

theorem resolve_of_not_mem {p : Placeholder} {value : Text} (hcycle : p.name ∉ path)
    (hvalue : lookup p.name = some value) (hdepth : ¬ e.maxDepth < path.length + 1)
    (ht : CodePoint.marker ∉ value) : e.resolve lookup path p = .ok value := by
  rw [e.resolve_of_value hcycle hvalue hdepth, expand_of_not_mem e lookup _ ht]

theorem resolve_plain (name : ReferenceName) :
    e.resolve lookup path (plain name) =
      meaningOfName e lookup path name.text
        (meaningOfMissing e name.text (plain name).written) := by
  have hmissing : meaningOfMissing e name.text (plain name).written = e.missing (plain name) := by
    rw [Evaluator.missing, name_plain]
    rfl
  rw [Evaluator.resolve, name_plain, meaningOfName, hmissing]
  rfl

theorem resolve_withFallback (name : ReferenceName) (fallback : Text) :
    e.resolve lookup path (withFallback name fallback) =
      meaningOfName e lookup path name.text (e.expand lookup path (pieces fallback)) := by
  rw [Evaluator.resolve, name_withFallback, meaningOfName]
  rfl

theorem expand_toPieces {inFallback : Bool} (t : Template inFallback) :
    e.expand lookup path t.toPieces = t.meaning e lookup path := by
  induction t with
  | nil => exact e.expand_nil lookup path
  | literal t closed rest ih => rw [toPieces, expand_literalPieces, ih, meaning]
  | reference name rest ih =>
      rw [toPieces, Evaluator.expand_reference, resolve_plain, ih, meaning]
  | referenceOr name fallback rest ihFallback ih =>
      rw [toPieces, Evaluator.expand_reference, resolve_withFallback, pieces_render, ihFallback, ih,
        meaning]

end Meaning

/-- A rendered template has the references of the template, each with its name, its rendered
fallback and the positions where it is written, and evaluates to the meaning of the template. -/
theorem evaluate_render (t : Template false) :
    references t.render = t.located 0 ∧
      ∀ (e : Evaluator) (lookup : Text → Option Text) (name : Option Text),
        e.evaluate lookup name t.render = t.meaning e lookup (Evaluator.seed name) := by
  constructor
  · rw [references, pieces_render, locate_toPieces]
  · intro e lookup name
    rw [Evaluator.evaluate, pieces_render, expand_toPieces]

/-- The name `x`. -/
def nameX : ReferenceName := ⟨"x", by decide, by decide, by decide⟩

/-- A reference to `x` with the fallback `f`. -/
def xOrF : Template false := .referenceOr nameX (.literal "f" (by decide) .nil) .nil

/-- Where `x` has no value and the text belongs to `x` itself, the reference to `x` is a cycle and
its fallback does not stand in for it. -/
theorem evaluate_render_seedWithoutValue :
    xOrF.render = ("$\x7bx:f\x7d" : Text) ∧
      (Template.literal "f" (by decide) .nil : Template true).meaning ⟨64, .keep⟩ (fun _ => none)
        (Evaluator.seed (some "x")) = .ok "f" ∧
      (Evaluator.mk 64 .keep).evaluate (fun _ => none) (some "x") xOrF.render =
        .error (.cyclic ["x", "x"]) := by
  refine ⟨by decide, rfl, ?_⟩
  rw [Evaluator.evaluate, pieces_render, expand_toPieces]
  rfl

end Template

end VersionedProperties
