import VersionedProperties.Text.Blank

/-!
# References in a text

A text may refer to other properties: `$` and a name in braces stands for the value of the name, a
colon after the name starts a fallback that stands in where the name has no value, and two markers
`$` stand for one. A fallback may itself hold references, whose braces balance. Everything that is
not of this form is literal, a reference left open included.

`pieces` cuts a text into literal code points, doubled markers and references. What the pieces were
written as, one after the other, is the text again, so positions are lengths of written pieces.
-/

namespace VersionedProperties

namespace CodePoint

/-- The code point that starts a reference. -/
def marker : CodePoint := .scalar '$'

/-- The code point after the marker of a reference. -/
def opening : CodePoint := .scalar '\x7b'

/-- The code point that ends a reference. -/
def closing : CodePoint := .scalar '\x7d'

/-- The code point between a name and its fallback. -/
def colon : CodePoint := .scalar ':'

end CodePoint

/-- A reference as it is written: what stands between the braces. -/
structure Placeholder where
  /-- The name with the blanks around it. -/
  rawName : Text
  fallback : Option Text
  deriving DecidableEq

namespace Placeholder

/-- The name of the property that is referred to. -/
def name (p : Placeholder) : Text := Text.trim p.rawName

/-- The text between the opening brace and what follows the reference. -/
def body (p : Placeholder) : Text :=
  match p.fallback with
  | none => p.rawName ++ [.closing]
  | some fallback => p.rawName ++ .colon :: fallback ++ [.closing]

/-- The whole reference. -/
def written (p : Placeholder) : Text := .marker :: .opening :: p.body

theorem fallback_length_lt {p : Placeholder} {fallback : Text} (h : p.fallback = some fallback) :
    fallback.length < p.written.length := by
  simp [written, body, h]
  omega

end Placeholder

/-- The name at the beginning of a text, whether a fallback follows it, and the rest. -/
def scanName : Text → Option (Text × Bool × Text)
  | [] => none
  | c :: rest =>
    if c = .marker then none
    else if c = .closing then some ([], false, rest)
    else if c = .colon then some ([], true, rest)
    else (scanName rest).map fun (name, more, rest) => (c :: name, more, rest)

/-- The fallback at the beginning of a text, with a number of inner references open, and the rest
after the brace that closes it. -/
def scanFallback : (depth : Nat) → Text → Option (Text × Text)
  | _, [] => none
  | depth, [c] => if c = .closing ∧ depth = 0 then some ([], []) else none
  | depth, c :: d :: rest =>
    if c = .marker ∧ d = .marker then
      (scanFallback depth rest).map fun (t, rest) => (c :: d :: t, rest)
    else if c = .marker ∧ d = .opening then
      (scanFallback (depth + 1) rest).map fun (t, rest) => (c :: d :: t, rest)
    else if c = .closing ∧ depth = 0 then some ([], d :: rest)
    else
      (scanFallback (if c = .closing then depth - 1 else depth) (d :: rest)).map
        fun (t, rest) => (c :: t, rest)

/-- The reference whose opening brace comes just before a text, and the rest. A reference needs a
name that is not blank. -/
def scanPlaceholder (t : Text) : Option (Placeholder × Text) :=
  match scanName t with
  | none => none
  | some (rawName, more, rest) =>
    if Text.trim rawName = [] then none
    else if more then
      (scanFallback 0 rest).map fun (fallback, rest) => (⟨rawName, some fallback⟩, rest)
    else some (⟨rawName, none⟩, rest)

/-- A piece of a text. -/
inductive Piece where
  | literal (c : CodePoint)
  /-- Two markers, which stand for one. -/
  | doubled
  | reference (p : Placeholder)
  deriving DecidableEq

/-- A piece as it is written. -/
def Piece.written : Piece → Text
  | .literal c => [c]
  | .doubled => [.marker, .marker]
  | .reference p => p.written

/-- The first piece of a text, and the rest. -/
def split? : Text → Option (Piece × Text)
  | [] => none
  | [c] => some (.literal c, [])
  | c :: d :: rest =>
    if c = .marker ∧ d = .marker then some (.doubled, rest)
    else if c = .marker ∧ d = .opening then
      match scanPlaceholder rest with
      | some (p, rest) => some (.reference p, rest)
      | none => some (.literal c, d :: rest)
    else some (.literal c, d :: rest)

theorem eq_of_scanName {t name rest : Text} {more : Bool}
    (h : scanName t = some (name, more, rest)) :
    t = name ++ (if more then .colon else .closing) :: rest := by
  induction t generalizing name with
  | nil => simp [scanName] at h
  | cons c t ih =>
    rw [scanName] at h
    split at h
    · cases h
    · split at h
      · cases h
        simp_all
      · split at h
        · cases h
          simp_all
        · obtain ⟨⟨name', more', rest'⟩, ht, heq⟩ := Option.map_eq_some_iff.1 h
          cases heq
          simpa using ih ht

theorem eq_of_scanFallback {depth : Nat} {t fallback rest : Text}
    (h : scanFallback depth t = some (fallback, rest)) : t = fallback ++ .closing :: rest := by
  fun_induction scanFallback depth t generalizing fallback with
  | case1 => cases h
  | case2 depth c hc =>
    cases h
    simp [hc]
  | case3 => cases h
  | case4 depth c d t _ ih | case5 depth c d t _ _ ih | case7 depth c d t _ _ _ ih =>
    obtain ⟨⟨f, r⟩, ht, heq⟩ := Option.map_eq_some_iff.1 h
    cases heq
    simpa using ih ht
  | case6 depth c d t _ _ hc =>
    cases h
    simp [hc]

theorem eq_of_scanPlaceholder {t rest : Text} {p : Placeholder}
    (h : scanPlaceholder t = some (p, rest)) : t = p.body ++ rest := by
  rw [scanPlaceholder] at h
  split at h
  · cases h
  · rename_i rawName more after hname
    have hn := eq_of_scanName hname
    split at h
    · cases h
    · split at h
      · rename_i hmore
        obtain ⟨⟨f, r⟩, hf, heq⟩ := Option.map_eq_some_iff.1 h
        cases heq
        rw [hn, hmore, eq_of_scanFallback hf]
        simp [Placeholder.body]
      · rename_i hmore
        cases h
        simp [hn, hmore, Placeholder.body]

theorem eq_of_split? {t rest : Text} {piece : Piece} (h : split? t = some (piece, rest)) :
    t = piece.written ++ rest := by
  match t with
  | [] => cases h
  | [c] =>
    cases h
    rfl
  | c :: d :: t =>
    rw [split?] at h
    split at h
    · rename_i hm
      cases h
      simp [Piece.written, hm]
    · split at h
      · rename_i hm
        split at h
        · rename_i hp
          cases h
          simp [Piece.written, Placeholder.written, hm, eq_of_scanPlaceholder hp]
        · cases h
          rfl
      · cases h
        rfl

theorem Piece.written_length_pos (piece : Piece) : 0 < piece.written.length := by
  cases piece <;> simp [written, Placeholder.written]

/-- The pieces of a text from the left. -/
def pieces (t : Text) : List Piece :=
  match _found : split? t with
  | none => []
  | some (piece, rest) => piece :: pieces rest
termination_by t.length
decreasing_by
  have := congrArg List.length (eq_of_split? (by assumption))
  have := piece.written_length_pos
  simp at *
  omega

/-- Pieces as they are written. -/
def writtenPieces (ps : List Piece) : Text := ps.flatMap Piece.written

@[simp] theorem writtenPieces_nil : writtenPieces [] = [] := rfl

@[simp] theorem writtenPieces_cons (p : Piece) (ps : List Piece) :
    writtenPieces (p :: ps) = p.written ++ writtenPieces ps := rfl

theorem split?_eq_none_iff {t : Text} : split? t = none ↔ t = [] := by
  fun_cases split? t <;> simp_all

/-- Cutting a text into pieces loses nothing. -/
theorem writtenPieces_pieces (t : Text) : writtenPieces (pieces t) = t := by
  fun_induction pieces t with
  | case1 t h => simp [split?_eq_none_iff.1 h]
  | case2 t piece rest h ih => simp [ih, ← eq_of_split? h]

/-- Pieces are shorter than pieces with one more in front. -/
theorem length_rest_lt (piece : Piece) (rest : List Piece) :
    (writtenPieces rest).length < (writtenPieces (piece :: rest)).length := by
  have := piece.written_length_pos
  rw [writtenPieces_cons, List.length_append]
  omega

/-- A fallback is shorter than pieces that begin with its reference. -/
theorem length_fallback_lt (p : Placeholder) (rest : List Piece) {fallback : Text}
    (h : p.fallback = some fallback) :
    (writtenPieces (pieces fallback)).length <
      (writtenPieces (.reference p :: rest)).length := by
  have := Placeholder.fallback_length_lt h
  simp [writtenPieces_pieces, Piece.written]
  omega

end VersionedProperties
