import VersionedProperties.Text.Basic
import VersionedProperties.Text.CaseTable

/-!
# Letter case of texts

`upper` and `lower` apply the full case mappings, in which one character may become several. The
capital sigma is the only character whose lower case depends on its surroundings: it is the final
sigma when a letter with case comes before it and none after it, ignorable characters apart.
-/

namespace VersionedProperties

namespace CodePoint

/-- The image of a number under a case mapping. -/
def mapCase (runs : List CaseRun) (special : List (Nat × List Nat)) (n : Nat) : List Nat :=
  match special.lookup n with
  | some image => image
  | none =>
    match runs.find? (CaseRun.has · n) with
    | some run => [run.image n]
    | none => [n]

/-- The upper case of a code point. -/
def upper : CodePoint → Text
  | .scalar c => (mapCase upperRuns upperSpecial c.toNat).map fun n => .scalar (Char.ofNat n)
  | .surrogate u => [.surrogate u]

/-- The lower case of a code point, its surroundings left out of account. -/
def lower : CodePoint → Text
  | .scalar c => (mapCase lowerRuns lowerSpecial c.toNat).map fun n => .scalar (Char.ofNat n)
  | .surrogate u => [.surrogate u]

/-- Whether the case of a sigma is decided beyond this code point. -/
def isCaseIgnorable (c : CodePoint) : Bool := caseIgnorableRanges.has c.toNat

/-- Whether a code point is a letter with case. -/
def isCased (c : CodePoint) : Bool := casedRanges.has c.toNat

end CodePoint

namespace Text

/-- Whether the first code point that is not ignorable is a letter with case. -/
def startsCased (t : Text) : Bool :=
  match t.find? (!CodePoint.isCaseIgnorable ·) with
  | some c => c.isCased
  | none => false

/-- The upper case of a text. -/
def upper (t : Text) : Text := t.flatMap CodePoint.upper

/-- The lower case of a text that follows the reversed text `before`. -/
def lowerAfter (before : Text) : Text → Text
  | [] => []
  | c :: rest =>
    (if c = .scalar 'Σ' then
      [.scalar (if startsCased before && !startsCased rest then 'ς' else 'σ')]
    else c.lower) ++ lowerAfter (c :: before) rest

/-- The lower case of a text. -/
def lower (t : Text) : Text := lowerAfter [] t

@[simp] theorem upper_nil : upper [] = [] := rfl

theorem upper_cons (c : CodePoint) (t : Text) : upper (c :: t) = c.upper ++ upper t := rfl

theorem upper_append (s t : Text) : upper (s ++ t) = upper s ++ upper t := by
  simp [upper]

@[simp] theorem lower_nil : lower [] = [] := rfl

end Text

end VersionedProperties
