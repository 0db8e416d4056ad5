import VersionedProperties.Reference.Scan

/-!
# References with their positions

`references` lists the references of a text from the left with their positions; `referenceAt` finds
the one that begins at a position. Fallbacks are not searched.
-/

namespace VersionedProperties

/-- A reference found in a text: it covers the positions from `start` up to before `stop`. -/
structure Reference where
  start : Nat
  stop : Nat
  name : Text
  fallback : Option Text
  deriving DecidableEq

/-- The references among pieces of which the first begins at a position. -/
def locate (position : Nat) : List Piece → List Reference
  | [] => []
  | .reference p :: rest =>
    let stop := position + p.written.length
    ⟨position, stop, p.name, p.fallback⟩ :: locate stop rest
  | piece :: rest => locate (position + piece.written.length) rest

/-- The references of a text from the left. -/
def references (raw : Text) : List Reference := locate 0 (pieces raw)

/-- The reference that begins at a position. -/
def referenceAt (raw : Text) (position : Int) : Option Reference :=
  (references raw).find? fun r => (r.start : Int) = position

end VersionedProperties
