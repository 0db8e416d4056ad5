import VersionedProperties.Text.Utf8

/-!
# Hexadecimal text of bytes

Bytes are given by two digits each, with blanks between them where one likes. A text that is not of
this form is refused with the place of the first code point that does not fit.
-/

namespace VersionedProperties.Hexadecimal

/-- Whether a code point is a blank between digits. -/
def isBlank (c : CodePoint) : Bool := c.toNat = 0x20 || (9 ≤ c.toNat && c.toNat ≤ 13)

/-- The value of a digit. -/
def digit? (c : CodePoint) : Option UInt8 :=
  let n := c.toNat
  if 0x30 ≤ n ∧ n ≤ 0x39 then some (n - 0x30).toUInt8
  else if 0x61 ≤ n ∧ n ≤ 0x66 then some (n - 0x57).toUInt8
  else if 0x41 ≤ n ∧ n ≤ 0x46 then some (n - 0x37).toUInt8
  else none

/-- The bytes of a text whose first code point has the given position. -/
def readFrom (position : Nat) : Text → Except Nat Utf8.Bytes
  | [] => .ok []
  | [c] =>
    if isBlank c then .ok []
    else .error (if (digit? c).isSome then position + 1 else position)
  | c :: d :: rest =>
    if isBlank c then readFrom (position + 1) (d :: rest)
    else
      match digit? c, digit? d with
      | none, _ => .error position
      | some _, none => .error (position + 1)
      | some high, some low => (readFrom (position + 2) rest).map ((16 * high + low) :: ·)

/-- The bytes of a text, or the place of a fault. A code point beyond ASCII comes first. -/
def read (t : Text) : Except Nat Utf8.Bytes :=
  match t.findIdx? fun c => 0x80 ≤ c.toNat with
  | some position => .error position
  | none => readFrom 0 t

end VersionedProperties.Hexadecimal
