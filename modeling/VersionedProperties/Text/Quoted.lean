import VersionedProperties.Text.Printable

/-!
# Quoted texts

`quoted` shows a text between quotation marks with everything unprintable escaped, as it appears in
messages. The marks are single, unless the text holds a single mark and no double one.
-/

namespace VersionedProperties

/-- The lower-case hexadecimal digits of a number, with leading zeros up to a width. -/
def hexadecimal (width n : Nat) : Text :=
  let digits := Nat.toDigits 16 n
  (List.replicate (width - digits.length) '0' ++ digits).map .scalar

/-- A code point by its number: two, four or eight hexadecimal digits. -/
def CodePoint.escaped (c : CodePoint) : Text :=
  if c.toNat < 0x100 then "\\x" ++ hexadecimal 2 c.toNat
  else if c.toNat < 0x10000 then "\\u" ++ hexadecimal 4 c.toNat
  else "\\U" ++ hexadecimal 8 c.toNat

/-- A code point as shown between quotation marks `mark`. -/
def CodePoint.shown (mark : Char) (c : CodePoint) : Text :=
  if c = .scalar mark ∨ c = .scalar '\\' then ['\\', c]
  else if c = .scalar '\t' then "\\t"
  else if c = .scalar '\n' then "\\n"
  else if c = .scalar '\r' then "\\r"
  else if c.isPrintable then [c]
  else c.escaped

namespace Text

/-- The quotation mark of a text. -/
def quotationMark (t : Text) : Char :=
  if .scalar '\'' ∈ t ∧ .scalar '"' ∉ t then '"' else '\''

/-- A text between quotation marks, with everything unprintable escaped. -/
def quoted (t : Text) : Text :=
  let mark := quotationMark t
  [.scalar mark] ++ t.flatMap (CodePoint.shown mark) ++ [.scalar mark]

end Text

end VersionedProperties
