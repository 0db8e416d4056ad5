import VersionedProperties.Text.Basic
import VersionedProperties.Text.Ranges

/-!
# Blanks

`isBlank` is the class of code points that trimming removes: the characters of the property
`White_Space` together with the four information separators `0x1C` to `0x1F`.
-/

namespace VersionedProperties

/-- The code points that trimming removes from the ends of a text. -/
def blankRanges : Ranges :=
  [(0x9, 0xd), (0x1c, 0x20), (0x85, 0x85), (0xa0, 0xa0), (0x1680, 0x1680), (0x2000, 0x200a),
    (0x2028, 0x2029), (0x202f, 0x202f), (0x205f, 0x205f), (0x3000, 0x3000)]

/-- Whether a code point is blank. -/
def CodePoint.isBlank (c : CodePoint) : Bool := blankRanges.has c.toNat

namespace Text

/-- A text without its leading code points of a class. -/
def dropLeading (p : CodePoint → Bool) (t : Text) : Text := t.dropWhile p

/-- A text without its trailing code points of a class. -/
def dropTrailing (p : CodePoint → Bool) (t : Text) : Text := (t.reverse.dropWhile p).reverse

/-- A text without the blanks at both ends. -/
def trim (t : Text) : Text := dropTrailing CodePoint.isBlank (dropLeading CodePoint.isBlank t)

@[simp] theorem trim_nil : trim [] = [] := rfl

/-- The words of a text, which blanks divide. -/
def words (t : Text) : List Text := (t.splitOnP CodePoint.isBlank).filter (· ≠ [])

/-- Whether a text consists of blanks only. -/
def isBlank (t : Text) : Bool := t.all CodePoint.isBlank

end Text

end VersionedProperties
