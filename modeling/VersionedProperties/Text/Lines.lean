import VersionedProperties.Text.Basic
import VersionedProperties.Text.Ranges

/-!
# Lines

A text is cut into natural lines at its line ends: line feed, vertical tab, form feed, carriage
return, the separators `0x1C` to `0x1E`, next line (`0x85`), line separator and paragraph separator.
A carriage return followed by a line feed is one line end. What follows the last line end is a line
only if it is not empty, so `lines` of a text and of the text with a final line feed agree.
-/

namespace VersionedProperties

/-- The code points that end a line. -/
def lineEndRanges : Ranges := [(0xa, 0xd), (0x1c, 0x1e), (0x85, 0x85), (0x2028, 0x2029)]

/-- Whether a code point ends a line. -/
def CodePoint.isLineEnd (c : CodePoint) : Bool := lineEndRanges.has c.toNat

namespace Text

/-- A code point put in front of the first line. -/
def consLine (c : CodePoint) : List Text → List Text
  | [] => [[c]]
  | line :: rest => (c :: line) :: rest

@[simp] theorem consLine_nil (c : CodePoint) : consLine c [] = [[c]] := rfl

@[simp] theorem consLine_cons (c : CodePoint) (line : Text) (rest : List Text) :
    consLine c (line :: rest) = (c :: line) :: rest := rfl

/-- The natural lines of a text, without their ends. -/
def lines : Text → List Text
  | [] => []
  | .scalar '\r' :: .scalar '\n' :: rest => [] :: lines rest
  | c :: rest => if c.isLineEnd then [] :: lines rest else consLine c (lines rest)

@[simp] theorem lines_nil : lines [] = [] := by simp [lines]

/-- A text with every carriage return, alone or before a line feed, turned into a line feed. -/
def withLineFeeds : Text → Text
  | [] => []
  | .scalar '\r' :: .scalar '\n' :: rest => .scalar '\n' :: withLineFeeds rest
  | c :: rest => (if c = .scalar '\r' then .scalar '\n' else c) :: withLineFeeds rest

@[simp] theorem withLineFeeds_nil : withLineFeeds [] = [] := by simp [withLineFeeds]

/-- The number of line feeds in a text. -/
def lineFeeds (t : Text) : Nat := t.countP (· = .scalar '\n')

end Text

end VersionedProperties
