import VersionedProperties.Text.Blank
import VersionedProperties.Text.Digit
import VersionedProperties.Text.Quoted

/-!
# Plain form of numerals

Numerals are read in a plain form that has ASCII characters only. An ASCII text is its own plain
form. In any other text, blanks become spaces and decimal digits of every script become the ASCII
digits; at the first other code point beyond ASCII the plain form stops with a question mark, which
belongs to no numeral.
-/

namespace VersionedProperties.Numeral

/-- Why a text is no numeral, or a number has no numeral. -/
inductive Fault where
  /-- The text is not a decimal integer. -/
  | notInteger (text : Text)
  /-- The decimal integer has too many digits to be read. -/
  | tooManyDigits (count : Nat)
  /-- The integer has too many digits to be written. -/
  | tooLong
  /-- The text is not a real number. -/
  | notReal (text : Text)
  deriving DecidableEq

/-- The most digits that a decimal integer may have. -/
def maxDigits : Nat := 4300

/-- The wording of a fault. -/
def Fault.message : Fault → Text
  | .notInteger text => "invalid literal for int() with base 10: " ++ text.quoted.take 200
  | .tooManyDigits count =>
    "Exceeds the limit (4300 digits) for integer string conversion: value has " ++
      Text.ofString (toString count) ++
      " digits; use sys.set_int_max_str_digits() to increase the limit"
  | .tooLong =>
    "Exceeds the limit (4300 digits) for integer string conversion; " ++
      Text.ofString "use sys.set_int_max_str_digits() to increase the limit"
  | .notReal text => "could not convert string to float: " ++ text.quoted

/-- Whether a code point is an ASCII character. -/
def isAscii (c : CodePoint) : Bool := c.toNat < 0x80

/-- The ASCII characters of a text up to the first foreign code point. -/
def plainForeign : Text → List Char
  | [] => []
  | c :: rest =>
    if c.toNat < 0x7f then Char.ofNat c.toNat :: plainForeign rest
    else if c.isBlank then ' ' :: plainForeign rest
    else
      match c.decimalDigit? with
      | some d => Char.ofNat (0x30 + d) :: plainForeign rest
      | none => ['?']

/-- The plain form of a text. -/
def plain (t : Text) : List Char :=
  if t.all isAscii then t.map fun c => Char.ofNat c.toNat else plainForeign t

/-- Whether a character may surround a numeral. -/
def isSpace (c : Char) : Bool := c == ' ' || ('\t' ≤ c && c ≤ '\r')

/-- A sign in front of a numeral: whether it is a minus, and what follows. -/
def signed : List Char → Bool × List Char
  | '-' :: rest => (true, rest)
  | '+' :: rest => (false, rest)
  | rest => (false, rest)

end VersionedProperties.Numeral
