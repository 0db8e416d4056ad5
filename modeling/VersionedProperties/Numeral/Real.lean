import VersionedProperties.Numeral.Integer
import VersionedProperties.Numeral.Shortest

/-!
# Real numbers

A real number is read as a sign followed by `inf`, `infinity`, `nan` in any letter case or by a
decimal with digits, perhaps a point and perhaps an exponent; single underscores may stand between
digits. It is written by its shortest decimal: positionally from `0.0001` up to below `10 ^ 16`,
with a fraction of at least one digit, and otherwise with an exponent of at least two digits.
-/

namespace VersionedProperties.Numeral

/-- Whether a character is an ASCII digit. -/
def isDigit (c : Char) : Bool := (digitIn? 10 c).isSome

/-- The characters without underscores, if each underscore stands between digits. `previous` tells
whether a digit comes before. -/
def ungrouped? (previous : Bool) : List Char → Option (List Char)
  | [] => some []
  | '_' :: c :: rest =>
    if previous && isDigit c then (ungrouped? true rest).map (c :: ·) else none
  | '_' :: [] => none
  | c :: rest => (ungrouped? (isDigit c) rest).map (c :: ·)

/-- A decimal: its digits with the point left out, and the power of ten that they count. -/
structure Decimal where
  digits : Nat
  exponent : Int
  deriving DecidableEq

/-- The exponent after a decimal: what remains is `e`, perhaps a sign, and digits, or nothing. -/
def readExponent? : List Char → Option Int
  | [] => some 0
  | e :: rest =>
    let (negative, digits) := signed rest
    if (e = 'e' ∨ e = 'E') ∧ digits ≠ [] ∧ digits.all isDigit then
      let n : Int := ofDigits 10 (digitsOf 10 digits)
      some (if negative then -n else n)
    else none

/-- The decimal that unsigned characters denote. -/
def readDecimal? (t : List Char) : Option Decimal :=
  let whole := t.takeWhile isDigit
  let rest := t.dropWhile isDigit
  let (fraction, rest) :=
    match rest with
    | '.' :: rest => (rest.takeWhile isDigit, rest.dropWhile isDigit)
    | rest => ([], rest)
  if whole = [] ∧ fraction = [] then none
  else
    (readExponent? rest).map fun e =>
      ⟨ofDigits 10 (digitsOf 10 (whole ++ fraction)), e - fraction.length⟩

/-- The number that plain characters without spaces and underscores denote. -/
def readPlainReal? (t : List Char) : Option Binary64 :=
  let (negative, t) := signed t
  let word := t.map Char.toLower
  if word = "inf".toList ∨ word = "infinity".toList then some (.infinite negative)
  else if word = "nan".toList then some .nan
  else (readDecimal? t).map fun d => .ofDecimal negative d.digits d.exponent

/-- The real number that a text denotes. -/
def readReal (t : Text) : Except Fault Binary64 :=
  let core := (((plain t).dropWhile isSpace).reverse.dropWhile isSpace).reverse
  match (ungrouped? false core).bind readPlainReal? with
  | some x => .ok x
  | none => .error (.notReal t)

/-- Digits without the zeros at their end, and how many these were. -/
def stripZeros (digits : List Char) : List Char × Nat :=
  let kept := (digits.reverse.dropWhile (· == '0')).reverse
  (kept, digits.length - kept.length)

/-- The exponent of ten, with a sign and at least two digits. -/
def writeExponent (e : Int) : List Char :=
  let digits := Nat.toDigits 10 e.natAbs
  (if e < 0 then '-' else '+') :: (if digits.length < 2 then '0' :: digits else digits)

/-- A positive decimal `0.digits * 10 ^ point`. -/
def writeDecimal (digits : List Char) (point : Int) : List Char :=
  if -4 < point ∧ point ≤ 16 then
    if point ≤ 0 then "0.".toList ++ List.replicate (-point).toNat '0' ++ digits
    else if digits.length ≤ point.toNat then
      digits ++ List.replicate (point.toNat - digits.length) '0' ++ ".0".toList
    else digits.take point.toNat ++ '.' :: digits.drop point.toNat
  else
    match digits with
    | [] => []
    | [d] => d :: 'e' :: writeExponent (point - 1)
    | d :: rest => d :: '.' :: rest ++ 'e' :: writeExponent (point - 1)

/-- The characters of a number without its sign. -/
def writeMagnitude (mantissa : Nat) (exponent : Int) : List Char :=
  if mantissa = 0 then "0.0".toList
  else
    let (n, k) := Binary64.shortest mantissa exponent
    let (digits, zeros) := stripZeros (Nat.toDigits 10 n)
    writeDecimal digits (digits.length + zeros + k)

/-- The text of a real number. -/
def writeReal : Binary64 → Text
  | .nan => "nan"
  | .infinite negative => if negative then "-inf" else "inf"
  | .finite negative mantissa exponent =>
    let digits := writeMagnitude mantissa exponent
    (if negative then '-' :: digits else digits).map .scalar

end VersionedProperties.Numeral
