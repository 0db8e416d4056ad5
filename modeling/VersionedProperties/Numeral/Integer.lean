import VersionedProperties.Numeral.Plain

/-!
# Integers

An integer is read in a base: spaces, a sign, for base sixteen perhaps `0x`, then digits among which
single underscores may stand, and spaces again. Decimal integers are limited to 4300 digits, in
reading and in writing.
-/

namespace VersionedProperties.Numeral

/-- The value of a character as a digit of a base. -/
def digitIn? (base : Nat) (c : Char) : Option Nat :=
  (CodePoint.asciiDigit? c).filter (· < base)

/-- Whether a character may belong to a run of digits and underscores. -/
def isDigitOrMark (base : Nat) (c : Char) : Bool := c == '_' || (digitIn? base c).isSome

/-- Whether a run of digits and underscores is nonempty and has underscores only singly and between
digits. -/
def isGrouped : List Char → Bool
  | [] => false
  | ['_'] => false
  | [_] => true
  | '_' :: _ :: _ => false
  | _ :: '_' :: rest => isGrouped rest
  | _ :: c :: rest => isGrouped (c :: rest)

/-- The digits of a run. -/
def digitsOf (base : Nat) (run : List Char) : List Nat := run.filterMap (digitIn? base)

/-- The number with the given digits, the most significant first. -/
def ofDigits (base : Nat) (digits : List Nat) : Nat := digits.foldl (fun n d => n * base + d) 0

theorem ofDigits_append (base : Nat) (digits : List Nat) (d : Nat) :
    ofDigits base (digits ++ [d]) = ofDigits base digits * base + d := by
  simp [ofDigits]

/-- What follows `0x` in front of hexadecimal digits; one underscore may stand after it. -/
def afterBaseMark (base : Nat) (t : List Char) : List Char :=
  if base ≠ 16 then t
  else
    match t with
    | '0' :: x :: rest =>
      if x = 'x' ∨ x = 'X' then
        match rest with
        | '_' :: rest => rest
        | rest => rest
      else t
    | _ => t

/-- The number written by plain characters without sign, or nothing if there is none. The error is
the number of digits, when they are too many. -/
def readDigits (base : Nat) (t : List Char) : Except Nat (Option Nat) :=
  let t := afterBaseMark base t
  let run := t.takeWhile (isDigitOrMark base)
  let digits := digitsOf base run
  if !isGrouped run then .ok none
  else if base = 10 ∧ maxDigits < digits.length then .error digits.length
  else if (t.dropWhile (isDigitOrMark base)).all isSpace then .ok (some (ofDigits base digits))
  else .ok none

/-- The integer that a text denotes in a base. -/
def readInteger (base : Nat) (t : Text) : Except Fault Int :=
  let (negative, digits) := signed ((plain t).dropWhile isSpace)
  match readDigits base digits with
  | .error count => .error (.tooManyDigits count)
  | .ok none => .error (.notInteger t)
  | .ok (some n) => .ok (if negative then -(n : Int) else n)

/-- The decimal digits of a natural number. -/
def decimal (n : Nat) : Text := (Nat.toDigits 10 n).map .scalar

/-- The decimal text of an integer. -/
def writeInteger (n : Int) : Text := if n < 0 then '-' :: decimal n.natAbs else decimal n.natAbs

/-- The decimal text of an integer, if it has few enough digits. -/
def writeInteger? (n : Int) : Except Fault Text :=
  if maxDigits < (decimal n.natAbs).length then .error .tooLong else .ok (writeInteger n)

end VersionedProperties.Numeral
