import VersionedProperties.Document.JsonValue
import VersionedProperties.Mapping
import VersionedProperties.Text.Lines

/-!
# Reading JSON

Each reader takes what remains of the text and returns a value with the rest. A failure keeps the
rest of the text at the place of the fault, and the number of the line is counted from there. Beside
the standard, `NaN`, `Infinity` and `-Infinity` are numbers.

Values nest, up to `maxNesting` arrays and objects in one another. The readers of values, members
and elements share a bound on the number of steps. Between two steps that read a value at least one
code point is taken, so twice the length of the text is bound enough.
-/

namespace VersionedProperties.Json

/-- Why a text is no JSON document. -/
inductive ReadError where
  /-- A fault, with the rest of the text at its place. -/
  | malformed (fault : FormatFault) (rest : Text)
  /-- An integer has too many digits to be read. -/
  | tooManyDigits (count : Nat)
  /-- An array or an object is opened inside of too many others. -/
  | tooNested (container : Container)
  deriving DecidableEq

/-- How many arrays and objects may be open at the same time. -/
def maxNesting : Nat := 990

/-- Whether a code point may stand between tokens. -/
def isBlank (c : CodePoint) : Bool :=
  c = .scalar ' ' || c = .scalar '\t' || c = .scalar '\n' || c = .scalar '\r'

/-- A text without the blanks at its beginning. -/
def skipBlanks (t : Text) : Text := t.dropWhile isBlank

/-- The value of a hexadecimal digit. -/
def hexDigit? (c : CodePoint) : Option Nat := c.asciiDigit?.filter (· < 16)

/-- The number of four hexadecimal digits. -/
def hexQuad? (a b c d : CodePoint) : Option Nat :=
  match hexDigit? a, hexDigit? b, hexDigit? c, hexDigit? d with
  | some a, some b, some c, some d => some (((a * 16 + b) * 16 + c) * 16 + d)
  | _, _, _, _ => none

/-- The code point that an escape letter stands for. -/
def simpleEscape? (c : CodePoint) : Option CodePoint :=
  if c = .scalar '"' ∨ c = .scalar '\\' ∨ c = .scalar '/' then some c
  else if c = .scalar 'b' then some (.scalar '\x08')
  else if c = .scalar 'f' then some (.scalar '\x0c')
  else if c = .scalar 'n' then some (.scalar '\n')
  else if c = .scalar 'r' then some (.scalar '\r')
  else if c = .scalar 't' then some (.scalar '\t')
  else none

/-- Whether a number is the first half of a surrogate pair. -/
def isHighSurrogate (n : Nat) : Bool := 0xD800 ≤ n && n < 0xDC00

/-- Whether a number is the second half of a surrogate pair. -/
def isLowSurrogate (n : Nat) : Bool := 0xDC00 ≤ n && n < 0xE000

/-- The code point of a number below `0x110000`. -/
def codePoint (n : Nat) : CodePoint := (CodePoint.ofNat? n).getD (.scalar '\uFFFD')

/-- A part of a string: a code point, or the number of a `\u` escape, which may be one half of a
surrogate pair. -/
inductive StringPart where
  | plain (c : CodePoint)
  | unit (n : Nat)
  deriving DecidableEq

/-- The parts of the string whose opening mark `quote` begins with; what remains after that mark is
read. -/
def readParts (quote : Text) : Text → Except ReadError (List StringPart × Text)
  | [] => .error (.malformed .unterminatedString quote)
  | .scalar '"' :: rest => .ok ([], rest)
  | [.scalar '\\'] => .error (.malformed .unterminatedString quote)
  | .scalar '\\' :: .scalar 'u' :: a :: b :: c :: d :: e :: rest =>
    match hexQuad? a b c d with
    | none => .error (.malformed .unicodeEscape (a :: b :: c :: d :: e :: rest))
    | some n => (readParts quote (e :: rest)).map fun (parts, rest) => (.unit n :: parts, rest)
  | .scalar '\\' :: .scalar 'u' :: rest => .error (.malformed .unicodeEscape rest)
  | .scalar '\\' :: c :: rest =>
    match simpleEscape? c with
    | some x => (readParts quote rest).map fun (parts, rest) => (.plain x :: parts, rest)
    | none => .error (.malformed .unknownEscape (.scalar '\\' :: c :: rest))
  | c :: rest =>
    if c.toNat < 0x20 then .error (.malformed .controlCharacter (c :: rest))
    else (readParts quote rest).map fun (parts, rest) => (.plain c :: parts, rest)

/-- The text of parts. Two escapes that are halves of a surrogate pair stand for one character. -/
def joinParts : List StringPart → Text
  | [] => []
  | .unit n :: .unit m :: rest =>
    if isHighSurrogate n && isLowSurrogate m then
      codePoint (0x10000 + (n - 0xD800) * 0x400 + (m - 0xDC00)) :: joinParts rest
    else codePoint n :: joinParts (.unit m :: rest)
  | .unit n :: rest => codePoint n :: joinParts rest
  | .plain c :: rest => c :: joinParts rest

/-- The string whose opening mark `quote` begins with; what remains after that mark is read. -/
def readString (quote rest : Text) : Except ReadError (Text × Text) :=
  (readParts quote rest).map fun (parts, rest) => (joinParts parts, rest)

/-- Whether a code point is an ASCII digit. -/
def isDigit (c : CodePoint) : Bool := 0x30 ≤ c.toNat && c.toNat ≤ 0x39

/-- The number of a run of digits. -/
def digitsValue (digits : Text) : Nat :=
  Numeral.ofDigits 10 (digits.filterMap CodePoint.asciiDigit?)

/-- The integral part of a number: a zero, or digits that do not begin with one. -/
def readWhole : Text → Text × Text
  | [] => ([], [])
  | c :: rest =>
    if c = .scalar '0' then ([c], rest)
    else ((c :: rest).takeWhile isDigit, (c :: rest).dropWhile isDigit)

/-- The fraction of a number without its point, if there is one. -/
def readFraction (t : Text) : Text × Text :=
  match t with
  | .scalar '.' :: rest =>
    if rest.takeWhile isDigit = [] then ([], t)
    else (rest.takeWhile isDigit, rest.dropWhile isDigit)
  | _ => ([], t)

/-- The exponent of a number, if there is one. -/
def readExponent (t : Text) : Option Int × Text :=
  match t with
  | e :: rest =>
    if e = .scalar 'e' ∨ e = .scalar 'E' then
      let (negative, digits) :=
        match rest with
        | .scalar '-' :: rest => (true, rest)
        | .scalar '+' :: rest => (false, rest)
        | rest => (false, rest)
      if digits.takeWhile isDigit = [] then (none, t)
      else
        let n : Int := digitsValue (digits.takeWhile isDigit)
        (some (if negative then -n else n), digits.dropWhile isDigit)
    else (none, t)
  | [] => (none, t)

/-- The number at the beginning of a text. With a fraction or an exponent it is real. -/
def readNumber (t : Text) : Except ReadError (Value × Text) :=
  let (negative, unsigned) :=
    match t with
    | .scalar '-' :: rest => (true, rest)
    | t => (false, t)
  let (whole, rest) := readWhole unsigned
  if whole = [] then .error (.malformed .expectingValue t)
  else
    let (fraction, rest) := readFraction rest
    let (exponent, rest) := readExponent rest
    if fraction = [] ∧ exponent = none then
      if Numeral.maxDigits < whole.length then .error (.tooManyDigits whole.length)
      else
        let n : Int := digitsValue whole
        .ok (.integer (if negative then -n else n), rest)
    else
      .ok (.real (.ofDecimal negative (digitsValue (whole ++ fraction))
        (exponent.getD 0 - fraction.length)), rest)

/-- The values that are written as words. -/
def words : List (Text × Value) :=
  [("null", .null), ("true", .boolean true), ("false", .boolean false), ("NaN", .real .nan),
    ("Infinity", .real (.infinite false)), ("-Infinity", .real (.infinite true))]

/-- The word at the beginning of a text. -/
def readWord? (t : Text) : Option (Value × Text) :=
  words.findSome? fun (word, value) => (Text.after? word t).map (value, ·)

mutual

/-- The value at the beginning of a text, in which `room` more levels of nesting may be opened. -/
def readValue : (steps room : Nat) → Text → Except ReadError (Value × Text)
  | 0, _, t => .error (.malformed .expectingValue t)
  | _ + 1, _, [] => .error (.malformed .expectingValue [])
  | steps + 1, room, c :: rest =>
    if c = .scalar '"' then (readString (c :: rest) rest).map fun (t, rest) => (.string t, rest)
    else if c = .scalar '\x7b' then
      match room, skipBlanks rest with
      | 0, _ => .error (.tooNested .object)
      | _ + 1, .scalar '\x7d' :: rest => .ok (.object [], rest)
      | room + 1, t => readMembers steps room [] t
    else if c = .scalar '[' then
      match room, skipBlanks rest with
      | 0, _ => .error (.tooNested .array)
      | _ + 1, .scalar ']' :: rest => .ok (.array [], rest)
      | room + 1, t => readElements steps room [] t
    else
      match readWord? (c :: rest) with
      | some r => .ok r
      | none => readNumber (c :: rest)

/-- The members of an object from a name on, beside those already read. -/
def readMembers : (steps room : Nat) → List (Text × Value) → Text → Except ReadError (Value × Text)
  | 0, _, _, t => .error (.malformed .expectingName t)
  | steps + 1, room, members, t =>
    match t with
    | .scalar '"' :: rest =>
      match readString t rest with
      | .error e => .error e
      | .ok (name, rest) =>
        match skipBlanks rest with
        | .scalar ':' :: rest =>
          match readValue steps room (skipBlanks rest) with
          | .error e => .error e
          | .ok (value, rest) =>
            let members := Mapping.insertEntry name value members
            match skipBlanks rest with
            | .scalar '\x7d' :: rest => .ok (.object members, rest)
            | .scalar ',' :: rest => readMembers steps room members (skipBlanks rest)
            | t => .error (.malformed .expectingComma t)
        | t => .error (.malformed .expectingColon t)
    | t => .error (.malformed .expectingName t)

/-- The elements of an array from a value on, beside those already read, the last one first. -/
def readElements : (steps room : Nat) → List Value → Text → Except ReadError (Value × Text)
  | 0, _, _, t => .error (.malformed .expectingValue t)
  | steps + 1, room, elements, t =>
    match readValue steps room t with
    | .error e => .error e
    | .ok (value, rest) =>
      match skipBlanks rest with
      | .scalar ']' :: rest => .ok (.array (value :: elements).reverse, rest)
      | .scalar ',' :: rest => readElements steps room (value :: elements) (skipBlanks rest)
      | t => .error (.malformed .expectingComma t)

end

/-- The value that a text denotes. -/
def read (t : Text) : Except ReadError Value :=
  if t.head? = some (.scalar '\uFEFF') then .error (.malformed .byteOrderMark t)
  else
    match readValue (2 * t.length + 1) maxNesting (skipBlanks t) with
    | .error e => .error e
    | .ok (value, rest) =>
      if skipBlanks rest = [] then .ok value
      else .error (.malformed .extraData (skipBlanks rest))

/-- The number of the line where the rest of a text begins. -/
def lineAt (t rest : Text) : Nat := 1 + Text.lineFeeds t - Text.lineFeeds rest

end VersionedProperties.Json
