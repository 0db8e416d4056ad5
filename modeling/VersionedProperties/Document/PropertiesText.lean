import VersionedProperties.Document.Timestamp
import VersionedProperties.Error
import VersionedProperties.Mapping
import VersionedProperties.Text.Lines

/-!
# Properties text

A document has one entry a line: a name, then `=`, `:` or blanks, then the value. Lines that begin
with `#` or `!` are comments. A line that ends in an odd number of backslashes continues on the next
one. A backslash escapes the code point after it, and `\u` with four digits stands for a code point
by its number.

Reading goes through three stages: natural lines are joined into logical ones, a logical line is
split into a raw name and a raw value, and these are unescaped. Writing escapes every code point
that one of these stages would take for something else.
-/

namespace VersionedProperties.PropertiesText

/-- Whether a code point is a blank within a line. -/
def isBlank (c : CodePoint) : Bool := c = .scalar ' ' || c = .scalar '\t' || c = .scalar '\x0c'

/-- Whether a code point separates a name from its value. -/
def isSeparator (c : CodePoint) : Bool := c = .scalar '=' || c = .scalar ':'

/-- Whether a code point at the beginning of a line makes it a comment. -/
def isCommentMark (c : CodePoint) : Bool := c = .scalar '#' || c = .scalar '!'

/-- The code point that escapes the next one. -/
def backslash : CodePoint := .scalar '\\'

/-- Whether a line ends in an odd number of backslashes. -/
def isOpen (line : Text) : Bool := (line.reverse.takeWhile (· = backslash)).length % 2 = 1

/-- Whether a line without its leading blanks is empty or a comment. -/
def isIgnored : Text → Bool
  | [] => true
  | c :: _ => isCommentMark c

/-- A logical line, with the number of the natural line where it begins. -/
structure LogicalLine where
  number : Nat
  text : Text
  deriving DecidableEq

/-- The logical lines of natural lines of which the first has the given number. An unfinished
logical line is carried along. -/
def joinLines (number : Nat) (unfinished : Option LogicalLine) : List Text → List LogicalLine
  | [] => unfinished.toList
  | line :: rest =>
    let line := Text.dropLeading isBlank line
    match unfinished with
    | none =>
      if isIgnored line then joinLines (number + 1) none rest
      else if isOpen line then joinLines (number + 1) (some ⟨number, line.dropLast⟩) rest
      else ⟨number, line⟩ :: joinLines (number + 1) none rest
    | some u =>
      if isOpen line then
        joinLines (number + 1) (some ⟨u.number, u.text ++ line.dropLast⟩) rest
      else ⟨u.number, u.text ++ line⟩ :: joinLines (number + 1) none rest

/-- The logical lines of a text. -/
def logicalLines (t : Text) : List LogicalLine := joinLines 1 none (Text.lines t)

/-- The raw name at the beginning of a logical line, and the rest from the separator on. An escaped
code point belongs to the name. -/
def splitName : Text → Text × Text
  | [] => ([], [])
  | [c] => if isSeparator c || isBlank c then ([], [c]) else ([c], [])
  | c :: d :: rest =>
    if c = backslash then
      let (name, rest) := splitName rest
      (c :: d :: name, rest)
    else if isSeparator c || isBlank c then ([], c :: d :: rest)
    else
      let (name, rest) := splitName (d :: rest)
      (c :: name, rest)

/-- What follows the separator: blanks, perhaps a mark, and blanks are left out. -/
def dropSeparator (t : Text) : Text :=
  match Text.dropLeading isBlank t with
  | [] => []
  | c :: rest => if isSeparator c then Text.dropLeading isBlank rest else c :: rest

/-- A logical line split into raw name and raw value. -/
def splitEntry (line : Text) : Text × Text :=
  let (name, rest) := splitName line
  (name, dropSeparator rest)

/-- The code point that an escaped one stands for. -/
def unescapeChar (c : CodePoint) : CodePoint :=
  if c = .scalar 't' then .scalar '\t'
  else if c = .scalar 'n' then .scalar '\n'
  else if c = .scalar 'r' then .scalar '\r'
  else if c = .scalar 'f' then .scalar '\x0c'
  else c

/-- The code point that hexadecimal digits stand for. -/
def codePointOf? (digits : Text) : Option CodePoint :=
  match Numeral.readInteger 16 digits with
  | .ok (.ofNat n) => CodePoint.ofNat? n
  | _ => none

/-- A raw name or value without escapes. -/
def unescape : Text → Except FormatFault Text
  | .scalar '\\' :: .scalar 'u' :: a :: b :: c :: d :: rest =>
    match codePointOf? [a, b, c, d] with
    | some x => (unescape rest).map (x :: ·)
    | none => .error (.malformedEscape [a, b, c, d])
  | .scalar '\\' :: .scalar 'u' :: rest => .error (.truncatedEscape ("\\u" ++ rest))
  | .scalar '\\' :: c :: rest => (unescape rest).map (unescapeChar c :: ·)
  | c :: rest => (unescape rest).map (c :: ·)
  | [] => .ok []

/-- The entry of a logical line. -/
def entryOf (line : LogicalLine) : Except FormatError (Text × Text) :=
  let (rawName, rawValue) := splitEntry line.text
  match unescape rawName with
  | .error fault => .error ⟨fault, some line.number⟩
  | .ok [] => .error ⟨.missingName, some line.number⟩
  | .ok name =>
    match unescape rawValue with
    | .error fault => .error ⟨fault, some line.number⟩
    | .ok value => .ok (name, value)

/-- The entries of logical lines put over a mapping. -/
def readEntries (values : Mapping Text Text) :
    List LogicalLine → Except FormatError (Mapping Text Text)
  | [] => .ok values
  | line :: rest =>
    match entryOf line with
    | .error e => .error e
    | .ok (name, value) => readEntries (values.insert name value) rest

/-- The mapping that a text holds. -/
def decode (t : Text) : Except FormatError (Mapping Text Text) :=
  readEntries Mapping.empty (logicalLines t)

/-- A code point in escaped form. A space is escaped where `guarded`: in a name, and at the
beginning of a value. -/
def escapeChar (guarded : Bool) (c : CodePoint) : Text :=
  if c = .scalar '\t' then "\\t"
  else if c = .scalar '\n' then "\\n"
  else if c = .scalar '\r' then "\\r"
  else if c = .scalar '\x0c' then "\\f"
  else if c = backslash then "\\\\"
  else if c = .scalar ' ' && guarded then "\\ "
  else if isSeparator c || isCommentMark c then [backslash, c]
  else if c.toNat < 0x20 || c.toNat = 0x7f then "\\u" ++ hexadecimal 4 c.toNat
  else [c]

/-- A name in escaped form. -/
def escapeName (name : Text) : Text := name.flatMap (escapeChar true)

/-- A value in escaped form. -/
def escapeValue : Text → Text
  | [] => []
  | c :: rest => escapeChar true c ++ rest.flatMap (escapeChar false)

/-- The comment lines of a comment. -/
def commentLines (comment : Option Text) : List Text :=
  (Text.lines (comment.getD [])).map (.scalar '#' :: ·)

/-- The line of an entry. -/
def entryLine (e : Text × Text) : Text := escapeName e.1 ++ "=" ++ escapeValue e.2

/-- The entries of a mapping in ascending order of names. -/
def sortedEntries (values : Mapping Text Text) : List (Text × Text) :=
  values.entries.mergeSort fun a b => Text.le a.1 b.1

/-- The text of a mapping: the comment, perhaps a timestamp, and the entries by name. -/
def encode (values : Mapping Text Text) (comment : Option Text) (timestamp : Option Timestamp) :
    Text :=
  let stamp := timestamp.toList.map fun t => .scalar '#' :: t.render
  let entries := (sortedEntries values).map entryLine
  Text.joined "\n" (commentLines comment ++ stamp ++ entries) ++ "\n"

end VersionedProperties.PropertiesText
