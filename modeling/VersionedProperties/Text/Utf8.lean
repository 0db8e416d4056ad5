import VersionedProperties.Text.Quoted

/-!
# UTF-8

`encode` gives the bytes of a text and `decode` the text of some bytes. Only characters have bytes:
a text with surrogates is refused with the place of the first run of them. Bytes that are not the
form of a text are refused with the place of the first fault and what is wrong there: a byte that
starts no character, a sequence that is broken off by another byte, or one cut short by the end.
-/

namespace VersionedProperties.Utf8

/-- The bytes of a file. -/
abbrev Bytes := List UInt8

/-- The bytes of a character. -/
def encodeChar (c : Char) : Bytes :=
  let n := c.toNat
  if n < 0x80 then [n.toUInt8]
  else if n < 0x800 then [(0xC0 + n / 0x40).toUInt8, (0x80 + n % 0x40).toUInt8]
  else if n < 0x10000 then
    [(0xE0 + n / 0x1000).toUInt8, (0x80 + n / 0x40 % 0x40).toUInt8, (0x80 + n % 0x40).toUInt8]
  else
    [(0xF0 + n / 0x40000).toUInt8, (0x80 + n / 0x1000 % 0x40).toUInt8,
      (0x80 + n / 0x40 % 0x40).toUInt8, (0x80 + n % 0x40).toUInt8]

/-- The beginning of a text that fits in a number of bytes. A character that is cut off is replaced,
and a surrogate counts as the three bytes of its pattern. -/
def fitting : (room : Nat) → Text → Text
  | _, [] => []
  | room, c :: rest =>
    let size :=
      match c with
      | .scalar c => (encodeChar c).length
      | .surrogate _ => 3
    if size ≤ room then c :: fitting (room - size) rest
    else if room = 0 then [] else [.scalar '\uFFFD']

/-- A text without UTF-8 form: the run of surrogates at a position. -/
structure Unencodable where
  position : Nat
  first : CodePoint
  length : Nat
  deriving DecidableEq

/-- The bytes of a text whose first code point has the given position. -/
def encodeFrom (position : Nat) : Text → Except Unencodable Bytes
  | [] => .ok []
  | .scalar c :: rest => (encodeFrom (position + 1) rest).map (encodeChar c ++ ·)
  | .surrogate u :: rest =>
    .error ⟨position, .surrogate u, 1 + (rest.takeWhile (!·.isScalar)).length⟩

/-- The bytes of a text. -/
def encode (t : Text) : Except Unencodable Bytes := encodeFrom 0 t

/-- What is wrong with a sequence of bytes. -/
inductive Fault where
  | startByte
  | continuationByte
  | endOfData
  deriving DecidableEq

/-- Bytes that are no text: the first fault, its position, its first byte and its length. -/
structure Malformed where
  position : Nat
  first : UInt8
  length : Nat
  fault : Fault
  deriving DecidableEq

/-- Whether a byte continues a sequence. -/
def isContinuation (b : UInt8) : Bool := 0x80 ≤ b && b < 0xC0

/-- Whether a byte may follow the first byte of a sequence. The second byte after `0xE0`, `0xED`,
`0xF0` and `0xF4` is restricted further, so that each character has one form. -/
def isSecond (first b : UInt8) : Bool :=
  isContinuation b &&
    !(first == 0xE0 && b < 0xA0) && !(first == 0xED && 0xA0 ≤ b) &&
    !(first == 0xF0 && b < 0x90) && !(first == 0xF4 && 0x90 ≤ b)

/-- The number of bytes of a sequence by its first byte. -/
def sequenceLength? (first : UInt8) : Option Nat :=
  if first < 0x80 then some 1
  else if first < 0xC2 then none
  else if first < 0xE0 then some 2
  else if first < 0xF0 then some 3
  else if first < 0xF5 then some 4
  else none

/-- The character of a complete sequence. -/
def assemble (first : UInt8) (continuation : Bytes) : Char :=
  let bits := if first < 0x80 then first.toNat else
    if first < 0xE0 then first.toNat % 0x20
    else if first < 0xF0 then first.toNat % 0x10
    else first.toNat % 0x08
  Char.ofNat (continuation.foldl (fun n b => n * 0x40 + b.toNat % 0x40) bits)

/-- How many bytes of the sequence that starts with `first` are in order, of `wanted` bytes that
are to follow it. -/
def following (first : UInt8) (wanted : Nat) (rest : Bytes) : Nat :=
  match wanted, rest with
  | 0, _ => 0
  | _, [] => 0
  | wanted + 1, b :: rest =>
    if isSecond first b then 1 + ((rest.take wanted).takeWhile isContinuation).length else 0

/-- The text of bytes of which the first has the given position. -/
def decodeFrom (position : Nat) : Bytes → Except Malformed Text
  | [] => .ok []
  | first :: rest =>
    match sequenceLength? first with
    | none => .error ⟨position, first, 1, .startByte⟩
    | some length =>
      let found := following first (length - 1) rest
      if found = length - 1 then
        (decodeFrom (position + length) (rest.drop found)).map
          (.scalar (assemble first (rest.take found)) :: ·)
      else
        .error ⟨position, first, 1 + found,
          if rest.length ≤ found then .endOfData else .continuationByte⟩
termination_by bytes => bytes.length
decreasing_by
  rw [List.length_drop, List.length_cons]
  omega

/-- The text of some bytes. -/
def decode (bytes : Bytes) : Except Malformed Text := decodeFrom 0 bytes

/-- The wording of a fault. -/
def Fault.message : Fault → Text
  | .startByte => "invalid start byte"
  | .continuationByte => "invalid continuation byte"
  | .endOfData => "unexpected end of data"

/-- A place in words: one position, or the first and last of a run. -/
def place (position length : Nat) : Text :=
  let first := Text.ofString (toString position)
  if length = 1 then first else first ++ "-" ++ Text.ofString (toString (position + length - 1))

/-- The wording of a refusal to decode. -/
def Malformed.message (m : Malformed) : Text :=
  "'utf-8' codec can't decode " ++
    (if m.length = 1 then "byte 0x" ++ hexadecimal 2 m.first.toNat else Text.ofString "bytes") ++
    " in position " ++ place m.position m.length ++ ": " ++ m.fault.message

/-- The wording of a refusal to encode. -/
def Unencodable.message (u : Unencodable) : Text :=
  "'utf-8' codec can't encode " ++
    (if u.length = 1 then "character '" ++ u.first.escaped ++ "'"
      else Text.ofString "characters") ++
    " in position " ++ place u.position u.length ++ ": surrogates not allowed"

end VersionedProperties.Utf8
