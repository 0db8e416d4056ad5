import VersionedProperties.Document.JsonReader

/-!
# JSON documents of properties

A document is one object whose members are scalars; a blank text stands for an object without
members. Values that are not strings are read as their text. A mapping is written with its names in
ascending order and its values as strings, on one line or with an indentation.
-/

namespace VersionedProperties.Json

/-- The entries of members, if all are scalars. -/
def scalarEntries : List (Text × Value) → Except FormatFault (List (Text × Text))
  | [] => .ok []
  | (name, value) :: rest =>
    match value.scalarText? with
    | none => .error (.notScalar name value.kind)
    | some t => (scalarEntries rest).map ((name, t) :: ·)

/-- The mapping that a text holds. -/
def decode (t : Text) : Except Error (Mapping Text Text) :=
  if Text.isBlank t then .ok Mapping.empty
  else
    match read t with
    | .error (.malformed fault rest) => .error (.format ⟨fault, some (lineAt t rest)⟩)
    | .error (.tooManyDigits count) => .error (.numeral (.tooManyDigits count))
    | .error (.tooNested container) => .error (.tooNested container)
    | .ok (.object members) =>
      match scalarEntries members with
      | .error fault => .error (.format ⟨fault, none⟩)
      | .ok entries => .ok (Mapping.ofList entries)
    | .ok value => .error (.format ⟨.notObject value.kind, none⟩)

/-- A code point within a string. -/
def escapeChar (c : CodePoint) : Text :=
  if c = .scalar '"' then "\\\""
  else if c = .scalar '\\' then "\\\\"
  else if c = .scalar '\n' then "\\n"
  else if c = .scalar '\r' then "\\r"
  else if c = .scalar '\t' then "\\t"
  else if c = .scalar '\x0c' then "\\f"
  else if c = .scalar '\x08' then "\\b"
  else if c.toNat < 0x20 then "\\u" ++ hexadecimal 4 c.toNat
  else [c]

/-- A text as a string. -/
def writeString (t : Text) : Text :=
  [.scalar '"'] ++ t.flatMap escapeChar ++ [.scalar '"']

/-- A member of an object. -/
def writeMember (e : Text × Text) : Text := writeString e.1 ++ ": " ++ writeString e.2

/-- The text of a mapping. Without indentation it is one line; with one, each member has a line of
its own that begins with so many spaces. -/
def encode (values : Mapping Text Text) (indent : Option Int) : Text :=
  let members := (values.entries.mergeSort fun a b => Text.le a.1 b.1).map writeMember
  let body : Text :=
    match members, indent with
    | [], _ => []
    | members, none => Text.joined ", " members
    | members, some n =>
      let newLine : Text := .scalar '\n' :: List.replicate n.toNat (.scalar ' ')
      newLine ++ Text.joined (.scalar ',' :: newLine) members ++ "\n"
  [.scalar '\x7b'] ++ body ++ [.scalar '\x7d', .scalar '\n']

end VersionedProperties.Json
