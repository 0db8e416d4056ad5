import VersionedProperties.Storage.Path
import VersionedProperties.Text.Utf8

/-!
# Routes

A route is a path as the file system is given it. Nothing is simplified in it: every name but the
last must lead to a directory, also where `.` follows, and a slash at the end demands a directory
there. A path in normal form is a route that never leads over `.` and does not end in a slash.
-/

namespace VersionedProperties

/-- A path as the file system is given it. -/
structure Route where
  text : Text
  /-- The names on the way, among them `.` and `..`. -/
  names : List Text
  /-- Whether the way begins at the top of the file system. -/
  absolute : Bool
  /-- Whether a slash at the end demands a directory. -/
  closed : Bool
  deriving DecidableEq

/-- The route of a path. -/
def Path.route (p : Path) : Route := ⟨p.toText, p.components, p.root ≠ [], false⟩

instance : Coe Path Route := ⟨Path.route⟩

namespace Route

/-- The route that a text describes. -/
def ofText (t : Text) : Route where
  text := t
  names := (Path.cut t).filter (· ≠ [])
  absolute := t.head? = some Path.slash
  closed := t.getLast? = some Path.slash

/-- Whether a route holds the code point zero, at which a text ends for the system. -/
def hasNull (r : Route) : Bool := r.text.contains (.scalar '\x00')

/-- The number of bytes of a name or of a whole route. -/
def byteCount (t : Text) : Nat :=
  match Utf8.encode t with
  | .ok bytes => bytes.length
  | .error _ => t.length

/-- The route to the directory in which the last name is looked for. -/
def toDirectory (r : Route) : Route := { r with names := r.names.dropLast ++ [("." : Text)] }

/-- The beginnings of a text that end with one of its names, the shortest first. -/
def beginnings : Text → List Text
  | [] => []
  | c :: rest =>
    let longer := (beginnings rest).map (c :: ·)
    if c ≠ Path.slash ∧ (rest = [] ∨ rest.head? = some Path.slash) then [c] :: longer else longer

/-- The routes to the directories on the way, the nearest to its end first. -/
def above (r : Route) : List Route := ((beginnings r.text).dropLast.reverse).map ofText

/-- The text of a route up to its last slash, without the slashes there unless it is nothing else.
-/
def directoryText (t : Text) : Text :=
  let reversed := t.reverse.dropWhile (· ≠ Path.slash)
  let trimmed := reversed.dropWhile (· = Path.slash)
  if trimmed = [] then reversed else trimmed.reverse

end Route

end VersionedProperties
