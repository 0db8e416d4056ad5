import VersionedProperties.Text.Basic

/-!
# Paths

A path is a list of components below a root; the root is empty for a path that is relative to the
current directory. Empty components and `.` have no effect and are left out, `..` is kept.
-/

namespace VersionedProperties

/-- A path in normal form. -/
structure Path where
  /-- Empty for a relative path, and otherwise one or two slashes. -/
  root : Text
  components : List Text
  deriving DecidableEq

namespace Path

/-- The slash between components. -/
def slash : CodePoint := .scalar '/'

/-- The component of a text in front of its other components, if the text is cut at slashes. -/
def cut : Text → List Text
  | [] => [[]]
  | c :: rest =>
    if c = slash then [] :: cut rest
    else
      match cut rest with
      | [] => [[c]]
      | first :: others => (c :: first) :: others

/-- The root of a text: exactly two slashes are kept, any other number counts as one. -/
def rootOf (t : Text) : Text :=
  match (t.takeWhile (· = slash)).length with
  | 0 => []
  | 2 => [slash, slash]
  | _ => [slash]

/-- The path that a text denotes. -/
def ofText (t : Text) : Path where
  root := rootOf t
  components := (cut t).filter fun c => c ≠ [] ∧ c ≠ [.scalar '.']

/-- A path as a text. -/
def toText (p : Path) : Text :=
  if p.root = [] ∧ p.components = [] then "." else p.root ++ Text.joined [slash] p.components

/-- The last component. -/
def name (p : Path) : Text := p.components.getLast?.getD []

/-- The directory of a path. -/
def parent (p : Path) : Path := { p with components := p.components.dropLast }

/-- The part of a name from its last dot on, unless the dot is at one of its ends. -/
def suffix (p : Path) : Text :=
  let reversed := p.name.reverse
  let extension := reversed.takeWhile (· ≠ .scalar '.')
  if extension = [] ∨ p.name.length ≤ extension.length + 1 then []
  else .scalar '.' :: extension.reverse

/-- The path beside this one whose name is longer by an ending, if there is a name. -/
def sibling? (p : Path) (ending : Text) : Option Path :=
  match p.components.getLast? with
  | none => none
  | some name => some { p with components := p.components.dropLast ++ [name ++ ending] }

end Path

end VersionedProperties
