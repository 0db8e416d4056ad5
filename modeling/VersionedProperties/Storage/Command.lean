import VersionedProperties.Storage.Backing
import VersionedProperties.Text.Hexadecimal

/-!
# Commands on a file tree

A run of a file tree is a list of commands on its files and on the mappings kept in them. The device
and the time of writing are given from outside.
-/

namespace VersionedProperties

/-- A file tree on a device, with the time at which files are written. -/
structure Disk where
  tree : FileTree := .empty
  faults : WriteFaults := .none
  now : Timestamp

namespace Disk

/-- An operation on a disk. -/
inductive Command where
  | writeFile (route : Route) (content : Utf8.Bytes)
  /-- Bytes written that are given as hexadecimal text. -/
  | writeHexadecimal (route : Route) (digits : Text)
  | makeDirectories (route : Route)
  | remove (route : Route)
  | readText (route : Route)
  | listing
  | readMapping (path : Path) (format : Format)
  | writeMapping (path : Path) (format : Format) (values : Mapping Text Text)
      (comment : Option Text)
  /-- The defaults kept in a file, in the given format or in the one that its path tells. -/
  | readDefaults (path : Path) (format : Option Format)

/-- What an operation answers. -/
inductive Answer where
  | nothing
  | text (t : Text)
  | names (names : List Text)
  | values (m : Mapping Text Text)

/-- The disk with the tree that an operation leaves, beside its outcome. -/
def withTree (d : Disk) (r : Except SystemError Unit × FileTree) : Except Error Answer × Disk :=
  ((r.1.map fun _ => .nothing).mapError .system, { d with tree := r.2 })

/-- The text of the file at a route. -/
def readText (d : Disk) (r : Route) : Except Error Text :=
  match d.tree.readFile r with
  | .error e => .error (.system e)
  | .ok content => (Utf8.decode content).mapError .undecodable

/-- A mapping written to the file at a path. -/
def writeMapping (d : Disk) (p : Path) (format : Format) (values : Mapping Text Text)
    (comment : Option Text) : Except Error Unit × Disk :=
  let (r, tree) := d.tree.writeMapping d.faults p format d.now values comment
  (r, { d with tree := tree })

/-- Bytes given as hexadecimal text written to the file at a route. The text is read first. -/
def writeHexadecimal (d : Disk) (r : Route) (digits : Text) : Except Error Answer × Disk :=
  match Hexadecimal.read digits with
  | .error position => (.error (.notHexadecimal position), d)
  | .ok content => d.withTree (d.tree.writeFile r content)

/-- A file put on a disk, after the directories on the way as far as they are missing. -/
def withFile (d : Disk) (path : Text) (content : Utf8.Bytes) : Except Error Disk :=
  let directory := Route.directoryText path
  let (made, tree) :=
    if directory = [] then (.ok (), d.tree) else d.tree.makeDirectories true (.ofText directory)
  match made with
  | .error e => .error (.system e)
  | .ok () =>
    match tree.writeFile (.ofText path) content with
    | (.error e, _) => .error (.system e)
    | (.ok (), tree) => .ok { d with tree := tree }

/-- A command performed: its answer, or an error, and the disk after it. -/
def perform (d : Disk) : Command → Except Error Answer × Disk
  | .writeFile r content => d.withTree (d.tree.writeFile r content)
  | .writeHexadecimal r digits => d.writeHexadecimal r digits
  | .makeDirectories r => d.withTree (d.tree.makeDirectories false r)
  | .remove r => d.withTree (d.tree.remove r)
  | .readText r => ((d.readText r).map .text, d)
  | .listing => (.ok (.names d.tree.listing), d)
  | .readMapping p format => ((d.tree.readMapping p format).map .values, d)
  | .writeMapping p format values comment =>
    let (r, d) := d.writeMapping p format values comment
    (r.map fun _ => .nothing, d)
  | .readDefaults p format => ((d.tree.readDefaults p format).map .values, d)

end Disk

end VersionedProperties
