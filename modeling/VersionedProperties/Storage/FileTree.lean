import VersionedProperties.Error
import VersionedProperties.Mapping
import VersionedProperties.Storage.Route

/-!
# File trees

A file tree holds files and directories by their location, the list of names from the current
directory, which always exists. A route is followed name by name: every name but the last must lead
to a directory, and `..` leads back. The directories above the current one exist too; of what they
hold only what is put there is known.

Each operation answers with the tree after it also when it fails, since it may have done a part of
its work.
-/

namespace VersionedProperties

/-- What a location holds. -/
inductive Node where
  | file (content : Utf8.Bytes)
  | directory
  deriving DecidableEq

/-- The names that lead from the current directory to a file or directory. For a place outside of it
there is `..` in front, or the slash that stands for the top of the file system. -/
abbrev Location := List Text

namespace Location

/-- The top of the file system. -/
def top : Location := [[Path.slash]]

/-- Whether a location is the current directory or one above it. -/
def isAbove (loc : Location) : Bool := loc.all (· = "..") || loc = top

/-- The directory that a location is in. The top is in itself. -/
def up (loc : Location) : Location :=
  if loc = top then top else if loc.isAbove then ".." :: loc else loc.dropLast

/-- Whether a location lies outside of the current directory. -/
def isOutside (loc : Location) : Bool :=
  loc.head? = some (".." : Text) || loc.head? = some [Path.slash]

end Location

/-- Files and directories by location. -/
structure FileTree where
  nodes : Mapping Location Node
  deriving DecidableEq

namespace FileTree

/-- The tree of an empty current directory. -/
def empty : FileTree := ⟨Mapping.empty⟩

/-- What is at a location. -/
def nodeAt? (tree : FileTree) (loc : Location) : Option Node :=
  if loc.isAbove then some .directory else tree.nodes.find? loc

/-- The tree with something put at a location. -/
def put (tree : FileTree) (loc : Location) (node : Node) : FileTree :=
  ⟨tree.nodes.insert loc node⟩

/-- The tree with nothing at a location. -/
def clear (tree : FileTree) (loc : Location) : FileTree := ⟨tree.nodes.erase loc⟩

theorem nodeAt?_put (tree : FileTree) (loc loc' : Location) (node : Node) :
    (tree.put loc node).nodeAt? loc' =
      if loc'.isAbove then some .directory
      else if loc' = loc then some node else tree.nodeAt? loc' := by
  unfold nodeAt? put
  by_cases h : loc'.isAbove
  · simp [h]
  · simp [h, Mapping.find?_insert]

theorem nodeAt?_clear (tree : FileTree) (loc loc' : Location) :
    (tree.clear loc).nodeAt? loc' =
      if loc'.isAbove then some .directory
      else if loc' = loc then none else tree.nodeAt? loc' := by
  unfold nodeAt? clear
  by_cases h : loc'.isAbove
  · simp [h]
  · simp [h, Mapping.find?_erase]

/-- The location that names lead to from a location. -/
def follow (tree : FileTree) (loc : Location) : List Text → Except SystemError Location
  | [] => .ok loc
  | name :: rest =>
    match tree.nodeAt? loc with
    | none => .error .notFound
    | some (.file _) => .error .notDirectory
    | some .directory =>
      if 255 < Route.byteCount name then .error .nameTooLong
      else
        tree.follow (if name = "." then loc else if name = ".." then loc.up else loc ++ [name]) rest

/-- The location of a route. A route that holds the code point zero, that is empty, or that has 4096
bytes or more is refused before it is followed. -/
def locate (tree : FileTree) (r : Route) : Except SystemError Location :=
  if r.hasNull then .error .nullByte
  else if r.text = [] then .error .notFound
  else if 4096 ≤ Route.byteCount r.text then .error .nameTooLong
  else tree.follow (if r.absolute then .top else []) r.names

/-- What is at a route. A route that leads nowhere holds nothing; a name too long is an error. -/
def lookup (tree : FileTree) (r : Route) : Except SystemError (Option Node) :=
  match tree.locate r with
  | .ok loc => .ok (tree.nodeAt? loc)
  | .error .nameTooLong => .error .nameTooLong
  | .error _ => .ok none

/-- Whether a route leads to a file or directory. -/
def isPresent (tree : FileTree) (r : Route) : Bool :=
  match tree.lookup r with
  | .ok (some _) => true
  | _ => false

/-- Whether a route leads to a directory. -/
def isDirectory (tree : FileTree) (r : Route) : Bool :=
  match tree.lookup r with
  | .ok (some .directory) => true
  | _ => false

/-- A directory made at a route, where there must be nothing in a directory that exists. -/
def makeDirectory (tree : FileTree) (r : Route) : Except SystemError Unit × FileTree :=
  match tree.locate r with
  | .error e => (.error e, tree)
  | .ok loc =>
    match tree.nodeAt? loc with
    | some _ => (.error .fileExists, tree)
    | none => (.ok (), tree.put loc .directory)

/-- A directory made at a route unless there is one. -/
def ensureDirectory (tree : FileTree) (r : Route) : Except SystemError Unit × FileTree :=
  match tree.makeDirectory r with
  | (.ok (), tree) => (.ok (), tree)
  | (.error e, tree) => (if tree.isDirectory r then .ok () else .error e, tree)

/-- The directories of components in reverse order made as far as they are missing: when the last
one cannot be made because its parent is missing, the parents are made before. -/
def ensureAll (tree : FileTree) (root : Text) : List Text → Except SystemError Unit × FileTree
  | [] => (.ok (), tree)
  | c :: parents =>
    let p : Path := ⟨root, (c :: parents).reverse⟩
    match tree.makeDirectory p with
    | (.error .notFound, tree) =>
      match tree.ensureAll root parents with
      | (.ok (), tree) => tree.ensureDirectory p
      | (.error e, tree) => (.error e, tree)
    | _ => tree.ensureDirectory p

/-- The directories of a path made as far as they are missing. -/
def ensureDirectories (tree : FileTree) (p : Path) : Except SystemError Unit × FileTree :=
  tree.ensureAll p.root p.components.reverse

/-- A directory made at a route, where there may already be one if `reuse` says so. -/
def makeOne (tree : FileTree) (reuse : Bool) (r : Route) : Except SystemError Unit × FileTree :=
  if reuse then tree.ensureDirectory r else tree.makeDirectory r

/-- A directory made at a route after those on the way, the nearest of which comes first. They are
made as far as they are missing, and one of them may turn up meanwhile, as where `..` leads back. At
the name `.` there is nothing left to make. -/
def makeAll (tree : FileTree) (reuse : Bool) (r : Route) :
    List Route → Except SystemError Unit × FileTree
  | [] => tree.makeOne reuse r
  | nearest :: above =>
    if tree.isPresent nearest then tree.makeOne reuse r
    else
      let (made, tree) := tree.makeAll reuse nearest above
      match made with
      | .ok () | .error .fileExists =>
        if r.names.getLast? = some ("." : Text) then (.ok (), tree) else tree.makeOne reuse r
      | .error e => (.error e, tree)

/-- The directories of a route made, the last of which may already be there if `reuse` says so. -/
def makeDirectories (tree : FileTree) (reuse : Bool) (r : Route) :
    Except SystemError Unit × FileTree :=
  tree.makeAll reuse r r.above

/-- A file opened for writing: its location, with its content gone. A slash at the end is refused
whatever name is in front of it, if only the way there is open. -/
def openFile (tree : FileTree) (r : Route) : Except SystemError Location × FileTree :=
  match tree.locate (if r.closed then r.toDirectory else r) with
  | .error e => (.error e, tree)
  | .ok loc =>
    match tree.nodeAt? loc with
    | some .directory => (.error .isDirectory, tree)
    | _ => (.ok loc, tree.put loc (.file []))

/-- A file with the given content put at a route. -/
def writeFile (tree : FileTree) (r : Route) (content : Utf8.Bytes) :
    Except SystemError Unit × FileTree :=
  match tree.openFile r with
  | (.ok loc, tree) => (.ok (), tree.put loc (.file content))
  | (.error e, tree) => (.error e, tree)

/-- The file at a route removed. -/
def remove (tree : FileTree) (r : Route) : Except SystemError Unit × FileTree :=
  match tree.locate r with
  | .error e => (.error e, tree)
  | .ok loc =>
    match tree.nodeAt? loc with
    | none => (.error .notFound, tree)
    | some .directory => (.error .isDirectory, tree)
    | some (.file _) =>
      if r.closed then (.error .notDirectory, tree) else (.ok (), tree.clear loc)

/-- The file at a route removed, if there is one. -/
def discard (tree : FileTree) (r : Route) : Except SystemError Unit × FileTree :=
  match tree.remove r with
  | (.error .notFound, tree) => (.ok (), tree)
  | (r, tree) => (r, tree)

/-- The file at a location moved to a path, in place of a file that is there. -/
def moveFile (tree : FileTree) (source : Location) (p : Path) :
    Except SystemError Unit × FileTree :=
  if p.name = ".." then (.error .busy, tree)
  else
    match tree.locate p with
    | .error e => (.error e, tree)
    | .ok loc =>
      match tree.nodeAt? loc, tree.nodeAt? source with
      | some .directory, _ => (.error .isDirectory, tree)
      | _, some (.file content) =>
        (.ok (), if loc = source then tree else (tree.clear source).put loc (.file content))
      | _, _ => (.error .notFound, tree)

/-- The content of the file at a route. -/
def readFile (tree : FileTree) (r : Route) : Except SystemError Utf8.Bytes :=
  match tree.locate r with
  | .error e => .error e
  | .ok loc =>
    match tree.nodeAt? loc with
    | none => .error .notFound
    | some .directory => .error .isDirectory
    | some (.file content) => if r.closed then .error .notDirectory else .ok content

/-- The texts of all locations below the current directory in ascending order, those of directories
with a slash at the end. -/
def listing (tree : FileTree) : List Text :=
  let inside := tree.nodes.entries.filter fun e => !e.1.isOutside
  Text.sorted (inside.map fun (loc, node) =>
    Text.joined [Path.slash] loc ++ match node with | .directory => [Path.slash] | .file _ => [])

end FileTree

end VersionedProperties
