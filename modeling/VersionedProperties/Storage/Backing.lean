import VersionedProperties.Document.Format
import VersionedProperties.Storage.FileTree
import VersionedProperties.Text.LetterCase

/-!
# Backing files

A mapping is kept in a file. A file that does not exist counts as an empty mapping. A mapping is
written to a draft beside the file, and the draft takes the place of the file in one step, so a
write that fails leaves the file as it was. The draft is removed when a step fails.

Every step of a write can be made to fail by the device (`WriteFaults`), since the rules above are
about exactly this case.
-/

namespace VersionedProperties

/-- The steps of a write that use the file system. -/
inductive WriteStep where
  | makeParents
  | openDraft
  | writeDraft
  | replaceFile
  deriving DecidableEq

/-- The errors that a device raises at the steps of a write. -/
abbrev WriteFaults := WriteStep → Option SystemError

/-- A device that raises no errors. -/
def WriteFaults.none : WriteFaults := fun _ => .none

/-- The format for a path: JSON for the ending `.json` in any letter case, and otherwise properties
text. -/
def Format.ofPath (p : Path) : Format :=
  if Text.lower p.suffix = ".json" then .json (some 2) else .properties true

namespace FileTree

/-- The mapping in the file at a path. -/
def readMapping (tree : FileTree) (p : Path) (format : Format) : Except Error (Mapping Text Text) :=
  match tree.lookup p with
  | .error e => .error (.system e)
  | .ok (some (.file content)) =>
    match Utf8.decode content with
    | .error fault => .error (.undecodable fault)
    | .ok text => format.decode (Text.withLineFeeds text)
  | .ok _ => .ok Mapping.empty

/-- The defaults in the file at a path, which must exist. -/
def readDefaults (tree : FileTree) (p : Path) (format : Option Format) :
    Except Error (Mapping Text Text) :=
  match tree.lookup p with
  | .error e => .error (.system e)
  | .ok (some (.file _)) => tree.readMapping p (format.getD (.ofPath p))
  | .ok _ => .error (.missingDefaults p.toText)

/-- The end of a write that failed: the draft is removed, and an error met there comes first. -/
def abandon (tree : FileTree) (draft : Path) (e : SystemError) : Except Error Unit × FileTree :=
  match tree.discard draft with
  | (.ok (), tree) => (.error (.system e), tree)
  | (.error e, tree) => (.error (.system e), tree)

/-- A file replaced by the draft at a location. -/
def replaceByDraft (tree : FileTree) (faults : WriteFaults) (p draft : Path) (loc : Location) :
    Except Error Unit × FileTree :=
  match faults .replaceFile with
  | some e => tree.abandon draft e
  | none =>
    match tree.moveFile loc p with
    | (.error e, tree) => tree.abandon draft e
    | (.ok (), tree) => (.ok (), tree)

/-- A draft with the given text written and put in place of a file. A text without UTF-8 form leaves
an empty draft. -/
def writeThrough (tree : FileTree) (faults : WriteFaults) (p draft : Path) (text : Text) :
    Except Error Unit × FileTree :=
  match faults .openDraft with
  | some e => tree.abandon draft e
  | none =>
    match tree.openFile draft with
    | (.error e, tree) => tree.abandon draft e
    | (.ok loc, tree) =>
      match Utf8.encode text with
      | .error fault => (.error (.unencodable fault), tree)
      | .ok bytes =>
        match faults .writeDraft with
        | some e => tree.abandon draft e
        | none => (tree.put loc (.file bytes)).replaceByDraft faults p draft loc

/-- The parent directories of a path made as far as they are missing. -/
def makeParents (tree : FileTree) (faults : WriteFaults) (p : Path) :
    Except SystemError Unit × FileTree :=
  match faults .makeParents with
  | some e => (.error e, tree)
  | none => tree.ensureDirectories p.parent

/-- A text written to the file at a path. -/
def writeText (tree : FileTree) (faults : WriteFaults) (p : Path) (text : Text) :
    Except Error Unit × FileTree :=
  match tree.makeParents faults p with
  | (.error e, tree) => (.error (.system e), tree)
  | (.ok (), tree) =>
    match p.sibling? ".tmp" with
    | none => (.error (.namelessFile p.toText), tree)
    | some draft => tree.writeThrough faults p draft text

/-- A mapping written to the file at a path. -/
def writeMapping (tree : FileTree) (faults : WriteFaults) (p : Path) (format : Format)
    (now : Timestamp) (values : Mapping Text Text) (comment : Option Text) :
    Except Error Unit × FileTree :=
  tree.writeText faults p (format.encode now values comment)

end FileTree

end VersionedProperties
