import VersionedProperties.Proofs.Storage.FailedWrite

/-!
# The footprint of a write

A write touches little of a file tree. Whether it fails or completes, directories are added only
where there was nothing, in front of the path, and none is lost. A write that fails has touched no
file but the draft, and the path leads to what it led to, unless it has been opened where it turns
back. A write that completes has put the text in the place of the path and has left no draft, and
all other files are as they were.
-/

namespace VersionedProperties

namespace Path

/-- The directories in front of a path are at these places. -/
def IsParentPlace (p : Path) (loc : Location) : Prop :=
  ∃ front, front <+: p.components.dropLast ∧ loc = (Path.mk p.root front).place

/-- The draft beside the file at a path is at this place. -/
def IsDraftPlace (p : Path) (loc : Location) : Prop :=
  ∃ draft, p.sibling? ".tmp" = some draft ∧ loc = draft.place

end Path

namespace FileTree

variable {tree tree' tree'' : FileTree} {p draft : Path} {faults : WriteFaults} {text : Text}
  {place : Location}

section Frames

/-- No directory is lost, and those that are added are in front of a path. -/
structure AddsParents (p : Path) (tree tree' : FileTree) : Prop where
  kept : tree.KeepsDirectories tree'
  added : ∀ loc, tree'.nodeAt? loc = some .directory →
    tree.nodeAt? loc = some .directory ∨ tree.nodeAt? loc = none ∧ p.IsParentPlace loc

/-- The files are the same but for those at some places. -/
def SameFilesBut (changed : Location → Prop) (tree tree' : FileTree) : Prop :=
  ∀ loc content, ¬ changed loc →
    (tree'.nodeAt? loc = some (.file content) ↔ tree.nodeAt? loc = some (.file content))

theorem MakesWay.addsParents (h : tree.MakesWay tree' p.route.start p.components.dropLast) :
    tree.AddsParents p tree' where
  kept := h.keepsDirectories
  added loc hloc := by
    rcases h loc with hsame | ⟨hnone, -, front, hfront, heq⟩
    · exact .inl (hsame.symm.trans hloc)
    · exact .inr ⟨hnone, front, hfront, heq⟩

theorem AddsParents.changesOnly (h : tree.AddsParents p tree')
    (h' : tree'.ChangesOnly place tree'') : tree.AddsParents p tree'' where
  kept loc hloc := (h'.directories loc).2 (h.kept loc hloc)
  added loc hloc := h.added loc ((h'.directories loc).1 hloc)

theorem MakesWay.sameFiles {start : Location} {names : List Text}
    (h : tree.MakesWay tree' start names) (changed : Location → Prop) :
    tree.SameFilesBut changed tree' := by
  intro loc content _
  rcases h loc with hsame | ⟨hnone, hmade, -⟩
  · rw [hsame]
  · simp [hnone, hmade]

theorem SameFilesBut.changesOnly {changed : Location → Prop} (h : tree.SameFilesBut changed tree')
    (h' : tree'.ChangesOnly place tree'') (hplace : changed place) :
    tree.SameFilesBut changed tree'' := by
  intro loc content hloc
  have hne : loc ≠ place := by
    rintro rfl
    exact hloc hplace
  rw [h'.beside loc hne]
  exact h loc content hloc

end Frames

section Completing

theorem found_of_lookup {node : Node} (h : tree.lookup p = .ok (some node)) :
    tree.found p = some node := by
  unfold lookup at h
  split at h
  · rename_i loc hlocate
    rw [found, hlocate]
    exact Except.ok.inj h
  · cases h
  · cases h

/-- What has been at one place is gone, and nothing else is changed but what is at another. -/
def MovesOnly (source place : Location) (tree tree' : FileTree) : Prop :=
  ∃ cleared, tree.ChangesOnly source cleared ∧ cleared.nodeAt? source = none ∧
    cleared.ChangesOnly place tree'

theorem movesOnly_moveFile {source : Location} {content : Utf8.Bytes}
    (hsource : tree.nodeAt? source = some (.file content)) (hne : p.place ≠ source)
    (h : tree.moveFile source p = (.ok (), tree')) : tree.MovesOnly source p.place tree' := by
  have hfile : tree.nodeAt? source ≠ some .directory := by
    rw [hsource]
    exact nofun
  obtain ⟨loc, hlocate, hloc, rfl⟩ := moveFile_eq_ok hsource h
  cases eq_place_of_locate hlocate
  rw [if_neg hne]
  refine ⟨tree.clear source, changesOnly_clear hfile, ?_,
    changesOnly_put (nodeAt?_clear_ne hloc source) _⟩
  rw [nodeAt?_clear, if_neg (not_isAbove hfile), if_pos rfl]

theorem movesOnly_writeThrough (hne : p.place ≠ draft.place)
    (h : tree.writeThrough faults p draft text = (.ok (), tree')) :
    tree.MovesOnly draft.place p.place tree' := by
  obtain ⟨opened, source, content, hopened, -, hmoved⟩ := writeThrough_eq_ok h
  cases openFile_place hopened
  have hfile : opened.nodeAt? draft.place ≠ some .directory := nodeAt?_openFile hopened
  have hdrafted : tree.ChangesOnly draft.place (opened.put draft.place (.file content)) := by
    have hchanged := tree.changesOnly_openFile draft
    rw [hopened] at hchanged
    exact hchanged.trans (changesOnly_put hfile _)
  obtain ⟨cleared, hcleared, hgone, hput⟩ :=
    movesOnly_moveFile (nodeAt?_put_self hfile _) hne hmoved
  exact ⟨cleared, hdrafted.trans hcleared, hgone, hput⟩

/-- A write that completes has made directories on the way and has moved the draft to the file. -/
theorem movesOnly_writeText (h : tree.writeText faults p text = (.ok (), tree')) :
    ∃ made draft, tree.MakesWay made p.route.start p.components.dropLast ∧
      p.sibling? ".tmp" = some draft ∧ made.MovesOnly draft.place p.place tree' := by
  obtain ⟨made, draft, hmade, hdraft, hwritten⟩ := writeText_eq_ok h
  have hway := tree.makesWay_makeParents faults p
  rw [hmade] at hway
  exact ⟨made, draft, hway, hdraft, movesOnly_writeThrough (place_ne_of_sibling hdraft) hwritten⟩

end Completing

section Footprint

/-- What a write that fails leaves of a tree. -/
structure FailsCleanly (p : Path) (tree tree' : FileTree) : Prop where
  directories : tree.AddsParents p tree'
  path : tree.SparesPath p tree'
  files : tree.SameFilesBut p.IsDraftPlace tree'

/-- What a write that completes leaves of a tree. -/
structure PutsInPlace (p : Path) (content : Utf8.Bytes) (tree tree' : FileTree) : Prop where
  directories : tree.AddsParents p tree'
  path : tree'.found p = some (.file content)
  draft : ∀ loc, p.IsDraftPlace loc → tree'.nodeAt? loc = none
  files : tree.SameFilesBut (fun loc => loc = p.place ∨ p.IsDraftPlace loc) tree'

theorem failsCleanly_writeText {e : Error} (hrooted : tree.IsRooted)
    (h : tree.writeText faults p text = (.error e, tree')) : tree.FailsCleanly p tree' := by
  have hpath := sparesPath_writeText hrooted h
  obtain ⟨made, hmade, rfl | ⟨draft, hdraft, hchanged⟩⟩ := writeText_error h
  · exact ⟨hmade.addsParents, hpath, hmade.sameFiles _⟩
  · exact ⟨hmade.addsParents.changesOnly hchanged, hpath,
      (hmade.sameFiles _).changesOnly hchanged ⟨draft, hdraft, rfl⟩⟩

theorem putsInPlace_writeText (h : tree.writeText faults p text = (.ok (), tree')) :
    ∃ content, Utf8.encode text = .ok content ∧ tree.PutsInPlace p content tree' := by
  obtain ⟨content, hcontent, hlookup⟩ := lookup_writeText h
  obtain ⟨made, draft, hmade, hdraft, cleared, hcleared, hgone, hput⟩ := movesOnly_writeText h
  refine ⟨content, hcontent, (hmade.addsParents.changesOnly hcleared).changesOnly hput,
    found_of_lookup hlookup, ?_, ?_⟩
  · rintro _ ⟨draft', hdraft', rfl⟩
    cases hdraft.symm.trans hdraft'
    rw [hput.beside _ (place_ne_of_sibling hdraft).symm, hgone]
  · exact ((hmade.sameFiles _).changesOnly hcleared (.inr ⟨draft, hdraft, rfl⟩)).changesOnly hput
      (.inl rfl)

/-- A write either fails and leaves all but its draft and the directories in front of its path as
they were, or it puts the written mapping in the place of its path and leaves no draft. -/
theorem writeMapping_footprint (hrooted : tree.IsRooted) (faults : WriteFaults) (p : Path)
    (format : Format) (now : Timestamp) (values : Mapping Text Text) (comment : Option Text) :
    match tree.writeMapping faults p format now values comment with
    | (.error _, tree') => tree.FailsCleanly p tree'
    | (.ok (), tree') => ∃ content,
        Utf8.encode (format.encode now values comment) = .ok content ∧
          tree.PutsInPlace p content tree' := by
  rcases h : tree.writeMapping faults p format now values comment with ⟨_ | _, tree'⟩
  · exact failsCleanly_writeText hrooted h
  · exact putsInPlace_writeText h

/-- A file of a new directory, beside another file: on a device that fails at the last step of a
write, only the directory is left. -/
theorem writeMapping_footprint_newDirectory :
    let tree := FileTree.empty.put ["q.properties"] (.file [0x62])
    let p : Path := .ofText "new/p.properties"
    let now : Timestamp := ⟨0, 0, 1, 0, 0, 0, 2024⟩
    let values : Mapping Text Text := .ofList [("a", "1")]
    let faults : WriteFaults := fun step => if step = .replaceFile then some .device else none
    let made := tree.put ["new"] .directory
    let written := made.put ["new", "p.properties"] (.file [0x61, 0x3D, 0x31, 0x0A])
    (tree.writeMapping faults p (.properties false) now values none =
      (.error (.system .device), made) ∧ tree.FailsCleanly p made) ∧
    (tree.writeMapping .none p (.properties false) now values none = (.ok (), written) ∧
      tree.PutsInPlace p [0x61, 0x3D, 0x31, 0x0A] written) := by
  intro tree p now values faults made written
  have hrooted : tree.IsRooted := isRooted_empty.put_current _ (by decide) _
  have hfailed : tree.writeMapping faults p (.properties false) now values none =
      (.error (.system .device), made) := by decide +kernel
  have hwritten : tree.writeMapping .none p (.properties false) now values none =
      (.ok (), written) := by decide +kernel
  have hfails := writeMapping_footprint hrooted faults p (.properties false) now values none
  have hputs := writeMapping_footprint hrooted .none p (.properties false) now values none
  rw [hfailed] at hfails
  rw [hwritten] at hputs
  obtain ⟨content, hcontent, hputs⟩ := hputs
  have hencoded : Utf8.encode ((Format.properties false).encode now values none) =
      .ok [0x61, 0x3D, 0x31, 0x0A] := by decide +kernel
  rw [hencoded] at hcontent
  cases hcontent
  exact ⟨⟨hfailed, hfails⟩, hwritten, hputs⟩

/-- A write that fails can open the way to a file: the path turns back from a directory that is
made, and a directory is in the place of the draft. -/
theorem found_failedWrite_detour :
    let tree := (FileTree.empty.put ["p.properties"] (.file [0x61])).put ["p.properties.tmp"]
      .directory
    let p : Path := .ofText "a/../p.properties"
    let failed := tree.writeMapping .none p (.properties false) ⟨0, 0, 1, 0, 0, 0, 2024⟩
      (.ofList [("a", "1")]) none
    tree.IsRooted ∧ failed.1 = .error (.system .isDirectory) ∧ tree.found p = none ∧
      failed.2.found p = some (.file [0x61]) :=
  ⟨(isRooted_empty.put_current _ (by decide) _).put_current _ (by decide) _,
    by decide +kernel, by decide +kernel, by decide +kernel⟩

end Footprint

end FileTree

end VersionedProperties
