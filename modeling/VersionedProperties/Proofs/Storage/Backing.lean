import VersionedProperties.Proofs.Document.Format
import VersionedProperties.Proofs.Text.Utf8
import VersionedProperties.Storage.Backing

/-!
# Mappings read back from their file

A route is followed through directories only, so it leads to the same place as long as no directory
is lost. The draft is moved to the place that the path leads to, and neither the draft nor what it
replaces is a directory. So after a write that completes, the path leads to a file with the bytes
that have been written, and the mapping is read back from it if its format keeps it.
-/

namespace VersionedProperties

namespace FileTree

variable {tree tree' : FileTree} {p draft : Path} {faults : WriteFaults} {text : Text}

section Places

/-- Every directory of the first tree is one of the second. -/
def KeepsDirectories (tree tree' : FileTree) : Prop :=
  ∀ loc, tree.nodeAt? loc = some .directory → tree'.nodeAt? loc = some .directory

theorem nodeAt?_put_of_ne {loc loc' : Location} (hne : loc' ≠ loc) (node : Node) :
    (tree.put loc node).nodeAt? loc' = tree.nodeAt? loc' := by
  rw [nodeAt?_put, if_neg hne]
  split
  · rw [nodeAt?, if_pos ‹_›]
  · rfl

theorem nodeAt?_clear_of_ne {loc loc' : Location} (hne : loc' ≠ loc) :
    (tree.clear loc).nodeAt? loc' = tree.nodeAt? loc' := by
  rw [nodeAt?_clear, if_neg hne]
  split
  · rw [nodeAt?, if_pos ‹_›]
  · rfl

theorem KeepsDirectories.put {loc : Location} (hloc : tree.nodeAt? loc ≠ some .directory)
    (node : Node) (h : tree.KeepsDirectories tree') :
    tree.KeepsDirectories (tree'.put loc node) := by
  intro loc' hloc'
  have hne : loc' ≠ loc := by
    rintro rfl
    exact hloc hloc'
  rw [nodeAt?_put_of_ne hne, h loc' hloc']

theorem keepsDirectories_clear {loc : Location} (hloc : tree.nodeAt? loc ≠ some .directory) :
    tree.KeepsDirectories (tree.clear loc) := by
  intro loc' hloc'
  have hne : loc' ≠ loc := by
    rintro rfl
    exact hloc hloc'
  rw [nodeAt?_clear_of_ne hne, hloc']

theorem KeepsDirectories.follow (h : tree.KeepsDirectories tree') {loc loc' : Location}
    {names : List Text} (hfollow : tree.follow loc names = .ok loc') :
    tree'.follow loc names = .ok loc' := by
  induction names generalizing loc with
  | nil => exact hfollow
  | cons name names ih =>
      rw [FileTree.follow] at hfollow ⊢
      rcases hnode : tree.nodeAt? loc with _ | _ | _
      · rw [hnode] at hfollow
        cases hfollow
      · rw [hnode] at hfollow
        cases hfollow
      · rw [hnode] at hfollow
        rw [h loc hnode]
        dsimp only at hfollow ⊢
        split at hfollow
        · cases hfollow
        · rename_i hlength
          rw [if_neg hlength]
          exact ih hfollow

/-- A route that leads somewhere leads there as long as no directory is lost. -/
theorem KeepsDirectories.locate (h : tree.KeepsDirectories tree') {r : Route} {loc : Location}
    (hlocate : tree.locate r = .ok loc) : tree'.locate r = .ok loc := by
  unfold FileTree.locate at hlocate ⊢
  split at hlocate
  · cases hlocate
  split at hlocate
  · cases hlocate
  split at hlocate
  · cases hlocate
  · rw [if_neg ‹_›, if_neg ‹_›, if_neg ‹_›]
    exact h.follow hlocate

theorem not_isAbove {loc : Location} (hloc : tree.nodeAt? loc ≠ some .directory) :
    ¬ loc.isAbove = true := by
  intro habove
  exact hloc (by rw [nodeAt?, if_pos habove])

theorem nodeAt?_put_self {loc : Location} (hloc : tree.nodeAt? loc ≠ some .directory)
    (node : Node) : (tree.put loc node).nodeAt? loc = some node := by
  rw [nodeAt?_put, if_neg (not_isAbove hloc), if_pos rfl]

theorem nodeAt?_clear_ne {loc : Location} (hloc : tree.nodeAt? loc ≠ some .directory)
    (source : Location) : (tree.clear source).nodeAt? loc ≠ some .directory := by
  rw [nodeAt?_clear, if_neg (not_isAbove hloc)]
  split
  · exact nofun
  · exact hloc

end Places

section Writes

/-- A file that is moved comes to where the path leads, which is no directory. -/
theorem moveFile_eq_ok {source : Location} {content : Utf8.Bytes}
    (hsource : tree.nodeAt? source = some (.file content))
    (h : tree.moveFile source p = (.ok (), tree')) :
    ∃ loc, tree.locate p = .ok loc ∧ tree.nodeAt? loc ≠ some .directory ∧
      tree' = if loc = source then tree else (tree.clear source).put loc (.file content) := by
  unfold moveFile at h
  split at h
  · cases h
  split at h
  · cases h
  rename_i loc hlocate
  rw [hsource] at h
  split at h
  · cases h
  · rename_i heq hloc
    cases heq
    cases h
    exact ⟨loc, hlocate, hloc, rfl⟩
  · cases h

/-- After a file has been moved to a path, the path leads to its content. -/
theorem lookup_moveFile {source : Location} {content : Utf8.Bytes}
    (hsource : tree.nodeAt? source = some (.file content))
    (h : tree.moveFile source p = (.ok (), tree')) :
    tree'.lookup p = .ok (some (.file content)) := by
  obtain ⟨loc, hlocate, hloc, rfl⟩ := moveFile_eq_ok hsource h
  split
  · rename_i hsame
    rw [lookup, hlocate]
    dsimp only
    rw [hsame, hsource]
  · have hplace := nodeAt?_clear_ne hloc source
    have hkept : tree.KeepsDirectories ((tree.clear source).put loc (.file content)) :=
      (keepsDirectories_clear (by rw [hsource]; exact nofun)).put hloc _
    rw [lookup, hkept.locate hlocate]
    dsimp only
    rw [nodeAt?_put_self hplace]

theorem nodeAt?_openFile {r : Route} {loc : Location} (h : tree.openFile r = (.ok loc, tree')) :
    tree'.nodeAt? loc ≠ some .directory := by
  unfold openFile at h
  split at h
  · cases h
  split at h
  · cases h
  · rename_i hloc
    cases h
    rw [nodeAt?_put_self hloc]
    exact nofun

theorem abandon_ne_ok (tree : FileTree) (draft : Path) (e : SystemError) (tree' : FileTree) :
    tree.abandon draft e ≠ (.ok (), tree') := by
  unfold abandon
  split <;> exact nofun

theorem replaceByDraft_eq_ok {source : Location}
    (h : tree.replaceByDraft faults p draft source = (.ok (), tree')) :
    tree.moveFile source p = (.ok (), tree') := by
  unfold replaceByDraft at h
  split at h
  · exact (abandon_ne_ok _ _ _ _ h).elim
  split at h
  · exact (abandon_ne_ok _ _ _ _ h).elim
  · rename_i hmoved
    cases h
    exact hmoved

theorem writeThrough_eq_ok (h : tree.writeThrough faults p draft text = (.ok (), tree')) :
    ∃ opened source content, tree.openFile draft = (.ok source, opened) ∧
      Utf8.encode text = .ok content ∧
      (opened.put source (.file content)).moveFile source p = (.ok (), tree') := by
  unfold writeThrough at h
  split at h
  · exact (abandon_ne_ok _ _ _ _ h).elim
  split at h
  · exact (abandon_ne_ok _ _ _ _ h).elim
  rename_i hopened
  split at h
  · cases h
  rename_i content hcontent
  split at h
  · exact (abandon_ne_ok _ _ _ _ h).elim
  · exact ⟨_, _, content, hopened, hcontent, replaceByDraft_eq_ok h⟩

/-- A write that completes has made the directories on the way and has been done through a draft. -/
theorem writeText_eq_ok (h : tree.writeText faults p text = (.ok (), tree')) :
    ∃ made draft, tree.makeParents faults p = (.ok (), made) ∧ p.sibling? ".tmp" = some draft ∧
      made.writeThrough faults p draft text = (.ok (), tree') := by
  unfold writeText at h
  split at h
  · cases h
  rename_i hmade
  split at h
  · cases h
  · rename_i hdraft
    exact ⟨_, _, hmade, hdraft, h⟩

/-- After a text has been written, the path leads to its bytes. -/
theorem lookup_writeText (h : tree.writeText faults p text = (.ok (), tree')) :
    ∃ bytes, Utf8.encode text = .ok bytes ∧ tree'.lookup p = .ok (some (.file bytes)) := by
  obtain ⟨_, _, -, -, hwritten⟩ := writeText_eq_ok h
  obtain ⟨_, _, bytes, hopened, hbytes, hmoved⟩ := writeThrough_eq_ok hwritten
  exact ⟨bytes, hbytes, lookup_moveFile (nodeAt?_put_self (nodeAt?_openFile hopened) _) hmoved⟩

/-- A mapping that its format keeps is read back from the file that it has been written to. -/
theorem readMapping_writeMapping {format : Format} {now : Timestamp} {values : Mapping Text Text}
    {comment : Option Text}
    (h : tree.writeMapping faults p format now values comment = (.ok (), tree'))
    (hkeeps : format.Keeps values) :
    ∃ m, tree'.readMapping p format = .ok m ∧ ∀ name, m.find? name = values.find? name := by
  obtain ⟨bytes, hbytes, hlookup⟩ := lookup_writeText h
  obtain ⟨m, hm, hsame⟩ := Format.decode_encode hkeeps now comment
  refine ⟨m, ?_, hsame⟩
  unfold readMapping
  rw [hlookup]
  dsimp only
  rw [Utf8.decode_encode hbytes]
  exact hm

end Writes

end FileTree

end VersionedProperties
