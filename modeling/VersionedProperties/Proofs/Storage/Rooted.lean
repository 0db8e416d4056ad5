import VersionedProperties.Proofs.Storage.Following
import VersionedProperties.Storage.Command

/-!
# Trees in which everything is in a directory

Nothing is ever put at a place that a route does not lead to, and what is replaced or removed is no
directory. So in every tree that operations make of the empty one, what there is lies in a
directory (`IsRooted`). Below a place that holds no directory there is nothing in such a tree.
-/

namespace VersionedProperties

namespace FileTree

variable {tree tree' : FileTree} {r : Route} {loc target : Location} {name : Text}
  {names : List Text}

section Rooted

/-- Whatever a tree holds is in a directory. -/
def IsRooted (tree : FileTree) : Prop :=
  ∀ loc name, tree.nodeAt? (loc ++ [name]) ≠ none → tree.nodeAt? loc = some .directory

theorem isAbove_of_append (h : Location.isAbove (loc ++ [name]) = true) : loc.isAbove = true := by
  rw [Location.isAbove_iff] at h ⊢
  rcases h with hall | htop
  · exact .inl fun c hc => hall c (List.mem_append_left _ hc)
  · rcases List.append_eq_singleton_iff.1 htop with ⟨rfl, -⟩ | ⟨-, hnil⟩
    · exact .inl fun c hc => absurd hc List.not_mem_nil
    · cases hnil

theorem isRooted_empty : empty.IsRooted := by
  intro loc name h
  by_cases habove : Location.isAbove (loc ++ [name]) = true
  · rw [nodeAt?, if_pos (isAbove_of_append habove)]
  · rw [nodeAt?, if_neg habove] at h
    exact absurd rfl h

theorem IsRooted.up (h : tree.IsRooted) (hloc : tree.nodeAt? loc = some .directory) :
    tree.nodeAt? loc.up = some .directory := by
  unfold Location.up
  split
  · rfl
  rename_i htop
  split
  · rename_i habove
    have hall := (Location.isAbove_iff.1 habove).resolve_right htop
    have hup : Location.isAbove (".." :: loc) = true :=
      Location.isAbove_iff.2 (.inl (List.forall_mem_cons.2 ⟨rfl, hall⟩))
    rw [nodeAt?, if_pos hup]
  · rename_i habove
    have hne : loc ≠ [] := by
      rintro rfl
      exact habove rfl
    apply h loc.dropLast (loc.getLast hne)
    rw [List.dropLast_append_getLast hne, hloc]
    exact Option.some_ne_none _

theorem IsRooted.nodeAt?_append (h : tree.IsRooted) (hloc : tree.nodeAt? loc ≠ some .directory)
    (name : Text) (rest : List Text) : tree.nodeAt? (loc ++ name :: rest) = none := by
  have hinside : ∀ {loc : Location} (name : Text), tree.nodeAt? loc ≠ some .directory →
      tree.nodeAt? (loc ++ [name]) = none := by
    intro loc name hloc
    by_contra hnode
    exact hloc (h loc name hnode)
  induction rest generalizing loc name with
  | nil => exact hinside name hloc
  | cons second rest ih =>
      rw [List.append_cons]
      refine ih ?_ second
      rw [hinside name hloc]
      exact nofun

/-- A route leads to a directory, or to a place in one. -/
theorem IsRooted.place_of_follow (h : tree.IsRooted) (hloc : tree.nodeAt? loc = some .directory)
    (hfollow : tree.follow loc names = .ok target)
    (htarget : tree.nodeAt? target ≠ some .directory) {above : Location}
    (happend : target = above ++ [name]) : tree.nodeAt? above = some .directory := by
  induction names generalizing loc with
  | nil =>
      cases hfollow
      exact absurd hloc htarget
  | cons first names ih =>
      obtain ⟨-, -, hrest⟩ := follow_cons.1 hfollow
      by_cases hnext : tree.nodeAt? (loc.next first) = some .directory
      · exact ih hnext hrest
      · cases names with
        | cons second names => exact absurd (follow_cons.1 hrest).1 hnext
        | nil =>
            cases hrest
            unfold Location.next at hnext happend
            split at hnext
            · exact absurd hloc hnext
            split at hnext
            · exact absurd (h.up hloc) hnext
            · rw [if_neg ‹_›, if_neg ‹_›] at happend
              obtain ⟨rfl, -⟩ := List.append_inj' happend rfl
              exact hloc

theorem IsRooted.put (h : tree.IsRooted) (hloc : tree.nodeAt? loc ≠ some .directory)
    (hplace : ∀ above name, loc = above ++ [name] → tree.nodeAt? above = some .directory)
    (node : Node) : (tree.put loc node).IsRooted := by
  intro above name hnode
  apply KeepsDirectories.put hloc node fun _ => id
  by_cases heq : above ++ [name] = loc
  · exact hplace above name heq.symm
  · apply h above name
    rwa [nodeAt?_put_of_ne heq] at hnode

theorem IsRooted.clear (h : tree.IsRooted) (hloc : tree.nodeAt? loc ≠ some .directory) :
    (tree.clear loc).IsRooted := by
  intro above name hnode
  have hne : above ++ [name] ≠ loc := by
    rintro rfl
    exact hnode (by rw [nodeAt?_clear, if_neg (not_isAbove hloc), if_pos rfl])
  rw [nodeAt?_clear_of_ne hne] at hnode
  exact keepsDirectories_clear hloc above (h above name hnode)

/-- What is no directory may be put where a route leads to. -/
theorem IsRooted.put_located (h : tree.IsRooted) (hlocate : tree.locate r = .ok loc)
    (hloc : tree.nodeAt? loc ≠ some .directory) (node : Node) : (tree.put loc node).IsRooted :=
  h.put hloc (fun _ _ =>
    h.place_of_follow (tree.nodeAt?_start r) (follow_of_locate hlocate) hloc) node

/-- What is no directory may be put in the current directory. -/
theorem IsRooted.put_current (h : tree.IsRooted) (name : Text)
    (hloc : tree.nodeAt? [name] ≠ some .directory) (node : Node) :
    (tree.put [name] node).IsRooted := by
  refine h.put hloc (fun above name' happend => ?_) node
  rcases List.append_eq_singleton_iff.1 happend.symm with ⟨rfl, -⟩ | ⟨-, hnil⟩
  · rfl
  · cases hnil

/-- A file may be put in place of another. -/
theorem IsRooted.put_file (h : tree.IsRooted) {content : Utf8.Bytes}
    (hloc : tree.nodeAt? loc = some (.file content)) (node : Node) :
    (tree.put loc node).IsRooted := by
  refine h.put (by rw [hloc]; exact nofun) (fun above name happend => ?_) node
  apply h above name
  rw [← happend, hloc]
  exact Option.some_ne_none _

end Rooted

section Operations

variable {p draft : Path} {faults : WriteFaults}

theorem IsRooted.makeDirectory (h : tree.IsRooted) (r : Route) :
    (tree.makeDirectory r).2.IsRooted := by
  unfold FileTree.makeDirectory
  split
  · exact h
  split
  · exact h
  · rename_i hlocate _ hnode
    exact h.put_located hlocate (by rw [hnode]; exact nofun) _

theorem IsRooted.ensureDirectory (h : tree.IsRooted) (r : Route) :
    (tree.ensureDirectory r).2.IsRooted := by
  have hmade := h.makeDirectory r
  unfold FileTree.ensureDirectory
  split <;> rename_i heq <;> rw [heq] at hmade <;> exact hmade

theorem IsRooted.ensureAll (h : tree.IsRooted) (root : Text) (components : List Text) :
    (tree.ensureAll root components).2.IsRooted := by
  induction components generalizing tree with
  | nil => exact h
  | cons c parents ih =>
      have hmade := h.makeDirectory (Path.mk root (c :: parents).reverse)
      unfold FileTree.ensureAll
      dsimp only
      split
      · rename_i tree₁ heq
        rw [heq] at hmade
        have hparents := ih hmade
        split <;> rename_i heq' <;> rw [heq'] at hparents
        · exact hparents.ensureDirectory _
        · exact hparents
      · exact h.ensureDirectory _

theorem IsRooted.makeOne (h : tree.IsRooted) (reuse : Bool) (r : Route) :
    (tree.makeOne reuse r).2.IsRooted := by
  unfold FileTree.makeOne
  split
  · exact h.ensureDirectory r
  · exact h.makeDirectory r

theorem IsRooted.makeAll (h : tree.IsRooted) (reuse : Bool) (r : Route) (above : List Route) :
    (tree.makeAll reuse r above).2.IsRooted := by
  induction above generalizing r with
  | nil => exact h.makeOne reuse r
  | cons nearest above ih =>
      unfold FileTree.makeAll
      split
      · exact h.makeOne reuse r
      · have hnearest := ih nearest
        dsimp only
        split
        · split
          · exact hnearest
          · exact hnearest.makeOne reuse r
        · split
          · exact hnearest
          · exact hnearest.makeOne reuse r
        · exact hnearest

theorem IsRooted.openFile (h : tree.IsRooted) (r : Route) : (tree.openFile r).2.IsRooted := by
  unfold FileTree.openFile
  split
  · exact h
  split
  · exact h
  · rename_i hlocate _ hnode
    exact h.put_located hlocate hnode _

theorem nodeAt?_openFile_ok (h : tree.openFile r = (.ok loc, tree')) :
    tree'.nodeAt? loc = some (.file []) := by
  unfold FileTree.openFile at h
  split at h
  · cases h
  split at h
  · cases h
  · rename_i hloc
    cases h
    exact nodeAt?_put_self hloc _

theorem IsRooted.writeFile (h : tree.IsRooted) (r : Route) (content : Utf8.Bytes) :
    (tree.writeFile r content).2.IsRooted := by
  have hopened := h.openFile r
  unfold FileTree.writeFile
  split <;> rename_i heq <;> rw [heq] at hopened
  · exact hopened.put_file (nodeAt?_openFile_ok heq) _
  · exact hopened

theorem IsRooted.remove (h : tree.IsRooted) (r : Route) : (tree.remove r).2.IsRooted := by
  unfold FileTree.remove
  split
  · exact h
  split
  · exact h
  · exact h
  split
  · exact h
  · rename_i hnode _
    exact h.clear (by rw [hnode]; exact nofun)

theorem IsRooted.discard (h : tree.IsRooted) (r : Route) : (tree.discard r).2.IsRooted := by
  have hremoved := h.remove r
  unfold FileTree.discard
  split <;> rename_i heq <;> rw [heq] at hremoved <;> exact hremoved

theorem IsRooted.moveFile (h : tree.IsRooted) (source : Location) (p : Path) :
    (tree.moveFile source p).2.IsRooted := by
  unfold FileTree.moveFile
  split
  · exact h
  split
  · exact h
  rename_i loc hlocate
  split
  · exact h
  · rename_i content hsource hloc
    dsimp only
    split
    · exact h
    · have hfile : tree.nodeAt? source ≠ some .directory := by
        rw [hsource]
        exact nofun
      have hloc' : tree.nodeAt? loc ≠ some .directory := fun h => hloc h
      have hcleared := keepsDirectories_clear hfile
      refine (h.clear hfile).put (nodeAt?_clear_ne hloc' source) (fun above name happend => ?_) _
      exact hcleared _
        (h.place_of_follow (tree.nodeAt?_start p) (follow_of_locate hlocate) hloc' happend)
  · exact h

theorem IsRooted.abandon (h : tree.IsRooted) (draft : Path) (e : SystemError) :
    (tree.abandon draft e).2.IsRooted := by
  have hdiscarded := h.discard draft
  unfold FileTree.abandon
  split <;> rename_i heq <;> rw [heq] at hdiscarded <;> exact hdiscarded

theorem IsRooted.replaceByDraft (h : tree.IsRooted) (loc : Location) :
    (tree.replaceByDraft faults p draft loc).2.IsRooted := by
  unfold FileTree.replaceByDraft
  split
  · exact h.abandon draft _
  · have hmoved := h.moveFile loc p
    split <;> rename_i heq <;> rw [heq] at hmoved
    · exact hmoved.abandon draft _
    · exact hmoved

theorem IsRooted.writeThrough (h : tree.IsRooted) (text : Text) :
    (tree.writeThrough faults p draft text).2.IsRooted := by
  unfold FileTree.writeThrough
  split
  · exact h.abandon draft _
  have hopened := h.openFile draft
  split <;> rename_i heq <;> rw [heq] at hopened
  · exact hopened.abandon draft _
  split
  · exact hopened
  split
  · exact hopened.abandon draft _
  · exact (hopened.put_file (nodeAt?_openFile_ok heq) _).replaceByDraft _

theorem IsRooted.makeParents (h : tree.IsRooted) (faults : WriteFaults) (p : Path) :
    (tree.makeParents faults p).2.IsRooted := by
  unfold FileTree.makeParents
  split
  · exact h
  · exact h.ensureAll _ _

theorem IsRooted.writeText (h : tree.IsRooted) (faults : WriteFaults) (p : Path) (text : Text) :
    (tree.writeText faults p text).2.IsRooted := by
  have hmade := h.makeParents faults p
  unfold FileTree.writeText
  split <;> rename_i heq <;> rw [heq] at hmade
  · exact hmade
  split
  · exact hmade
  · exact hmade.writeThrough text

end Operations

end FileTree

/-- Whatever is done on a disk, what it holds stays in directories. -/
theorem Disk.isRooted_perform {d : Disk} (h : d.tree.IsRooted) (c : Disk.Command) :
    (d.perform c).2.tree.IsRooted := by
  cases c with
  | writeFile r content => exact h.writeFile r content
  | writeHexadecimal r digits =>
      change (d.writeHexadecimal r digits).2.tree.IsRooted
      unfold writeHexadecimal
      split
      · exact h
      · exact h.writeFile r _
  | makeDirectories r => exact h.makeAll false r r.above
  | remove r => exact h.remove r
  | readText r => exact h
  | listing => exact h
  | readMapping p format => exact h
  | writeMapping p format values comment => exact h.writeText _ _ _
  | readDefaults p format => exact h

end VersionedProperties
