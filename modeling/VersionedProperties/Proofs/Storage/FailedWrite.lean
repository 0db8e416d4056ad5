import VersionedProperties.Proofs.Storage.Rooted

/-!
# What a write that fails leaves

A write makes the missing directories on the way to its path, and then works on the draft beside it
until the draft takes the place of the file in one step. A write that fails has done no more than
the first two. So it has made directories where there was nothing (`MakesWay`) and has changed the
place of the draft (`ChangesOnly`), which is another than that of the file.

Directories on the way are all that can change what the path leads to. Where the path turns back
with `..` from a directory that has been missing, the way is open after it has been made, and the
path may lead to a file that has been there all along. Every other path leads to what it led to
before (`SparesPath`).
-/

namespace VersionedProperties

namespace Path

/-- The place of the draft for the file at a path. -/
def draftPlace (p : Path) : Location :=
  p.route.start.walk p.components.dropLast ++ [p.name ++ ".tmp"]

theorem draftName_ne {name other : Text} (hother : other.length ≤ name.length + 3) :
    name ++ (".tmp" : Text) ≠ other := by
  rintro rfl
  have hlength : (name ++ (".tmp" : Text)).length = name.length + 4 := List.length_append
  omega

theorem next_ne_draft (loc : Location) (name : Text) : loc.next name ≠ loc ++ [name ++ ".tmp"] := by
  unfold Location.next
  split
  · exact fun h => absurd (congrArg List.length h) (by simp)
  split
  · exact Location.up_ne_append (draftName_ne (Nat.le_add_left 2 (name.length + 1)))
  · exact fun h => draftName_ne (Nat.le_add_right name.length 3)
      (List.singleton_inj.1 (List.append_cancel_left h)).symm

theorem draftPlace_ne_place (p : Path) : p.place ≠ p.draftPlace := by
  unfold place draftPlace
  rcases List.eq_nil_or_concat p.components with hnil | ⟨front, name, heq⟩
  · rw [hnil]
    exact fun h => absurd (congrArg List.length h) (by simp)
  · have hname : p.name = name := by
      rw [Path.name, heq, List.concat_eq_append, List.getLast?_concat]
      rfl
    rw [hname, heq, List.concat_eq_append, List.dropLast_concat, Location.walk, List.foldl_append]
    exact next_ne_draft _ name

end Path

namespace FileTree

variable {tree tree' tree'' : FileTree} {p draft : Path} {faults : WriteFaults} {text : Text}
  {start place loc : Location} {names : List Text} {e : Error}

section Making

/-- Nothing is changed but that directories are made along names where there was nothing. -/
def MakesWay (tree tree' : FileTree) (start : Location) (names : List Text) : Prop :=
  ∀ loc, tree'.nodeAt? loc = tree.nodeAt? loc ∨
    tree.nodeAt? loc = none ∧ tree'.nodeAt? loc = some .directory ∧
      ∃ front, front <+: names ∧ loc = start.walk front

theorem MakesWay.refl (tree : FileTree) (start : Location) (names : List Text) :
    tree.MakesWay tree start names := fun _ => .inl rfl

theorem MakesWay.trans (h : tree.MakesWay tree' start names)
    (h' : tree'.MakesWay tree'' start names) : tree.MakesWay tree'' start names := by
  intro loc
  rcases h loc with hsame | ⟨hnone, hmade, hfront⟩
  · rw [← hsame]
    exact h' loc
  · rcases h' loc with hsame' | ⟨hnone', -⟩
    · exact .inr ⟨hnone, hsame'.trans hmade, hfront⟩
    · rw [hmade] at hnone'
      cases hnone'

theorem MakesWay.mono {more : List Text} (h : tree.MakesWay tree' start names)
    (hmore : names <+: more) : tree.MakesWay tree' start more := by
  intro loc
  rcases h loc with hsame | ⟨hnone, hmade, front, hfront, heq⟩
  · exact .inl hsame
  · exact .inr ⟨hnone, hmade, front, hfront.trans hmore, heq⟩

theorem MakesWay.keepsDirectories (h : tree.MakesWay tree' start names) :
    tree.KeepsDirectories tree' := by
  intro loc hloc
  rcases h loc with hsame | ⟨hnone, -⟩
  · rw [hsame, hloc]
  · rw [hnone] at hloc
    cases hloc

theorem makesWay_makeDirectory (tree : FileTree) (r : Route) :
    tree.MakesWay (tree.makeDirectory r).2 r.start r.names := by
  unfold makeDirectory
  split
  · exact .refl _ _ _
  split
  · exact .refl _ _ _
  · rename_i place hlocate _ hnode
    have hplace := eq_walk_of_follow (follow_of_locate hlocate)
    have hempty : tree.nodeAt? place ≠ some .directory := by
      rw [hnode]
      exact nofun
    intro loc
    by_cases heq : loc = place
    · subst heq
      exact .inr ⟨hnode, nodeAt?_put_self hempty _, r.names, List.prefix_rfl, hplace⟩
    · exact .inl (nodeAt?_put_of_ne heq _)

theorem makesWay_ensureDirectory (tree : FileTree) (r : Route) :
    tree.MakesWay (tree.ensureDirectory r).2 r.start r.names := by
  have hmade := tree.makesWay_makeDirectory r
  unfold ensureDirectory
  split <;> rename_i heq <;> rw [heq] at hmade <;> exact hmade

theorem makesWay_ensureAll (tree : FileTree) (root : Text) (components : List Text) :
    tree.MakesWay (tree.ensureAll root components).2
      (Path.mk root components.reverse).route.start components.reverse := by
  induction components generalizing tree with
  | nil => exact .refl _ _ _
  | cons c parents ih =>
      have hlonger : parents.reverse <+: (c :: parents).reverse := by
        rw [List.reverse_cons]
        exact List.prefix_append _ _
      have hmade := tree.makesWay_makeDirectory (Path.mk root (c :: parents).reverse)
      unfold ensureAll
      dsimp only
      split
      · rename_i tree₁ heq
        rw [heq] at hmade
        have hparents := hmade.trans ((ih tree₁).mono hlonger)
        split <;> rename_i heq' <;> rw [heq'] at hparents
        · exact hparents.trans (makesWay_ensureDirectory _ _)
        · exact hparents
      · exact makesWay_ensureDirectory _ _

theorem makesWay_makeParents (tree : FileTree) (faults : WriteFaults) (p : Path) :
    tree.MakesWay (tree.makeParents faults p).2 p.route.start p.components.dropLast := by
  unfold makeParents
  split
  · exact .refl _ _ _
  · have hmade := tree.makesWay_ensureAll p.root p.parent.components.reverse
    rw [List.reverse_reverse] at hmade
    exact hmade

end Making

section Drafting

/-- Nothing is changed but what is no directory at one place. -/
structure ChangesOnly (place : Location) (tree tree' : FileTree) : Prop where
  directories : ∀ loc, tree'.nodeAt? loc = some .directory ↔ tree.nodeAt? loc = some .directory
  beside : ∀ loc, loc ≠ place → tree'.nodeAt? loc = tree.nodeAt? loc

theorem ChangesOnly.refl (place : Location) (tree : FileTree) : tree.ChangesOnly place tree :=
  ⟨fun _ => .rfl, fun _ _ => rfl⟩

theorem ChangesOnly.trans (h : tree.ChangesOnly place tree')
    (h' : tree'.ChangesOnly place tree'') : tree.ChangesOnly place tree'' where
  directories loc := (h'.directories loc).trans (h.directories loc)
  beside loc hloc := (h'.beside loc hloc).trans (h.beside loc hloc)

theorem changesOnly_put (hplace : tree.nodeAt? place ≠ some .directory) (content : Utf8.Bytes) :
    tree.ChangesOnly place (tree.put place (.file content)) where
  directories loc := by
    refine ⟨fun h => ?_, KeepsDirectories.put hplace _ (fun _ => id) loc⟩
    by_cases heq : loc = place
    · rw [heq, nodeAt?_put_self hplace] at h
      cases h
    · rwa [nodeAt?_put_of_ne heq] at h
  beside loc hloc := nodeAt?_put_of_ne hloc _

theorem changesOnly_clear (hplace : tree.nodeAt? place ≠ some .directory) :
    tree.ChangesOnly place (tree.clear place) where
  directories loc := by
    refine ⟨fun h => ?_, keepsDirectories_clear hplace loc⟩
    by_cases heq : loc = place
    · subst heq
      exact absurd h (nodeAt?_clear_ne hplace loc)
    · rwa [nodeAt?_clear_of_ne heq] at h
  beside loc hloc := nodeAt?_clear_of_ne hloc

theorem changesOnly_remove (tree : FileTree) (p : Path) :
    tree.ChangesOnly p.place (tree.remove p).2 := by
  unfold remove
  split
  · exact .refl _ _
  rename_i loc hlocate
  split
  · exact .refl _ _
  · exact .refl _ _
  · rename_i hnode
    cases eq_place_of_locate hlocate
    exact changesOnly_clear (by rw [hnode]; exact nofun)

theorem changesOnly_abandon {fault : SystemError} {outcome : Except Error Unit}
    (h : tree.abandon p fault = (outcome, tree')) : tree.ChangesOnly p.place tree' := by
  have hdiscarded : tree.ChangesOnly p.place (tree.discard p).2 := by
    have hremoved := tree.changesOnly_remove p
    unfold discard
    split <;> rename_i heq <;> rw [heq] at hremoved <;> exact hremoved
  unfold abandon at h
  split at h <;> rename_i heq <;> rw [heq] at hdiscarded <;> cases h <;> exact hdiscarded

theorem changesOnly_openFile (tree : FileTree) (p : Path) :
    tree.ChangesOnly p.place (tree.openFile p).2 := by
  unfold openFile
  split
  · exact .refl _ _
  rename_i loc hlocate
  split
  · exact .refl _ _
  · rename_i hnode
    cases eq_place_of_locate (p := p) hlocate
    exact changesOnly_put hnode _

theorem openFile_place (h : tree.openFile p = (.ok loc, tree')) : loc = p.place := by
  unfold openFile at h
  split at h
  · cases h
  rename_i hlocate
  split at h
  · cases h
  · cases h
    exact eq_place_of_locate (p := p) hlocate

theorem moveFile_error {fault : SystemError}
    (h : tree.moveFile loc p = (.error fault, tree')) : tree' = tree := by
  unfold moveFile at h
  split at h
  · cases h
    rfl
  split at h
  · cases h
    rfl
  split at h <;> cases h <;> rfl

theorem changesOnly_replaceByDraft
    (h : tree.replaceByDraft faults p draft loc = (.error e, tree')) :
    tree.ChangesOnly draft.place tree' := by
  unfold replaceByDraft at h
  split at h
  · exact changesOnly_abandon h
  split at h
  · rename_i hmoved
    cases moveFile_error hmoved
    exact changesOnly_abandon h
  · cases h

theorem changesOnly_writeThrough (h : tree.writeThrough faults p draft text = (.error e, tree')) :
    tree.ChangesOnly draft.place tree' := by
  unfold writeThrough at h
  split at h
  · exact changesOnly_abandon h
  have hopened := tree.changesOnly_openFile draft
  split at h <;> rename_i heq <;> rw [heq] at hopened
  · exact hopened.trans (changesOnly_abandon h)
  rename_i opened
  split at h
  · cases h
    exact hopened
  split at h
  · exact hopened.trans (changesOnly_abandon h)
  · have hfile : opened.nodeAt? draft.place ≠ some .directory := by
      rw [← openFile_place heq, nodeAt?_openFile_ok heq]
      exact nofun
    rw [openFile_place heq] at h
    exact (hopened.trans (changesOnly_put hfile _)).trans (changesOnly_replaceByDraft h)

theorem place_of_sibling (h : p.sibling? ".tmp" = some draft) : draft.place = p.draftPlace := by
  unfold Path.sibling? at h
  split at h
  · cases h
  · rename_i name hlast
    cases h
    have hname : p.name = name := by rw [Path.name, hlast]; rfl
    have hdot : name ++ (".tmp" : Text) ≠ "." :=
      Path.draftName_ne (Nat.le_add_left 1 (name.length + 2))
    have hdots : name ++ (".tmp" : Text) ≠ ".." :=
      Path.draftName_ne (Nat.le_add_left 2 (name.length + 1))
    rw [Path.place, Path.draftPlace, hname, Location.walk, List.foldl_append]
    change Location.next _ _ = _
    rw [Location.next, if_neg hdot, if_neg hdots]
    rfl

theorem place_ne_of_sibling (h : p.sibling? ".tmp" = some draft) : p.place ≠ draft.place := by
  rw [place_of_sibling h]
  exact p.draftPlace_ne_place

/-- A write that fails has made directories on the way and has changed the draft, if there is one.
-/
theorem writeText_error (h : tree.writeText faults p text = (.error e, tree')) :
    ∃ made, tree.MakesWay made p.route.start p.components.dropLast ∧
      (tree' = made ∨
        ∃ draft, p.sibling? ".tmp" = some draft ∧ made.ChangesOnly draft.place tree') := by
  have hmade := tree.makesWay_makeParents faults p
  unfold writeText at h
  split at h <;> rename_i heq <;> rw [heq] at hmade
  · cases h
    exact ⟨_, hmade, .inl rfl⟩
  split at h
  · cases h
    exact ⟨_, hmade, .inl rfl⟩
  · rename_i draft hdraft
    exact ⟨_, hmade, .inr ⟨draft, hdraft, changesOnly_writeThrough h⟩⟩

end Drafting

section Leading

/-- Wherever a path turns back, what is in front of the turn is there. -/
def HasTurns (tree : FileTree) (p : Path) : Prop :=
  ∀ front (turn : Text) rest, p.components = front ++ turn :: rest → turn = "." ∨ turn = ".." →
    tree.found (Path.mk p.root front) ≠ none

/-- A path leads to what it led to before, except that a way back may be open now. -/
structure SparesPath (p : Path) (tree tree' : FileTree) : Prop where
  kept : ∀ node, tree.found p = some node → tree'.found p = some node
  same : tree.HasTurns p → tree'.found p = tree.found p
  /-- A file to which the path leads has been at this place before. -/
  origin : ∀ node, tree'.found p = some node →
    tree.nodeAt? p.place = some node ∨ tree.nodeAt? p.place = none ∧ node = .directory

theorem SparesPath.refl (p : Path) (tree : FileTree) : tree.SparesPath p tree where
  kept _ h := h
  same _ := rfl
  origin _ h := .inl (found_eq_some h).2

/-- What is no directory matters only at the place of a path itself. -/
theorem ChangesOnly.found (h : tree.ChangesOnly place tree') (hplace : p.place ≠ place) :
    tree'.found p = tree.found p := by
  have hforward : tree.KeepsDirectories tree' := fun loc => (h.directories loc).2
  have hback : tree'.KeepsDirectories tree := fun loc => (h.directories loc).1
  cases hlocate : tree.locate p with
  | ok loc => rw [found_of_locate hlocate, found_of_locate (hforward.locate hlocate),
      h.beside _ hplace]
  | error fault =>
      cases hlocate' : tree'.locate p with
      | ok loc =>
          rw [hback.locate hlocate'] at hlocate
          cases hlocate
      | error fault' => rw [found_of_error hlocate, found_of_error hlocate']

/-- Where a way was not open, nothing but a way back can lead to what has been there before. -/
theorem MakesWay.nodeAt?_of_closed (hrooted : tree.IsRooted)
    (h : tree.MakesWay tree' p.route.start p.components.dropLast) (hturns : tree.HasTurns p)
    {fault : SystemError} (hclosed : tree.locate p = .error fault)
    (hopen : tree'.locate p = .ok p.place) : tree'.nodeAt? p.place = none := by
  have hfollow' := follow_of_locate hopen
  rw [locate_eq_follow hopen] at hclosed
  rcases follow_stuck tree hfollow' with hfollow |
    ⟨front, name, rest, turn, hsplit, hfront, hturn⟩
  · rw [hfollow] at hclosed
    cases hclosed
  change p.components = _ at hsplit
  have hwalk : p.route.start.walk front = turn := (eq_walk_of_follow hfront).symm
  -- The first directory that was missing has been made.
  have hmissing : tree.nodeAt? turn = none := by
    rcases h turn with hsame | ⟨hnone, -⟩
    · have hmade : tree'.nodeAt? turn = some .directory := by
        rw [← hwalk]
        refine directory_of_prefix (tree'.nodeAt?_start _) hfollow' ?_
        change front <+: p.components.dropLast
        rw [hsplit, List.dropLast_append_of_ne_nil (List.cons_ne_nil _ _)]
        exact List.prefix_append _ _
      exact absurd (hsame.symm.trans hmade) hturn
    · exact hnone
  have hlost : ∀ more, tree.found (Path.mk p.root (front ++ more)) = none :=
    fun more => found_of_missing (p := Path.mk p.root (front ++ more)) rfl hfront hmissing
  -- So the path does not turn back from there on.
  have hplain : ∀ c ∈ name :: rest, c ≠ "." ∧ c ≠ ".." := by
    intro c hc
    obtain ⟨more, rest', heq⟩ := List.append_of_mem hc
    rw [heq, ← List.append_assoc] at hsplit
    exact ⟨fun hdot => hturns _ _ _ hsplit (.inl hdot) (hlost more),
      fun hdots => hturns _ _ _ hsplit (.inr hdots) (hlost more)⟩
  have hplace : p.place = turn ++ name :: rest := by
    rw [Path.place, hsplit, Location.walk_append, hwalk, Location.walk_of_plain hplain]
  have hnothing : tree.nodeAt? p.place = none := by
    rw [hplace]
    exact hrooted.nodeAt?_append hturn name rest
  rcases h p.place with hsame | ⟨-, -, front', hfront', heq⟩
  · rw [hsame, hnothing]
  · -- Every directory that has been made lies in front of the place itself.
    rw [hsplit, List.dropLast_append_of_ne_nil (List.cons_ne_nil _ _)] at hfront'
    rw [hplace] at hnothing heq
    exact absurd heq.symm (walk_ne_of_stuck hfront hplain hnothing hfront')

/-- Directories made on the way to a path leave what the path leads to. -/
theorem MakesWay.sparesPath (hrooted : tree.IsRooted)
    (h : tree.MakesWay tree' p.route.start p.components.dropLast) : tree.SparesPath p tree' := by
  have hkept : ∀ node, tree.found p = some node → tree'.found p = some node := by
    intro node hfound
    obtain ⟨hlocate, hnode⟩ := found_eq_some hfound
    rw [found_of_locate (h.keepsDirectories.locate hlocate)]
    rcases h p.place with hsame | ⟨hnone, -⟩
    · rw [hsame, hnode]
    · rw [hnone] at hnode
      cases hnode
  refine ⟨hkept, fun hturns => ?_, fun node hfound => ?_⟩
  · cases hlocate : tree.locate p with
    | ok loc =>
        have hfollow := follow_of_locate hlocate
        rw [found_of_locate hlocate, found_of_locate (h.keepsDirectories.locate hlocate)]
        rcases h p.place with hsame | ⟨hnone, -, front, hfront, heq⟩
        · exact hsame
        · have hdirectory := directory_of_prefix (tree.nodeAt?_start p) hfollow hfront
          rw [← heq, hnone] at hdirectory
          cases hdirectory
    | error fault =>
        rw [found_of_error hlocate]
        by_contra hfound
        obtain ⟨node, hnode⟩ := Option.ne_none_iff_exists'.1 hfound
        obtain ⟨hopen, hplace⟩ := found_eq_some hnode
        rw [h.nodeAt?_of_closed hrooted hturns hlocate hopen] at hplace
        cases hplace
  · obtain ⟨-, hnode⟩ := found_eq_some hfound
    rcases h p.place with hsame | ⟨hnone, hmade, -⟩
    · exact .inl (hsame.symm.trans hnode)
    · rw [hmade] at hnode
      cases hnode
      exact .inr ⟨hnone, rfl⟩

/-- A write that fails leaves what its path leads to. -/
theorem sparesPath_writeText (hrooted : tree.IsRooted)
    (h : tree.writeText faults p text = (.error e, tree')) : tree.SparesPath p tree' := by
  obtain ⟨made, hmade, hdraft⟩ := writeText_error h
  have hspared := hmade.sparesPath hrooted
  have hfound : tree'.found p = made.found p := by
    rcases hdraft with rfl | ⟨draft, hsibling, hchanged⟩
    · rfl
    · exact hchanged.found (place_ne_of_sibling hsibling)
  exact ⟨fun node hnode => hfound.trans (hspared.kept node hnode),
    fun hturns => hfound.trans (hspared.same hturns),
    fun node hnode => hspared.origin node (hfound ▸ hnode)⟩

end Leading

end FileTree

end VersionedProperties
