import VersionedProperties.Proofs.Storage.Backing

/-!
# Where routes lead

The names of a route alone tell the place that it can lead to (`walk`); the tree tells whether it
leads there (`follow`). A route that leads somewhere passes through directories only, so one that is
closed in one tree and open in another meets something in the first that is no directory.
-/

namespace VersionedProperties

namespace Location

/-- The location that a name leads to from a location. -/
def next (loc : Location) (name : Text) : Location :=
  if name = "." then loc else if name = ".." then loc.up else loc ++ [name]

/-- The location that names lead to from a location if they lead anywhere. -/
def walk (loc : Location) (names : List Text) : Location := names.foldl next loc

theorem isAbove_iff {loc : Location} :
    loc.isAbove = true ↔ (∀ c ∈ loc, c = "..") ∨ loc = top := by
  simp [isAbove]

theorem walk_append (loc : Location) (names rest : List Text) :
    loc.walk (names ++ rest) = (loc.walk names).walk rest := List.foldl_append

theorem walk_of_plain {loc : Location} {names : List Text}
    (hplain : ∀ c ∈ names, c ≠ "." ∧ c ≠ "..") :
    loc.walk names = loc ++ names := by
  induction names generalizing loc with
  | nil => rw [List.append_nil]; rfl
  | cons name names ih =>
      obtain ⟨hdot, hdots⟩ := hplain name (List.mem_cons_self ..)
      change (loc.next name).walk names = _
      rw [next, if_neg hdot, if_neg hdots,
        ih fun c hc => hplain c (List.mem_cons_of_mem _ hc), ← List.append_cons]

theorem up_ne_append {loc : Location} {name : Text} (hname : name ≠ "..") :
    loc.up ≠ loc ++ [name] := by
  intro h
  unfold up at h
  split at h
  · rename_i htop
    rw [htop] at h
    cases h
  split at h
  · rename_i htop habove
    have hall : ∀ c ∈ loc, c = ".." := (isAbove_iff.1 habove).resolve_right htop
    have hmem : name ∈ (".." : Text) :: loc := by
      rw [h]
      exact List.mem_append_right _ (List.mem_singleton_self _)
    rcases List.mem_cons.1 hmem with heq | hmem
    · exact hname heq
    · exact hname (hall name hmem)
  · have hlength := congrArg List.length h
    rw [List.length_dropLast, List.length_append, List.length_singleton] at hlength
    omega

end Location

/-- Where the way along a route begins. -/
def Route.start (r : Route) : Location := if r.absolute then .top else []

/-- The place that a path leads to if it leads anywhere. -/
def Path.place (p : Path) : Location := p.route.start.walk p.components

namespace FileTree

variable {tree tree' : FileTree} {r : Route} {p : Path} {loc target : Location} {name : Text}
  {names rest : List Text}

section Following

theorem follow_cons : tree.follow loc (name :: rest) = .ok target ↔
    tree.nodeAt? loc = some .directory ∧ Route.byteCount name ≤ 255 ∧
      tree.follow (loc.next name) rest = .ok target := by
  rw [follow]
  constructor
  · intro h
    split at h
    · cases h
    · cases h
    split at h
    · cases h
    · exact ⟨‹_›, by omega, h⟩
  · rintro ⟨hnode, hlength, h⟩
    rw [hnode]
    dsimp only
    rw [if_neg (by omega)]
    exact h

theorem follow_append : tree.follow loc (names ++ rest) = .ok target ↔
    ∃ turn, tree.follow loc names = .ok turn ∧ tree.follow turn rest = .ok target := by
  induction names generalizing loc with
  | nil => simp [follow]
  | cons name names ih =>
      rw [List.cons_append, follow_cons, ih]
      simp only [follow_cons]
      constructor
      · rintro ⟨hnode, hlength, turn, hfirst, hthen⟩
        exact ⟨turn, ⟨hnode, hlength, hfirst⟩, hthen⟩
      · rintro ⟨turn, ⟨hnode, hlength, hfirst⟩, hthen⟩
        exact ⟨hnode, hlength, turn, hfirst, hthen⟩

theorem eq_walk_of_follow (h : tree.follow loc names = .ok target) : target = loc.walk names := by
  induction names generalizing loc with
  | nil =>
      cases h
      rfl
  | cons name names ih => exact ih (follow_cons.1 h).2.2

theorem isAbove_start (r : Route) : r.start.isAbove = true := by
  unfold Route.start
  split <;> decide

theorem nodeAt?_start (tree : FileTree) (r : Route) :
    tree.nodeAt? r.start = some .directory := by
  rw [nodeAt?, if_pos (isAbove_start r)]

/-- A way that goes on goes on from a directory. -/
theorem follow_through (h : tree.follow loc names = .ok target)
    (hnames : names ≠ []) : tree.nodeAt? loc = some .directory := by
  cases names with
  | nil => exact absurd rfl hnames
  | cons name names => exact (follow_cons.1 h).1

/-- The places on the way along an open route are directories. -/
theorem directory_of_prefix {front : List Text}
    (hloc : tree.nodeAt? loc = some .directory) (h : tree.follow loc names = .ok target)
    (hfront : front <+: names.dropLast) : tree.nodeAt? (loc.walk front) = some .directory := by
  obtain ⟨more, hmore⟩ := hfront
  rcases List.eq_nil_or_concat names with rfl | ⟨before, last, rfl⟩
  · obtain ⟨rfl, -⟩ := List.append_eq_nil_iff.1 hmore
    exact hloc
  · rw [List.concat_eq_append, List.dropLast_concat] at hmore
    rw [List.concat_eq_append, ← hmore, List.append_assoc, follow_append] at h
    obtain ⟨turn, hfirst, hthen⟩ := h
    rw [← eq_walk_of_follow hfirst]
    exact follow_through hthen (by simp)

/-- No way that ends before another one, which is stuck at a place and does not turn back from there
on, ends where this leads to. -/
theorem walk_ne_of_stuck {front : List Text} (hfront : tree.follow loc names = .ok target)
    (hplain : ∀ c ∈ name :: rest, c ≠ "." ∧ c ≠ "..")
    (hnothing : tree.nodeAt? (target ++ name :: rest) = none)
    (hbefore : front <+: names ++ (name :: rest).dropLast) :
    loc.walk front ≠ target ++ name :: rest := by
  have htarget := eq_walk_of_follow hfront
  intro heq
  rcases List.prefix_or_prefix_of_prefix hbefore (List.prefix_append names _) with
    ⟨more, rfl⟩ | ⟨more, rfl⟩
  · obtain ⟨turn, hfirst, hmore⟩ := follow_append.1 hfront
    rw [eq_walk_of_follow hfirst, heq] at hmore
    cases more with
    | nil =>
        have hsame : target ++ name :: rest = target := Except.ok.inj hmore
        exact absurd hsame (by simp)
    | cons c more =>
        rw [(follow_cons.1 hmore).1] at hnothing
        cases hnothing
  · have hmore : more <+: (name :: rest).dropLast := (List.prefix_append_right_inj names).1 hbefore
    have hplain' : ∀ c ∈ more, c ≠ "." ∧ c ≠ ".." := fun c hc =>
      hplain c (List.dropLast_subset _ (hmore.subset hc))
    rw [Location.walk_append, ← htarget, Location.walk_of_plain hplain'] at heq
    have hlength := hmore.length_le
    rw [List.append_cancel_left heq, List.length_dropLast, List.length_cons] at hlength
    omega

/-- Where a way that is open in another tree is not open, it ends at what is no directory. -/
theorem follow_stuck (tree : FileTree) (h : tree'.follow loc names = .ok target) :
    tree.follow loc names = .ok target ∨ ∃ front name rest turn, names = front ++ name :: rest ∧
      tree.follow loc front = .ok turn ∧ tree.nodeAt? turn ≠ some .directory := by
  induction names generalizing loc with
  | nil => exact .inl h
  | cons name names ih =>
      obtain ⟨-, hlength, hrest⟩ := follow_cons.1 h
      by_cases hloc : tree.nodeAt? loc = some .directory
      · rcases ih hrest with hopen | ⟨front, name', rest, turn, rfl, hfront, hturn⟩
        · exact .inl (follow_cons.2 ⟨hloc, hlength, hopen⟩)
        · exact .inr ⟨name :: front, name', rest, turn, rfl,
            follow_cons.2 ⟨hloc, hlength, hfront⟩, hturn⟩
      · exact .inr ⟨[], name, names, loc, rfl, rfl, hloc⟩

end Following

section Locating

/-- A route that is followed in one tree is followed in every tree. -/
theorem locate_eq_follow (h : tree'.locate r = .ok loc) :
    tree.locate r = tree.follow r.start r.names := by
  unfold locate at h ⊢
  split at h
  · cases h
  split at h
  · cases h
  split at h
  · cases h
  · rw [if_neg ‹_›, if_neg ‹_›, if_neg ‹_›]
    rfl

theorem follow_of_locate (h : tree.locate r = .ok loc) : tree.follow r.start r.names = .ok loc :=
  (locate_eq_follow h).symm.trans h

theorem eq_place_of_locate (h : tree.locate p = .ok loc) : loc = p.place :=
  eq_walk_of_follow (follow_of_locate h)

/-- What a route leads to, if it leads anywhere. -/
def found (tree : FileTree) (r : Route) : Option Node :=
  match tree.locate r with
  | .ok loc => tree.nodeAt? loc
  | .error _ => none

theorem found_of_locate (h : tree.locate p = .ok loc) : tree.found p = tree.nodeAt? p.place := by
  rw [found, h, ← eq_place_of_locate h]

theorem found_of_error {fault : SystemError} (h : tree.locate p = .error fault) :
    tree.found p = none := by
  rw [found, h]

theorem found_eq_some {node : Node} (h : tree.found p = some node) :
    tree.locate p = .ok p.place ∧ tree.nodeAt? p.place = some node := by
  cases hlocate : tree.locate p with
  | error fault =>
      rw [found_of_error hlocate] at h
      cases h
  | ok loc =>
      rw [found_of_locate hlocate] at h
      exact ⟨by rw [eq_place_of_locate hlocate], h⟩

/-- A path over a place that holds nothing leads to nothing. -/
theorem found_of_missing (hcomponents : p.components = names ++ rest)
    (hfollow : tree.follow p.route.start names = .ok loc) (hmissing : tree.nodeAt? loc = none) :
    tree.found p = none := by
  by_contra hfound
  obtain ⟨node, hnode⟩ := Option.ne_none_iff_exists'.1 hfound
  obtain ⟨hlocate, hplace⟩ := found_eq_some hnode
  have hall : tree.follow p.route.start p.components = .ok p.place := follow_of_locate hlocate
  rw [hcomponents] at hall
  obtain ⟨turn, hfirst, hrest⟩ := follow_append.1 hall
  rw [eq_walk_of_follow hfirst, ← eq_walk_of_follow hfollow] at hrest
  cases rest with
  | nil =>
      cases hrest
      rw [hmissing] at hplace
      cases hplace
  | cons name rest =>
      rw [(follow_cons.1 hrest).1] at hmissing
      cases hmissing

end Locating

end FileTree

end VersionedProperties
