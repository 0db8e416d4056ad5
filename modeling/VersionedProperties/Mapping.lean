/-!
# Mappings in order of insertion

A mapping lists its entries in the order in which their keys were first inserted, each key once.
Inserting at a key that is present replaces the value and keeps the place. Each operation has one
equation for `find?`, and the order is described by `keys`.
-/

namespace VersionedProperties

/-- Entries with distinct keys, in order of insertion. -/
structure Mapping (κ α : Type) where
  entries : List (κ × α)
  nodup_keys : (entries.map Prod.fst).Nodup

namespace Mapping

variable {κ α β : Type}

/-- The keys in order. -/
def keys (m : Mapping κ α) : List κ := m.entries.map Prod.fst

/-- The number of entries. -/
def size (m : Mapping κ α) : Nat := m.entries.length

/-- The mapping without entries. -/
def empty : Mapping κ α := ⟨[], List.nodup_nil⟩

instance : Inhabited (Mapping κ α) := ⟨empty⟩

@[simp] theorem entries_empty : (empty : Mapping κ α).entries = [] := rfl

@[simp] theorem keys_empty : (empty : Mapping κ α).keys = [] := rfl

theorem ext_entries {m n : Mapping κ α} (h : m.entries = n.entries) : m = n := by
  cases m; cases n; cases h; rfl

instance [DecidableEq κ] [DecidableEq α] : DecidableEq (Mapping κ α) := fun m n =>
  decidable_of_iff (m.entries = n.entries) ⟨ext_entries, congrArg _⟩

/-- The mapping with the same keys and the values changed entry by entry. -/
def mapEntries (f : κ → α → β) (m : Mapping κ α) : Mapping κ β :=
  ⟨m.entries.map fun e => (e.1, f e.1 e.2), by
    simpa [List.map_map, Function.comp_def] using m.nodup_keys⟩

@[simp] theorem keys_mapEntries (f : κ → α → β) (m : Mapping κ α) :
    (m.mapEntries f).keys = m.keys := by
  simp [keys, mapEntries, Function.comp_def]

/-- The entries that satisfy a condition. -/
def filter (p : κ → α → Bool) (m : Mapping κ α) : Mapping κ α :=
  ⟨m.entries.filter fun e => p e.1 e.2, m.nodup_keys.sublist (List.filter_sublist.map _)⟩

theorem keys_filterMap_sublist (f : κ → α → Option β) (entries : List (κ × α)) :
    ((entries.filterMap fun e => (f e.1 e.2).map (e.1, ·)).map Prod.fst).Sublist
      (entries.map Prod.fst) := by
  induction entries with
  | nil => simp
  | cons e rest ih =>
    cases h : f e.1 e.2 with
    | none => simpa [List.filterMap_cons, h] using ih.cons e.1
    | some v => simpa [List.filterMap_cons, h] using ih.cons_cons e.1

/-- The entries with the value changed where there is a new one, and left out elsewhere. -/
def filterMap (f : κ → α → Option β) (m : Mapping κ α) : Mapping κ β :=
  ⟨m.entries.filterMap fun e => (f e.1 e.2).map (e.1, ·),
    m.nodup_keys.sublist (keys_filterMap_sublist f m.entries)⟩

/-- The first key in order without a value, if there is one, and else the mapping of the values. -/
def present (m : Mapping κ (Option α)) : Except κ (Mapping κ α) :=
  match m.entries.find? (·.2.isNone) with
  | some e => .error e.1
  | none => .ok (m.filterMap fun _ v => v)

variable [DecidableEq κ]

/-- The value at a key. -/
def find? (m : Mapping κ α) (k : κ) : Option α := (m.entries.find? (·.1 = k)).map Prod.snd

/-- Whether a key has a value. -/
def contains (m : Mapping κ α) (k : κ) : Bool := (m.find? k).isSome

@[simp] theorem find?_empty (k : κ) : (empty : Mapping κ α).find? k = none := rfl

theorem find?_eq_none_iff {m : Mapping κ α} {k : κ} : m.find? k = none ↔ k ∉ m.keys := by
  simp only [find?, keys, Option.map_eq_none_iff, List.find?_eq_none, List.mem_map, not_exists,
    not_and, decide_eq_true_eq]

theorem contains_iff {m : Mapping κ α} {k : κ} : m.contains k = true ↔ k ∈ m.keys := by
  rw [contains, Option.isSome_iff_ne_none, ne_eq, find?_eq_none_iff, Decidable.not_not]

/-- Entries with the value at a key replaced, or with a new entry at the end. -/
def insertEntry (k : κ) (v : α) : List (κ × α) → List (κ × α)
  | [] => [(k, v)]
  | e :: rest => if e.1 = k then (k, v) :: rest else e :: insertEntry k v rest

theorem keys_insertEntry (k : κ) (v : α) (entries : List (κ × α)) :
    (insertEntry k v entries).map Prod.fst =
      if k ∈ entries.map Prod.fst then entries.map Prod.fst
      else entries.map Prod.fst ++ [k] := by
  induction entries with
  | nil => simp [insertEntry]
  | cons e rest ih =>
    by_cases h : e.1 = k
    · simp [insertEntry, h]
    · rw [insertEntry, if_neg h, List.map_cons, ih]
      by_cases hk : k ∈ rest.map Prod.fst <;> simp_all [Ne.symm h]

/-- The mapping with a value at a key. -/
def insert (m : Mapping κ α) (k : κ) (v : α) : Mapping κ α :=
  ⟨insertEntry k v m.entries, by
    rw [keys_insertEntry]
    split
    · exact m.nodup_keys
    · rename_i h
      refine List.nodup_append.2 ⟨m.nodup_keys, by simp, ?_⟩
      intro a ha b hb
      rintro rfl
      exact h (by simpa [List.mem_singleton.1 hb] using ha)⟩

theorem keys_insert (m : Mapping κ α) (k : κ) (v : α) :
    (m.insert k v).keys = if k ∈ m.keys then m.keys else m.keys ++ [k] :=
  keys_insertEntry k v m.entries

theorem find?_insert (m : Mapping κ α) (k k' : κ) (v : α) :
    (m.insert k v).find? k' = if k' = k then some v else m.find? k' := by
  simp only [find?, insert]
  induction m.entries with
  | nil =>
    by_cases h : k' = k
    · simp [insertEntry, h]
    · simp [insertEntry, h, Ne.symm h]
  | cons e rest ih =>
    by_cases he : e.1 = k
    · by_cases h : k' = k
      · simp [insertEntry, he, h]
      · simp [insertEntry, he, h, Ne.symm h]
    · rw [insertEntry, if_neg he]
      by_cases h' : e.1 = k'
      · subst h'
        simp [he]
      · simp [h', ih]

/-- The mapping without the entry of a key. -/
def erase (m : Mapping κ α) (k : κ) : Mapping κ α := m.filter fun k' _ => k' ≠ k

theorem find?_erase (m : Mapping κ α) (k k' : κ) :
    (m.erase k).find? k' = if k' = k then none else m.find? k' := by
  simp only [find?, erase, filter, List.find?_filter]
  by_cases h : k' = k
  · subst h
    simp
  · rw [if_neg h]
    congr 2
    funext e
    by_cases he : e.1 = k'
    · simp [he, h]
    · simp [he]

/-- The mapping of a list of entries: a later entry replaces the value of an earlier one and keeps
its place. -/
def ofList (entries : List (κ × α)) : Mapping κ α :=
  entries.foldl (fun m e => m.insert e.1 e.2) empty

/-- The entries of `upper` put over those of `lower`. -/
def overlay (lower upper : Mapping κ α) : Mapping κ α :=
  upper.entries.foldl (fun m e => m.insert e.1 e.2) lower

end Mapping

end VersionedProperties
