import VersionedProperties.Mapping

/-!
# Mappings as sets of entries

A mapping holds a value at a key just if it has the entry, so look-ups do not depend on the order of
the entries, and entries with distinct keys make up the mapping that they are inserted into.
-/

namespace VersionedProperties.Mapping

variable {κ α : Type}

theorem present_mapEntries_some (m : Mapping κ α) :
    (m.mapEntries fun _ a => some a).present = .ok m := by
  have hnone : (m.mapEntries fun _ a => some a).entries.find? (·.2.isNone) = none := by
    rw [List.find?_eq_none]
    intro e he
    obtain ⟨e₀, _, rfl⟩ := List.mem_map.1 he
    exact Bool.false_ne_true
  have hsome : (m.mapEntries fun _ a => some a).filterMap (fun _ a => a) = m := by
    apply ext_entries
    change (m.entries.map fun e => (e.1, some e.2)).filterMap (fun e => e.2.map (e.1, ·)) = _
    rw [List.filterMap_map]
    exact List.filterMap_some
  rw [present, hnone, hsome]

theorem keys_filter (p : κ → Bool) (m : Mapping κ α) :
    (m.filter fun k _ => p k).keys = m.keys.filter p :=
  List.filter_map.symm

theorem keys_filterMap_of {β : Type} {f : κ → α → Option β} {m : Mapping κ α} {p : κ → Bool}
    (h : ∀ e ∈ m.entries, (f e.1 e.2).isSome = p e.1) :
    (m.filterMap f).keys = m.keys.filter p := by
  change (m.entries.filterMap fun e => (f e.1 e.2).map (e.1, ·)).map Prod.fst =
    (m.entries.map Prod.fst).filter p
  generalize m.entries = entries at h
  induction entries with
  | nil => rfl
  | cons e entries ih =>
      have hfirst := h e List.mem_cons_self
      have hrest := ih fun e' he' => h e' (List.mem_cons_of_mem e he')
      cases hf : f e.1 e.2 with
      | none =>
          rw [hf] at hfirst
          rw [List.filterMap_cons_none (by rw [hf]; rfl), hrest, List.map_cons,
            List.filter_cons_of_neg (by rw [← hfirst]; exact Bool.false_ne_true)]
      | some b =>
          rw [hf] at hfirst
          rw [List.filterMap_cons_some (by rw [hf]; rfl), List.map_cons, hrest, List.map_cons,
            List.filter_cons_of_pos hfirst.symm]

variable [DecidableEq κ]

theorem find?_entries_iff {entries : List (κ × α)} (h : (entries.map Prod.fst).Nodup)
    (e : κ × α) : entries.find? (·.1 = e.1) = some e ↔ e ∈ entries := by
  constructor
  · exact List.mem_of_find?_eq_some
  · intro he
    induction entries with
    | nil => cases he
    | cons first entries ih =>
        rw [List.map_cons, List.nodup_cons] at h
        rcases List.mem_cons.1 he with rfl | hrest
        · exact List.find?_cons_of_pos (by simp)
        · have hne : first.1 ≠ e.1 := by
            intro heq
            exact h.1 (heq ▸ List.mem_map_of_mem hrest)
          rw [List.find?_cons_of_neg (by simpa using hne)]
          exact ih h.2 hrest

theorem find?_eq_some_iff {m : Mapping κ α} {k : κ} {a : α} :
    m.find? k = some a ↔ (k, a) ∈ m.entries := by
  rw [find?, Option.map_eq_some_iff, ← find?_entries_iff m.nodup_keys (k, a)]
  constructor
  · rintro ⟨⟨k', a'⟩, hfind, rfl⟩
    have hk : k' = k := of_decide_eq_true (List.find?_some hfind :)
    rw [hfind, hk]
  · intro hfind
    exact ⟨(k, a), hfind, rfl⟩

theorem find?_eq_of_perm {m n : Mapping κ α} (h : m.entries.Perm n.entries) (k : κ) :
    m.find? k = n.find? k := by
  apply Option.ext
  intro a
  rw [find?_eq_some_iff, find?_eq_some_iff, h.mem_iff]

theorem find?_filterMap {β : Type} (f : κ → α → Option β) (m : Mapping κ α) (k : κ) :
    (m.filterMap f).find? k = (m.find? k).bind (f k) := by
  apply Option.ext
  intro b
  rw [find?_eq_some_iff, Option.bind_eq_some_iff, filterMap, List.mem_filterMap]
  constructor
  · rintro ⟨⟨k', a⟩, he, hmap⟩
    obtain ⟨b', hf, heq⟩ := Option.map_eq_some_iff.1 hmap
    cases heq
    exact ⟨a, find?_eq_some_iff.2 he, hf⟩
  · rintro ⟨a, ha, hf⟩
    exact ⟨(k, a), find?_eq_some_iff.1 ha, by rw [hf]; rfl⟩

theorem find?_filter (p : κ → α → Bool) (m : Mapping κ α) (k : κ) :
    (m.filter p).find? k = (m.find? k).filter (p k) := by
  apply Option.ext
  intro a
  rw [find?_eq_some_iff, Option.filter_eq_some_iff, find?_eq_some_iff, filter, List.mem_filter]

theorem find?_mapEntries {β : Type} (f : κ → α → β) (m : Mapping κ α) (k : κ) :
    (m.mapEntries f).find? k = (m.find? k).map (f k) := by
  apply Option.ext
  intro b
  rw [find?_eq_some_iff, Option.map_eq_some_iff, mapEntries, List.mem_map]
  constructor
  · rintro ⟨⟨k', a⟩, he, heq⟩
    cases heq
    exact ⟨a, find?_eq_some_iff.2 he, rfl⟩
  · rintro ⟨a, ha, rfl⟩
    exact ⟨(k, a), find?_eq_some_iff.1 ha, rfl⟩

theorem insertEntry_of_not_mem {k : κ} (a : α) {entries : List (κ × α)}
    (hk : k ∉ entries.map Prod.fst) : insertEntry k a entries = entries ++ [(k, a)] := by
  induction entries with
  | nil => rfl
  | cons e entries ih =>
      rw [List.map_cons, List.mem_cons, not_or] at hk
      rw [insertEntry, if_neg (Ne.symm hk.1), ih hk.2, List.cons_append]

/-- Entries inserted under distinct keys that are not there come behind the others. -/
theorem entries_foldl_insert (entries : List (κ × α)) (m : Mapping κ α)
    (h : ((m.entries ++ entries).map Prod.fst).Nodup) :
    (entries.foldl (fun m e => m.insert e.1 e.2) m).entries = m.entries ++ entries := by
  induction entries generalizing m with
  | nil => rw [List.foldl_nil, List.append_nil]
  | cons e entries ih =>
      have hnew : e.1 ∉ m.entries.map Prod.fst := by
        rw [List.map_append, List.map_cons, List.nodup_append] at h
        exact fun hold => h.2.2 _ hold _ List.mem_cons_self rfl
      have hinsert : (m.insert e.1 e.2).entries = m.entries ++ [e] :=
        insertEntry_of_not_mem e.2 hnew
      have hsplit : m.entries ++ [e] ++ entries = m.entries ++ e :: entries := by
        rw [List.append_assoc, List.singleton_append]
      rw [List.foldl_cons, ih, hinsert, hsplit]
      rwa [hinsert, hsplit]

theorem entries_ofList {entries : List (κ × α)} (h : (entries.map Prod.fst).Nodup) :
    (ofList entries).entries = entries :=
  entries_foldl_insert entries empty h

/-! Entries put in one by one -/

/-- Steps that each change the value of one key only, taken for distinct keys. -/
theorem find?_foldl {β : Type} (change : α → Option β → Option β)
    {step : Mapping κ β → κ × α → Mapping κ β}
    (hstep : ∀ m e k,
      (step m e).find? k = if k = e.1 then change e.2 (m.find? k) else m.find? k)
    {entries : List (κ × α)} (hnodup : (entries.map Prod.fst).Nodup) (m : Mapping κ β) (k : κ) :
    (entries.foldl step m).find? k =
      ((entries.find? (·.1 = k)).map Prod.snd).elim (m.find? k) fun a => change a (m.find? k) := by
  induction entries generalizing m with
  | nil => rfl
  | cons e entries ih =>
      rw [List.map_cons, List.nodup_cons] at hnodup
      rw [List.foldl_cons, ih hnodup.2, hstep]
      by_cases hk : e.1 = k
      · subst hk
        -- No later entry is for the same key, so that its value is changed once.
        have hrest : entries.find? (·.1 = e.1) = none := by
          rw [List.find?_eq_none]
          intro e' he' heq
          exact hnodup.1 (of_decide_eq_true heq ▸ List.mem_map_of_mem he')
        rw [hrest, List.find?_cons_of_pos (by simp), if_pos rfl]
        rfl
      · rw [List.find?_cons_of_neg (by simpa using hk), if_neg (Ne.symm hk)]

/-- The upper mapping wins. -/
theorem find?_overlay (lower upper : Mapping κ α) (k : κ) :
    (lower.overlay upper).find? k = (upper.find? k).or (lower.find? k) := by
  rw [overlay, find?_foldl (fun a _ => some a) (fun m e k => m.find?_insert e.1 k e.2)
    upper.nodup_keys]
  change (upper.find? k).elim (lower.find? k) some = _
  cases upper.find? k <;> rfl

theorem present_of_absent {m : Mapping κ (Option α)} {k : κ} (hk : m.find? k = some none) :
    ∃ k', m.find? k' = some none ∧ m.present = .error k' := by
  have hmem := find?_eq_some_iff.1 hk
  cases hfind : m.entries.find? (·.2.isNone) with
  | none => exact absurd rfl (List.find?_eq_none.1 hfind _ hmem)
  | some e =>
      have hnone : e.2 = none := Option.isNone_iff_eq_none.1 (List.find?_some hfind :)
      refine ⟨e.1, find?_eq_some_iff.2 ?_, by rw [present, hfind]⟩
      rw [← hnone]
      exact List.mem_of_find?_eq_some hfind

/-- A mapping is its keys in order and their values. -/
theorem ext_keys {m n : Mapping κ α} (hkeys : m.keys = n.keys) (hfind : m.find? = n.find?) :
    m = n := by
  have hentries : ∀ m : Mapping κ α,
      m.entries.map (fun e => (e.1, some e.2)) = m.keys.map fun k => (k, m.find? k) := by
    intro m
    rw [keys, List.map_map]
    apply List.map_congr_left
    intro e he
    rw [Function.comp_apply, find?_eq_some_iff.2 he]
  have hinjective : ∀ e e' : κ × α, (e.1, some e.2) = (e'.1, some e'.2) → e = e' := by
    rintro ⟨k, a⟩ ⟨k', a'⟩ h
    cases h
    rfl
  apply ext_entries
  apply (List.map_inj_right hinjective).1
  rw [hentries, hentries, hkeys, hfind]

theorem keys_foldl_insert {entries : List (κ × α)} (h : (entries.map Prod.fst).Nodup)
    (m : Mapping κ α) :
    (entries.foldl (fun m e => m.insert e.1 e.2) m).keys =
      m.keys ++ (entries.map Prod.fst).filter (· ∉ m.keys) := by
  induction entries generalizing m with
  | nil => rw [List.foldl_nil, List.map_nil, List.filter_nil, List.append_nil]
  | cons e entries ih =>
      rw [List.map_cons, List.nodup_cons] at h
      rw [List.foldl_cons, ih h.2, keys_insert, List.map_cons]
      split
      · rename_i hold
        rw [List.filter_cons_of_neg (by simpa using hold)]
      · rename_i hnew
        have hrest : (entries.map Prod.fst).filter (· ∉ m.keys ++ [e.1]) =
            (entries.map Prod.fst).filter (· ∉ m.keys) := by
          apply List.filter_congr
          intro k hk
          have hne : k ≠ e.1 := fun heq => h.1 (heq ▸ hk)
          simp [hne]
        rw [List.filter_cons_of_pos (by simpa using hnew), hrest, List.append_assoc,
          List.singleton_append]

/-- The keys of the upper mapping that are new come behind those of the lower one. -/
theorem keys_overlay (lower upper : Mapping κ α) :
    (lower.overlay upper).keys = lower.keys ++ upper.keys.filter (· ∉ lower.keys) :=
  keys_foldl_insert upper.nodup_keys lower

theorem overlay_insert (lower upper : Mapping κ α) (k : κ) (v : α) :
    lower.overlay (upper.insert k v) = (lower.overlay upper).insert k v := by
  apply ext_keys
  · rw [keys_overlay, keys_insert, keys_insert, keys_overlay]
    by_cases hlower : k ∈ lower.keys <;> by_cases hupper : k ∈ upper.keys <;>
      simp [hlower, hupper]
  · funext k'
    rw [find?_overlay, find?_insert, find?_insert, find?_overlay]
    split <;> rfl

theorem overlay_empty (m : Mapping κ α) : m.overlay empty = m := rfl

end VersionedProperties.Mapping
