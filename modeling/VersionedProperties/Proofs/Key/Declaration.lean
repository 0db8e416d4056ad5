import VersionedProperties.Key.Declaration
import VersionedProperties.Proofs.Key.Naming

/-!
# What declarations make of keys

A draft answers for all declarations that it has taken in. The names that it leaves out change on
the way, but none of them is ever a member, and a name that is a member is not taken in again. So
the keys of an enumeration are distinct, and each has the one default that is declared with it.
Declarations of capital letters, digits and underscores alone name nothing that keys are used
through, so that no use of the keys fails.
-/

namespace VersionedProperties

namespace Draft

variable {enumeration name : Text} {numbering : Numbering} {value : Option TypedValue}
  {d d' : Draft} {done declarations : List (Text × Option TypedValue)}

/-- A draft that has taken in some declarations. -/
structure Holds (enumeration : Text) (done : List (Text × Option TypedValue)) (d : Draft) :
    Prop where
  nodup : d.members.Nodup
  use : ∀ k ∈ d.members, NameUse.ofName enumeration k = .member
  kept : ∀ k ∈ d.members, k ∉ d.excluded
  /-- A member has been declared once. -/
  declared : ∀ k ∈ d.members, ∃ v, d.values.find? k = some v ∧ ∀ w, (k, w) ∈ done ↔ w = v
  /-- A name that could have become a member has been noted. -/
  noted : ∀ k, NameUse.ofName enumeration k = .member → ∀ v, (k, v) ∈ done →
    d.values.find? k ≠ none
  mem : ∀ k v, d.values.find? k = some v → (k, v) ∈ done

theorem holds_empty (enumeration : Text) : Holds enumeration [] {} where
  nodup := List.nodup_nil
  use _ hk := nomatch hk
  kept _ hk := nomatch hk
  declared _ hk := nomatch hk
  noted _ _ _ hv := nomatch hv
  mem _ _ hv := nomatch hv

section Steps

variable (h : d.Holds enumeration done)

include h

/-- A declaration of a name that is no member. -/
theorem Holds.keep (hname : name ∉ d.members) (value : Option TypedValue) :
    (d.keep name value).Holds enumeration (done ++ [(name, value)]) where
  nodup := h.nodup
  use := h.use
  kept := h.kept
  declared k hk := by
    obtain ⟨v, hv, hdone⟩ := h.declared k hk
    have hne : k ≠ name := by
      rintro rfl
      exact hname hk
    refine ⟨v, ?_, fun w => ?_⟩
    · rw [Draft.keep, Mapping.find?_insert, if_neg hne, hv]
    · simp [hdone, hne]
  noted k hk v hv := by
    rw [Draft.keep, Mapping.find?_insert]
    split
    · exact Option.some_ne_none value
    · rename_i hne
      have hold : (k, v) ∈ done := by simpa [hne] using hv
      exact h.noted k hk v hold
  mem k v hv := by
    rw [Draft.keep, Mapping.find?_insert] at hv
    split at hv
    · rename_i heq
      cases hv
      simp [heq]
    · exact List.mem_append_left _ (h.mem k v hv)

/-- A declaration that gives the order of the members, or names that are left out. -/
theorem Holds.rule (hname : NameUse.ofName enumeration name ≠ .member) (value : Option TypedValue)
    {order : Option TypedValue} {excluded : List Text} (hexcluded : ∀ k ∈ d.members, k ∉ excluded) :
    Holds enumeration (done ++ [(name, value)])
      { d with order := order, excluded := excluded } where
  nodup := h.nodup
  use := h.use
  kept := hexcluded
  declared k hk := by
    obtain ⟨v, hv, hdone⟩ := h.declared k hk
    have hne : k ≠ name := by
      rintro rfl
      exact hname (h.use k hk)
    exact ⟨v, hv, fun w => by simp [hdone, hne]⟩
  noted k hk v hv := by
    have hne : k ≠ name := by
      rintro rfl
      exact hname hk
    have hold : (k, v) ∈ done := by simpa [hne] using hv
    exact h.noted k hk v hold
  mem k v hv := List.mem_append_left _ (h.mem k v hv)

theorem Holds.exclude (hname : NameUse.ofName enumeration name ≠ .member)
    (hexclude : d.exclude value = .ok d') :
    d'.Holds enumeration (done ++ [(name, value)]) := by
  unfold Draft.exclude at hexclude
  split at hexclude
  · cases hexclude
  · rename_i names _
    split at hexclude
    · rename_i hnone
      cases hexclude
      apply h.rule hname value
      intro k hk hmem
      have hfilter : k ∈ d.members.filter (· ∈ names) :=
        List.mem_filter.2 ⟨hk, decide_eq_true hmem⟩
      rw [hnone] at hfilter
      cases hfilter
    · cases hexclude

theorem Holds.addMember (huse : NameUse.ofName enumeration name = .member)
    (hadd : d.addMember name value = .ok d') :
    d'.Holds enumeration (done ++ [(name, value)]) := by
  unfold Draft.addMember at hadd
  split at hadd
  · rename_i hexcluded
    cases hadd
    exact h.keep (fun hmem => h.kept name hmem hexcluded) value
  · rename_i hexcluded
    split at hadd
    · cases hadd
    · rename_i hnone
      cases hadd
      have hname : name ∉ d.members := by
        intro hmem
        obtain ⟨v, hv, -⟩ := h.declared name hmem
        rw [hnone] at hv
        cases hv
      have hkeep := h.keep hname value
      exact {
        nodup := List.nodup_append.2 ⟨h.nodup, by simp, by
          rintro k hk _ hlast rfl
          exact hname (List.mem_singleton.1 hlast ▸ hk)⟩
        use := by
          intro k hk
          rcases List.mem_append.1 hk with hk | hk
          · exact h.use k hk
          · rwa [List.mem_singleton.1 hk]
        kept := by
          intro k hk
          rcases List.mem_append.1 hk with hk | hk
          · exact h.kept k hk
          · rwa [List.mem_singleton.1 hk]
        declared := by
          intro k hk
          rcases List.mem_append.1 hk with hk | hk
          · exact hkeep.declared k hk
          · obtain rfl := List.mem_singleton.1 hk
            refine ⟨value, ?_, fun w => ?_⟩
            · exact (Mapping.find?_insert ..).trans (if_pos rfl)
            · have hnew : (k, w) ∉ done := fun hw => h.noted k huse w hw hnone
              simp [hnew]
        noted := hkeep.noted
        mem := hkeep.mem }

theorem Holds.add {declaration : Text × Option TypedValue}
    (hadd : d.add enumeration declaration = .ok d') :
    d'.Holds enumeration (done ++ [declaration]) := by
  obtain ⟨name, value⟩ := declaration
  unfold Draft.add at hadd
  dsimp only at hadd
  have hother : NameUse.ofName enumeration name ≠ .member → name ∉ d.members :=
    fun hne hmem => hne (h.use name hmem)
  split at hadd <;> rename_i huse
  · exact h.addMember huse hadd
  · cases hadd
    exact h.keep (hother (by rw [huse]; exact NameUse.noConfusion)) value
  · exact h.exclude (by rw [huse]; exact NameUse.noConfusion) hadd
  · cases hadd
    exact h.rule (by rw [huse]; exact NameUse.noConfusion) value h.kept
  · cases hadd

theorem Holds.foldlM (hadd : declarations.foldlM (Draft.add enumeration) d = .ok d') :
    d'.Holds enumeration (done ++ declarations) := by
  induction declarations generalizing d done with
  | nil =>
      cases hadd
      rwa [List.append_nil]
  | cons declaration declarations ih =>
      rw [List.foldlM_cons] at hadd
      cases hfirst : d.add enumeration declaration with
      | error e =>
          rw [hfirst] at hadd
          cases hadd
      | ok first =>
          rw [hfirst] at hadd
          have hrest := ih (h.add hfirst) hadd
          rwa [List.append_assoc, List.singleton_append] at hrest

end Steps

theorem holds_ofDeclarations
    (h : ofDeclarations enumeration numbering declarations = .ok d) :
    d.Holds enumeration declarations := by
  unfold ofDeclarations at h
  split at h
  · cases h
  · rename_i hfold
    split at h
    · cases h
    · cases h
      exact (holds_empty enumeration).foldlM hfold

/-- No attribute has a name that is not one of the words that have been declared. -/
theorem Holds.values_attributes (h : d.Holds enumeration declarations)
    (hwords : ∀ e ∈ declarations, e.1.IsNameWord) {name : Text} (hname : ¬ name.IsNameWord) :
    (d.attributes enumeration).values.find? name = none := by
  cases hvalue : (d.attributes enumeration).values.find? name with
  | none => rfl
  | some v =>
      rw [attributes, Mapping.find?_filter, Option.filter_eq_some_iff] at hvalue
      exact absurd (hwords _ (h.mem name v hvalue.1)) hname

theorem Holds.slot_attributes (h : d.Holds enumeration declarations)
    (hwords : ∀ e ∈ declarations, e.1.IsNameWord) : (d.attributes enumeration).slot = none := by
  have hslots : d.values.find? "__slots__" = none := by
    cases hvalue : d.values.find? "__slots__" with
    | none => rfl
    | some v =>
        have hword : Text.IsNameWord "__slots__" := hwords _ (h.mem _ v hvalue)
        exact absurd hword (by decide)
  have hvalue : d.value? "__slots__" = none := by
    rw [value?, hslots, ite_self]
  rw [attributes, hvalue]

end Draft

namespace KeyType

variable {name : Text} {plain : Bool} {declarations : List (Key × Option TypedValue)} {t : KeyType}

/-- Keys that are words of capital letters, digits and underscores, and that can be used. -/
structure IsConventional (t : KeyType) : Prop where
  words : ∀ k ∈ t.keys, k.IsNameWord
  faults : t.faults = {}

/-- An enumeration is made of a draft. -/
theorem declare_cases (h : declare name plain declarations = .ok t) :
    ∃ (numbering : Numbering) (values : List (Key × Option TypedValue)) (d : Draft),
      Draft.ofDeclarations name numbering values = .ok d ∧
      (∀ e ∈ values, e.1 ∈ declarations.map Prod.fst) ∧ t.keys = d.members ∧
      t.faults = faultsOf (d.attributes name) := by
  unfold declare at h
  dsimp only at h
  cases plain with
  | true =>
      rw [if_pos rfl] at h
      split at h
      · cases h
      · rename_i d hdraft
        cases h
        refine ⟨_, _, d, hdraft, ?_, ?_, rfl⟩
        · intro e he
          obtain ⟨z, hz, rfl⟩ := List.mem_map.1 he
          exact (List.of_mem_zip hz).1
        · simp [keys, Function.comp_def]
  | false =>
      rw [if_neg Bool.false_ne_true] at h
      split at h
      · cases h
      · rename_i d hdraft
        cases h
        refine ⟨_, _, d, hdraft, fun e he => List.mem_map_of_mem he, ?_, rfl⟩
        simp [keys, Function.comp_def]

/-- Keys are distinct. -/
theorem nodup_keys_declare (h : declare name plain declarations = .ok t) : t.keys.Nodup := by
  obtain ⟨numbering, values, d, hdraft, -, hkeys, -⟩ := declare_cases h
  rw [hkeys]
  exact (Draft.holds_ofDeclarations hdraft).nodup

/-- Each key has the default that is declared with it, and it is declared once. -/
theorem mem_members_declare (h : declare name false declarations = .ok t)
    (m : Key × Option Text) : m ∈ t.members ↔
      m.1 ∈ t.keys ∧ ∃ v, (m.1, v) ∈ declarations ∧ m.2 = v.map TypedValue.declared := by
  unfold declare at h
  rw [if_neg Bool.false_ne_true] at h
  split at h
  · cases h
  · rename_i d hdraft
    have hholds := Draft.holds_ofDeclarations hdraft
    cases h
    have hmem : ∀ k, k ∈ (d.members.map fun k =>
        (k, ((d.values.find? k).bind id).map TypedValue.declared)).map Prod.fst ↔
        k ∈ d.members := by
      intro k
      simp
    rw [keys, hmem, List.mem_map]
    constructor
    · rintro ⟨k, hk, rfl⟩
      obtain ⟨v, hv, hdone⟩ := hholds.declared k hk
      refine ⟨hk, v, (hdone v).2 rfl, ?_⟩
      dsimp only
      rw [hv]
      rfl
    · rintro ⟨hk, v, hv, hdefault⟩
      obtain ⟨w, hw, hdone⟩ := hholds.declared m.1 hk
      refine ⟨m.1, hk, Prod.ext rfl ?_⟩
      dsimp only
      rw [hw, hdefault, (hdone v).1 hv]
      rfl

theorem faultsOf_eq {a : Attributes} (hvalues : ∀ {name : Text}, ¬ name.IsNameWord →
    a.values.find? name = none) (hslot : a.slot = none) : faultsOf a = {} := by
  have hfind : ∀ {name : Text}, ¬ name.IsNameWord → a.find? name = none := by
    intro name hname
    rw [Attributes.find?, hvalues hname, hslot]
    rfl
  have hhash : a.hashFault? = none := by
    rw [Attributes.hashFault?, hfind (by decide), hfind (by decide)]
    rfl
  have hdescription : a.descriptionFault? = none := by
    rw [Attributes.descriptionFault?, hvalues (by decide), hfind (by decide)]
  have hslots : ∀ name, a.slotFault? name = none := by
    intro name
    rw [Attributes.slotFault?, hslot, if_neg (Option.some_ne_none name).symm]
  rw [faultsOf, hhash, hdescription, Attributes.nameFault?, hslots, Attributes.defaultFault?,
    hslots]
  rfl

/-- Declarations of words make keys that can be used. -/
theorem isConventional_declare (h : declare name plain declarations = .ok t)
    (hwords : ∀ e ∈ declarations, e.1.IsNameWord) : t.IsConventional := by
  obtain ⟨numbering, values, d, hdraft, hnames, hkeys, hfaults⟩ := declare_cases h
  have hholds := Draft.holds_ofDeclarations hdraft
  have hvalues : ∀ e ∈ values, e.1.IsNameWord := by
    intro e he
    obtain ⟨declaration, hdeclaration, heq⟩ := List.mem_map.1 (hnames e he)
    exact heq ▸ hwords declaration hdeclaration
  constructor
  · intro k hk
    rw [hkeys] at hk
    obtain ⟨v, hv, -⟩ := hholds.declared k hk
    exact hvalues _ (hholds.mem k v hv)
  · rw [hfaults]
    exact faultsOf_eq (hholds.values_attributes hvalues) (hholds.slot_attributes hvalues)

end KeyType

namespace Naming

variable {name separator : Text} {declarations : List (Key × Option TypedValue)} {t : KeyType}

/-- In an enumeration whose keys are words of capital letters, digits and underscores, names lead
back to their keys, different keys have different names, and the defaults are those declared with
the keys, one for each key that has one, under its name. If nothing else is declared beside the
keys, names and defaults can always be told. -/
theorem keys_names_defaults (ht : KeyType.declare name false declarations = .ok t)
    (hwords : ∀ k ∈ t.keys, k.IsNameWord) (hs : separator.IsSeparator) :
    let n : Naming := ⟨t, separator⟩
    (∀ k ∈ t.keys, n.keyOf (n.nameOf k) = .ok k) ∧
      (t.keys.map n.nameOf).Nodup ∧
      n.defaults.entries = t.members.filterMap (fun m => m.2.map (n.nameOf m.1, ·)) ∧
      (∀ m, m ∈ t.members ↔
        m.1 ∈ t.keys ∧ ∃ v, (m.1, v) ∈ declarations ∧ m.2 = v.map TypedValue.declared) ∧
      ((∀ e ∈ declarations, e.1.IsNameWord) → t.faults = {}) := by
  intro n
  have hkeys := KeyType.nodup_keys_declare ht
  exact ⟨fun k hk => keyOf_nameOf (n := n) hs (hwords k hk) hk,
    nodup_names (n := n) hs hwords hkeys, entries_defaults (n := n) hs hwords hkeys,
    KeyType.mem_members_declare ht, fun h => (KeyType.isConventional_declare ht h).faults⟩

/-- Keys with underscores side by side and at the ends, and a remark beside them. -/
def underscored : KeyType where
  name := "Key"
  members := [("A__B", some "8080"), ("_A", none), ("A_B_", some "True")]

theorem keys_names_defaults_underscored :
    let declarations : List (Key × Option TypedValue) := [("A__B", some (.integer 8080)),
      ("_A", none), ("__doc__", some (.text "ports")), ("A_B_", some (.boolean true))]
    let n : Naming := ⟨underscored, "_-_"⟩
    KeyType.declare "Key" false declarations = .ok underscored ∧
      n.nameOf "A__B" = "a_-__-_b" ∧ n.keyOf "a_-__-_b" = .ok "A__B" ∧
      n.defaults.entries = ([("a_-__-_b", "8080"), ("a_-_b_-_", "True")] : List (Text × Text)) := by
  intro declarations n
  have hdeclare : KeyType.declare "Key" false declarations = .ok underscored := by decide +kernel
  have hs : Text.IsSeparator "_-_" :=
    ⟨List.cons_ne_nil _ _, by decide, by decide +kernel⟩
  obtain ⟨hkeys, -, hdefaults, -⟩ := keys_names_defaults hdeclare (by decide +kernel) hs
  have hname : n.nameOf "A__B" = "a_-__-_b" := by decide +kernel
  refine ⟨hdeclare, hname, ?_, hdefaults.trans (by decide +kernel)⟩
  rw [← hname]
  exact hkeys "A__B" (by decide +kernel)

end Naming

end VersionedProperties
