import VersionedProperties.Proofs.Key.Declaration
import VersionedProperties.Proofs.Manager.LoadGate
import VersionedProperties.Proofs.Manager.Stored
import VersionedProperties.Proofs.Store.Invariant

/-!
# Known keys and keys that can be read

A manager knows a key if a name in the store leads to it, and it reads a key if the name of the key
is in the store. The name of a key leads to it, so what can be read is known. But other names lead
to the key as well: letter case does not matter to them, and their words may be joined by
underscores. Such a name makes the key known without a value that could be read.
-/

namespace VersionedProperties.Manager

theorem mem_knownKeys (m : Manager) (hm : m.CachesSound) {k : Key} :
    k ∈ m.knownKeys.1 ↔ ∃ name ∈ m.store.keyNames, m.naming.keyOf name = .ok k := by
  have hknown : m.knownKeys.1 =
      ((m.nameCache.obtain m.store.token fun _ => m.store.keyNames).1.filterMap fun name =>
        (m.naming.keyOf name).toOption).eraseDups := rfl
  rw [hknown, hm.names.obtain.1, List.mem_eraseDups, List.mem_filterMap]
  have hto : ∀ name, (m.naming.keyOf name).toOption = some k ↔ m.naming.keyOf name = .ok k := by
    intro name
    cases m.naming.keyOf name <;> simp [Except.toOption]
  simp only [hto]

theorem toldKeys_of_faults {m : Manager} (h : m.naming.type.faults = {}) (keys : List Key) :
    m.toldKeys keys = .ok keys := by
  unfold toldKeys
  rw [h]
  cases keys <;> rfl

theorem raw_eq_none_iff (m : Manager) (k : Key) :
    m.raw k = none ↔ m.store.contains (m.nameOf k) = false := by
  rw [raw, retrieve, Option.map_eq_none_iff, Store.contains_eq_isSome_get,
    Option.isSome_eq_false_iff, Option.isNone_iff_eq_none]

namespace Session

variable {s : Session} {k : Key}

theorem answer_keySet (hs : s.manager.store.loaded = true)
    (hfaults : s.manager.naming.type.faults = {}) :
    (s.step .keySet).1.answer = .ok (.keys s.manager.knownKeys.1) := by
  have hs' : ({ s with log := [] } : Session).manager.store.loaded = true := hs
  have htold : s.manager.knownKeys.2.toldKeys s.manager.knownKeys.1 =
      .ok s.manager.knownKeys.1 := toldKeys_of_faults hfaults _
  have hquery : (s.step .keySet).1.answer = s.manager.keySet.1.map .keys := by
    simp only [step, perform, Manager.perform, answered, query, onceLoaded_of_loaded hs']
    rfl
  rw [hquery, keySet_eq, htold]
  rfl

/-- A key that can be read is known. A key is known if a name in the store leads to it, so known
keys are those that can be read just if, where any name leads to a key, the name of the key is there
too. -/
theorem known_iff_read (h : s.Reached) (hs : s.manager.store.loaded = true)
    (ht : s.manager.naming.type.IsConventional) (hsep : s.manager.naming.separator.IsSeparator)
    (hk : k ∈ s.manager.naming.type.keys) :
    ∃ keys value, (s.step .keySet).1.answer = .ok (.keys keys) ∧
      (s.step (.property k .raw)).1.answer = .ok (.value value) ∧
      (value ≠ none ↔ s.manager.store.contains (s.manager.nameOf k) = true) ∧
      (value ≠ none → k ∈ keys) ∧
      (k ∈ keys ↔
        ∃ name, s.manager.store.contains name = true ∧ s.manager.naming.keyOf name = .ok k) ∧
      ((k ∈ keys ↔ value ≠ none) ↔
        ((∃ name, s.manager.store.contains name = true ∧ s.manager.naming.keyOf name = .ok k) →
          s.manager.store.contains (s.manager.nameOf k) = true)) := by
  have hraw : (s.step (.property k .raw)).1.answer = .ok (.value (s.manager.raw k)) := by
    rw [reads_raw k s hs hk, told, ht.faults]
  have hread : s.manager.raw k ≠ none ↔
      s.manager.store.contains (s.manager.nameOf k) = true := by
    rw [ne_eq, raw_eq_none_iff, Bool.not_eq_false]
  have hknown : k ∈ s.manager.knownKeys.1 ↔
      ∃ name, s.manager.store.contains name = true ∧ s.manager.naming.keyOf name = .ok k := by
    have hinvariant := Store.invariant_of h.isRegular h.tracksDefaults
    simp only [mem_knownKeys s.manager h.cachesSound, hinvariant.mem_keyNames_iff]
  have hleads : s.manager.naming.keyOf (s.manager.nameOf k) = .ok k :=
    Naming.keyOf_nameOf hsep (ht.words k hk) hk
  have hlisted : s.manager.raw k ≠ none → k ∈ s.manager.knownKeys.1 :=
    fun hvalue => hknown.2 ⟨_, hread.1 hvalue, hleads⟩
  refine ⟨_, _, answer_keySet hs ht.faults, hraw, hread, hlisted, hknown, ?_⟩
  rw [← hknown, ← hread]
  exact ⟨fun hiff => hiff.1, fun himp => ⟨himp, hlisted⟩⟩

/-- Keys of two words, one of them with a default. -/
def twoWords : KeyType where
  name := "Keys"
  members := [("A_B", none), ("A_C", some "1")]

theorem declare_twoWords :
    KeyType.declare "Keys" false [("A_B", none), ("A_C", some (.text "1"))] = .ok twoWords := by
  decide +kernel

/-- A manager of such keys, with a file in which the words of a name are joined by an underscore. -/
def joinedWords : Session :=
  let content : Utf8.Bytes := [0x61, 0x5F, 0x62, 0x3D, 0x39, 0x0A]
  start
    (create {} (.ofText "p.properties") (.ofList [("a.c", "1")]) (.standard twoWords) none none
      .external)
    { tree := FileTree.empty.put ["p.properties"] (.file content), now := .newYear }

/-- The session in which the file has been loaded. -/
def readWords : Session := (joinedWords.step .load).2

theorem reached_readWords : readWords.Reached := (Reached.start ..).step .load

theorem loaded_readWords : readWords.manager.store.loaded = true := by decide +kernel

theorem naming_readWords : readWords.manager.naming = .standard twoWords :=
  (leads_step joinedWords .load).naming

theorem known_iff_read_readWords :
    ∃ keys value, (readWords.step .keySet).1.answer = .ok (.keys keys) ∧
      (readWords.step (.property "A_C" .raw)).1.answer = .ok (.value value) ∧
      ("A_C" : Key) ∈ keys ∧ value ≠ none := by
  have hconventional : readWords.manager.naming.type.IsConventional := by
    rw [naming_readWords]
    exact KeyType.isConventional_declare declare_twoWords (by decide)
  have hpoint : readWords.manager.naming.separator.IsSeparator := by
    rw [naming_readWords]
    exact Text.isSeparator_point
  have hkey : ("A_C" : Key) ∈ readWords.manager.naming.type.keys := by
    rw [naming_readWords]
    decide
  obtain ⟨keys, value, hkeys, hraw, hread, hlisted, -⟩ :=
    known_iff_read reached_readWords loaded_readWords hconventional hpoint hkey
  have hvalue : value ≠ none := hread.2 (by decide +kernel)
  exact ⟨keys, value, hkeys, hraw, hlisted hvalue, hvalue⟩

/-- A name with an underscore in place of the separator makes a key known that has no value. -/
theorem not_known_iff_read_readWords :
    (joinedWords.step .load).1.answer = .ok .nothing ∧
      (readWords.step (.property "A_B" .raw)).1.answer = .ok (.value none) ∧
      ∃ keys, (readWords.step .keySet).1.answer = .ok (.keys keys) ∧ ("A_B" : Key) ∈ keys := by
  have hfaults : readWords.manager.naming.type.faults = {} := by
    rw [naming_readWords]
    rfl
  have hinvariant :=
    Store.invariant_of reached_readWords.isRegular reached_readWords.tracksDefaults
  have hname : ("a_b" : Text) ∈ readWords.manager.store.keyNames :=
    (hinvariant.mem_keyNames_iff _).2 (by decide +kernel)
  have hkey : readWords.manager.naming.keyOf "a_b" = .ok "A_B" := by decide +kernel
  have hknown : ("A_B" : Key) ∈ readWords.manager.knownKeys.1 :=
    (readWords.manager.mem_knownKeys reached_readWords.cachesSound).2 ⟨_, hname, hkey⟩
  exact ⟨by with_unfolding_all rfl, by with_unfolding_all rfl, _,
    answer_keySet loaded_readWords hfaults, hknown⟩

end Session

end VersionedProperties.Manager
