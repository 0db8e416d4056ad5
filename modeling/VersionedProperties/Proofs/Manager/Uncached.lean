import VersionedProperties.Manager.Reading
import VersionedProperties.Proofs.Cache.Soundness
import VersionedProperties.Proofs.Oblivious
import VersionedProperties.Proofs.Store.Token

/-!
# Managers without caches

`uncached` takes the caches from a manager, and `CachesSound` says that they hold what the manager
would compute: expanded values by name and trimming, and the known names. The invariant depends on
the evaluator, the store and the caches only, and a store that follows the present one keeps it.
Every question to a manager is oblivious to the caches under the invariant.
-/

namespace VersionedProperties.Manager

/-- The manager with caches that hold nothing and take nothing. -/
def uncached (m : Manager) : Manager :=
  { m with valueCache := { enabled := false }, nameCache := { enabled := false } }

/-- The value of a name as it is read with trimming or without. -/
def valueAt (m : Manager) (key : Text × Bool) : Except Error (Option Text) :=
  let trimming : Manager := { m with autoTrim := key.2 }
  trimming.expanded key.1 (trimming.retrieve key.1)

/-- The caches hold nothing but what is computed in their place. -/
structure CachesSound (m : Manager) : Prop where
  values : m.valueCache.Sound m.store.token m.valueAt
  names : m.nameCache.Sound m.store.token m.store.keyNames

theorem cachesSound_create (o : Options) (path : Path) (defaults : Mapping Text Text)
    (naming : Naming) (evaluator : Option Evaluator) (format : Option Format) (workers : Workers) :
    (create o path defaults naming evaluator format workers).CachesSound :=
  ⟨KeyedCache.sound_new _ (Int.le_refl 0) _, SingleCache.sound_new _ (Int.le_refl 0) _⟩

theorem CachesSound.withStore {m : Manager} (hm : m.CachesSound) {store : Store}
    (hs : store.Follows m.store) : CachesSound { m with store := store } := by
  rcases hs with rfl | hlt
  · exact hm
  · have hcast : (m.store.token : Int) < store.token := Int.ofNat_lt.2 hlt
    exact ⟨hm.values.of_lt hcast _, hm.names.of_lt hcast _⟩

theorem oblivious_get (k : Key) : Oblivious CachesSound uncached fun m : Manager => m.get k := by
  have hget : ∀ m : Manager, m.get k =
      ((m.valueCache.obtain m.store.token (m.nameOf k, m.autoTrim) fun _ =>
          m.valueAt (m.nameOf k, m.autoTrim)).1,
        { m with
          valueCache := (m.valueCache.obtain m.store.token (m.nameOf k, m.autoTrim) fun _ =>
            m.valueAt (m.nameOf k, m.autoTrim)).2 }) := fun _ => rfl
  constructor
  · intro m hm
    rw [hget]
    exact ⟨(hm.values.obtain _).2, hm.names⟩
  · intro m hm
    rw [hget, hget m, (hm.values.obtain _).1, m.uncached.valueCache.obtain_disabled rfl]
    rfl

theorem oblivious_required (k : Key) :
    Oblivious CachesSound uncached fun m : Manager => m.required k := by
  have hrequired : (fun m : Manager => m.required k) = tryThen (fun m => m.get k)
      (fun value m => (value.elim (.error (.unknownProperty (m.nameOf k))) .ok, m))
      (fun e m => (.error e, m)) := by
    funext m
    simp only [required, tryThen]
    rcases m.get k with ⟨_ | _ | _, _⟩ <;> rfl
  rw [hrequired]
  apply (oblivious_get k).tryThen
  · intro value
    exact .read fun _ => rfl
  · intro e
    exact .answer _

/-- A value parsed, or the default parsed in its place. -/
def parsedOrDefault {α : Type} (m : Manager) (k : Key) (parse : Text → Except Error α)
    (value : Text) : Except Error α :=
  match parse value with
  | .ok a => .ok a
  | .error e =>
    match m.defaultValue k with
    | .ok (some value) => parse value
    | .ok none => .error e
    | .error e => .error e

theorem parsed_eq {α : Type} (m : Manager) (k : Key) (parse : Text → Except Error α) :
    m.parsed k parse = tryThen (fun m => m.required k)
      (fun value m => (m.parsedOrDefault k parse value, m)) (fun e m => (.error e, m)) m := by
  simp only [parsed, tryThen, parsedOrDefault]
  rcases m.required k with ⟨_ | value, m'⟩
  · rfl
  · dsimp only
    rcases parse value with _ | _
    · dsimp only
      rcases m'.defaultValue k with _ | _ | _ <;> rfl
    · rfl

theorem oblivious_parsed {α : Type} (k : Key) (parse : Text → Except Error α) :
    Oblivious CachesSound uncached fun m : Manager => m.parsed k parse := by
  rw [funext fun m : Manager => m.parsed_eq k parse]
  apply (oblivious_required k).tryThen
  · intro value
    exact .read fun _ => rfl
  · intro e
    exact .answer _

theorem oblivious_getBoolean (k : Key) :
    Oblivious CachesSound uncached fun m : Manager => m.getBoolean k :=
  (oblivious_required k).map fun value => value.map parseBoolean

theorem oblivious_knownKeys :
    Oblivious CachesSound uncached fun m : Manager => m.knownKeys := by
  let keysOf (m : Manager) (names : List Text) : List Key :=
    (names.filterMap fun name => (m.naming.keyOf name).toOption).eraseDups
  have hknown : ∀ m : Manager, m.knownKeys =
      (keysOf m (m.nameCache.obtain m.store.token fun _ => m.store.keyNames).1,
        { m with
          nameCache := (m.nameCache.obtain m.store.token fun _ => m.store.keyNames).2 }) :=
    fun _ => rfl
  constructor
  · intro m hm
    rw [hknown]
    exact ⟨hm.values, hm.names.obtain.2⟩
  · intro m hm
    rw [hknown, hknown m, hm.names.obtain.1, m.uncached.nameCache.obtain_disabled rfl]
    rfl

/-- Known keys as the answer to a question for them, where looking up by keys may fail. -/
def toldKeys (m : Manager) (keys : List Key) : Except Error (List Key) :=
  match keys, m.naming.type.faults.lookup <|> m.naming.type.faults.name with
  | _ :: _, some e => .error e
  | keys, _ => .ok keys

theorem keySet_eq (m : Manager) :
    m.keySet = (m.knownKeys.2.toldKeys m.knownKeys.1, m.knownKeys.2) := by
  unfold keySet toldKeys
  rcases m.knownKeys with ⟨_ | _, m'⟩
  · rfl
  · dsimp only
    cases m'.naming.type.faults.lookup <|> m'.naming.type.faults.name <;> rfl

theorem oblivious_keySet : Oblivious CachesSound uncached fun m : Manager => m.keySet := by
  have htold : ∀ keys : List Key,
      Oblivious CachesSound uncached fun m : Manager => (m.toldKeys keys, m) :=
    fun _ => .read fun _ => rfl
  rw [funext keySet_eq]
  exact oblivious_knownKeys.andThen htold

theorem obliviousMove_withView (k : Key) :
    ObliviousMove CachesSound uncached fun m : Manager => m.withView k := by
  constructor
  · intro m hm
    unfold withView
    split
    · exact hm
    · exact ⟨hm.values, hm.names⟩
  · intro m _
    unfold withView uncached
    dsimp only
    split <;> rfl

/-- The listeners of the view of a key changed, where the view comes into being if there is none. -/
theorem obliviousMove_onView (k : Key) (f : Registry Text → Registry Text) :
    ObliviousMove CachesSound uncached fun m : Manager => { m.withView k with
      views := (m.withView k).views.insert k (f ((m.withView k).listenersOf k)) } := by
  have hchange : ObliviousMove CachesSound uncached fun m : Manager =>
      { m with views := m.views.insert k (f (m.listenersOf k)) } :=
    ⟨fun _ hm => ⟨hm.values, hm.names⟩, fun _ _ => rfl⟩
  exact (obliviousMove_withView k).comp hchange

theorem obliviousMove_addListener (name : Text) (place : Option Key) :
    ObliviousMove CachesSound uncached fun m : Manager => m.addListener name place := by
  cases place with
  | none => exact ⟨fun _ hm => ⟨hm.values, hm.names⟩, fun _ _ => rfl⟩
  | some k => exact obliviousMove_onView k fun r => r.add name

theorem obliviousMove_removeListener (name : Text) (place : Option Key) :
    ObliviousMove CachesSound uncached fun m : Manager => m.removeListener name place := by
  cases place with
  | none => exact ⟨fun _ hm => ⟨hm.values, hm.names⟩, fun _ _ => rfl⟩
  | some k => exact obliviousMove_onView k fun r => r.remove name

end VersionedProperties.Manager
