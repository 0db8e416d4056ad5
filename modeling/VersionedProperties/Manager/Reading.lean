import VersionedProperties.Key.Enumeration
import VersionedProperties.Manager.Basic
import VersionedProperties.Numeral.Real
import VersionedProperties.Reference.Dependency
import VersionedProperties.Reference.Located

/-!
# Reading through a manager

The value of a key is the value in the store, trimmed if the manager trims, with its references
expanded against the other values. A typed value is parsed from it; where that fails, the default is
parsed in its place. All of this is about a store that has been loaded.
-/

namespace VersionedProperties

/-- The truth value of a text: only `true` is true, in any letter case. -/
def parseBoolean (value : Text) : Bool := Text.lower (Text.trim value) = "true"

/-- The integer of a text. -/
def parseInteger (value : Text) : Except Error Int :=
  (Numeral.readInteger 10 (Text.trim value)).mapError .numeral

/-- The real number of a text. -/
def parseReal (value : Text) : Except Error Binary64 :=
  (Numeral.readReal (Text.trim value)).mapError .numeral

namespace Manager

/-- The property name of a key. -/
def nameOf (m : Manager) (k : Key) : Text := m.naming.nameOf k

/-- A value as it is read. -/
def trimmed (m : Manager) (value : Text) : Text := if m.autoTrim then Text.trim value else value

/-- The value of a name before expansion. -/
def retrieve (m : Manager) (name : Text) : Option Text := (m.store.get name).map m.trimmed

/-- The values before expansion, with the names that have one. -/
def source (m : Manager) : Source :=
  .ofMapping m.store.histories fun h => m.trimmed h.current

theorem lookup_source (m : Manager) : m.source.lookup = m.retrieve := by
  funext name
  simp [source, Source.ofMapping, retrieve, Store.get, Store.history?, Option.map_map,
    Function.comp_def]

/-- The value of a key before expansion. -/
def raw (m : Manager) (k : Key) : Option Text := m.retrieve (m.nameOf k)

/-- The default of a key before expansion. -/
def defaultRaw (m : Manager) (k : Key) : Option Text :=
  (m.store.getDefault (m.nameOf k)).map m.trimmed

/-- A text that belongs to a name, expanded against the values. -/
def expanded (m : Manager) (name : Text) (raw : Option Text) : Except Error (Option Text) :=
  (m.evaluator.evaluate? m.retrieve (some name) raw).mapError .evaluation

/-- The value of a key, without use of the cache. -/
def evaluated (m : Manager) (k : Key) : Except Error (Option Text) :=
  m.expanded (m.nameOf k) (m.raw k)

/-- The value of a key, taken from the cache or put there. -/
def get (m : Manager) (k : Key) : Except Error (Option Text) × Manager :=
  let (value, cache) :=
    m.valueCache.obtain m.store.token (m.nameOf k, m.autoTrim) fun _ => m.evaluated k
  (value, { m with valueCache := cache })

/-- The default of a key, expanded against the values. -/
def defaultValue (m : Manager) (k : Key) : Except Error (Option Text) :=
  m.expanded (m.nameOf k) (m.defaultRaw k)

/-- The value of a key that must have one. -/
def required (m : Manager) (k : Key) : Except Error Text × Manager :=
  match m.get k with
  | (.ok (some value), m) => (.ok value, m)
  | (.ok none, m) => (.error (.unknownProperty (m.nameOf k)), m)
  | (.error e, m) => (.error e, m)

/-- The value of a key parsed. If that fails, the default is parsed, if there is one. -/
def parsed {α : Type} (m : Manager) (k : Key) (parse : Text → Except Error α) :
    Except Error α × Manager :=
  match m.required k with
  | (.error e, m) => (.error e, m)
  | (.ok value, m) =>
    match parse value with
    | .ok a => (.ok a, m)
    | .error e =>
      match m.defaultValue k with
      | .ok (some value) => (parse value, m)
      | .ok none => (.error e, m)
      | .error e => (.error e, m)

/-- The value of a key as a truth value. -/
def getBoolean (m : Manager) (k : Key) : Except Error Bool × Manager :=
  let (value, m) := m.required k
  (value.map parseBoolean, m)

/-- The value of a key as an integer. -/
def getInteger (m : Manager) (k : Key) : Except Error Int × Manager := m.parsed k parseInteger

/-- The value of a key as a real number. -/
def getReal (m : Manager) (k : Key) : Except Error Binary64 × Manager := m.parsed k parseReal

/-- The value of a key as a member of an enumeration. -/
def getMember (m : Manager) (k : Key) (e : Enumeration) : Except Error Text × Manager :=
  m.parsed k e.parse

/-- Whether the value of a key is its default, before expansion. -/
def isDefault (m : Manager) (k : Key) : Except Error Bool :=
  match m.raw k, m.defaultRaw k with
  | none, none => .error (.unknownProperty (m.nameOf k))
  | value, default => .ok (value == default)

/-- Whether the value of a key depends on another key. -/
def dependsOn (m : Manager) (k other : Key) : Bool :=
  m.source.dependsOn ((m.raw k).getD []) (m.nameOf other)

/-- The reference that begins at a position of the value of a key. -/
def referenceAt (m : Manager) (k : Key) (position : Int) : Option Reference :=
  VersionedProperties.referenceAt ((m.raw k).getD []) position

/-- The keys of the names known to the store. A name without key is passed over. -/
def knownKeys (m : Manager) : List Key × Manager :=
  let (names, cache) := m.nameCache.obtain m.store.token fun _ => m.store.keyNames
  ((names.filterMap fun name => (m.naming.keyOf name).toOption).eraseDups,
    { m with nameCache := cache })

/-- The keys of the names known to the store as a set, which needs look-ups by keys. -/
def keySet (m : Manager) : Except Error (List Key) × Manager :=
  let (keys, m) := m.knownKeys
  match keys, m.naming.type.faults.lookup <|> m.naming.type.faults.name with
  | _ :: _, some e => (.error e, m)
  | keys, _ => (.ok keys, m)

/-- Whether an event concerns the view of a key: an event of all properties, of this key, or of a
key that its value depends on. -/
def isRelevant (m : Manager) (k : Key) (event : Event) : Bool :=
  match event.key with
  | none => true
  | some changed => changed = k || m.dependsOn k changed

end Manager

end VersionedProperties
