import VersionedProperties.Cache.Keyed
import VersionedProperties.Cache.Single
import VersionedProperties.Error

/-!
# Commands on a cache

A run of a cache is a list of commands on a cache, a token and a count of computations. A lookup
carries what its computation does: it moves the token, runs commands on the same cache, and fails or
gives a value.
-/

namespace VersionedProperties.Cache

/-- A part of a key. -/
inductive Component where
  | text (t : Text)
  | flag (b : Bool)
  deriving DecidableEq

/-- A key with any number of parts. -/
abbrev CacheKey := List Component

/-- A cache of either kind. A cache of one value has the same value at every key. -/
inductive AnyCache where
  | keyed (c : KeyedCache CacheKey (Option Text))
  | single (c : SingleCache (Option Text))

namespace AnyCache

/-- Whether the cache is enabled. -/
def enabled : AnyCache → Bool
  | .keyed c => c.enabled
  | .single c => c.enabled

/-- The cache enabled or disabled. -/
def setEnabled (b : Bool) : AnyCache → AnyCache
  | .keyed c => .keyed { c with enabled := b }
  | .single c => .single { c with enabled := b }

/-- The cache without values. -/
def invalidate : AnyCache → AnyCache
  | .keyed c => .keyed c.invalidate
  | .single c => .single c.invalidate

/-- The value at a key of a keyed cache. -/
def get (token : Int) (key : CacheKey) : AnyCache → Option Text × AnyCache
  | .keyed c => let (v, c) := c.get token key; (v.getD none, .keyed c)
  | .single c => (none, .single c)

/-- The cache with a value at a key of a keyed cache. -/
def put (token : Int) (key : CacheKey) (value : Option Text) : AnyCache → AnyCache
  | .keyed c => .keyed (c.put token key value)
  | .single c => .single c

/-- The number of values of a keyed cache. -/
def size (token : Int) : AnyCache → Nat × AnyCache
  | .keyed c => let (n, c) := c.size token; (n, .keyed c)
  | .single c => (0, .single c)

/-- The value that answers a lookup, if there is one. -/
def begin (token : Int) (key : CacheKey) : AnyCache → Option (Option Text) × AnyCache
  | .keyed c => let (v, c) := c.begin token key; (v, .keyed c)
  | .single c => (c.begin token, .single c)

/-- The cache after a lookup that computed a value; `before` is the token at its beginning. -/
def finish (before token : Int) (key : CacheKey) (value : Option Text) : AnyCache → AnyCache
  | .keyed c => .keyed (c.finish before token key value)
  | .single c => .single (c.finish before token value)

end AnyCache

/-- An operation on a cache. -/
inductive Command where
  | token (n : Int)
  | enable (b : Bool)
  | invalidate
  | get (key : CacheKey)
  | put (key : CacheKey) (value : Option Text)
  | size
  /-- A lookup whose computation adds to the token, runs a script and then fails, if a failure is
  given, or gives a value. -/
  | compute (key : CacheKey) (value : Option Text) (bump : Int) (script : List Command)
      (failure : Option Text)

/-- What an operation answers. -/
inductive Answer where
  | nothing
  | value (t : Option Text)
  | size (n : Nat)
  /-- The value of a lookup or the error of its computation, the answers to the script of the
  computation, and the number of computations so far. -/
  | computed (outcome : Except Error (Option Text)) (answers : List Answer) (calls : Nat)

/-- A cache with its token and the number of computations so far. -/
structure State where
  cache : AnyCache
  token : Int
  calls : Nat

mutual

/-- A command performed: its answer and the state after it. -/
def perform : Command → State → Answer × State
  | .token n, s => (.nothing, { s with token := n })
  | .enable b, s => (.nothing, { s with cache := s.cache.setEnabled b })
  | .invalidate, s => (.nothing, { s with cache := s.cache.invalidate })
  | .get key, s =>
    let (value, cache) := s.cache.get s.token key
    (.value value, { s with cache := cache })
  | .put key value, s => (.nothing, { s with cache := s.cache.put s.token key value })
  | .size, s =>
    let (n, cache) := s.cache.size s.token
    (.size n, { s with cache := cache })
  | .compute key value bump script failure, s =>
    let before := s.token
    let kept := s.cache.enabled
    let (hit, cache) := s.cache.begin before key
    let s := { s with cache := cache }
    match hit with
    | some value => (.computed (.ok value) [] s.calls, s)
    | none =>
      let s := { s with token := s.token + bump, calls := s.calls + 1 }
      let (answers, s) := performAll script s
      match failure with
      | some text => (.computed (.error (.raised text)) answers s.calls, s)
      | none =>
        let cache := if kept then s.cache.finish before s.token key value else s.cache
        (.computed (.ok value) answers s.calls, { s with cache := cache })

/-- Commands performed one after the other. -/
def performAll : List Command → State → List Answer × State
  | [], s => ([], s)
  | c :: rest, s =>
    let (answer, s) := perform c s
    let (answers, s) := performAll rest s
    (answer :: answers, s)

end

end VersionedProperties.Cache
