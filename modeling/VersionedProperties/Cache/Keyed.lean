import VersionedProperties.Mapping

/-!
# Caches under a token

A cache keeps computed values as long as a token stays the same. The token is given with each
operation; when it is another one than at the last operation, the entries are dropped first.

A lookup has two halves, since the computation between them may use the same cache or move the
token: `begin` gives the value if there is one, and `finish` keeps a computed value, but only if the
token is still the one that the lookup began with.
-/

namespace VersionedProperties

/-- Computed values by key, with the token that they belong to. -/
structure KeyedCache (κ ν : Type) where
  entries : Mapping κ ν := Mapping.empty
  lastToken : Int := -1
  /-- A cache that is not enabled answers no lookup. -/
  enabled : Bool := true

namespace KeyedCache

variable {κ ν : Type} [DecidableEq κ]

/-- The cache under a token. -/
def refresh (c : KeyedCache κ ν) (token : Int) : KeyedCache κ ν :=
  if token = c.lastToken then c else { c with entries := Mapping.empty, lastToken := token }

/-- The value at a key. -/
def get (c : KeyedCache κ ν) (token : Int) (key : κ) : Option ν × KeyedCache κ ν :=
  let c := c.refresh token
  (c.entries.find? key, c)

/-- The cache with a value at a key. -/
def put (c : KeyedCache κ ν) (token : Int) (key : κ) (value : ν) : KeyedCache κ ν :=
  let c := c.refresh token
  { c with entries := c.entries.insert key value }

/-- The number of values. -/
def size (c : KeyedCache κ ν) (token : Int) : Nat × KeyedCache κ ν :=
  let c := c.refresh token
  (c.entries.size, c)

/-- The cache without values. -/
def invalidate (c : KeyedCache κ ν) : KeyedCache κ ν :=
  { c with entries := Mapping.empty, lastToken := -1 }

/-- The value that answers a lookup, if there is one. -/
def begin (c : KeyedCache κ ν) (token : Int) (key : κ) : Option ν × KeyedCache κ ν :=
  if c.enabled then c.get token key else (none, c)

/-- The cache after a lookup that computed a value; `before` is the token at its beginning. -/
def finish (c : KeyedCache κ ν) (before token : Int) (key : κ) (value : ν) : KeyedCache κ ν :=
  if token = before then { c with entries := c.entries.insert key value } else c

/-- The value at a key, computed where the cache has none. The computation does not move the token;
an error is not kept. -/
def obtain {ε : Type} (c : KeyedCache κ ν) (token : Int) (key : κ) (compute : Unit → Except ε ν) :
    Except ε ν × KeyedCache κ ν :=
  match c.begin token key with
  | (some value, c) => (.ok value, c)
  | (none, c) =>
    match compute () with
    | .error e => (.error e, c)
    | .ok value => (.ok value, if c.enabled then c.finish token token key value else c)

end KeyedCache

end VersionedProperties
