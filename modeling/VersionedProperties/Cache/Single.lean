/-!
# Caches of one value under a token

The cache keeps one computed value with the token under which it was computed. As with the keyed
cache, a lookup has two halves, and a value whose computation moved the token is not kept.
-/

namespace VersionedProperties

/-- One computed value, with the token that it belongs to. -/
structure SingleCache (ν : Type) where
  value : Option ν := none
  token : Int := -1
  /-- A cache that is not enabled answers no lookup. -/
  enabled : Bool := true

namespace SingleCache

variable {ν : Type}

/-- The value that answers a lookup, if there is one. -/
def begin (c : SingleCache ν) (token : Int) : Option ν :=
  if c.enabled ∧ token = c.token then c.value else none

/-- The cache after a lookup that computed a value; `before` is the token at its beginning. -/
def finish (c : SingleCache ν) (before token : Int) (value : ν) : SingleCache ν :=
  if token = before then { c with value := some value, token := token } else c

/-- The cache without a value. -/
def invalidate (c : SingleCache ν) : SingleCache ν := { c with value := none, token := -1 }

/-- The value, computed where the cache has none. The computation does not move the token. -/
def obtain (c : SingleCache ν) (token : Int) (compute : Unit → ν) : ν × SingleCache ν :=
  match c.begin token with
  | some value => (value, c)
  | none =>
    let value := compute ()
    (value, if c.enabled then c.finish token token value else c)

end SingleCache

end VersionedProperties
