import VersionedProperties.Event.Basic

/-!
# Registries of listeners

A registry lists its members in the order of their subscription, each once. An event is handed to
the members that are subscribed when it is fired, whatever they do to the registry meanwhile; an
error of one does not keep the others from it.
-/

namespace VersionedProperties

/-- The members that are subscribed. -/
structure Registry (α : Type) where
  members : List α := []
  deriving DecidableEq

namespace Registry

variable {α : Type} [DecidableEq α]

/-- Whether a member is subscribed. -/
def contains (r : Registry α) (a : α) : Bool := a ∈ r.members

/-- A member subscribed behind the others, unless it is already. -/
def add (r : Registry α) (a : α) : Registry α :=
  if a ∈ r.members then r else ⟨r.members ++ [a]⟩

/-- A member no longer subscribed. -/
def remove (r : Registry α) (a : α) : Registry α := ⟨r.members.erase a⟩

theorem nodup_add {r : Registry α} (h : r.members.Nodup) (a : α) : (r.add a).members.Nodup := by
  unfold add
  split
  · exact h
  · rename_i ha
    exact List.nodup_append.2 ⟨h, by simp, by simpa using fun b hb (e : b = a) => ha (e ▸ hb)⟩

theorem nodup_remove {r : Registry α} (h : r.members.Nodup) (a : α) :
    (r.remove a).members.Nodup :=
  h.sublist List.erase_sublist

/-- The subscribed members called one after the other on a state. -/
def fire {σ ε : Type} (r : Registry α) (call : α → σ → Except ε Unit × σ) (state : σ) : σ :=
  r.members.foldl (fun state a => (call a state).2) state

end Registry

end VersionedProperties
