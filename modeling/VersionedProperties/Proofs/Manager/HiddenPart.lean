import VersionedProperties.Manager.Run
import VersionedProperties.Proofs.Manager.Uncached

/-!
# Parts of a session that operations do not see

Two parts of a session are there for the sake of its own work: the caches of the manager, and the
mark that a callback of scheduled work is running. Each makes no difference under a condition. The
caches have to hold what the manager would compute. The mark decides whether work is done on the
spot, which is the same as having it done by workers as long as these are open, so no listener may
close them.
-/

namespace VersionedProperties.Manager

mutual

/-- Whether a command leaves the workers open, and so do the scripts that it hands to listeners. -/
def Command.keepsOpen : Command → Bool
  | .close => false
  | .listen _ _ script _ _ => allKeepOpen script
  | _ => true

/-- Whether all commands of a script leave the workers open. -/
def allKeepOpen : List Command → Bool
  | [] => true
  | c :: rest => c.keepsOpen && allKeepOpen rest

end

theorem keepsOpen_of_allKeepOpen {script : List Command} (h : allKeepOpen script = true) :
    ∀ c ∈ script, c.keepsOpen = true := by
  induction script with
  | nil => exact fun c hc => absurd hc List.not_mem_nil
  | cons d script ih =>
      rw [allKeepOpen, Bool.and_eq_true] at h
      exact List.forall_mem_cons.2 ⟨h.1, ih h.2⟩

namespace Session

/-- The session whose manager has no caches. -/
def uncached (s : Session) : Session := { s with manager := s.manager.uncached }

/-- The caches of the manager hold what it would compute. -/
def CachesSound (s : Session) : Prop := s.manager.CachesSound

/-- The workers are open, and no listener closes them. -/
structure StaysOpen (s : Session) : Prop where
  areOpen : s.manager.workers.areOpen = true
  scripts : ∀ listener r, s.reactions.find? listener = some r →
    ∀ c ∈ r.script, c.keepsOpen = true

end Session

/-- A part of a session that its operations do not see. -/
inductive HiddenPart where
  /-- The caches of the manager, which are taken away. -/
  | caches
  /-- The mark that a callback is running, which is put as given. -/
  | callback (running : Bool)

namespace HiddenPart

open Session

/-- The cache of values with the part forgotten. -/
def valueCache : HiddenPart → KeyedCache (Text × Bool) (Option Text) →
    KeyedCache (Text × Bool) (Option Text)
  | .caches, _ => { enabled := false }
  | .callback _, cache => cache

/-- The cache of names with the part forgotten. -/
def nameCache : HiddenPart → SingleCache (List Text) → SingleCache (List Text)
  | .caches, _ => { enabled := false }
  | .callback _, cache => cache

/-- The mark of a running callback with the part forgotten. -/
def inCallback : HiddenPart → Bool → Bool
  | .caches, mark => mark
  | .callback running, _ => running

/-- The session with the part forgotten. -/
def forget (p : HiddenPart) (s : Session) : Session :=
  { s with
    manager := { s.manager with
      valueCache := p.valueCache s.manager.valueCache
      nameCache := p.nameCache s.manager.nameCache }
    inCallback := p.inCallback s.inCallback }

/-- The condition under which the part makes no difference. -/
def Sound : HiddenPart → Session → Prop
  | .caches, s => s.CachesSound
  | .callback _, s => s.StaysOpen

/-- A command does not break the condition of the part. -/
def Admits : HiddenPart → Command → Prop
  | .caches, _ => True
  | .callback _, c => c.keepsOpen = true

variable {p : HiddenPart} {s t : Session}

/-- The condition is about the manager and the reactions of listeners. -/
theorem Sound.of_same (hs : p.Sound s) (hmanager : t.manager = s.manager)
    (hreactions : t.reactions = s.reactions) : p.Sound t := by
  cases p with
  | caches =>
      change t.manager.CachesSound
      rw [hmanager]
      exact hs
  | callback running =>
      constructor
      · rw [hmanager]
        exact hs.areOpen
      · rw [hreactions]
        exact hs.scripts

theorem Sound.insert_reaction (hs : p.Sound s) (listener : Text) {r : Reaction}
    (hr : ∀ c ∈ r.script, p.Admits c) :
    p.Sound { s with reactions := s.reactions.insert listener r } := by
  cases p with
  | caches => exact hs
  | callback running =>
      refine ⟨hs.areOpen, ?_⟩
      intro listener' r' hfound
      rw [Mapping.find?_insert] at hfound
      split at hfound
      · cases hfound
        exact hr
      · exact hs.scripts listener' r' hfound

/-- What does not depend on the caches of a manager is told without the part. -/
theorem manager_forget (p : HiddenPart) {α : Type} {v : Manager → α}
    (hv : ∀ m, v m.uncached = v m) (s : Session) : v (p.forget s).manager = v s.manager := by
  cases p with
  | caches => exact hv s.manager
  | callback running => rfl

theorem takesWork_forget (hs : p.Sound s) : (p.forget s).takesWork = s.takesWork := by
  cases p with
  | caches => rfl
  | callback running =>
      have hopen : s.manager.workers.areOpen = true := hs.areOpen
      calc (running || s.manager.workers.areOpen) = true := by rw [hopen, Bool.or_true]
        _ = (s.inCallback || s.manager.workers.areOpen) := by rw [hopen, Bool.or_true]

theorem admits_of_script? (hs : p.Sound s) {listener : Text} {event : Event}
    {script : List Command} (h : s.script? listener event = some script) :
    ∀ c ∈ script, p.Admits c := by
  cases p with
  | caches => exact fun _ _ => trivial
  | callback running =>
      unfold script? at h
      cases hr : s.reactions.find? listener with
      | none =>
          rw [hr] at h
          cases h
      | some r =>
          rw [hr] at h
          obtain ⟨-, hscript⟩ := Option.ite_none_right_eq_some.1 h
          rw [← Option.some.inj hscript]
          exact hs.scripts listener r hr

theorem admits_of_listen {listener : Text} {place : Option Key} {script : List Command}
    {limit : Int} {only : Option Text} (h : p.Admits (.listen listener place script limit only)) :
    ∀ c ∈ script, p.Admits c := by
  cases p with
  | caches => exact fun _ _ => trivial
  | callback running =>
      change (Command.listen listener place script limit only).keepsOpen = true at h
      rw [Command.keepsOpen] at h
      exact keepsOpen_of_allKeepOpen h

end HiddenPart

end VersionedProperties.Manager
