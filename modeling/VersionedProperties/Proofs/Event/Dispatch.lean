import VersionedProperties.Event.Session

/-!
# Fires within fires

A called listener may subscribe and unsubscribe any listener, fire further events and raise errors,
so a run is a tree: it consists of changes of the registry and of fires, a fire of calls, and a call
again of changes and fires (`Deeds`, `Dispatch`). Whatever the listeners do, each fire in the tree
calls the listeners that are subscribed when it begins, each once and in order, and the registry is
what the changes make of it, taken in the order in which they happen, whatever call they belong to.

What listeners do at their calls is arbitrary (`Habit`); that they run a script as long as a limit
allows is the special case of sessions.
-/

namespace VersionedProperties.Registry

/-- How listeners act: the commands that a listener performs at a call, in view of all that has
happened, or none. -/
abbrev Habit := Text → Event → Session → Option (List Command)

/-- A listener called, where calls may nest to a depth. -/
def callBy (reactions : Mapping Text Reaction) (habit : Habit) : (depth : Nat) → Calling
  | 0 => fun listener event s => (.ok (), s.note listener event)
  | depth + 1 => fun listener event s =>
    let s := s.note listener event
    match habit listener event s with
    | none => (.ok (), s)
    | some script =>
      performScript reactions (callBy reactions habit depth) script (s.countRun listener)

/-- The habit of listeners that run their scripts as often as their limits allow. -/
def habitOf (reactions : Mapping Text Reaction) : Habit := fun listener _ s =>
  (reactions.find? listener).bind fun r =>
    if s.runsOf listener < r.limit then some r.script else none

theorem callWithin_eq_callBy (reactions : Mapping Text Reaction) (depth : Nat) :
    callWithin reactions depth = callBy reactions (habitOf reactions) depth := by
  induction depth with
  | zero => rfl
  | succ depth ih =>
      funext listener event s
      unfold callWithin callBy habitOf
      rw [ih]
      dsimp only
      cases reactions.find? listener with
      | none => rfl
      | some r =>
          dsimp only [Option.bind_some]
          split <;> rfl

/-- A listener that is subscribed or unsubscribed. -/
inductive Change where
  | added (listener : Text)
  | removed (listener : Text)
  deriving DecidableEq

/-- The registry after a change. -/
def apply (r : Registry Text) : Change → Registry Text
  | .added listener => r.add listener
  | .removed listener => r.remove listener

/-- The registry after changes, one after the other. -/
def after (r : Registry Text) (changes : List Change) : Registry Text := changes.foldl apply r

theorem after_append (r : Registry Text) (changes later : List Change) :
    r.after (changes ++ later) = (r.after changes).after later :=
  List.foldl_append

theorem nodup_after {r : Registry Text} (h : r.members.Nodup) (changes : List Change) :
    (r.after changes).members.Nodup := by
  induction changes generalizing r with
  | nil => exact h
  | cons c changes ih =>
      cases c with
      | added listener => exact ih (nodup_add h listener)
      | removed listener => exact ih (nodup_remove h listener)

mutual

/-- What is done one after the other: changes of the registry, and fires with their answers and the
calls that they make. -/
inductive Deeds where
  | nil
  | change (c : Change) (rest : Deeds)
  | fire (event : Event) (answer : Except Error Answer) (dispatch : Dispatch) (rest : Deeds)

/-- Calls one after the other, each with what is done during it. -/
inductive Dispatch where
  | nil
  | call (c : Call) (deeds : Deeds) (rest : Dispatch)

end

/-- The calls that a fire makes itself. -/
def Dispatch.own : Dispatch → List Call
  | .nil => []
  | .call c _ rest => c :: rest.own

/-- A fire: the changes before it, the event, the answer, and the calls that it makes itself. -/
structure Firing where
  before : List Change
  event : Event
  answer : Except Error Answer
  calls : List Call

/-- A fire with more changes before it. -/
def Firing.following (changes : List Change) (f : Firing) : Firing :=
  { f with before := changes ++ f.before }

theorem Firing.following_nil : Firing.following [] = id := rfl

/-- A fire calls those who are subscribed when it begins, in order, each once and with its event,
and answers without an error. -/
structure Firing.IsLawful (r : Registry Text) (f : Firing) : Prop where
  calls : f.calls = (r.after f.before).members.map (⟨·, f.event⟩)
  answer : f.answer = .ok .nothing

theorem Firing.isLawful_following {r : Registry Text} {changes : List Change} {f : Firing} :
    (f.following changes).IsLawful r ↔ f.IsLawful (r.after changes) := by
  have hafter : r.after (f.following changes).before = (r.after changes).after f.before :=
    r.after_append changes f.before
  constructor
  · intro h
    exact ⟨by rw [← hafter]; exact h.calls, h.answer⟩
  · intro h
    exact ⟨by rw [hafter]; exact h.calls, h.answer⟩

mutual

/-- All changes in the order in which they happen. -/
def Deeds.changes : Deeds → List Change
  | .nil => []
  | .change c rest => c :: rest.changes
  | .fire _ _ dispatch rest => dispatch.changes ++ rest.changes

/-- All changes during the calls. -/
def Dispatch.changes : Dispatch → List Change
  | .nil => []
  | .call _ deeds rest => deeds.changes ++ rest.changes

end

mutual

/-- All calls in the order in which they begin. -/
def Deeds.calls : Deeds → List Call
  | .nil => []
  | .change _ rest => rest.calls
  | .fire _ _ dispatch rest => dispatch.calls ++ rest.calls

/-- The calls, each with those during it. -/
def Dispatch.calls : Dispatch → List Call
  | .nil => []
  | .call c deeds rest => c :: deeds.calls ++ rest.calls

end

mutual

/-- All fires in the order in which they begin. -/
def Deeds.fires : Deeds → List Firing
  | .nil => []
  | .change c rest => rest.fires.map (.following [c])
  | .fire event answer dispatch rest =>
    ⟨[], event, answer, dispatch.own⟩ :: dispatch.fires ++
      rest.fires.map (.following dispatch.changes)

/-- The fires during the calls. -/
def Dispatch.fires : Dispatch → List Firing
  | .nil => []
  | .call _ deeds rest => deeds.fires ++ rest.fires.map (.following deeds.changes)

end

/-- How what is done during a call is recorded. -/
abbrev Recording := Text → Event → Session → Deeds

section Records

variable (reactions : Mapping Text Reaction) (call : Calling) (during : Recording)

/-- The calls of some listeners, one after the other. -/
def recordDispatch (event : Event) : List Text → Session → Dispatch
  | [], _ => .nil
  | listener :: rest, s =>
    .call ⟨listener, event⟩ (during listener event s)
      (recordDispatch event rest (call listener event s).2)

/-- What a command does, and then the rest. -/
def recordCommand (s : Session) (c : Command) (rest : Deeds) : Deeds :=
  match c with
  | .add listener => if reactions.contains listener then .change (.added listener) rest else rest
  | .remove listener =>
    if reactions.contains listener then .change (.removed listener) rest else rest
  | .fire kind key =>
    match EventKind.ofName? kind with
    | none => rest
    | some kind' => .fire ⟨kind', key⟩ (perform reactions call s (.fire kind key)).1
        (recordDispatch call during ⟨kind', key⟩ s.registry.members s) rest
  | .contains _ | .raise _ => rest

/-- What a script does up to its first error. -/
def recordScript : List Command → Session → Deeds
  | [], _ => .nil
  | c :: script, s =>
    recordCommand reactions call during s c
      (match perform reactions call s c with
      | (.error _, _) => .nil
      | (.ok _, s) => recordScript script s)

end Records

/-- What is done during a call, where calls may nest to a depth. -/
def recordBy (reactions : Mapping Text Reaction) (habit : Habit) : (depth : Nat) → Recording
  | 0 => fun _ _ _ => .nil
  | depth + 1 => fun listener event s =>
    let s := s.note listener event
    match habit listener event s with
    | none => .nil
    | some script =>
      recordScript reactions (callBy reactions habit depth) (recordBy reactions habit depth) script
        (s.countRun listener)

/-- The session after a run: commands performed one after the other, errors left aside. -/
def run (reactions : Mapping Text Reaction) (call : Calling) (commands : List Command)
    (s : Session) : Session :=
  commands.foldl (fun s c => (perform reactions call s c).2) s

/-- What is done in a run. -/
def recordRun (reactions : Mapping Text Reaction) (call : Calling) (during : Recording) :
    List Command → Session → Deeds
  | [], _ => .nil
  | c :: commands, s =>
    recordCommand reactions call during s c
      (recordRun reactions call during commands (perform reactions call s c).2)

/-- From one session to the other there are these changes, calls and fires, and no others. -/
structure Accounts (s t : Session) (changes : List Change) (calls : List Call)
    (fires : List Firing) : Prop where
  registry : t.registry = s.registry.after changes
  log : t.log = s.log ++ calls
  before : ∀ f ∈ fires, f.before <+: changes
  lawful : ∀ f ∈ fires, f.IsLawful s.registry

namespace Accounts

variable {s t u : Session} {changes changes' : List Change} {calls calls' : List Call}
  {fires fires' : List Firing}

theorem refl (s : Session) : Accounts s s [] [] [] where
  registry := rfl
  log := (List.append_nil _).symm
  before _ hf := nomatch hf
  lawful _ hf := nomatch hf

theorem trans (h : Accounts s t changes calls fires) (h' : Accounts t u changes' calls' fires') :
    Accounts s u (changes ++ changes') (calls ++ calls')
      (fires ++ fires'.map (.following changes)) where
  registry := by rw [h'.registry, h.registry, after_append]
  log := by rw [h'.log, h.log, List.append_assoc]
  before f hf := by
    rcases List.mem_append.1 hf with hf | hf
    · exact (h.before f hf).trans (List.prefix_append _ _)
    · obtain ⟨f', hf', rfl⟩ := List.mem_map.1 hf
      exact (List.prefix_append_right_inj changes).2 (h'.before f' hf')
  lawful f hf := by
    rcases List.mem_append.1 hf with hf | hf
    · exact h.lawful f hf
    · obtain ⟨f', hf', rfl⟩ := List.mem_map.1 hf
      rw [Firing.isLawful_following, ← h.registry]
      exact h'.lawful f' hf'

/-- A call is noted, and the registry stays as it is. -/
theorem noted {c : Call} (hregistry : t.registry = s.registry) (hlog : t.log = s.log ++ [c]) :
    Accounts s t [] [c] [] where
  registry := hregistry
  log := hlog
  before _ hf := nomatch hf
  lawful _ hf := nomatch hf

/-- A change of the registry. -/
theorem changed {c : Change} (hregistry : t.registry = s.registry.apply c) (hlog : t.log = s.log) :
    Accounts s t [c] [] [] where
  registry := hregistry
  log := hlog.trans (List.append_nil _).symm
  before _ hf := nomatch hf
  lawful _ hf := nomatch hf

/-- A fire that comes first. -/
theorem fired {f : Firing} (h : Accounts s t changes calls fires) (hbefore : f.before = [])
    (hlawful : f.IsLawful s.registry) : Accounts s t changes calls (f :: fires) where
  registry := h.registry
  log := h.log
  before g hg := by
    rcases List.mem_cons.1 hg with rfl | hg
    · rw [hbefore]
      exact List.nil_prefix
    · exact h.before g hg
  lawful g hg := by
    rcases List.mem_cons.1 hg with rfl | hg
    · exact hlawful
    · exact h.lawful g hg

end Accounts

/-- The record of each call is that of the call itself and of what is done during it. -/
def Faithful (call : Calling) (during : Recording) : Prop :=
  ∀ listener event s, Accounts s (call listener event s).2 (during listener event s).changes
    (⟨listener, event⟩ :: (during listener event s).calls) (during listener event s).fires

section Runs

variable {reactions : Mapping Text Reaction} {call : Calling} {during : Recording}

theorem own_recordDispatch (event : Event) (listeners : List Text) (s : Session) :
    (recordDispatch call during event listeners s).own = listeners.map (⟨·, event⟩) := by
  induction listeners generalizing s with
  | nil => rfl
  | cons listener listeners ih => rw [recordDispatch, Dispatch.own, ih, List.map_cons]

variable (hcall : Faithful call during)

include hcall

theorem accounts_dispatch (event : Event) (listeners : List Text) (s : Session) :
    let d := recordDispatch call during event listeners s
    Accounts s (listeners.foldl (fun s a => (call a event s).2) s) d.changes d.calls d.fires := by
  induction listeners generalizing s with
  | nil => exact .refl s
  | cons listener listeners ih => exact (hcall listener event s).trans (ih _)

/-- A command and the rest of a run. -/
theorem accounts_command {s t : Session} {c : Command} {rest : Deeds}
    (h : Accounts (perform reactions call s c).2 t rest.changes rest.calls rest.fires) :
    let d := recordCommand reactions call during s c rest
    Accounts s t d.changes d.calls d.fires := by
  have hchange : ∀ c : Change,
      Accounts { s with registry := s.registry.apply c } t rest.changes rest.calls rest.fires →
        Accounts s t (Deeds.change c rest).changes (Deeds.change c rest).calls
          (Deeds.change c rest).fires := by
    intro c hrest
    have hfirst : Accounts s { s with registry := s.registry.apply c } [c] [] [] :=
      .changed rfl rfl
    exact hfirst.trans hrest
  cases c with
  | add listener =>
      rw [recordCommand]
      rw [perform, withListener] at h
      split
      · rename_i hdeclared
        rw [if_pos hdeclared] at h
        exact hchange _ h
      · rename_i hdeclared
        rwa [if_neg hdeclared] at h
  | remove listener =>
      rw [recordCommand]
      rw [perform, withListener] at h
      split
      · rename_i hdeclared
        rw [if_pos hdeclared] at h
        exact hchange _ h
      · rename_i hdeclared
        rwa [if_neg hdeclared] at h
  | contains listener =>
      have hsame : (perform reactions call s (.contains listener)).2 = s := by
        rw [perform, withListener]
        split <;> rfl
      rwa [hsame] at h
  | raise message => exact h
  | fire kind key =>
      cases hkind : EventKind.ofName? kind with
      | none =>
          rw [perform, hkind] at h
          rw [recordCommand, hkind]
          exact h
      | some kind' =>
          have hperform : perform reactions call s (.fire kind key) =
              (.ok .nothing, s.registry.fire (fun l => call l ⟨kind', key⟩) s) := by
            rw [perform, hkind]
          rw [recordCommand, hkind, hperform]
          rw [hperform] at h
          have hdispatch := accounts_dispatch hcall ⟨kind', key⟩ s.registry.members s
          exact (hdispatch.trans h).fired rfl ⟨own_recordDispatch _ _ _, rfl⟩

theorem accounts_script (reactions : Mapping Text Reaction) (script : List Command)
    (s : Session) :
    let d := recordScript reactions call during script s
    Accounts s (performScript reactions call script s).2 d.changes d.calls d.fires := by
  induction script generalizing s with
  | nil => exact .refl s
  | cons c script ih =>
      apply accounts_command hcall
      rw [performScript]
      rcases perform reactions call s c with ⟨_ | _, t⟩
      · exact .refl t
      · exact ih t

theorem accounts_run (commands : List Command) (s : Session) :
    let d := recordRun reactions call during commands s
    Accounts s (run reactions call commands s) d.changes d.calls d.fires := by
  induction commands generalizing s with
  | nil => exact .refl s
  | cons c commands ih => exact accounts_command hcall (ih _)

end Runs

theorem faithful_callBy (reactions : Mapping Text Reaction) (habit : Habit) (depth : Nat) :
    Faithful (callBy reactions habit depth) (recordBy reactions habit depth) := by
  induction depth with
  | zero => exact fun listener event s => .noted rfl rfl
  | succ depth ih =>
      intro listener event s
      unfold callBy recordBy
      dsimp only
      cases habit listener event (s.note listener event) with
      | none => exact .noted rfl rfl
      | some script =>
          have hbegin : Accounts s ((s.note listener event).countRun listener) []
              [⟨listener, event⟩] [] := .noted rfl rfl
          have hscript := hbegin.trans (accounts_script ih reactions script _)
          rwa [Firing.following_nil, List.map_id] at hscript

/-- However listeners act at their calls, each fire of a run calls the listeners that are subscribed
when it begins, in the order of their subscription, each once and with its event, and answers
without an error. The log of the run has these calls and no others. No listener is ever subscribed
twice, and the registry is what the changes make of it in the order in which they happened. -/
theorem each_fire_calls_subscribers (reactions : Mapping Text Reaction) (habit : Habit)
    (depth : Nat) (commands : List Command) {s : Session} (hs : s.registry.members.Nodup) :
    let t := run reactions (callBy reactions habit depth) commands s
    let d := recordRun reactions (callBy reactions habit depth) (recordBy reactions habit depth)
      commands s
    (∀ f ∈ d.fires, f.before <+: d.changes ∧
        f.calls = (s.registry.after f.before).members.map (⟨·, f.event⟩) ∧
        f.answer = .ok .nothing) ∧
      t.log = s.log ++ d.calls ∧
      (∀ changes, changes <+: d.changes → (s.registry.after changes).members.Nodup) ∧
      t.registry = s.registry.after d.changes := by
  intro t d
  have h : Accounts s t d.changes d.calls d.fires :=
    accounts_run (faithful_callBy reactions habit depth) commands s
  refine ⟨fun f hf => ?_, h.log, fun changes _ => nodup_after hs changes, h.registry⟩
  exact ⟨h.before f hf, (h.lawful f hf).calls, (h.lawful f hf).answer⟩

/-- Listeners of which the first unsubscribes itself, subscribes another and fires an event before
it fails; the others subscribe listeners, and one of them fires an event, too. -/
def restless : Mapping Text Reaction :=
  .ofList [("a", ⟨[.remove "a", .add "b", .fire "saved" none, .raise "busy"], 1⟩),
    ("b", ⟨[.add "a"], 1⟩), ("c", ⟨[.add "c", .fire "reset" (some "K")], 1⟩)]

theorem each_fire_calls_subscribers_restless :
    let commands : List Command := [.add "a", .add "c", .fire "loaded" none]
    let t := run restless (call restless) commands {}
    t.registry = ({} : Registry Text).after
        [.added "a", .added "c", .removed "a", .added "b", .added "c", .added "a"] ∧
      t.registry.members = [("c" : Text), "b", "a"] ∧
      t.log.map Call.listener = [("a" : Text), "c", "c", "b", "b", "c"] := by
  intro commands t
  let d := recordRun restless (call restless)
    (recordBy restless (habitOf restless) (totalRuns restless + 1)) commands {}
  have hchanges : d.changes =
      [.added "a", .added "c", .removed "a", .added "b", .added "c", .added "a"] := by
    decide +kernel
  have hcalls : d.calls.map Call.listener = [("a" : Text), "c", "c", "b", "b", "c"] := by
    decide +kernel
  have h := each_fire_calls_subscribers restless (habitOf restless) (totalRuns restless + 1)
    commands (s := {}) List.nodup_nil
  rw [← callWithin_eq_callBy] at h
  obtain ⟨-, hlog, -, hregistry⟩ := h
  have hafter : t.registry = ({} : Registry Text).after d.changes := hregistry
  rw [hchanges] at hafter
  refine ⟨hafter, ?_, ?_⟩
  · rw [hafter]
    decide +kernel
  · rw [← hcalls]
    exact congrArg (List.map Call.listener) hlog

end VersionedProperties.Registry
