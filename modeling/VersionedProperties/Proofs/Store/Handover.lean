import VersionedProperties.Proofs.Store.Restart

/-!
# What a save hands over

A save hands its sink the values that the store has when it begins, and marks as saved those that it
has when the sink returns. In between only the sink can work on the store. A property that it leaves
with another value is reported as unmodified afterwards, although the value that has been handed
over last is the one from before: the sinks of saves inside of the sink have returned earlier. So
after a save the values are those handed over just if the sink has changed none of those that are
left.
-/

namespace VersionedProperties.Store

mutual

/-- The mappings that a command hands to sinks, in the order in which these return. -/
def Command.handovers : Command → Store → List (Mapping Text Text)
  | .save script none, s => allHandovers script s ++ [s.snapshot s.savingDefaults]
  | .save script (some _), s => allHandovers script s
  | _, _ => []

/-- The mappings that commands performed one after the other hand to sinks. -/
def allHandovers : List Command → Store → List (Mapping Text Text)
  | [], _ => []
  | c :: rest, s => c.handovers s ++ allHandovers rest (perform c s).2

end

/-- Every property that is not reported as modified has its value in a mapping, or else its
default. -/
def IsKeptIn (s : Store) (given : Mapping Text Text) : Prop :=
  ∀ name, s.contains name = true → s.isModified name = false →
    s.get name = (given.find? name).or (s.getDefault name)

variable {s : Store}

theorem isModified_commit (s : Store) (name : Text) : s.commit.isModified name = false := by
  rw [isModified, history?_commit]
  cases s.history? name with
  | none => rfl
  | some h => exact decide_eq_false (not_not_intro rfl)

/-- Right after the histories have been marked as saved, a store has the values of an earlier store
with the same defaults just if it is kept in what that store has handed over. -/
theorem isKeptIn_commit_iff {u : Store} (hs : s.TracksDefaults)
    (hdefaults : u.defaults = s.defaults) (includeDefaults : Bool) :
    u.commit.IsKeptIn (s.snapshot includeDefaults) ↔
      ∀ name, u.commit.contains name = true → u.commit.get name = s.get name := by
  have hkept (name : Text) : ((s.snapshot includeDefaults).find? name).or
      (u.commit.getDefault name) = s.get name := by
    have hdefault : u.commit.getDefault name = s.getDefault name := by
      rw [getDefault, getDefault, ← hdefaults]
      rfl
    rw [hdefault, find?_snapshot_or_default hs]
  constructor
  · intro h name hname
    rw [← hkept name]
    exact h name hname (u.isModified_commit name)
  · intro h name hname _
    rw [hkept name]
    exact h name hname

/-- After a save whose sink returns, every property that is not reported as modified has the value
that has been handed over last, just if each property that is left has the value that it had when
the save began. -/
theorem isKeptIn_save_iff (defaults : Mapping Text Text) (savingDefaults : Bool) (limit : Int)
    (commands script : List Command) :
    let s := (performAll commands (create defaults savingDefaults limit)).2
    let save := Command.save script none
    let t := (perform save s).2
    ∃ given answers, (perform save s).1 = .ok (.saved given answers (.ok given)) ∧
      (save.handovers s).getLast? = some given ∧
      (t.IsKeptIn given ↔ ∀ name, t.contains name = true → t.get name = s.get name) := by
  intro s save t
  let u := (performAll script s).2
  have hperform : perform save s = (.ok (.saved (s.snapshot s.savingDefaults)
      (performAll script s).1 (.ok (s.snapshot s.savingDefaults))), u.commit) := by
    rw [perform]
    rfl
  have ht : t = u.commit := congrArg Prod.snd hperform
  have htracks : s.TracksDefaults := by
    change (performAll commands _).2.TracksDefaults
    rw [performAll_snd]
    exact (tracksDefaults_create defaults savingDefaults limit).after _
  have hdefaults : u.defaults = s.defaults := by
    change (performAll script s).2.defaults = _
    rw [performAll_snd, defaults_after]
  refine ⟨_, _, congrArg Prod.fst hperform, ?_, ?_⟩
  · rw [Command.handovers, List.getLast?_concat]
  · rw [ht]
    exact isKeptIn_commit_iff htracks hdefaults _

/-- A sink that sets a value which is lost: the property is reported as unmodified, but the value
handed over is another one. -/
theorem not_isKeptIn_save_restlessSink :
    let s := (performAll [.set "a" (some "5")]
      (create (.ofList [(("a" : Text), ("1" : Text))]) false 100)).2
    let save := Command.save [.set "a" (some "2")] none
    let t := (perform save s).2
    let given : Mapping Text Text := .ofList [("a", "5")]
    (save.handovers s).getLast? = some given ∧ t.contains "a" = true ∧
      t.isModified "a" = false ∧ t.get "a" = some "2" ∧ ¬ t.IsKeptIn given := by
  intro s save t given
  have hcontains : t.contains "a" = true := by decide +kernel
  have hunmodified : t.isModified "a" = false := by decide +kernel
  have hvalue : t.get "a" = some "2" := by decide +kernel
  refine ⟨by decide +kernel, hcontains, hunmodified, hvalue, fun h => ?_⟩
  have hkept := h "a" hcontains hunmodified
  rw [hvalue] at hkept
  revert hkept
  decide +kernel

end VersionedProperties.Store
