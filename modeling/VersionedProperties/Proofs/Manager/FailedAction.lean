import VersionedProperties.Proofs.Manager.Saving
import VersionedProperties.Proofs.Storage.FailedWrite

/-!
# Loads and saves that fail

An action on the file works on the session in one go at its end: a load puts the values in the store
after they have been read and decoded, and a save marks them as saved after they have been written.
An action that fails at any step before leaves the session as it was, and nobody is told. A save
loads first, if nothing has been loaded, so it leaves what this load leaves (`readied`); and it may
leave directories on the way to the file and has touched the draft, so the file tree is another.
-/

namespace VersionedProperties.Manager

/-- Whether a command is an action on the file of the manager. -/
def Command.isFileAction : Command → Bool
  | .load | .reload | .save | .scheduleReload | .scheduleSave => true
  | _ => false

/-- Whether a command writes the file of the manager, and nothing else. -/
def Command.isSave : Command → Bool
  | .save | .scheduleSave => true
  | _ => false

namespace Session

variable {call : Calling} {s t : Session} {e : Error}

section Trees

theorem Move.isRooted (h : Move s t) (hs : s.disk.tree.IsRooted) : t.disk.tree.IsRooted := by
  cases h with
  | disk c => exact Disk.isRooted_perform hs c
  | store c => exact hs
  | caches h => exact hs
  | settings => exact hs
  | withView k => exact hs
  | addListener name place => exact hs
  | removeListener name place => exact hs
  | records => exact hs

/-- Whatever a session does, what there is on its disk stays in directories. -/
theorem Leads.isRooted (h : Leads s t) (hs : s.disk.tree.IsRooted) : t.disk.tree.IsRooted :=
  h.keeps (fun hs h => h.isRooted hs) hs

theorem isRooted_run (hs : s.disk.tree.IsRooted) (commands : List Command) :
    (s.run commands).2.disk.tree.IsRooted := (leads_run s commands).isRooted hs

end Trees

/-- The session with another file tree. -/
def withTree (s : Session) (tree : FileTree) : Session :=
  { s with disk := { s.disk with tree := tree } }

/-- The session after the load that a save begins with, and as it is for every other command. -/
def readiedBy (call : Calling) (s : Session) (c : Command) : Session :=
  if c.isSave then (s.ensureLoaded call).2 else s

section Actions

theorem load_error (h : s.load call = (.error e, t)) : t = s := by
  unfold load at h
  split at h
  · cases h
  · exact (await_error h).elim id fun ⟨_, hwork⟩ => takeFile_error hwork

/-- A write that fails leaves all but the file tree alone, and there what the path leads to. -/
theorem writeFile_spares (hrooted : s.disk.tree.IsRooted) (h : s.writeFile = (.error e, t)) :
    ∃ tree, t = s.withTree tree ∧ s.disk.tree.SparesPath s.manager.path tree := by
  obtain ⟨disk, hwrite, rfl⟩ := writeFile_error h
  unfold write Disk.writeMapping at hwrite
  rcases hmapping : s.disk.tree.writeMapping s.disk.faults s.manager.path s.manager.format
    s.disk.now (s.manager.store.snapshot s.manager.store.savingDefaults) s.manager.comment with
    ⟨r, tree⟩
  rw [hmapping] at hwrite
  cases hwrite
  exact ⟨tree, rfl, FileTree.sparesPath_writeText hrooted hmapping⟩

/-- An operation that waits for the first load fails in the load or after it. -/
theorem onceLoaded_error {α : Type} {operation : Session → Except Error α × Session}
    (h : s.onceLoaded call operation = (.error e, t)) :
    t = (s.ensureLoaded call).2 ∨ operation (s.ensureLoaded call).2 = (.error e, t) := by
  unfold onceLoaded at h
  split at h <;> rename_i heq <;> rw [heq]
  · exact .inr h
  · cases h
    exact .inl rfl

/-- A save, waited for or scheduled, that fails leaves what the load before it leaves, beside the
file tree. -/
theorem onceLoaded_writing_error {operation : Session → Except Error Unit × Session}
    (hoperation : ∀ {u t : Session} {e : Error}, operation u = (.error e, t) →
      t = u ∨ ∃ fault, u.writeFile = (.error fault, t))
    (hrooted : (s.ensureLoaded call).2.disk.tree.IsRooted)
    (h : s.onceLoaded call operation = (.error e, t)) :
    let u := (s.ensureLoaded call).2
    ∃ tree, t = u.withTree tree ∧ u.disk.tree.SparesPath u.manager.path tree := by
  intro u
  rcases (onceLoaded_error h).elim .inl hoperation with heq | ⟨fault, hwork⟩
  · exact ⟨u.disk.tree, heq, .refl _ _⟩
  · exact writeFile_spares hrooted hwork

theorem answered_error {α : Type} {f : α → Answer} {r : Except Error α × Session}
    (h : answered f r = (.error e, t)) : r = (.error e, t) := by
  obtain ⟨_ | _, _⟩ := r <;> cases h
  rfl

/-- An action on the file that fails, wherever it is called from. -/
theorem perform_error {c : Command} (hc : c.isFileAction = true)
    (hrooted : (s.readiedBy call c).disk.tree.IsRooted)
    (h : Manager.perform call s c = (.error e, t)) :
    let u := s.readiedBy call c
    ∃ tree, t = u.withTree tree ∧ (c.isSave = false → tree = u.disk.tree) ∧
      u.disk.tree.SparesPath u.manager.path tree := by
  intro u
  have hreading : t = u → ∃ tree, t = u.withTree tree ∧ (c.isSave = false → tree = u.disk.tree) ∧
      u.disk.tree.SparesPath u.manager.path tree :=
    fun heq => ⟨u.disk.tree, heq, fun _ => rfl, .refl _ _⟩
  cases c with
  | load => exact hreading (load_error (answered_error h))
  | reload =>
      exact hreading ((await_error (answered_error h)).elim id fun ⟨_, hwork⟩ =>
        takeFile_error hwork)
  | scheduleReload =>
      exact hreading ((schedule_error (answered_error h)).elim id fun ⟨_, hwork⟩ =>
        takeFile_error hwork)
  | save =>
      obtain ⟨tree, heq, hspared⟩ :=
        onceLoaded_writing_error await_error hrooted (answered_error h)
      exact ⟨tree, heq, nofun, hspared⟩
  | scheduleSave =>
      obtain ⟨tree, heq, hspared⟩ :=
        onceLoaded_writing_error schedule_error hrooted (answered_error h)
      exact ⟨tree, heq, nofun, hspared⟩
  | _ => cases hc

end Actions

section Steps

/-- The session after the load that a save begins with, and the session before any other command. -/
def readied (s : Session) (c : Command) : Session :=
  if c.isSave && s.manager.autoLoad then (s.step .load).2 else { s with log := [] }

theorem ensureLoaded_snd (call : Calling) (s : Session) :
    (s.ensureLoaded call).2 = if s.manager.autoLoad then (s.load call).2 else s := by
  unfold ensureLoaded load
  split
  · exact (ite_self s).symm
  · split <;> rfl

theorem readiedBy_eq {c : Command} (hc : c.isFileAction = true) (s : Session) :
    readiedBy (callWithin (s.stepDepth c)) { s with log := [] } c = s.readied c := by
  have hdepth : s.stepDepth c = s.stepDepth .load := by
    cases c with
    | load | reload | save | scheduleReload | scheduleSave => rfl
    | _ => cases hc
  unfold readiedBy readied
  rw [hdepth, ensureLoaded_snd]
  cases c.isSave with
  | false => rfl
  | true => rfl

theorem leads_readied (s : Session) (c : Command) : Leads s (s.readied c) := by
  unfold readied
  split
  · exact leads_step s .load
  · exact (Move.records _ _ _ _).leads

/-- An action on the file that fails changes nothing but the file tree, and tells nobody: a load
leaves the session as it is, a save as the load that it begins with leaves it. A load does not touch
the file tree either. After a save, the path leads to what it led to, unless a directory was missing
where it turns back; and a file that it leads to has been at this place before. -/
theorem failed_action_spares (hrooted : s.disk.tree.IsRooted) {c : Command}
    (hc : c.isFileAction = true) (hfail : (s.step c).1.answer = .error e) :
    ∃ tree, (s.step c).2 = (s.readied c).withTree tree ∧
      (s.step c).1.calls = (s.readied c).log ∧
      (s.step c).1.store = (s.readied c).manager.store ∧
      (c.isSave = false → tree = s.disk.tree) ∧
      (s.readied c).disk.tree.SparesPath s.manager.path tree := by
  have hleads := s.leads_readied c
  have hreadied := readiedBy_eq hc s
  rcases hperform : Manager.perform (callWithin (s.stepDepth c)) { s with log := [] } c with ⟨a, t⟩
  rw [step_of_perform hperform] at hfail ⊢
  cases hfail
  have hrooted' := hleads.isRooted hrooted
  rw [← hreadied] at hrooted'
  obtain ⟨tree, heq, htree, hspared⟩ := perform_error hc hrooted' hperform
  rw [hreadied] at heq htree hspared
  rw [hleads.path_naming.1] at hspared
  refine ⟨tree, heq, by rw [heq]; rfl, by rw [heq]; rfl, fun hload => ?_, hspared⟩
  rw [htree hload, readied, hload]
  rfl

/-- A manager whose device fails at the last step of every write. -/
def unlucky : Session :=
  let content : Utf8.Bytes := [0x61, 0x3D, 0x39, 0x0A]
  start
    (create {} (.ofText "p.properties") (.ofList [("a", "1")])
      (.standard { name := "Keys", members := [("A", some "1")] }) none none .external)
    { tree := FileTree.empty.put ["p.properties"] (.file content)
      faults := fun step => if step = .replaceFile then some .device else none
      now := .newYear }

theorem failed_action_spares_unlucky :
    let content : Utf8.Bytes := [0x61, 0x3D, 0x39, 0x0A]
    ∃ tree, (unlucky.step .save).2 = (unlucky.step .load).2.withTree tree ∧
      (unlucky.step .load).2.manager.store.loaded = true ∧
      tree.found unlucky.manager.path = some (.file content) := by
  intro content
  have hfail : (unlucky.step .save).1.answer =
      .error (.failed .saving "p.properties" (.system .device)) := by with_unfolding_all rfl
  have hrooted : unlucky.disk.tree.IsRooted :=
    FileTree.isRooted_empty.put_current _ (by decide) _
  obtain ⟨tree, heq, -, -, -, hspared⟩ := failed_action_spares hrooted rfl hfail
  have hfound : (unlucky.step .load).2.disk.tree.found unlucky.manager.path =
      some (.file content) := by decide +kernel
  exact ⟨tree, heq, by decide +kernel, hspared.kept _ hfound⟩

/-- A manager of a file behind a directory that is missing and a turn back, where a directory is in
the place of the draft. -/
def detour : Session :=
  let content : Utf8.Bytes := [0x61, 0x3D, 0x39, 0x0A]
  let tree := (FileTree.empty.put ["p.properties"] (.file content)).put ["p.properties.tmp"]
    .directory
  let s := start
    (create {} (.ofText "a/../p.properties") (.ofList [("a", "1")])
      (.standard { name := "Keys", members := [("A", some "1")] }) none none .external)
    { tree := tree, now := .newYear }
  (s.step .load).2

/-- A save that fails can open the way to a file. -/
theorem found_failedSave_detour :
    let content : Utf8.Bytes := [0x61, 0x3D, 0x39, 0x0A]
    detour.Reached ∧ detour.disk.tree.IsRooted ∧ detour.manager.store.loaded = true ∧
      (detour.step .save).1.answer =
        .error (.failed .saving "a/../p.properties" (.system .isDirectory)) ∧
      detour.disk.tree.found detour.manager.path = none ∧
      (detour.step .save).2.disk.tree.found detour.manager.path = some (.file content) :=
  have hrooted : detour.disk.tree.IsRooted := (leads_step _ _).isRooted
    ((FileTree.isRooted_empty.put_current _ (by decide) _).put_current _ (by decide) _)
  ⟨(Reached.start ..).step _, hrooted, rfl, rfl, rfl, rfl⟩

end Steps

end Session

end VersionedProperties.Manager
