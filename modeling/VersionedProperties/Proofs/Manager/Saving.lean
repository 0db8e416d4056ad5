import VersionedProperties.Proofs.Manager.LoadGate

/-!
# What loads and saves leave

A load leaves the values of the file in the store, and a save marks the values in the store as saved
once they have been written. Both then tell the listeners. As long as these spare the properties,
the session is the one right after the load or the save. What has been loaded or saved is seen by
the answers to questions, which are those of the store.
-/

namespace VersionedProperties.Manager.Session

variable {files : Bool} {s t : Session} {e : Error}

theorem answer_isModified (hs : s.manager.store.loaded = true) :
    (s.step .isModified).1.answer = .ok (.flag s.manager.store.anyModified) := by
  have hs' : ({ s with log := [] } : Session).manager.store.loaded = true := hs
  simp only [step, perform, Manager.perform, answered, query, onceLoaded_of_loaded hs']
  rfl

theorem answer_properties (hs : s.manager.store.loaded = true) :
    (s.step .properties).1.answer = .ok (.values (s.manager.store.snapshot true)) := by
  have hs' : ({ s with log := [] } : Session).manager.store.loaded = true := hs
  simp only [step, perform, Manager.perform, answered, query, onceLoaded_of_loaded hs']
  rfl

theorem spared_afterLoad (depth : Nat) (hspare : s.SparesAt files ⟨.loaded, none⟩)
    (values : Mapping Text Text) :
    Spared files (s.withStore (s.manager.store.load values))
      (s.afterLoad (callWithin depth) values) :=
  spared_fire_at (s := s.withStore (s.manager.store.load values)) depth rfl hspare

/-- The session right after its values have been written, before anybody is told. -/
def afterWrite (s : Session) (disk : Disk) : Session :=
  { s.withStore s.manager.store.commit with disk := disk }

/-- What writes the values of a session to its file. -/
def write (s : Session) : Except Error Unit × Disk :=
  s.disk.writeMapping s.manager.path s.manager.format
    (s.manager.store.snapshot s.manager.store.savingDefaults) s.manager.comment

theorem writeFile_eq (s : Session) : s.writeFile =
    match s.write with
    | (.ok (), disk) => (.ok (), s.afterWrite disk)
    | (.error e, disk) => (.error e, { s with disk := disk }) := by
  unfold writeFile write Store.save
  dsimp only
  rcases s.disk.writeMapping s.manager.path s.manager.format
    (s.manager.store.snapshot s.manager.store.savingDefaults) s.manager.comment with ⟨_ | _, disk⟩
  · rfl
  · rfl

theorem await_writeFile {call : Calling}
    (h : s.await call .saving .saved writeFile = (.ok (), t)) :
    ∃ disk, s.write = (.ok (), disk) ∧ t = (s.afterWrite disk).fire call ⟨.saved, none⟩ := by
  unfold await at h
  split at h
  · rw [writeFile_eq] at h
    rcases hwrite : s.write with ⟨e | _, disk⟩
    · rw [hwrite] at h
      cases h
    · rw [hwrite] at h
      cases h
      exact ⟨disk, rfl, rfl⟩
  · cases h

theorem schedule_writeFile {call : Calling}
    (h : s.schedule call .saved writeFile = (.ok (), t)) :
    ∃ disk, s.write = (.ok (), disk) ∧
      t = { { s.afterWrite disk with inCallback := true }.fire call ⟨.saved, none⟩ with
        inCallback := (s.afterWrite disk).inCallback } := by
  unfold schedule at h
  split at h
  · rw [writeFile_eq] at h
    rcases hwrite : s.write with ⟨e | _, disk⟩
    · rw [hwrite] at h
      cases h
    · rw [hwrite] at h
      cases h
      exact ⟨disk, rfl, rfl⟩
  · cases h

theorem takeFile_error (h : s.takeFile = (.error e, t)) : t = s := by
  unfold takeFile at h
  split at h <;> cases h
  rfl

theorem writeFile_error (h : s.writeFile = (.error e, t)) :
    ∃ disk, s.write = (.error e, disk) ∧ t = { s with disk := disk } := by
  rw [writeFile_eq] at h
  split at h
  · cases h
  · rename_i hwrite
    cases h
    exact ⟨_, hwrite, rfl⟩

/-- An action that fails has not begun, or leaves what its work leaves. -/
theorem await_error {call : Calling} {action : FileAction} {kind : EventKind}
    {work : Session → Except Error Unit × Session}
    (h : s.await call action kind work = (.error e, t)) :
    t = s ∨ ∃ fault, work s = (.error fault, t) := by
  unfold await at h
  split at h
  · split at h
    · cases h
    · rename_i hwork
      cases h
      exact .inr ⟨_, hwork⟩
  · cases h
    exact .inl rfl

theorem schedule_error {call : Calling} {kind : EventKind}
    {work : Session → Except Error Unit × Session}
    (h : s.schedule call kind work = (.error e, t)) :
    t = s ∨ ∃ fault, work s = (.error fault, t) := by
  unfold schedule at h
  split at h
  · split at h
    · cases h
    · rename_i hwork
      cases h
      exact .inr ⟨_, hwork⟩
  · cases h
    exact .inl rfl

/-- An operation that is done on loaded properties is done in the session as it is or after a load
that completes. -/
theorem onceLoaded_ok {call : Calling} (hcall : LeadingCalling call) {α : Type} {a : α}
    {operation : Session → Except Error α × Session}
    (h : s.onceLoaded call operation = (.ok a, t)) :
    ∃ u : Session, u.manager.store.loaded = true ∧
      (u = s ∨ ∃ values, u = s.afterLoad call values) ∧ operation u = (.ok a, t) := by
  by_cases hs : s.manager.store.loaded = true
  · rw [onceLoaded_of_loaded hs] at h
    exact ⟨s, hs, .inl rfl, h⟩
  · rcases waits_onceLoaded hcall operation s (Bool.eq_false_iff.2 hs) with
      ⟨e, he⟩ | ⟨values, _, hok⟩
    · rw [he] at h
      cases h
    · have hloaded := loaded_afterLoad hcall s values
      rw [hok, onceLoaded_of_loaded hloaded] at h
      exact ⟨_, hloaded, .inr ⟨values, rfl⟩, h⟩

end VersionedProperties.Manager.Session
