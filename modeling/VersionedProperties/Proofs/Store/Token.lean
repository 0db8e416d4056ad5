import VersionedProperties.Store.Basic

/-!
# The token as a count of changes

Every operation on a store either leaves the store as it is or moves the token on, so a store with
the token of an earlier one is that store again. The answer of an edit tells which of the two it was.
-/

namespace VersionedProperties.Store

/-- Whether a store is an earlier one or has a greater token. -/
def Follows (next s : Store) : Prop := next = s ∨ s.token < next.token

theorem follows_refl (s : Store) : s.Follows s := .inl rfl

theorem follows_changed (s : Store) (histories : Mapping Text (History Text)) :
    (s.changed histories).Follows s :=
  .inr (Nat.lt_succ_self s.token)

theorem follows_set (s : Store) (name value : Text) : (s.set name value).2.Follows s := by
  unfold set
  split
  · exact s.follows_changed _
  · split
    · exact s.follows_changed _
    · exact s.follows_refl

theorem follows_set? (s : Store) (name : Text) (value : Option Text) :
    (s.set? name value).2.Follows s := by
  cases value with
  | some value => exact s.follows_set name value
  | none => exact s.follows_refl

theorem follows_resetToDefault (s : Store) (name : Text) :
    (s.resetToDefault name).2.Follows s := by
  unfold resetToDefault
  split
  · exact s.follows_set name _
  · split
    · exact s.follows_changed _
    · exact s.follows_refl

theorem follows_resetAll (s : Store) : s.resetAll.2.Follows s := by
  unfold resetAll
  dsimp only
  split
  · exact s.follows_changed _
  · exact s.follows_refl

theorem follows_undo (s : Store) (name : Text) : (s.undo name).2.Follows s := by
  unfold undo
  split
  · exact s.follows_refl
  · split
    · exact s.follows_changed _
    · exact s.follows_refl

theorem follows_redo (s : Store) (name : Text) : (s.redo name).2.Follows s := by
  unfold redo
  split
  · exact s.follows_refl
  · split
    · exact s.follows_changed _
    · exact s.follows_refl

theorem follows_load (s : Store) (source : Mapping Text Text) : (s.load source).Follows s :=
  .inr (Nat.lt_succ_self s.token)

theorem follows_commit (s : Store) : s.commit.Follows s := s.follows_changed _

/-! What the answers tell -/

theorem set_of_unchanged (s : Store) (name : Text) {value : Text}
    (h : (s.set name value).1 = false) : (s.set name value).2 = s := by
  unfold set at h ⊢
  split at h
  · cases h
  · split at h
    · cases h
    · rename_i hsame
      rw [if_neg hsame]

theorem resetToDefault_of_unchanged (s : Store) (name : Text)
    (h : (s.resetToDefault name).1 = false) : (s.resetToDefault name).2 = s := by
  unfold resetToDefault at h ⊢
  split at h
  · exact s.set_of_unchanged name h
  · split at h
    · cases h
    · rename_i hsame
      rw [if_neg hsame]

theorem token_set (s : Store) (name value : Text) :
    (s.set name value).2.token = s.token + (s.set name value).1.toNat := by
  unfold set
  split
  · rfl
  · split <;> rfl

theorem token_resetToDefault (s : Store) (name : Text) :
    (s.resetToDefault name).2.token = s.token + (s.resetToDefault name).1.toNat := by
  unfold resetToDefault
  split
  · exact s.token_set name _
  · split <;> rfl

theorem token_resetAll (s : Store) : s.resetAll.2.token = s.token + s.resetAll.1.toNat := by
  unfold resetAll
  dsimp only
  split <;> rfl

theorem set_ne_of_changed (s : Store) (name : Text) {value : Text}
    (h : (s.set name value).1 = true) : (s.set name value).2 ≠ s := by
  intro heq
  have htoken := s.token_set name value
  rw [h, heq] at htoken
  exact Nat.succ_ne_self _ htoken.symm

theorem resetToDefault_ne_of_changed (s : Store) (name : Text)
    (h : (s.resetToDefault name).1 = true) : (s.resetToDefault name).2 ≠ s := by
  intro heq
  have htoken := s.token_resetToDefault name
  rw [h, heq] at htoken
  exact Nat.succ_ne_self _ htoken.symm

end VersionedProperties.Store
