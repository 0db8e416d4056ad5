import VersionedProperties.Cache.Keyed
import VersionedProperties.Cache.Single

/-!
# What a cache may hold

A cache is sound at a token for a computation if its own token is not ahead and, where the tokens
agree, every value that it holds is what the computation gives. A look-up in a sound cache answers
as the computation does and leaves a sound cache. A token that moves on makes any cache sound again,
whatever the computation gives from then on: its values belong to an earlier token.
-/

namespace VersionedProperties

namespace KeyedCache

/-- Whether the values of a cache are those that a computation gives. -/
structure Sound {κ ν ε : Type} [DecidableEq κ] (c : KeyedCache κ ν) (token : Int)
    (f : κ → Except ε ν) : Prop where
  lastToken_le : c.lastToken ≤ token
  value : c.lastToken = token → ∀ key v, c.entries.find? key = some v → f key = .ok v

variable {κ ν ε : Type} [DecidableEq κ] {c : KeyedCache κ ν} {token : Int} {f : κ → Except ε ν}

theorem sound_new (enabled : Bool) (hpos : 0 ≤ token) (f : κ → Except ε ν) :
    ({ enabled := enabled } : KeyedCache κ ν).Sound token f := by
  constructor
  · have hneg : (-1 : Int) ≤ 0 := by decide
    exact Int.le_trans hneg hpos
  · intro _ key v hv
    cases hv

theorem Sound.of_lt (hc : c.Sound token f) {next : Int} (hlt : token < next)
    (g : κ → Except ε ν) : c.Sound next g := by
  have hle := hc.lastToken_le
  constructor
  · omega
  · intro heq
    omega

theorem Sound.refresh (hc : c.Sound token f) : (c.refresh token).Sound token f := by
  unfold KeyedCache.refresh
  split
  · exact hc
  · constructor
    · exact Int.le_refl token
    · intro _ key v hv
      cases hv

omit [DecidableEq κ] in
theorem lastToken_refresh (c : KeyedCache κ ν) (token : Int) :
    (c.refresh token).lastToken = token := by
  unfold KeyedCache.refresh
  split
  · rename_i heq
    exact heq.symm
  · rfl

omit [DecidableEq κ] in
theorem enabled_refresh (c : KeyedCache κ ν) (token : Int) :
    (c.refresh token).enabled = c.enabled := by
  unfold KeyedCache.refresh
  split <;> rfl

theorem Sound.finish (hc : c.Sound token f) {key : κ} {v : ν} (hv : f key = .ok v) :
    (c.finish token token key v).Sound token f := by
  rw [KeyedCache.finish, if_pos rfl]
  constructor
  · exact hc.lastToken_le
  · intro heq key' v' hfind
    rw [Mapping.find?_insert] at hfind
    split at hfind
    · rename_i hkey
      rw [hkey, hv, Option.some.inj hfind]
    · exact hc.value heq key' v' hfind

theorem obtain_disabled (hd : c.enabled = false) (token : Int) (key : κ)
    (compute : Unit → Except ε ν) : c.obtain token key compute = (compute (), c) := by
  rw [KeyedCache.obtain, begin, if_neg (by rw [hd]; decide)]
  dsimp only
  cases compute () with
  | error e => rfl
  | ok v =>
      dsimp only
      rw [if_neg (by rw [hd]; decide)]

/-- A look-up answers as the computation does, and keeps only what the computation gave. -/
theorem Sound.obtain (hc : c.Sound token f) (key : κ) :
    (c.obtain token key fun _ => f key).1 = f key ∧
      (c.obtain token key fun _ => f key).2.Sound token f := by
  by_cases he : c.enabled = true
  · rw [KeyedCache.obtain, begin, if_pos he, KeyedCache.get]
    cases hfind : (c.refresh token).entries.find? key with
    | some v =>
        have hv := hc.refresh.value (c.lastToken_refresh token) key v hfind
        exact ⟨hv.symm, hc.refresh⟩
    | none =>
        dsimp only
        cases hcompute : f key with
        | error e => exact ⟨rfl, hc.refresh⟩
        | ok v =>
            dsimp only
            rw [if_pos (by rwa [enabled_refresh])]
            exact ⟨rfl, hc.refresh.finish hcompute⟩
  · have hd : c.enabled = false := by rwa [Bool.not_eq_true] at he
    rw [c.obtain_disabled hd]
    exact ⟨rfl, hc⟩

end KeyedCache

namespace SingleCache

/-- Whether the value of a cache is the one that is computed. -/
structure Sound {ν : Type} (c : SingleCache ν) (token : Int) (v : ν) : Prop where
  token_le : c.token ≤ token
  value : c.token = token → ∀ v', c.value = some v' → v' = v

variable {ν : Type} {c : SingleCache ν} {token : Int} {v : ν}

theorem sound_new (enabled : Bool) (hpos : 0 ≤ token) (v : ν) :
    ({ enabled := enabled } : SingleCache ν).Sound token v := by
  constructor
  · have hneg : (-1 : Int) ≤ 0 := by decide
    exact Int.le_trans hneg hpos
  · intro _ v' hv
    cases hv

theorem Sound.of_lt (hc : c.Sound token v) {next : Int} (hlt : token < next) (w : ν) :
    c.Sound next w := by
  have hle := hc.token_le
  constructor
  · omega
  · intro heq
    omega

theorem obtain_disabled (hd : c.enabled = false) (token : Int) (compute : Unit → ν) :
    c.obtain token compute = (compute (), c) := by
  have hb : c.begin token = none := if_neg (by rw [hd]; simp)
  rw [SingleCache.obtain, hb]
  dsimp only
  rw [if_neg (by rw [hd]; decide)]

/-- A look-up answers with what is computed, and keeps nothing else. -/
theorem Sound.obtain (hc : c.Sound token v) :
    (c.obtain token fun _ => v).1 = v ∧ (c.obtain token fun _ => v).2.Sound token v := by
  rw [SingleCache.obtain]
  cases hbegin : c.begin token with
  | some v' =>
      have hcond : (c.enabled = true ∧ token = c.token) ∧ c.value = some v' := by
        rw [begin] at hbegin
        split at hbegin
        · rename_i h
          exact ⟨h, hbegin⟩
        · cases hbegin
      exact ⟨hc.value hcond.1.2.symm v' hcond.2, hc⟩
  | none =>
      dsimp only
      refine ⟨rfl, ?_⟩
      split
      · rw [finish, if_pos rfl]
        constructor
        · exact Int.le_refl token
        · intro _ v' hv
          exact (Option.some.inj hv).symm
      · exact hc

end SingleCache

end VersionedProperties
