import VersionedProperties.Cache.Command
import VersionedProperties.Proofs.Cache.Soundness

/-!
# What a cache shows under a token

A cache holds values under one token, its stamp, and shows nothing under any other. What an
operation does to it is told by `Changes`: which values it may show afterwards, which it still shows
under the token of the operation, and where its stamp can be.

A computation that began under a token is given back to the cache by `finish`, which does not look
at the stamp of a keyed cache. Its value comes under the right token because, for as long as the
token stands, the stamp can only be that token or, after values have been invalidated, `-1`. This is
what `Opened` keeps across the computation.
-/

namespace VersionedProperties.Cache.AnyCache

/-- Where a cache has the value of a key: a cache of one value has a single place. -/
def slot : AnyCache → CacheKey → CacheKey
  | .keyed _, key => key
  | .single _, _ => []

/-- The token that the values of a cache belong to. -/
def stamp : AnyCache → Int
  | .keyed c => c.lastToken
  | .single c => c.token

/-- The value that a cache has for a key, whatever the token. -/
def held : AnyCache → CacheKey → Option (Option Text)
  | .keyed c, key => c.entries.find? key
  | .single c, _ => c.value

/-- The value that a cache has for a key under a token. -/
def shown (c : AnyCache) (token : Int) (key : CacheKey) : Option (Option Text) :=
  if token = c.stamp then c.held key else none

/-- Whether nothing has happened to a cache yet. -/
def IsNew (c : AnyCache) : Prop :=
  ∃ b, c = .keyed { enabled := b } ∨ c = .single { enabled := b }

/-- Whether what is finished under a token that still stands is held under it. Where values have
been invalidated, it may be held under no token at all. -/
def Opened (token : Int) (loose : Prop) : AnyCache → Prop
  | .keyed c => token ≤ c.lastToken ∨ c.lastToken = -1 ∧ loose
  | .single _ => True

/-- What an operation under a token makes of a cache: it shows what it showed and what is fresh,
under the token of the operation, and still shows what it showed under that token, except where
values are invalidated. -/
structure Changes (token : Int) (loose : Prop) (fresh : CacheKey → Option Text → Prop)
    (c c' : AnyCache) : Prop where
  slot : c'.slot = c.slot
  stamp_le : c.stamp ≤ token → c'.stamp ≤ token
  shows : ∀ t key v, 0 ≤ t → c'.shown t key = some v →
    c.shown t key = some v ∨ t = token ∧ fresh (c.slot key) v
  keeps : ¬loose → ∀ key, (c.shown token key).isSome → (c'.shown token key).isSome
  opened : ∀ lo ≤ token, c.Opened lo loose → c'.Opened lo loose

variable {token : Int} {loose : Prop} {fresh : CacheKey → Option Text → Prop} {c : AnyCache}
  {key : CacheKey}

theorem Opened.mono {loose' : Prop} (h : c.Opened token loose) (himp : loose → loose') :
    c.Opened token loose' := by
  cases c with
  | keyed c => exact Or.imp_right (And.imp_right himp) h
  | single c => trivial

theorem changes_refl (c : AnyCache) : Changes token loose fresh c c :=
  ⟨rfl, id, fun _ _ _ _ => .inl, fun _ _ => id, fun _ _ => id⟩

theorem shown_eq_some {t : Int} {v : Option Text} :
    c.shown t key = some v ↔ t = c.stamp ∧ c.held key = some v := by
  rw [shown, Option.ite_none_right_eq_some]

theorem isSome_shown {t : Int} :
    (c.shown t key).isSome = true ↔ t = c.stamp ∧ (c.held key).isSome = true := by
  simp only [Option.isSome_iff_exists, shown_eq_some, exists_and_left]

theorem IsNew.stamp_eq (h : c.IsNew) : c.stamp = -1 := by
  obtain ⟨b, rfl | rfl⟩ := h <;> rfl

theorem IsNew.shown_eq_none (h : c.IsNew) (htoken : 0 ≤ token) (key : CacheKey) :
    c.shown token key = none := by
  rw [shown, h.stamp_eq, if_neg (by omega)]

theorem changes_setEnabled (b : Bool) (c : AnyCache) :
    Changes token loose fresh c (c.setEnabled b) := by
  cases c <;> exact ⟨rfl, id, fun _ _ _ _ => .inl, fun _ _ => id, fun _ _ => id⟩

theorem changes_refresh (c : KeyedCache CacheKey (Option Text)) :
    Changes token loose fresh (.keyed c) (.keyed (c.refresh token)) := by
  have hstamp : (c.refresh token).lastToken = token := c.lastToken_refresh token
  by_cases heq : token = c.lastToken
  · rw [KeyedCache.refresh, if_pos heq]
    exact changes_refl _
  · have hentries : (c.refresh token).entries = Mapping.empty := by
      rw [KeyedCache.refresh, if_neg heq]
    constructor
    case slot => rfl
    case stamp_le => exact fun _ => Int.le_of_eq hstamp
    case shows =>
      intro t key v _ h
      have hheld := (shown_eq_some.1 h).2
      simp only [held, hentries] at hheld
      cases hheld
    case keeps =>
      intro _ key h
      exact absurd (isSome_shown.1 h).1 heq
    case opened =>
      intro lo hlo _
      exact .inl (Int.le_trans hlo (Int.le_of_eq hstamp.symm))

theorem find?_refresh (c : KeyedCache CacheKey (Option Text)) (token : Int) (key : CacheKey) :
    (c.refresh token).entries.find? key = (keyed c).shown token key := by
  rw [KeyedCache.refresh, shown]
  by_cases heq : token = c.lastToken
  · rw [if_pos heq, if_pos (show token = (keyed c).stamp from heq)]
    rfl
  · rw [if_neg heq, if_neg (show ¬token = (keyed c).stamp from heq)]
    rfl

theorem begin_fst_of_enabled (he : c.enabled = true) (token : Int) (key : CacheKey) :
    (c.begin token key).1 = c.shown token key := by
  cases c with
  | keyed c =>
      have hget : c.begin token key = c.get token key := if_pos he
      exact (congrArg Prod.fst hget).trans (find?_refresh c token key)
  | single c =>
      have hiff : (c.enabled = true ∧ token = c.token) = (token = c.token) :=
        propext (and_iff_right he)
      exact ite_congr hiff (fun _ => rfl) fun _ => rfl

theorem begin_of_disabled (he : c.enabled = false) (token : Int) (key : CacheKey) :
    c.begin token key = (none, c) := by
  have hne : ¬c.enabled = true := by simp [he]
  cases c with
  | keyed c =>
      have hbegin : c.begin token key = (none, c) := if_neg hne
      rw [begin, hbegin]
  | single c =>
      have hbegin : c.begin token = none := if_neg fun h => hne h.1
      rw [begin, hbegin]

theorem changes_begin (c : AnyCache) (token : Int) (key : CacheKey) :
    Changes token loose fresh c (c.begin token key).2 := by
  cases he : c.enabled with
  | false =>
      rw [begin_of_disabled he]
      exact changes_refl c
  | true =>
      cases c with
      | keyed c =>
          have hget : c.begin token key = c.get token key := if_pos he
          rw [begin, hget]
          exact changes_refresh c
      | single c => exact changes_refl _

theorem opened_begin (he : c.enabled = true) (token : Int) (loose : Prop) (key : CacheKey) :
    (c.begin token key).2.Opened token loose := by
  cases c with
  | keyed c =>
      have hget : c.begin token key = c.get token key := if_pos he
      rw [begin, hget]
      exact .inl (Int.le_of_eq (c.lastToken_refresh token).symm)
  | single c => trivial

theorem get_fst (c : AnyCache) (token : Int) (key : CacheKey) :
    (c.get token key).1 = (c.shown token key).getD none ∨ (c.get token key).1 = none := by
  cases c with
  | keyed c => exact .inl (congrArg (·.getD none) (find?_refresh c token key))
  | single c => exact .inr rfl

theorem changes_get (c : AnyCache) (token : Int) (key : CacheKey) :
    Changes token loose fresh c (c.get token key).2 := by
  cases c with
  | keyed c => exact changes_refresh c
  | single c => exact changes_refl _

theorem changes_size (c : AnyCache) (token : Int) :
    Changes token loose fresh c (c.size token).2 := by
  cases c with
  | keyed c => exact changes_refresh c
  | single c => exact changes_refl _

theorem changes_invalidate (htoken : 0 ≤ token) (hloose : loose) (c : AnyCache) :
    Changes token loose fresh c c.invalidate := by
  constructor
  case slot => cases c <;> rfl
  case stamp_le =>
    intro _
    have hneg : (-1 : Int) ≤ token := by omega
    cases c <;> exact hneg
  case shows =>
    intro t key v _ h
    have hnone : c.invalidate.held key = none := by cases c <;> rfl
    rw [shown, hnone, ite_self] at h
    cases h
  case keeps => exact fun h => absurd hloose h
  case opened =>
    intro lo _ _
    cases c with
    | keyed c => exact .inr ⟨rfl, hloose⟩
    | single c => trivial

theorem changes_insert {c : KeyedCache CacheKey (Option Text)} {value : Option Text}
    (hstamp : c.lastToken = token ∨ c.lastToken = -1) (hfresh : fresh key value) :
    Changes token loose fresh (.keyed c)
      (.keyed { c with entries := c.entries.insert key value }) := by
  constructor
  case slot => rfl
  case stamp_le => exact id
  case shows =>
    intro t key' v ht h
    obtain ⟨ht', hheld⟩ := shown_eq_some.1 h
    have hfind : (c.entries.insert key value).find? key' = some v := hheld
    rw [Mapping.find?_insert] at hfind
    split at hfind
    · rename_i hkey
      have htoken : t = token := by
        have hlast : t = c.lastToken := ht'
        omega
      cases hfind
      exact .inr ⟨htoken, hkey ▸ hfresh⟩
    · exact .inl (shown_eq_some.2 ⟨ht', hfind⟩)
  case keeps =>
    intro _ key' h
    obtain ⟨ht, hheld⟩ := isSome_shown.1 h
    refine isSome_shown.2 ⟨ht, ?_⟩
    show ((c.entries.insert key value).find? key').isSome = true
    rw [Mapping.find?_insert]
    split
    · rfl
    · exact hheld
  case opened => exact fun _ _ => id

theorem Changes.trans {c' c'' : AnyCache} (h : Changes token loose fresh c c')
    (h' : Changes token loose fresh c' c'') : Changes token loose fresh c c'' where
  slot := h'.slot.trans h.slot
  stamp_le hle := h'.stamp_le (h.stamp_le hle)
  shows t key v ht hshown := by
    rcases h'.shows t key v ht hshown with hshown | hfresh
    · exact h.shows t key v ht hshown
    · exact .inr (h.slot ▸ hfresh)
  keeps hloose key hshown := h'.keeps hloose key (h.keeps hloose key hshown)
  opened lo hlo hopened := h'.opened lo hlo (h.opened lo hlo hopened)

/-- A value put into a cache comes under the token of the operation. -/
theorem changes_put (c : AnyCache) {value : Option Text}
    (hfresh : ∀ k, c = .keyed k → fresh key value) :
    Changes token loose fresh c (c.put token key value) := by
  cases c with
  | keyed c =>
      have hstamp := c.lastToken_refresh token
      exact (changes_refresh c).trans (changes_insert (.inl hstamp) (hfresh c rfl))
  | single c => exact changes_refl _

/-- What a computation gave comes under the token that it began and ended with. -/
theorem changes_finish (hopened : c.Opened token loose) (hle : c.stamp ≤ token)
    {value : Option Text} (hfresh : fresh (c.slot key) value) :
    Changes token loose fresh c (c.finish token token key value) := by
  cases c with
  | keyed c =>
      have hfinish : c.finish token token key value =
          { c with entries := c.entries.insert key value } := if_pos rfl
      have hstamp : c.lastToken = token ∨ c.lastToken = -1 := by
        have hle' : c.lastToken ≤ token := hle
        exact hopened.imp (fun h => Int.le_antisymm hle' h) And.left
      rw [finish, hfinish]
      exact changes_insert hstamp hfresh
  | single c =>
      have hfinish : c.finish token token value =
          { c with value := some value, token := token } := if_pos rfl
      rw [finish, hfinish]
      constructor
      case slot => rfl
      case stamp_le => exact fun _ => Int.le_refl token
      case shows =>
        intro t key' v _ h
        obtain ⟨ht, hheld⟩ := shown_eq_some.1 h
        cases hheld
        exact .inr ⟨ht, hfresh⟩
      case keeps =>
        intro _ key' _
        exact isSome_shown.2 ⟨rfl, rfl⟩
      case opened => exact fun _ _ _ => trivial

/-- Unless values have been invalidated, what a computation gave is held under its token. -/
theorem isSome_shown_finish (hopened : c.Opened token loose) (hloose : ¬loose)
    (hle : c.stamp ≤ token) {key' : CacheKey} (hslot : c.slot key' = c.slot key)
    (value : Option Text) : ((c.finish token token key value).shown token key').isSome = true := by
  cases c with
  | keyed c =>
      have hfinish : c.finish token token key value =
          { c with entries := c.entries.insert key value } := if_pos rfl
      have hstamp : token = c.lastToken := by
        have hle' : c.lastToken ≤ token := hle
        rcases hopened with h | h
        · exact Int.le_antisymm h hle'
        · exact absurd h.2 hloose
      have hkey : key' = key := hslot
      rw [finish, hfinish]
      refine isSome_shown.2 ⟨hstamp, ?_⟩
      show ((c.entries.insert key value).find? key').isSome = true
      rw [Mapping.find?_insert, if_pos hkey]
      rfl
  | single c =>
      have hfinish : c.finish token token value =
          { c with value := some value, token := token } := if_pos rfl
      rw [finish, hfinish]
      exact isSome_shown.2 ⟨rfl, rfl⟩

theorem finish_of_ne {before : Int} (h : token ≠ before) (c : AnyCache) (key : CacheKey)
    (value : Option Text) : c.finish before token key value = c := by
  cases c with
  | keyed c => exact congrArg keyed (if_neg h)
  | single c => exact congrArg single (if_neg h)

end VersionedProperties.Cache.AnyCache
