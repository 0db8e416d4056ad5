import VersionedProperties.Proofs.Cache.Shown

/-!
# Where the values of lookups come from

A run of a cache is recorded as what happens one after the other: commands begin and end, and the
script of a computation comes between the two moments of its lookup. So "earlier" is a prefix of the
record, and a computation may have begun before and end after any number of other commands.

If the token never decreases, a lookup gives what its own computation gave, or what an earlier `put`
or computation gave for the same key that began and ended under the same token. The invariant is
`Warranted`; it says this of all that the cache shows, and that what has been computed under the
token that stands is still shown. The lookups whose computations are running appear in it only
through `AnyCache.Opened`, which is kept for every token that such a lookup can have begun with.
-/

namespace VersionedProperties.Cache

/-- What happens in a run: a command begins in a state, and ends in another one with an answer. -/
inductive Occurrence where
  | begins (c : Command) (s : State)
  | ends (c : Command) (s : State) (answer : Answer) (next : State)

namespace Occurrence

/-- The token at this moment. -/
def token : Occurrence → Int
  | .begins _ s => s.token
  | .ends _ _ _ next => next.token

def isInvalidation : Occurrence → Bool
  | .begins .invalidate _ => true
  | _ => false

/-- A value has been put at a place under a token. -/
def Puts (token : Int) (place : CacheKey) (v : Option Text) : Occurrence → Prop
  | .ends (.put key value) ⟨.keyed _, t, _⟩ _ _ => t = token ∧ key = place ∧ value = v
  | _ => False

/-- A lookup in the enabled cache has run its computation, which gave a value for a place and began
and ended under a token. -/
def Computes (token : Int) (place : CacheKey) (v : Option Text) : Occurrence → Prop
  | .ends (.compute key value _ _ none) s _ next =>
    s.cache.enabled = true ∧ s.calls < next.calls ∧ s.token = token ∧ next.token = token ∧
      s.cache.slot key = place ∧ value = v
  | _ => False

theorem Computes.token_eq {o : Occurrence} {token : Int} {place : CacheKey} {v : Option Text}
    (h : o.Computes token place v) : o.token = token := by
  unfold Computes at h
  split at h
  · exact h.2.2.2.1
  · exact h.elim

end Occurrence

/-- The state in which the computation of a lookup that found nothing runs its script. -/
def State.computing (s : State) (key : CacheKey) (bump : Int) : State where
  cache := (s.cache.begin s.token key).2
  token := s.token + bump
  calls := s.calls + 1

mutual

/-- What happens between the beginning and the end of a command. -/
def Command.inside : Command → State → List Occurrence
  | .compute key _ bump script _, s =>
    match (s.cache.begin s.token key).1 with
    | some _ => []
    | none => recordAll script (s.computing key bump)
  | _, _ => []

/-- What happens in a run. -/
def recordAll : List Command → State → List Occurrence
  | [], _ => []
  | c :: rest, s =>
    .begins c s :: (c.inside s ++
      .ends c s (perform c s).1 (perform c s).2 :: recordAll rest (perform c s).2)

end

/-- What happens in a run with a single command. -/
def Command.record (c : Command) (s : State) : List Occurrence :=
  .begins c s :: (c.inside s ++ [.ends c s (perform c s).1 (perform c s).2])

/-- Whether the token never decreases. -/
def Rising (record : List Occurrence) : Prop := record.Pairwise (·.token ≤ ·.token)

instance (record : List Occurrence) : Decidable (Rising record) :=
  inferInstanceAs (Decidable (record.Pairwise fun o o' => o.token ≤ o'.token))

def Invalidated (past : List Occurrence) : Prop := ∃ o ∈ past, o.isInvalidation = true

/-- Whether a value was put at a place, or computed for it, under a token. -/
def Produced (past : List Occurrence) (token : Int) (place : CacheKey) (v : Option Text) : Prop :=
  ∃ o ∈ past, o.Puts token place v ∨ o.Computes token place v

/-- What is true of each moment of a run, given what has happened before it.

A lookup that has ended gives the value of its own computation, which did not fail, or has run none
and gives a value that was produced before. A `get` gives such a value or none. A lookup that begins
in the enabled cache when there has been a computation for the place under this token, and no
invalidation, runs no computation. -/
def Explained (past : List Occurrence) : Occurrence → Prop
  | .ends (.get key) s (.value t) _ => t = none ∨ Produced past s.token (s.cache.slot key) t
  | .ends (.compute key value _ _ failure) s (.computed (.ok v) _ _) next =>
    failure = none ∧ v = value ∧ s.calls < next.calls ∨
      next.calls = s.calls ∧ Produced past s.token (s.cache.slot key) v
  | .begins (.compute key value bump script failure) s =>
    s.cache.enabled = true → ¬Invalidated past →
      (∃ o ∈ past, ∃ v, o.Computes s.token (s.cache.slot key) v) →
      ∃ v next, perform (.compute key value bump script failure) s =
        (.computed (.ok v) [] s.calls, next) ∧ next.calls = s.calls
  | _ => True

/-- Whether each moment of a record is explained by those before it. -/
def AllExplained : List Occurrence → List Occurrence → Prop
  | _, [] => True
  | past, o :: record => Explained past o ∧ AllExplained (past ++ [o]) record

/-- What a state owes to what has happened before. -/
structure Warranted (past : List Occurrence) (s : State) : Prop where
  nonneg : 0 ≤ s.token
  bounded : ∀ o ∈ past, o.token ≤ s.token
  stamp_le : s.cache.stamp ≤ s.token
  produced : ∀ token key v, 0 ≤ token → s.cache.shown token key = some v →
    Produced past token (s.cache.slot key) v
  held : ¬Invalidated past → ∀ key,
    (∃ o ∈ past, ∃ v, o.Computes s.token (s.cache.slot key) v) →
    (s.cache.shown s.token key).isSome

/-- What a part of a run keeps. -/
structure Continues (past record : List Occurrence) (s s' : State) : Prop where
  warranted : Warranted (past ++ record) s'
  explained : AllExplained past record
  token_le : s.token ≤ s'.token
  calls_le : s.calls ≤ s'.calls
  slot : s'.cache.slot = s.cache.slot
  opened : ∀ lo ≤ s.token, s.cache.Opened lo (Invalidated past) →
    s'.cache.Opened lo (Invalidated (past ++ record))

variable {past part later : List Occurrence} {s s' s'' : State} {o : Occurrence}
  {token : Int} {key : CacheKey} {place : CacheKey} {value v : Option Text} {bump : Int}
  {script : List Command} {failure : Option Text}

theorem allExplained_append (past record later : List Occurrence) :
    AllExplained past (record ++ later) ↔
      AllExplained past record ∧ AllExplained (past ++ record) later := by
  induction record generalizing past with
  | nil =>
      rw [List.nil_append, List.append_nil]
      exact (iff_of_eq (true_and _)).symm
  | cons o record ih =>
      rw [List.cons_append, AllExplained, AllExplained, ih, and_assoc, List.append_assoc,
        List.singleton_append]

theorem Invalidated.mono (h : Invalidated past) (record : List Occurrence) :
    Invalidated (past ++ record) := by
  obtain ⟨o, ho, hinv⟩ := h
  exact ⟨o, List.mem_append_left record ho, hinv⟩

theorem Produced.mono (h : Produced past token place v) (record : List Occurrence) :
    Produced (past ++ record) token place v := by
  obtain ⟨o, ho, hmade⟩ := h
  exact ⟨o, List.mem_append_left record ho, hmade⟩

theorem Warranted.continues_nil (hw : Warranted past s) : Continues past [] s s where
  warranted := by rwa [List.append_nil]
  explained := trivial
  token_le := Int.le_refl _
  calls_le := Nat.le_refl _
  slot := rfl
  opened lo hlo hopened := by rwa [List.append_nil]

theorem Continues.trans (h : Continues past part s s')
    (h' : Continues (past ++ part) later s' s'') :
    Continues past (part ++ later) s s'' where
  warranted := by
    rw [← List.append_assoc]
    exact h'.warranted
  explained := (allExplained_append past part later).2 ⟨h.explained, h'.explained⟩
  token_le := Int.le_trans h.token_le h'.token_le
  calls_le := Nat.le_trans h.calls_le h'.calls_le
  slot := h'.slot.trans h.slot
  opened lo hlo hopened := by
    rw [← List.append_assoc]
    exact h'.opened lo (Int.le_trans hlo h.token_le) (h.opened lo hlo hopened)

/-- One moment: the cache shows nothing new but what has been produced, and what this moment
computes is held. -/
theorem Warranted.continues (hw : Warranted past s) (ho : Explained past o)
    (htoken : s.token ≤ s'.token) (hcalls : s.calls ≤ s'.calls) (hbound : o.token ≤ s'.token)
    (hcache : s.cache.Changes s.token (Invalidated (past ++ [o]))
      (Produced (past ++ [o]) s.token) s'.cache)
    (hheld : ∀ key v, o.Computes s'.token (s.cache.slot key) v → ¬Invalidated (past ++ [o]) →
      (s'.cache.shown s'.token key).isSome) : Continues past [o] s s' where
  warranted := by
    constructor
    case nonneg => exact Int.le_trans hw.nonneg htoken
    case bounded =>
      intro o' ho'
      rcases List.mem_append.1 ho' with ho' | ho'
      · exact Int.le_trans (hw.bounded o' ho') htoken
      · rwa [List.mem_singleton.1 ho']
    case stamp_le => exact Int.le_trans (hcache.stamp_le hw.stamp_le) htoken
    case produced =>
      intro t key v ht hshown
      rw [hcache.slot]
      rcases hcache.shows t key v ht hshown with hold | ⟨rfl, hnew⟩
      · exact (hw.produced t key v ht hold).mono [o]
      · exact hnew
    case held =>
      rintro hinv key ⟨o', ho', v, hmade⟩
      rw [hcache.slot] at hmade
      rcases List.mem_append.1 ho' with ho' | ho'
      · -- the earlier computation bounds the token from below, so it has not moved
        have heq : s'.token = s.token := by
          have hle := hw.bounded o' ho'
          rw [hmade.token_eq] at hle
          exact Int.le_antisymm hle htoken
        rw [heq] at hmade ⊢
        have hshown := hw.held (fun h => hinv (h.mono [o])) key ⟨o', ho', v, hmade⟩
        exact hcache.keeps hinv key hshown
      · rw [List.mem_singleton.1 ho'] at hmade
        exact hheld key v hmade hinv
  explained := ⟨ho, trivial⟩
  token_le := htoken
  calls_le := hcalls
  slot := hcache.slot
  opened lo hlo hopened := hcache.opened lo hlo (hopened.mono fun h => h.mono [o])

/-- A moment at which nothing is computed. -/
theorem Warranted.continues_of_quiet (hw : Warranted past s) (ho : Explained past o)
    (htoken : s.token ≤ s'.token) (hcalls : s.calls ≤ s'.calls) (hbound : o.token ≤ s'.token)
    (hcache : s.cache.Changes s.token (Invalidated (past ++ [o]))
      (Produced (past ++ [o]) s.token) s'.cache)
    (hquiet : ∀ token place v, ¬o.Computes token place v) : Continues past [o] s s' :=
  hw.continues ho htoken hcalls hbound hcache fun _ _ h => absurd h (hquiet _ _ _)

theorem perform_compute_of_some (h : (s.cache.begin s.token key).1 = some v) :
    perform (.compute key value bump script failure) s =
      (.computed (.ok v) [] s.calls, { s with cache := (s.cache.begin s.token key).2 }) := by
  rw [perform]
  cases hbegin : s.cache.begin s.token key with
  | mk hit cache =>
      rw [hbegin] at h
      cases h
      rfl

theorem perform_compute_of_none (h : (s.cache.begin s.token key).1 = none) :
    perform (.compute key value bump script failure) s =
      let run := performAll script (s.computing key bump)
      match failure with
      | some text => (.computed (.error (.raised text)) run.1 run.2.calls, run.2)
      | none =>
        (.computed (.ok value) run.1 run.2.calls,
          { run.2 with
            cache := if s.cache.enabled then run.2.cache.finish s.token run.2.token key value
              else run.2.cache }) := by
  rw [perform, State.computing]
  cases hbegin : s.cache.begin s.token key with
  | mk hit cache =>
      rw [hbegin] at h
      cases h
      rfl

/-- A lookup begins: what has been computed under this token is still held. -/
theorem Warranted.explained_begins (hw : Warranted past s) (c : Command) :
    Explained past (.begins c s) := by
  cases c with
  | compute key value bump script failure =>
      intro he hinv hmade
      have hshown := hw.held hinv key hmade
      rw [← AnyCache.begin_fst_of_enabled he] at hshown
      obtain ⟨v, hv⟩ := Option.isSome_iff_exists.1 hshown
      exact ⟨v, _, perform_compute_of_some hv, rfl⟩
  | token | enable | invalidate | get | put | size => trivial

theorem Warranted.begins (hw : Warranted past s) (c : Command) :
    Continues past [.begins c s] s s :=
  hw.continues_of_quiet (hw.explained_begins c) (Int.le_refl _) (Nat.le_refl _) (Int.le_refl _)
    (AnyCache.changes_refl _) fun _ _ _ => id

/-- A command other than a lookup ends. -/
theorem Warranted.ends {c : Command} (hw : Warranted (past ++ [.begins c s]) s)
    (hc : ∀ key value bump script failure, c ≠ .compute key value bump script failure)
    (htoken : s.token ≤ (perform c s).2.token) :
    Continues (past ++ [.begins c s]) [.ends c s (perform c s).1 (perform c s).2] s
      (perform c s).2 := by
  cases c with
  | token n =>
      exact hw.continues_of_quiet trivial htoken (Nat.le_refl _) (Int.le_refl _)
        (AnyCache.changes_refl _) fun _ _ _ => id
  | enable b =>
      exact hw.continues_of_quiet trivial htoken (Nat.le_refl _) (Int.le_refl _)
        (AnyCache.changes_setEnabled b _) fun _ _ _ => id
  | invalidate =>
      have hinv : Invalidated (past ++ [.begins .invalidate s]) :=
        ⟨_, List.mem_append_right past List.mem_cons_self, rfl⟩
      exact hw.continues_of_quiet trivial htoken (Nat.le_refl _) (Int.le_refl _)
        (AnyCache.changes_invalidate hw.nonneg (hinv.mono _) _) fun _ _ _ => id
  | get key =>
      refine hw.continues_of_quiet ?_ htoken (Nat.le_refl _) (Int.le_refl _)
        (AnyCache.changes_get _ _ key) fun _ _ _ => id
      show (s.cache.get s.token key).1 = none ∨
        Produced _ s.token (s.cache.slot key) (s.cache.get s.token key).1
      rcases s.cache.get_fst s.token key with hget | hget
      · rw [hget]
        cases hshown : s.cache.shown s.token key with
        | none => exact .inl rfl
        | some v => exact .inr (hw.produced s.token key v hw.nonneg hshown)
      · exact .inl hget
  | put key value =>
      refine hw.continues_of_quiet trivial htoken (Nat.le_refl _) (Int.le_refl _)
        (AnyCache.changes_put _ ?_) fun _ _ _ => id
      intro k hk
      obtain ⟨cache, t, n⟩ := s
      cases hk
      exact ⟨_, List.mem_append_right _ List.mem_cons_self, .inl ⟨rfl, rfl, rfl⟩⟩
  | size =>
      exact hw.continues_of_quiet trivial htoken (Nat.le_refl _) (Int.le_refl _)
        (AnyCache.changes_size _ _) fun _ _ _ => id
  | compute key value bump script failure => exact (hc key value bump script failure rfl).elim

/-- A lookup that found a value ends. -/
theorem Warranted.ends_found
    (hw : Warranted (past ++ [.begins (.compute key value bump script failure) s]) s)
    (hfound : (s.cache.begin s.token key).1 = some v) :
    Continues (past ++ [.begins (.compute key value bump script failure) s])
      [.ends (.compute key value bump script failure) s
        (perform (.compute key value bump script failure) s).1
        (perform (.compute key value bump script failure) s).2] s
      (perform (.compute key value bump script failure) s).2 := by
  rw [perform_compute_of_some hfound]
  refine hw.continues_of_quiet (.inr ⟨rfl, ?_⟩) (Int.le_refl _) (Nat.le_refl _) (Int.le_refl _)
    (AnyCache.changes_begin _ _ key) ?_
  · cases he : s.cache.enabled with
    | false =>
        rw [AnyCache.begin_of_disabled he] at hfound
        cases hfound
    | true =>
        rw [AnyCache.begin_fst_of_enabled he] at hfound
        exact hw.produced s.token key v hw.nonneg hfound
  · intro token place v hmade
    cases failure with
    | some text => exact hmade
    | none => exact absurd hmade.2.1 (Nat.lt_irrefl _)

/-- A lookup that found nothing begins, and its computation starts. -/
theorem Warranted.begins_computing (hw : Warranted past s)
    (htoken : s.token ≤ (s.computing key bump).token) :
    Continues past [.begins (.compute key value bump script failure) s] s
      (s.computing key bump) :=
  hw.continues_of_quiet (hw.explained_begins _) htoken (Nat.le_succ _) htoken
    (AnyCache.changes_begin _ _ key) fun _ _ _ => id

/-- A lookup that found nothing ends after its computation has run. -/
theorem Warranted.ends_computed {answers : List Answer}
    (hmissed : (s.cache.begin s.token key).1 = none)
    (hrun : performAll script (s.computing key bump) = (answers, s'))
    (hw : Warranted past s') (hslot : s'.cache.slot = s.cache.slot) (hcalls : s.calls < s'.calls)
    (hopened : s.cache.enabled = true → s'.cache.Opened s.token (Invalidated past)) :
    Continues past
      [.ends (.compute key value bump script failure) s
        (perform (.compute key value bump script failure) s).1
        (perform (.compute key value bump script failure) s).2] s'
      (perform (.compute key value bump script failure) s).2 := by
  rw [perform_compute_of_none hmissed, hrun]
  dsimp only
  cases failure with
  | some text =>
      exact hw.continues_of_quiet trivial (Int.le_refl _) (Nat.le_refl _) (Int.le_refl _)
        (AnyCache.changes_refl _) fun _ _ _ => id
  | none =>
      dsimp only
      by_cases hkept : s.cache.enabled = true ∧ s'.token = s.token
      · obtain ⟨he, htoken⟩ := hkept
        have hopened' : s'.cache.Opened s'.token (Invalidated past) := htoken ▸ hopened he
        rw [if_pos he, ← htoken]
        refine hw.continues (.inl ⟨rfl, rfl, hcalls⟩) (Int.le_refl _) (Nat.le_refl _)
          (Int.le_refl _) (AnyCache.changes_finish (hopened'.mono fun h => h.mono _) hw.stamp_le ?_)
          ?_
        · refine ⟨_, List.mem_append_right _ List.mem_cons_self, .inr ?_⟩
          exact ⟨he, hcalls, htoken.symm, rfl, congrFun hslot.symm key, rfl⟩
        · rintro key' v hmade hinv
          have hkey : s.cache.slot key = s'.cache.slot key' := hmade.2.2.2.2.1
          rw [← hslot] at hkey
          exact AnyCache.isSome_shown_finish (hopened'.mono fun h => h.mono _) hinv hw.stamp_le
            hkey.symm value
      · have hsame : (if s.cache.enabled = true then
            s'.cache.finish s.token s'.token key value else s'.cache) = s'.cache := by
          split
          · rename_i he
            exact AnyCache.finish_of_ne (fun h => hkept ⟨he, h⟩) ..
          · rfl
        rw [hsame]
        refine hw.continues_of_quiet (.inl ⟨rfl, rfl, hcalls⟩) (Int.le_refl _) (Nat.le_refl _)
          (Int.le_refl _) (AnyCache.changes_refl _) ?_
        intro token place v hmade
        exact hkept ⟨hmade.1, hmade.2.2.2.1.trans hmade.2.2.1.symm⟩

theorem recordAll_cons (c : Command) (rest : List Command) (s : State) :
    recordAll (c :: rest) s = c.record s ++ recordAll rest (perform c s).2 := by
  rw [recordAll, Command.record, List.cons_append, List.append_assoc, List.singleton_append]

theorem performAll_cons_snd (c : Command) (rest : List Command) (s : State) :
    (performAll (c :: rest) s).2 = (performAll rest (perform c s).2).2 := by
  rw [performAll]

theorem recordAll_append (script later : List Command) (s : State) :
    recordAll (script ++ later) s =
      recordAll script s ++ recordAll later (performAll script s).2 := by
  induction script generalizing s with
  | nil => rfl
  | cons c script ih =>
      rw [List.cons_append, recordAll_cons, recordAll_cons, ih, List.append_assoc,
        performAll_cons_snd]

/-- The first moment of a script, or the end of a script that is empty, has the token that the
script begins with. -/
theorem token_le_of_recordAll {lo : Int} (script : List Command) (s : State)
    (hrecord : ∀ o ∈ recordAll script s, lo ≤ o.token) (hend : lo ≤ (performAll script s).2.token) :
    lo ≤ s.token := by
  cases script with
  | nil => exact hend
  | cons c rest =>
      rw [recordAll] at hrecord
      exact hrecord _ List.mem_cons_self

theorem Warranted.record_of_no_lookup {c : Command} (hw : Warranted past s)
    (hc : ∀ key value bump script failure, c ≠ .compute key value bump script failure)
    (hrising : Rising (c.record s)) : Continues past (c.record s) s (perform c s).2 := by
  have hinside : c.inside s = [] := by
    cases c with
    | compute key value bump script failure => exact (hc key value bump script failure rfl).elim
    | token | enable | invalidate | get | put | size => rfl
  rw [Command.record, hinside] at hrising ⊢
  have hbegins := hw.begins c
  have htoken := (List.pairwise_cons.1 hrising).1 _ List.mem_cons_self
  exact hbegins.trans (hbegins.warranted.ends hc htoken)

theorem Warranted.record_of_some (hw : Warranted past s)
    (hfound : (s.cache.begin s.token key).1 = some v) :
    Continues past ((Command.compute key value bump script failure).record s) s
      (perform (.compute key value bump script failure) s).2 := by
  have hinside : (Command.compute key value bump script failure).inside s = [] := by
    rw [Command.inside, hfound]
  rw [Command.record, hinside]
  have hbegins := hw.begins (.compute key value bump script failure)
  exact hbegins.trans (hbegins.warranted.ends_found hfound)

theorem token_perform_of_none (hmissed : (s.cache.begin s.token key).1 = none) :
    (perform (.compute key value bump script failure) s).2.token =
      (performAll script (s.computing key bump)).2.token := by
  rw [perform_compute_of_none hmissed]
  cases failure <;> rfl

/-- A lookup that found nothing, from what its script does. -/
theorem Warranted.record_of_none (hw : Warranted past s)
    (hmissed : (s.cache.begin s.token key).1 = none)
    (hrising : Rising ((Command.compute key value bump script failure).record s))
    (hscript : ∀ {past : List Occurrence}, Warranted past (s.computing key bump) →
      Rising (recordAll script (s.computing key bump)) →
      Continues past (recordAll script (s.computing key bump)) (s.computing key bump)
        (performAll script (s.computing key bump)).2) :
    Continues past ((Command.compute key value bump script failure).record s) s
      (perform (.compute key value bump script failure) s).2 := by
  have hinside : (Command.compute key value bump script failure).inside s =
      recordAll script (s.computing key bump) := by
    rw [Command.inside, hmissed]
  rw [Command.record, hinside] at hrising ⊢
  obtain ⟨hfirst, hrest⟩ := List.pairwise_cons.1 hrising
  rw [List.forall_mem_append] at hfirst
  have htoken : s.token ≤ (s.computing key bump).token := by
    apply token_le_of_recordAll script _ hfirst.1
    rw [← token_perform_of_none hmissed]
    exact hfirst.2 _ List.mem_cons_self
  have hbegins : Continues past [.begins (.compute key value bump script failure) s] s
    (s.computing key bump) := hw.begins_computing htoken
  have hran := hscript hbegins.warranted (List.pairwise_append.1 hrest).1
  rw [← List.singleton_append, ← List.append_assoc]
  refine (hbegins.trans hran).trans ?_
  rw [← List.append_assoc]
  exact hran.warranted.ends_computed hmissed rfl (hran.slot.trans hbegins.slot) hran.calls_le
    fun he => hran.opened s.token htoken (AnyCache.opened_begin he s.token _ key)

mutual

theorem Warranted.record : ∀ (c : Command) {past : List Occurrence} {s : State},
    Warranted past s → Rising (c.record s) → Continues past (c.record s) s (perform c s).2
  | .compute key value bump script failure, past, s, hw, hrising => by
      cases hfound : (s.cache.begin s.token key).1 with
      | some v => exact hw.record_of_some hfound
      | none => exact hw.record_of_none hfound hrising fun hw' => hw'.recordAll script
  | .token _, _, _, hw, hrising | .enable _, _, _, hw, hrising | .invalidate, _, _, hw, hrising
  | .get _, _, _, hw, hrising | .put _ _, _, _, hw, hrising | .size, _, _, hw, hrising =>
    hw.record_of_no_lookup nofun hrising

theorem Warranted.recordAll : ∀ (script : List Command) {past : List Occurrence} {s : State},
    Warranted past s → Rising (recordAll script s) →
      Continues past (recordAll script s) s (performAll script s).2
  | [], past, s, hw, _ => hw.continues_nil
  | c :: rest, past, s, hw, hrising => by
      rw [recordAll_cons] at hrising ⊢
      obtain ⟨hfirst, hrest, -⟩ := List.pairwise_append.1 hrising
      have hc := hw.record c hfirst
      have hall := hc.warranted.recordAll rest hrest
      rw [performAll_cons_snd]
      exact hc.trans hall

end

theorem AllExplained.of_append {before after : List Occurrence}
    (h : AllExplained past (before ++ o :: after)) : Explained (past ++ before) o :=
  ((allExplained_append past before (o :: after)).1 h).2.1

theorem warranted_new (hnew : s.cache.IsNew) (htoken : 0 ≤ s.token) : Warranted [] s := by
  constructor
  case nonneg => exact htoken
  case bounded =>
    intro o ho
    cases ho
  case stamp_le =>
    rw [hnew.stamp_eq]
    omega
  case produced =>
    intro token key v ht hshown
    rw [hnew.shown_eq_none ht key] at hshown
    cases hshown
  case held =>
    rintro - key ⟨o, ho, -⟩
    cases ho

/-- In every run of a new cache under a token that is not negative and never decreases, each moment
is explained by those before it: lookups give what their own computation gave, or what was put or
computed for the same key before, from beginning to end under the token of the lookup, and they do
not compute again what has been computed under the same token. -/
theorem explained_of_rising {s : State} {script : List Command} (hnew : s.cache.IsNew)
    (htoken : 0 ≤ s.token) (hrising : Rising (recordAll script s)) {past future : List Occurrence}
    {o : Occurrence} (hmoment : recordAll script s = past ++ o :: future) : Explained past o := by
  have hrun := (warranted_new hnew htoken).recordAll script hrising
  have hall := hrun.explained
  rw [hmoment] at hall
  exact hall.of_append

/-- A lookup whose computation looks the same key up and moves the token, another lookup, and a
`get`. -/
def nestedRun : List Command :=
  let key : CacheKey := [.flag true]
  [.compute key (some [.scalar 'a']) 0
      [.compute key (some [.scalar 'b']) 0 [] none, .token 1] none,
    .compute key (some [.scalar 'c']) 0 [] none, .get key]

def nestedStart : State := { cache := .keyed {}, token := 0, calls := 0 }

theorem explained_of_rising_nestedRun :
    nestedStart.cache.IsNew ∧ 0 ≤ nestedStart.token ∧ Rising (recordAll nestedRun nestedStart) ∧
      ∃ past s next, recordAll nestedRun nestedStart =
          past ++ [.ends (.get [.flag true]) s (.value (some [.scalar 'c'])) next] ∧
        Produced past s.token (s.cache.slot [.flag true]) (some [.scalar 'c']) := by
  have hnew : nestedStart.cache.IsNew := ⟨true, .inl rfl⟩
  have hrising : Rising (recordAll nestedRun nestedStart) := by decide +kernel
  have hanswer : (perform (.get [.flag true]) (performAll (nestedRun.take 2) nestedStart).2).1 =
      .value (some [.scalar 'c']) := rfl
  have hmoment := recordAll_append (nestedRun.take 2) [.get [.flag true]] nestedStart
  generalize (performAll (nestedRun.take 2) nestedStart).2 = s at hanswer hmoment
  have hsplit : recordAll nestedRun nestedStart =
      (recordAll (nestedRun.take 2) nestedStart ++ [.begins (.get [.flag true]) s]) ++
        [.ends (.get [.flag true]) s (.value (some [.scalar 'c']))
          (perform (.get [.flag true]) s).2] := by
    rw [← hanswer, List.append_assoc]
    exact hmoment
  have hexplained := explained_of_rising hnew (by decide) hrising hsplit
  have hvalue : some [CodePoint.scalar 'c'] ≠ none := Option.some_ne_none _
  exact ⟨hnew, by decide, hrising, _, _, _, hsplit, hexplained.resolve_left hvalue⟩

end VersionedProperties.Cache
