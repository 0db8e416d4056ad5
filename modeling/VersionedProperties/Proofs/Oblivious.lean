import VersionedProperties.Event.Registry

/-!
# Operations that do not see a part of the state

Let `forget` put a part of a state in some fixed form, and let `sound` be an invariant of states. An
operation is oblivious if it keeps the invariant and if, on states with the invariant, it gives the
same answer and the same rest of the state whether that part has been forgotten or not. Oblivious
operations can be put together in all the ways in which the operations of a session are, so that
only those that use the part themselves need an argument of their own.
-/

namespace VersionedProperties

/-- Operations with an answer that do not see what `forget` changes. -/
structure Oblivious {σ α : Type} (sound : σ → Prop) (forget : σ → σ) (f : σ → α × σ) : Prop where
  keeps : ∀ s, sound s → sound (f s).2
  forgets : ∀ s, sound s → f (forget s) = ((f s).1, forget (f s).2)

/-- Operations without an answer that do not see what `forget` changes. -/
structure ObliviousMove {σ : Type} (sound : σ → Prop) (forget : σ → σ) (g : σ → σ) : Prop where
  keeps : ∀ s, sound s → sound (g s)
  forgets : ∀ s, sound s → g (forget s) = forget (g s)

/-- The outcome of an operation handed on: its value to one operation, its error to another. -/
def tryThen {σ ε α β : Type} (f : σ → Except ε α × σ) (onValue : α → σ → β × σ)
    (onError : ε → σ → β × σ) (s : σ) : β × σ :=
  match f s with
  | (.ok a, s) => onValue a s
  | (.error e, s) => onError e s

variable {σ α β ε : Type} {sound : σ → Prop} {forget : σ → σ}

/-- An operation whose answer nobody asks for. -/
theorem Oblivious.move {f : σ → α × σ} (hf : Oblivious sound forget f) :
    ObliviousMove sound forget fun s => (f s).2 := by
  constructor
  · exact hf.keeps
  · intro s hs
    rw [hf.forgets s hs]

namespace ObliviousMove

theorem comp {g h : σ → σ} (hg : ObliviousMove sound forget g)
    (hh : ObliviousMove sound forget h) : ObliviousMove sound forget fun s => h (g s) := by
  constructor
  · intro s hs
    exact hh.keeps _ (hg.keeps s hs)
  · intro s hs
    rw [hg.forgets s hs, hh.forgets _ (hg.keeps s hs)]

theorem answering {g : σ → σ} (hg : ObliviousMove sound forget g) (a : α) :
    Oblivious sound forget fun s => (a, g s) := by
  constructor
  · exact hg.keeps
  · intro s hs
    rw [hg.forgets s hs]

/-- A move that is chosen by something that the operation may see. -/
theorem reading (v : σ → β) {g : β → σ → σ} (hg : ∀ b, ObliviousMove sound forget (g b))
    (hv : ∀ s, v (forget s) = v s) : ObliviousMove sound forget fun s => g (v s) s := by
  constructor
  · intro s hs
    exact (hg (v s)).keeps s hs
  · intro s hs
    rw [hv, (hg (v s)).forgets s hs]

/-- Members called one after the other. -/
theorem fire [DecidableEq β] (r : Registry β) {call : β → σ → Except ε Unit × σ}
    (hcall : ∀ b, Oblivious sound forget (call b)) :
    ObliviousMove sound forget (r.fire call) := by
  have hfold : ∀ members : List β, ObliviousMove sound forget
      (members.foldl fun s b => (call b s).2) := by
    intro members
    induction members with
    | nil => exact ⟨fun _ hs => hs, fun _ _ => rfl⟩
    | cons b members ih => exact (hcall b).move.comp ih
  exact hfold r.members

end ObliviousMove

namespace Oblivious

theorem answer (a : α) : Oblivious sound forget fun s => (a, s) :=
  ⟨fun _ hs => hs, fun _ _ => rfl⟩

/-- An answer that is read off something that the operation may see. -/
theorem read {v : σ → α} (hv : ∀ s, v (forget s) = v s) :
    Oblivious sound forget fun s => (v s, s) := by
  constructor
  · exact fun _ hs => hs
  · intro s _
    rw [hv]

/-- An operation that is chosen by something that the operation may see. -/
theorem reading (v : σ → β) {f : β → σ → α × σ} (hf : ∀ b, Oblivious sound forget (f b))
    (hv : ∀ s, v (forget s) = v s) : Oblivious sound forget fun s => f (v s) s := by
  constructor
  · intro s hs
    exact (hf (v s)).keeps s hs
  · intro s hs
    rw [hv, (hf (v s)).forgets s hs]

/-- An operation that is chosen by a condition that the operation may see. -/
theorem ite {c : σ → Prop} [∀ s, Decidable (c s)] {f g : σ → α × σ}
    (hf : Oblivious sound forget f) (hg : Oblivious sound forget g)
    (hc : ∀ s, sound s → (c (forget s) ↔ c s)) :
    Oblivious sound forget fun s => if c s then f s else g s := by
  constructor
  · intro s hs
    by_cases h : c s
    · simp only [if_pos h, hf.keeps s hs]
    · simp only [if_neg h, hg.keeps s hs]
  · intro s hs
    by_cases h : c s
    · simp only [if_pos h, if_pos ((hc s hs).2 h), hf.forgets s hs]
    · simp only [if_neg h, if_neg (mt (hc s hs).1 h), hg.forgets s hs]

/-- An operation that is one thing or another by something that may be absent. -/
theorem option (v : σ → Option β) {k f : σ → α × σ} {g : β → σ → α × σ}
    (hf : Oblivious sound forget f)
    (hg : ∀ s b, sound s → v s = some b → Oblivious sound forget (g b))
    (hv : ∀ s, v (forget s) = v s) (hnone : ∀ s, v s = none → k s = f s)
    (hsome : ∀ s b, v s = some b → k s = g b s) : Oblivious sound forget k := by
  constructor
  · intro s hs
    cases h : v s with
    | none =>
        rw [hnone s h]
        exact hf.keeps s hs
    | some b =>
        rw [hsome s b h]
        exact (hg s b hs h).keeps s hs
  · intro s hs
    have hforget := hv s
    cases h : v s with
    | none =>
        rw [hnone s h, hnone _ (hforget.trans h)]
        exact hf.forgets s hs
    | some b =>
        rw [hsome s b h, hsome _ b (hforget.trans h)]
        exact (hg s b hs h).forgets s hs

theorem andThen {f : σ → α × σ} {g : α → σ → β × σ} (hf : Oblivious sound forget f)
    (hg : ∀ a, Oblivious sound forget (g a)) :
    Oblivious sound forget fun s => g (f s).1 (f s).2 := by
  constructor
  · intro s hs
    exact (hg _).keeps _ (hf.keeps s hs)
  · intro s hs
    rw [hf.forgets s hs]
    exact (hg _).forgets _ (hf.keeps s hs)

theorem map {f : σ → α × σ} (hf : Oblivious sound forget f) (g : α → β) :
    Oblivious sound forget fun s => (g (f s).1, (f s).2) :=
  hf.andThen fun a => answer (g a)

/-- A move made before an operation. -/
theorem after {f : σ → α × σ} {g : σ → σ} (hf : Oblivious sound forget f)
    (hg : ObliviousMove sound forget g) : Oblivious sound forget fun s => f (g s) :=
  (hg.answering ()).andThen fun _ => hf

theorem tryThen {f : σ → Except ε α × σ} {onValue : α → σ → β × σ} {onError : ε → σ → β × σ}
    (hf : Oblivious sound forget f) (hvalue : ∀ a, Oblivious sound forget (onValue a))
    (herror : ∀ e, Oblivious sound forget (onError e)) :
    Oblivious sound forget (tryThen f onValue onError) := by
  have hsplit : VersionedProperties.tryThen f onValue onError = fun s =>
      (match (f s).1 with | .ok a => onValue a | .error e => onError e) (f s).2 := by
    funext s
    rw [VersionedProperties.tryThen]
    rcases f s with ⟨_ | _, t⟩ <;> rfl
  have hhanded : ∀ outcome : Except ε α, Oblivious sound forget
      (match outcome with | .ok a => onValue a | .error e => onError e) := by
    intro outcome
    cases outcome with
    | ok a => exact hvalue a
    | error e => exact herror e
  rw [hsplit]
  exact hf.andThen hhanded

end Oblivious

end VersionedProperties
