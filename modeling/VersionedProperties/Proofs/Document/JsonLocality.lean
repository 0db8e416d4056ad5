import VersionedProperties.Proofs.Document.JsonReading

/-!
# Readers of JSON values

The readers of values, members and elements take a beginning of the text and look at most at the
next code point. From that it follows that the bound on the number of steps never runs out, so any
two bounds that are large enough give the same result, and that a text in which too many containers
are opened inside of one another opens so many.

`ItemForm` and `ValueForm` say what may stand where an item or a value is read, and what becomes of
it whatever stands behind. Each property of the readers is first shown to pass from the parts of a
reader to the whole, and then holds of all of them by induction on the number of steps.
-/

namespace VersionedProperties.Json

section Locality

/-- A reader that succeeds takes a beginning of the text, and does so whatever else follows it. -/
def IsLocal (f : Reader) : Prop :=
  ∀ ⦃t v rest⦄, f t = .ok (v, rest) → ∃ w, w ≠ [] ∧ t = w ++ rest ∧
    ∀ rest', Alike rest rest' → f (w ++ rest') = .ok (v, rest')

variable {f : Reader} {more : Value → Reader} {k : Container} {finish : Value → Value}

/-- What may stand where a reader reads an item of a container. -/
inductive ItemForm (f : Reader) (k : Container) : Text → Prop
  /-- An item that cannot be read. -/
  | failed {t : Text} {e : ReadError} (h : f t = .error e) : ItemForm f k t
  /-- The last item. -/
  | last (v : Value) (w u : Text) (hw : w ≠ [])
      (h : ∀ finish more u', afterItem k finish more (f (w ++ u')) = .ok (finish v, u')) :
      ItemForm f k (w ++ u)
  /-- An item and then a further one. -/
  | more (v : Value) (w u : Text) (hw : 2 ≤ w.length) (hu : Clean u)
      (h : ∀ finish more u', Clean u' → afterItem k finish more (f (w ++ u')) = more v u') :
      ItemForm f k (w ++ u)
  /-- An item with neither mark behind it. -/
  | unmarked {t : Text} (place : Text)
      (h : ∀ finish more,
        afterItem k finish more (f t) = .error (.malformed .expectingComma place)) :
      ItemForm f k t

theorem itemForm (hf : IsLocal f) (k : Container) (t : Text) : ItemForm f k t := by
  cases hread : f t with
  | error e => exact .failed hread
  | ok r =>
      obtain ⟨v, rest⟩ := r
      obtain ⟨w, hw, rfl, hlocal⟩ := hf hread
      rcases afterItem_cases k rest with
        ⟨mark, u, hmark, rfl, hclosing⟩ | ⟨mark, u, hmark, rfl, hu, hcomma⟩ | ⟨place, hfault⟩
      · rw [← List.append_assoc]
        refine .last v _ u (by simp [hw]) fun finish more u' => ?_
        rw [List.append_assoc, hlocal _ (hmark.alike u u')]
        exact hclosing finish more v u'
      · have hlength : 2 ≤ (w ++ mark).length := by
          have := List.length_pos_of_ne_nil hw
          have := List.length_pos_of_ne_nil hmark.ne_nil
          rw [List.length_append]
          omega
        rw [← List.append_assoc]
        refine .more v _ u hlength hu fun finish more u' hu' => ?_
        rw [List.append_assoc, hlocal _ (hmark.alike u u')]
        exact hcomma finish more v u' hu'
      · refine .unmarked place fun finish more => ?_
        rw [hread]
        exact hfault finish more v

theorem Clean.append_congr {s t w : Text} (h : Clean (w ++ s)) (ht : Clean t) : Clean (w ++ t) := by
  cases w with
  | nil => exact ht
  | cons c w => exact h

theorem Clean.append_of_ne_nil {s t w : Text} (h : Clean (w ++ s)) (hw : w ≠ []) :
    Clean (w ++ t) := by
  obtain ⟨c, w, rfl⟩ := List.exists_cons_of_ne_nil hw
  exact h

theorem IsLocal.afterItem (hf : IsLocal f) (hmore : ∀ v, IsLocal (more v)) :
    IsLocal fun t => afterItem k finish more (f t) := by
  intro t v rest h
  dsimp only at h ⊢
  cases itemForm hf k t with
  | failed hread =>
      rw [hread] at h
      cases h
  | last item w u hw hlast =>
      rw [hlast] at h
      obtain ⟨rfl, rfl⟩ := Prod.mk.inj (Except.ok.inj h)
      exact ⟨w, hw, rfl, fun rest' _ => hlast finish more rest'⟩
  | more item w u hw hu hnext =>
      rw [hnext _ _ _ hu] at h
      obtain ⟨w', hw', rfl, hlocal⟩ := hmore item h
      refine ⟨w ++ w', by simp [hw'], (List.append_assoc w w' rest).symm, fun rest' hrest' => ?_⟩
      rw [List.append_assoc, hnext _ _ _ (hu.append_of_ne_nil hw')]
      exact hlocal rest' hrest'
  | unmarked place hfault =>
      rw [hfault] at h
      cases h

theorem IsLocal.afterName {f : Text → Reader} (hf : ∀ name, IsLocal (f name)) :
    IsLocal (afterName f) := by
  intro t v rest h
  unfold Json.afterName at h
  split at h
  case h_1 => cases h
  case h_2 name u hname =>
    obtain ⟨hu, w, hw, rfl, hlocal⟩ := readName_append hname
    obtain ⟨w', hw', rfl, hlocal'⟩ := hf name h
    refine ⟨w ++ w', by simp [hw], (List.append_assoc w w' rest).symm, fun rest' hrest' => ?_⟩
    rw [List.append_assoc, Json.afterName, hlocal _ (hu.append_of_ne_nil hw')]
    exact hlocal' rest' hrest'

/-- What may stand where a value is read and so many more levels of nesting may be opened. -/
inductive ValueForm : (room : Nat) → Text → Prop
  | scalar {room : Nat} {t : Text} (h : ∀ k, t.head? ≠ some (opening k)) : ValueForm room t
  | tooNested (k : Container) (rest : Text) : ValueForm 0 (opening k :: rest)
  | empty {room : Nat} (k : Container) (w u : Text)
      (h : ∀ u' steps,
        readValue (steps + 1) (room + 1) (opening k :: (w ++ u')) = .ok (emptyValue k, u')) :
      ValueForm (room + 1) (opening k :: (w ++ u))
  | items {room : Nat} (k : Container) (gap u : Text) (hu : Clean u)
      (hmore : u.head? ≠ some (closing k))
      (h : ∀ u', Clean u' → u'.head? ≠ some (closing k) → ∀ steps,
        readValue (steps + 1) (room + 1) (opening k :: (gap ++ u')) = readItems k steps room u') :
      ValueForm (room + 1) (opening k :: (gap ++ u))

theorem valueForm (room : Nat) (t : Text) : ValueForm room t := by
  by_cases hscalar : ∀ k, t.head? ≠ some (opening k)
  · exact .scalar hscalar
  rw [not_forall] at hscalar
  obtain ⟨k, hk⟩ := hscalar
  obtain ⟨rest, rfl⟩ := List.head?_eq_some_iff.1 (not_not.1 hk)
  cases room with
  | zero => exact .tooNested k rest
  | succ room =>
      obtain ⟨gap, hgap, hrest⟩ := exists_gap rest
      by_cases hclosing : (skipBlanks rest).head? = some (closing k)
      · obtain ⟨u, hu⟩ := List.head?_eq_some_iff.1 hclosing
        have hblank : isBlank (closing k) = false := by cases k <;> rfl
        have hsplit : rest = gap ++ [closing k] ++ u := by
          rw [List.append_assoc, List.singleton_append, ← hu, ← hrest]
        rw [hsplit]
        refine .empty k _ u fun u' steps => readValue_closing ?_ steps room
        rw [List.append_assoc, List.singleton_append, skipBlanks_append hgap,
          skipBlanks_cons hblank]
      · rw [hrest]
        exact .items k gap _ (clean_skipBlanks rest) hclosing fun u' hu' hmore steps =>
          readValue_opening (skipBlanks_append_clean hgap hu') hmore steps room

theorem isLocal_readValue_succ {steps : Nat}
    (hitems : ∀ k room, IsLocal (readItems k steps room)) (room : Nat) :
    IsLocal (readValue (steps + 1) room) := by
  intro t v rest h
  cases valueForm room t with
  | scalar hscalar =>
      rw [readValue_of_scalar hscalar] at h
      obtain ⟨w, hw, rfl, hlocal⟩ := readScalar_append h
      obtain ⟨c, w, rfl⟩ := List.exists_cons_of_ne_nil hw
      refine ⟨c :: w, hw, rfl, fun rest' hrest' => ?_⟩
      have hscalar' : ∀ k, (c :: w ++ rest').head? ≠ some (opening k) := hscalar
      rw [readValue_of_scalar hscalar', hlocal rest' hrest']
  | tooNested k r =>
      rw [readValue_tooNested] at h
      cases h
  | empty k w u hempty =>
      rw [hempty] at h
      obtain ⟨rfl, rfl⟩ := Prod.mk.inj (Except.ok.inj h)
      exact ⟨opening k :: w, List.cons_ne_nil _ _, rfl, fun rest' _ => hempty rest' steps⟩
  | items k gap u hu hmore hitem =>
      rw [hitem _ hu hmore] at h
      obtain ⟨w, hw, rfl, hlocal⟩ := hitems _ _ h
      obtain ⟨c, w, rfl⟩ := List.exists_cons_of_ne_nil hw
      refine ⟨opening k :: (gap ++ c :: w), List.cons_ne_nil _ _, ?_, fun rest' hrest' => ?_⟩
      · simp only [List.cons_append, List.append_assoc]
      · rw [List.cons_append, List.append_assoc, hitem (c :: w ++ rest') hu hmore]
        exact hlocal rest' hrest'

theorem isLocal_read (steps : Nat) : (∀ room, IsLocal (readValue steps room)) ∧
    (∀ room members, IsLocal (readMembers steps room members)) ∧
    ∀ room elements, IsLocal (readElements steps room elements) := by
  induction steps with
  | zero =>
      refine ⟨fun room t v rest h => ?_, fun room members t v rest h => ?_,
        fun room elements t v rest h => ?_⟩
      · rw [readValue] at h
        cases h
      · rw [readMembers] at h
        cases h
      · rw [readElements] at h
        cases h
  | succ steps ih =>
      obtain ⟨hvalue, hmembers, helements⟩ := ih
      refine ⟨isLocal_readValue_succ fun k room => ?_, fun room members => ?_,
        fun room elements => ?_⟩
      · cases k with
        | array => exact helements room []
        | object => exact hmembers room []
      · rw [funext (readMembers_succ steps room members)]
        exact .afterName fun name => (hvalue room).afterItem fun v => hmembers room _
      · rw [funext (readElements_succ steps room elements)]
        exact (hvalue room).afterItem fun v => helements room _

theorem isLocal_readValue (steps room : Nat) : IsLocal (readValue steps room) :=
  (isLocal_read steps).1 room

end Locality

section Steps

variable {f g : Reader} {more more' : Value → Reader} {k : Container} {finish : Value → Value}

/-- The reader of what follows an item matters only behind the item and its mark. -/
theorem afterItem_congr (hf : IsLocal f) {t : Text} (hread : f t = g t)
    (hmore : ∀ v u, u.length + 2 ≤ t.length → more v u = more' v u) :
    afterItem k finish more (f t) = afterItem k finish more' (g t) := by
  rw [← hread]
  cases itemForm hf k t with
  | failed hfailed =>
      rw [hfailed]
      rfl
  | last v w u hw hlast => rw [hlast, hlast]
  | more v w u hw hu hnext =>
      rw [hnext _ _ _ hu, hnext _ _ _ hu]
      refine hmore v u ?_
      rw [List.length_append]
      omega
  | unmarked place hfault => rw [hfault, hfault]

theorem afterName_congr {f g : Text → Reader} {t : Text}
    (h : ∀ name u, u.length < t.length → f name u = g name u) :
    afterName f t = afterName g t := by
  unfold afterName
  split
  case h_1 => rfl
  case h_2 name u hname =>
    obtain ⟨-, w, hw, rfl, -⟩ := readName_append hname
    refine h name u ?_
    rw [List.length_append]
    exact Nat.lt_add_of_pos_left (List.length_pos_of_ne_nil hw)

/-- Between two steps that read a value at least one code point is taken, so the length of the text
bounds what the readers need. -/
theorem read_steps (steps : Nat) : ∀ steps' t, (2 * t.length + 1 ≤ steps →
      2 * t.length + 1 ≤ steps' → ∀ room, readValue steps room t = readValue steps' room t) ∧
    (2 * t.length + 2 ≤ steps → 2 * t.length + 2 ≤ steps' → ∀ room members,
      readMembers steps room members t = readMembers steps' room members t) ∧
    (2 * t.length + 2 ≤ steps → 2 * t.length + 2 ≤ steps' → ∀ room elements,
      readElements steps room elements t = readElements steps' room elements t) := by
  induction steps with
  | zero => exact fun steps' t => ⟨fun h => by omega, fun h => by omega, fun h => by omega⟩
  | succ steps ih =>
      intro steps' t
      refine ⟨fun h h' room => ?_, fun h h' room members => ?_, fun h h' room elements => ?_⟩ <;>
        obtain ⟨steps', rfl⟩ : ∃ n, steps' = n + 1 := ⟨steps' - 1, by omega⟩
      · cases valueForm room t with
        | scalar hscalar => rw [readValue_of_scalar hscalar, readValue_of_scalar hscalar]
        | tooNested k rest => rw [readValue_tooNested, readValue_tooNested]
        | empty k w u hempty => rw [hempty, hempty]
        | items k gap u hu hmore hitem =>
            simp only [List.length_cons, List.length_append] at h h'
            rw [hitem u hu hmore, hitem u hu hmore]
            cases k with
            | array => exact (ih steps' u).2.2 (by omega) (by omega) _ []
            | object => exact (ih steps' u).2.1 (by omega) (by omega) _ []
      · rw [readMembers_succ, readMembers_succ]
        refine afterName_congr fun name u hlength => ?_
        refine afterItem_congr (isLocal_readValue steps room)
          ((ih steps' u).1 (by omega) (by omega) room) fun v u' hlength' => ?_
        exact (ih steps' u').2.1 (by omega) (by omega) room _
      · rw [readElements_succ, readElements_succ]
        refine afterItem_congr (isLocal_readValue steps room)
          ((ih steps' t).1 (by omega) (by omega) room) fun v u' hlength' => ?_
        exact (ih steps' u').2.2 (by omega) (by omega) room _

/-- Any two bounds on the number of steps that are large enough give the same result. -/
theorem readValue_steps {steps : Nat} (steps' room : Nat) {t : Text}
    (h : 2 * t.length + 1 ≤ steps) (h' : 2 * t.length + 1 ≤ steps') :
    readValue steps room t = readValue steps' room t :=
  (read_steps steps steps' t).1 h h' room

end Steps

section Nesting

variable {f : Reader}

/-- How many arrays and objects a text may open. -/
def openings (t : Text) : Nat := t.countP fun c => c = opening .array ∨ c = opening .object

theorem openings_append (s t : Text) : openings (s ++ t) = openings s + openings t :=
  List.countP_append

theorem openings_opening (k : Container) (t : Text) :
    openings (opening k :: t) = openings t + 1 := by
  refine List.countP_cons_of_pos (decide_eq_true ?_)
  cases k
  · exact .inl rfl
  · exact .inr rfl

/-- A reader opens too many containers only in a text that opens so many. -/
def NestsWithin (room : Nat) (f : Reader) : Prop :=
  ∀ ⦃t c⦄, f t = .error (.tooNested c) → room < openings t

theorem NestsWithin.afterItem {room : Nat} {more : Value → Reader} {k : Container}
    {finish : Value → Value} (hlocal : IsLocal f) (hf : NestsWithin room f)
    (hmore : ∀ v, NestsWithin room (more v)) :
    NestsWithin room fun t => afterItem k finish more (f t) := by
  intro t c h
  dsimp only at h
  cases itemForm hlocal k t with
  | failed hread =>
      rw [hread] at h
      obtain rfl := Except.error.inj h
      exact hf hread
  | last v w u hw hlast =>
      rw [hlast] at h
      cases h
  | more v w u hw hu hnext =>
      rw [hnext _ _ _ hu] at h
      have hnested := hmore v h
      rw [openings_append]
      omega
  | unmarked place hfault =>
      rw [hfault] at h
      cases h

theorem NestsWithin.afterName {room : Nat} {f : Text → Reader}
    (hf : ∀ name, NestsWithin room (f name)) : NestsWithin room (afterName f) := by
  intro t c h
  unfold Json.afterName at h
  split at h
  case h_1 e hname =>
    obtain ⟨fault, place, -, rfl⟩ := readName_error hname
    cases h
  case h_2 name u hname =>
    obtain ⟨-, w, -, rfl, -⟩ := readName_append hname
    have hnested := hf name h
    rw [openings_append]
    omega

theorem nestsWithin_readValue_succ {steps : Nat}
    (hitems : ∀ k room, NestsWithin room (readItems k steps room)) (room : Nat) :
    NestsWithin room (readValue (steps + 1) room) := by
  intro t c h
  cases valueForm room t with
  | scalar hscalar =>
      rw [readValue_of_scalar hscalar] at h
      rcases readScalar_error h with ⟨fault, place, heq, -⟩ | ⟨⟨n, heq⟩, -⟩ <;> cases heq
  | tooNested k rest =>
      rw [openings_opening]
      exact Nat.succ_pos _
  | empty k w u hempty =>
      rw [hempty] at h
      cases h
  | items k gap u hu hmore hitem =>
      rw [hitem u hu hmore] at h
      have hnested := hitems k _ h
      rw [openings_opening, openings_append]
      omega

theorem nestsWithin_read (steps : Nat) : (∀ room, NestsWithin room (readValue steps room)) ∧
    (∀ room members, NestsWithin room (readMembers steps room members)) ∧
    ∀ room elements, NestsWithin room (readElements steps room elements) := by
  induction steps with
  | zero =>
      refine ⟨fun room t c h => ?_, fun room members t c h => ?_, fun room elements t c h => ?_⟩
      · rw [readValue] at h
        cases h
      · rw [readMembers] at h
        cases h
      · rw [readElements] at h
        cases h
  | succ steps ih =>
      obtain ⟨hvalue, hmembers, helements⟩ := ih
      refine ⟨nestsWithin_readValue_succ fun k room => ?_, fun room members => ?_,
        fun room elements => ?_⟩
      · cases k with
        | array => exact helements room []
        | object => exact hmembers room []
      · rw [funext (readMembers_succ steps room members)]
        exact .afterName fun name => .afterItem (isLocal_readValue steps room) (hvalue room)
          fun v => hmembers room _
      · rw [funext (readElements_succ steps room elements)]
        exact .afterItem (isLocal_readValue steps room) (hvalue room) fun v => helements room _

end Nesting

end VersionedProperties.Json
