import Mathlib.Data.List.Pairwise
import VersionedProperties.Proofs.Reference.Template

/-!
# The grammar of references

`IsFallback` is the language of fallbacks and `Placeholder.IsWellFormed` says what a reference is.
`Decomposes` reads a text from the left: two markers in a row, else a reference if one begins there,
else a single code point. Cutting a text into pieces follows these rules, and there is no other way
to follow them.

The reader of a fallback counts the inner references that are open. `IsOpenFallback` is the language
that it reads with a given count: as many fallbacks as are open, each with the brace that closes it,
and the outer one.
-/

namespace VersionedProperties

/-- The fallbacks that a reference can be written with. A marker stands for itself only where it
begins neither a pair of markers nor a reference, and every brace opened is closed. -/
inductive IsFallback : Text → Prop
  | nil : IsFallback []
  | doubled {t : Text} (rest : IsFallback t) : IsFallback (.marker :: .marker :: t)
  | braced {inner t : Text} (opened : IsFallback inner) (rest : IsFallback t) :
      IsFallback (.marker :: .opening :: (inner ++ .closing :: t))
  | plain {c : CodePoint} {t : Text} (hclosing : c ≠ .closing)
      (hmarker : c = .marker → t.head? ≠ some .marker ∧ t.head? ≠ some .opening)
      (rest : IsFallback t) : IsFallback (c :: t)

/-- A reference with a name that is not blank and holds nothing special, and with a fallback of the
language if it has one. -/
structure Placeholder.IsWellFormed (p : Placeholder) : Prop where
  isFree : ∀ c ∈ p.rawName, c ≠ .marker ∧ c ≠ .closing ∧ c ≠ .colon
  name_ne_nil : p.name ≠ []
  isFallback : ∀ fallback, p.fallback = some fallback → IsFallback fallback

/-- A text begins with a piece, and the rest follows. -/
inductive BeginsWith : Text → Piece → Text → Prop
  | doubled (t : Text) : BeginsWith (.marker :: .marker :: t) .doubled t
  | reference {p : Placeholder} (hp : p.IsWellFormed) (t : Text) :
      BeginsWith (p.written ++ t) (.reference p) t
  | literal {c : CodePoint} {t : Text} (hdoubled : ∀ t', c :: t ≠ .marker :: .marker :: t')
      (hreference : ∀ (p : Placeholder) t', p.IsWellFormed → c :: t ≠ p.written ++ t') :
      BeginsWith (c :: t) (.literal c) t

/-- A text read from the left as pieces. -/
inductive Decomposes : Text → List Piece → Prop
  | nil : Decomposes [] []
  | cons {t rest : Text} {piece : Piece} {ps : List Piece} (first : BeginsWith t piece rest)
      (more : Decomposes rest ps) : Decomposes t (piece :: ps)

/-! Names -/

theorem forall_mem_of_scanName {t name rest : Text} {more : Bool}
    (h : scanName t = some (name, more, rest)) :
    ∀ c ∈ name, c ≠ .marker ∧ c ≠ .closing ∧ c ≠ .colon := by
  induction t generalizing name with
  | nil => cases h
  | cons c t ih =>
      rw [scanName] at h
      split at h
      · cases h
      split at h
      · cases h
        exact List.forall_mem_nil _
      split at h
      · cases h
        exact List.forall_mem_nil _
      · obtain ⟨⟨name', more', rest'⟩, ht, heq⟩ := Option.map_eq_some_iff.1 h
        cases heq
        exact List.forall_mem_cons.2 ⟨⟨‹_›, ‹_›, ‹_›⟩, ih ht⟩

/-- A name ends at the first closing brace or colon, if there is no marker before. -/
theorem scanName_eq_some_iff {t name rest : Text} {more : Bool} :
    scanName t = some (name, more, rest) ↔
      (∀ c ∈ name, c ≠ .marker ∧ c ≠ .closing ∧ c ≠ .colon) ∧
        t = name ++ (if more then .colon else .closing) :: rest := by
  constructor
  · intro h
    exact ⟨forall_mem_of_scanName h, eq_of_scanName h⟩
  · rintro ⟨hfree, rfl⟩
    have hclosing : CodePoint.closing ≠ .marker := by decide
    have hcolon : CodePoint.colon ≠ .marker ∧ CodePoint.colon ≠ .closing := by decide
    rw [scanName_append hfree]
    cases more <;> simp [scanName, hclosing, hcolon]

/-! Fallbacks -/

/-- A fallback within which a number of inner references are open. -/
def IsOpenFallback : (depth : Nat) → Text → Prop
  | 0, t => IsFallback t
  | depth + 1, t =>
    ∃ inner rest, t = inner ++ .closing :: rest ∧ IsFallback inner ∧ IsOpenFallback depth rest

/-- What is open begins with a fallback, and any other one may stand in its place. -/
theorem IsOpenFallback.split {depth : Nat} {t : Text} (h : IsOpenFallback depth t) :
    ∃ first more, t = first ++ more ∧ IsFallback first ∧
      ∀ first', IsFallback first' → IsOpenFallback depth (first' ++ more) := by
  cases depth with
  | zero => exact ⟨t, [], (List.append_nil t).symm, h, fun first' h' => by rwa [List.append_nil]⟩
  | succ depth =>
      obtain ⟨inner, rest, rfl, hinner, hrest⟩ := h
      exact ⟨inner, .closing :: rest, rfl, hinner, fun first' h' => ⟨first', rest, rfl, h', hrest⟩⟩

theorem IsOpenFallback.doubled {depth : Nat} {t : Text} (h : IsOpenFallback depth t) :
    IsOpenFallback depth (.marker :: .marker :: t) := by
  obtain ⟨first, more, rfl, hfirst, hall⟩ := h.split
  exact hall _ hfirst.doubled

theorem IsOpenFallback.braced {depth : Nat} {t : Text} (h : IsOpenFallback (depth + 1) t) :
    IsOpenFallback depth (.marker :: .opening :: t) := by
  obtain ⟨inner, rest, rfl, hinner, hrest⟩ := h
  obtain ⟨first, more, rfl, hfirst, hall⟩ := hrest.split
  simpa using hall _ (hinner.braced hfirst)

theorem IsOpenFallback.plain {depth : Nat} {c : CodePoint} {t : Text} (hclosing : c ≠ .closing)
    (hmarker : c = .marker → t.head? ≠ some .marker ∧ t.head? ≠ some .opening)
    (h : IsOpenFallback depth t) : IsOpenFallback depth (c :: t) := by
  obtain ⟨first, more, rfl, hfirst, hall⟩ := h.split
  apply hall (c :: first)
  apply IsFallback.plain hclosing _ hfirst
  intro hc
  cases first with
  | nil => exact ⟨nofun, nofun⟩
  | cons d first => exact hmarker hc

theorem isOpenFallback_of_scanFallback {depth : Nat} {t fallback rest : Text}
    (h : scanFallback depth t = some (fallback, rest)) : IsOpenFallback depth fallback := by
  fun_induction scanFallback depth t generalizing fallback with
  | case1 => cases h
  | case2 depth c hc =>
      cases h
      rw [hc.2]
      exact .nil
  | case3 => cases h
  | case4 depth c d t hc ih =>
      obtain ⟨⟨f, r⟩, ht, heq⟩ := Option.map_eq_some_iff.1 h
      cases heq
      rw [hc.1, hc.2]
      exact (ih ht).doubled
  | case5 depth c d t _ hc ih =>
      obtain ⟨⟨f, r⟩, ht, heq⟩ := Option.map_eq_some_iff.1 h
      cases heq
      rw [hc.1, hc.2]
      exact (ih ht).braced
  | case6 depth c d t _ _ hc =>
      cases h
      rw [hc.2]
      exact .nil
  | case7 depth c d t hdoubled hopening hend ih =>
      obtain ⟨⟨f, r⟩, ht, heq⟩ := Option.map_eq_some_iff.1 h
      cases heq
      have hopen := ih ht
      by_cases hc : c = .closing
      · rw [if_pos hc] at hopen
        cases depth with
        | zero => exact absurd ⟨hc, rfl⟩ hend
        | succ depth => exact ⟨[], f, by rw [hc]; rfl, .nil, hopen⟩
      · rw [if_neg hc] at hopen
        apply hopen.plain hc
        rintro rfl
        -- What comes after the marker is the first code point of what is still to be read.
        have hnext : f.head? = none ∨ f.head? = some d := by
          have hread := eq_of_scanFallback ht
          cases f with
          | nil => exact .inl rfl
          | cons d' f => exact .inr (congrArg some (List.cons.inj hread).1.symm)
        rcases hnext with hnone | hsome
        · rw [hnone]
          exact ⟨(Option.some_ne_none _).symm, (Option.some_ne_none _).symm⟩
        · rw [hsome]
          exact ⟨fun heq => hdoubled ⟨rfl, Option.some.inj heq⟩,
            fun heq => hopening ⟨rfl, Option.some.inj heq⟩⟩

theorem scanFallback_marker (depth : Nat) {d : CodePoint} (hmarker : d ≠ .marker)
    (hopening : d ≠ .opening) (t : Text) :
    scanFallback depth (.marker :: d :: t) =
      (scanFallback depth (d :: t)).map fun (f, rest) => (.marker :: f, rest) := by
  have hne : CodePoint.marker ≠ .closing := by decide
  simp [scanFallback, hmarker, hopening, hne]

/-- A fallback of the language is read to its end, whatever is open around it. -/
theorem IsFallback.scanFallback_append {fallback : Text} (h : IsFallback fallback) (depth : Nat)
    (t : Text) :
    scanFallback depth (fallback ++ .closing :: t) =
      (scanFallback depth (.closing :: t)).map fun (f, rest) => (fallback ++ f, rest) := by
  induction h generalizing depth t with
  | nil => simp
  | @doubled fallback rest ih =>
      rw [List.cons_append, List.cons_append, scanFallback_doubled, ih, Option.map_map]
      rfl
  | @braced inner fallback opened rest ihInner ih =>
      have hsplit : .marker :: .opening :: (inner ++ .closing :: fallback) ++ .closing :: t =
          .marker :: .opening :: (inner ++ .closing :: (fallback ++ .closing :: t)) := by simp
      rw [hsplit, scanFallback_opening, ihInner, scanFallback_closing, ih, Option.map_map,
        Option.map_map, Option.map_map]
      simp [Function.comp_def]
  | @plain c fallback hclosing hmarker rest ih =>
      have hread : scanFallback depth (c :: (fallback ++ .closing :: t)) =
          (scanFallback depth (fallback ++ .closing :: t)).map fun (f, rest) => (c :: f, rest) := by
        by_cases hc : c = .marker
        · subst hc
          cases fallback with
          | nil => exact scanFallback_marker depth (by decide) (by decide) t
          | cons d fallback =>
              have hd := hmarker rfl
              exact scanFallback_marker depth (fun heq => hd.1 (by rw [heq]; rfl))
                (fun heq => hd.2 (by rw [heq]; rfl)) _
        · exact scanFallback_plain depth _ hc hclosing
      rw [List.cons_append, hread, ih, Option.map_map]
      rfl

/-- The reader of fallbacks accepts just the language, up to the brace that ends it. -/
theorem scanFallback_eq_some_iff {t fallback rest : Text} :
    scanFallback 0 t = some (fallback, rest) ↔
      IsFallback fallback ∧ t = fallback ++ .closing :: rest := by
  constructor
  · intro h
    exact ⟨isOpenFallback_of_scanFallback h, eq_of_scanFallback h⟩
  · rintro ⟨hfallback, rfl⟩
    rw [hfallback.scanFallback_append, scanFallback_end]
    simp

/-! References and pieces -/

theorem isWellFormed_of_scanPlaceholder {t rest : Text} {p : Placeholder}
    (h : scanPlaceholder t = some (p, rest)) : p.IsWellFormed := by
  rw [scanPlaceholder] at h
  split at h
  · cases h
  · rename_i rawName more after hname
    have hfree := forall_mem_of_scanName hname
    split at h
    · cases h
    · rename_i hblank
      split at h
      · obtain ⟨⟨f, r⟩, hf, heq⟩ := Option.map_eq_some_iff.1 h
        cases heq
        refine ⟨hfree, hblank, ?_⟩
        rintro fallback ⟨⟩
        exact (scanFallback_eq_some_iff.1 hf).1
      · cases h
        refine ⟨hfree, hblank, ?_⟩
        rintro fallback ⟨⟩

theorem Placeholder.IsWellFormed.scanPlaceholder_body {p : Placeholder} (hp : p.IsWellFormed)
    (rest : Text) : scanPlaceholder (p.body ++ rest) = some (p, rest) := by
  obtain ⟨rawName, fallback⟩ := p
  obtain ⟨hfree, hblank, hfallback⟩ := hp
  change Text.trim rawName ≠ [] at hblank
  cases fallback with
  | none =>
      have hname : scanName (Placeholder.body ⟨rawName, none⟩ ++ rest) =
          some (rawName, false, rest) :=
        scanName_eq_some_iff.2 ⟨hfree, by simp [Placeholder.body]⟩
      rw [scanPlaceholder, hname]
      simp [hblank]
  | some fallback =>
      have hname : scanName (Placeholder.body ⟨rawName, some fallback⟩ ++ rest) =
          some (rawName, true, fallback ++ .closing :: rest) :=
        scanName_eq_some_iff.2 ⟨hfree, by simp [Placeholder.body]⟩
      have hread : scanFallback 0 (fallback ++ .closing :: rest) = some (fallback, rest) :=
        scanFallback_eq_some_iff.2 ⟨hfallback fallback rfl, rfl⟩
      rw [scanPlaceholder, hname]
      simp [hblank, hread]

theorem scanPlaceholder_eq_some_iff {t rest : Text} {p : Placeholder} :
    scanPlaceholder t = some (p, rest) ↔ p.IsWellFormed ∧ t = p.body ++ rest := by
  constructor
  · intro h
    exact ⟨isWellFormed_of_scanPlaceholder h, eq_of_scanPlaceholder h⟩
  · rintro ⟨hp, rfl⟩
    exact hp.scanPlaceholder_body rest

/-- A single code point is what remains if neither two markers nor a reference begin a text. -/
theorem BeginsWith.split? {t rest : Text} {piece : Piece} (h : BeginsWith t piece rest) :
    VersionedProperties.split? t = some (piece, rest) := by
  cases h with
  | doubled => exact split?_doubled rest
  | reference hp => exact split?_written (hp.scanPlaceholder_body rest)
  | @literal c _ hdoubled hreference =>
      cases rest with
      | nil => rfl
      | cons d rest =>
          rw [VersionedProperties.split?]
          split
          · rename_i hm
            exact absurd (by rw [hm.1, hm.2]) (hdoubled rest)
          split
          · rename_i hm
            split
            · rename_i p after hscan
              obtain ⟨hp, rfl⟩ := scanPlaceholder_eq_some_iff.1 hscan
              exact absurd (by rw [hm.1, hm.2]; rfl) (hreference p after hp)
            · rfl
          · rfl

theorem beginsWith_of_split? {t rest : Text} {piece : Piece}
    (h : split? t = some (piece, rest)) : BeginsWith t piece rest := by
  have ht := eq_of_split? h
  cases piece with
  | doubled =>
      rw [ht]
      exact .doubled rest
  | reference p =>
      rw [ht]
      apply BeginsWith.reference _ rest
      have hne : CodePoint.opening ≠ .marker := by decide
      rw [ht, Piece.written, Placeholder.written, List.cons_append, List.cons_append, split?,
        if_neg (by simp [hne]), if_pos ⟨rfl, rfl⟩] at h
      split at h
      · rename_i q after hscan
        cases h
        exact isWellFormed_of_scanPlaceholder hscan
      · cases h
  | literal c =>
      rw [ht] at h ⊢
      -- Had the text another beginning, its first piece would be another one.
      apply BeginsWith.literal
      · intro t' heq
        rw [show Piece.written (.literal c) ++ rest = _ from heq, split?_doubled] at h
        cases h
      · intro p t' hp heq
        rw [show Piece.written (.literal c) ++ rest = _ from heq,
          (BeginsWith.reference hp t').split?] at h
        cases h

theorem split?_eq_some_iff {t rest : Text} {piece : Piece} :
    split? t = some (piece, rest) ↔ BeginsWith t piece rest :=
  ⟨beginsWith_of_split?, BeginsWith.split?⟩

theorem decomposes_iff {t : Text} {ps : List Piece} : Decomposes t ps ↔ ps = pieces t := by
  constructor
  · intro h
    induction h with
    | nil => exact pieces_nil.symm
    | cons first more ih => rw [pieces_of_split? (split?_eq_some_iff.2 first), ih]
  · rintro rfl
    fun_induction pieces t with
    | case1 t h =>
        rw [split?_eq_none_iff.1 h]
        exact .nil
    | case2 t piece rest h ih => exact .cons (split?_eq_some_iff.1 h) ih

/-! Positions -/

/-- The reference that is written behind pieces. -/
def Reference.behind (before : List Piece) (p : Placeholder) : Reference where
  start := (writtenPieces before).length
  stop := (writtenPieces before ++ p.written).length
  name := p.name
  fallback := p.fallback

theorem length_writtenPieces_concat (before : List Piece) (piece : Piece) :
    (writtenPieces (before ++ [piece])).length =
      (writtenPieces before).length + piece.written.length := by
  simp [writtenPieces]

theorem mem_locate_iff {done ps : List Piece} {r : Reference} :
    r ∈ locate (writtenPieces done).length ps ↔
      ∃ before p after, ps = before ++ .reference p :: after ∧
        r = Reference.behind (done ++ before) p := by
  induction ps generalizing done with
  | nil => simp [locate]
  | cons piece rest ih =>
      have hrest := @ih (done ++ [piece])
      rw [length_writtenPieces_concat] at hrest
      have hsplit : (∃ before p after, piece :: rest = before ++ .reference p :: after ∧
          r = Reference.behind (done ++ before) p) ↔
            (∃ p, piece = .reference p ∧ r = Reference.behind done p) ∨
            ∃ before p after, rest = before ++ .reference p :: after ∧
              r = Reference.behind (done ++ [piece] ++ before) p := by
        constructor
        · rintro ⟨before, p, after, heq, rfl⟩
          rcases List.cons_eq_append_iff.1 heq with ⟨rfl, h⟩ | ⟨before, rfl, rfl⟩
          · exact .inl ⟨p, (List.cons.inj h).1.symm, by rw [List.append_nil]⟩
          · exact .inr ⟨before, p, after, rfl, by rw [List.append_assoc]; rfl⟩
        · rintro (⟨p, rfl, rfl⟩ | ⟨before, p, after, rfl, rfl⟩)
          · exact ⟨[], p, rest, rfl, by rw [List.append_nil]⟩
          · exact ⟨piece :: before, p, after, rfl, by rw [List.append_assoc]; rfl⟩
      rw [hsplit, ← hrest]
      cases piece with
      | literal c => simp [locate]
      | doubled => simp [locate]
      | reference q =>
          rw [locate, List.mem_cons]
          simp [Reference.behind, Piece.written]

theorem start_le_of_mem_locate {position : Nat} {ps : List Piece} {r : Reference}
    (h : r ∈ locate position ps) : position ≤ r.start := by
  induction ps generalizing position with
  | nil => cases h
  | cons piece rest ih =>
      cases piece with
      | literal c => exact Nat.le_of_add_right_le (ih h)
      | doubled => exact Nat.le_of_add_right_le (ih h)
      | reference p =>
          rcases List.mem_cons.1 h with rfl | hrest
          · exact Nat.le_refl position
          · exact Nat.le_of_add_right_le (ih hrest)

/-- References come one behind the other. -/
theorem pairwise_locate (position : Nat) (ps : List Piece) :
    (locate position ps).Pairwise fun r s => r.stop ≤ s.start := by
  induction ps generalizing position with
  | nil => exact .nil
  | cons piece rest ih =>
      cases piece with
      | literal c => exact ih _
      | doubled => exact ih _
      | reference p => exact .cons (fun s hs => start_le_of_mem_locate hs) (ih _)

theorem mem_references_iff {raw : Text} {r : Reference} :
    r ∈ references raw ↔ ∃ before p after, pieces raw = before ++ .reference p :: after ∧
      r = Reference.behind before p :=
  @mem_locate_iff [] (pieces raw) r

theorem start_lt_stop_of_mem_references {raw : Text} {r : Reference} (h : r ∈ references raw) :
    r.start < r.stop := by
  obtain ⟨before, p, after, _, rfl⟩ := mem_references_iff.1 h
  have := (Piece.reference p).written_length_pos
  simp only [Reference.behind, List.length_append]
  exact Nat.lt_add_of_pos_right this

theorem stop_le_of_mem_references {raw : Text} {r : Reference} (h : r ∈ references raw) :
    r.stop ≤ raw.length := by
  obtain ⟨before, p, after, hpieces, rfl⟩ := mem_references_iff.1 h
  have hwritten : writtenPieces before ++ p.written ++ writtenPieces after = raw := by
    rw [← writtenPieces_pieces raw, hpieces]
    simp [writtenPieces, Piece.written]
  rw [← hwritten, List.length_append]
  exact Nat.le_add_right _ _

theorem eq_of_start_eq {raw : Text} {r s : Reference} (hr : r ∈ references raw)
    (hs : s ∈ references raw) (hstart : r.start = s.start) : r = s := by
  have hdiffer : (references raw).Pairwise fun r s => r.start ≠ s.start := by
    apply (pairwise_locate 0 (pieces raw)).imp_of_mem
    intro r s hr _ hle
    have := start_lt_stop_of_mem_references hr
    omega
  have : Std.Symm fun r s : Reference => r.start ≠ s.start := ⟨fun _ _ => Ne.symm⟩
  exact Decidable.byContradiction fun hne => hdiffer.forall hr hs hne hstart

/-- The reference that begins at a position is found there, since no other one begins there. -/
theorem referenceAt_eq_some_iff {raw : Text} {position : Int} {r : Reference} :
    referenceAt raw position = some r ↔ r ∈ references raw ∧ (r.start : Int) = position := by
  unfold referenceAt
  constructor
  · intro h
    have hstart := List.find?_some h
    exact ⟨List.mem_of_find?_eq_some h, of_decide_eq_true hstart⟩
  · rintro ⟨hr, rfl⟩
    cases hfind : (references raw).find? fun s => (s.start : Int) = r.start with
    | none => exact absurd (decide_eq_true rfl) (List.find?_eq_none.1 hfind r hr)
    | some s =>
        have hstart := List.find?_some hfind
        rw [eq_of_start_eq (List.mem_of_find?_eq_some hfind) hr
          (Int.ofNat_inj.1 (of_decide_eq_true hstart))]

/-- A text has just one decomposition by the grammar, and its references are found as they stand
there: in order, without overlap, each where it is written, with its name and its fallback. The
reference at a position is the one that begins there. -/
theorem references_grammar (raw : Text) :
    ∃ ps, (∀ ps', Decomposes raw ps' ↔ ps' = ps) ∧ writtenPieces ps = raw ∧
      (∀ r, r ∈ references raw ↔ ∃ before p after, ps = before ++ .reference p :: after ∧
        r = Reference.behind before p) ∧
      (references raw).Pairwise (fun r s => r.stop ≤ s.start) ∧
      (∀ r ∈ references raw, r.start < r.stop ∧ r.stop ≤ raw.length) ∧
      ∀ (position : Int) (r : Reference), referenceAt raw position = some r ↔
        r ∈ references raw ∧ (r.start : Int) = position := by
  refine ⟨pieces raw, fun ps' => decomposes_iff, writtenPieces_pieces raw,
    fun r => mem_references_iff, pairwise_locate 0 (pieces raw), ?_,
    fun position r => referenceAt_eq_some_iff⟩
  intro r hr
  exact ⟨start_lt_stop_of_mem_references hr, stop_le_of_mem_references hr⟩

/-- A reference with blanks around its name and another one in its fallback. -/
def nestedReference : Placeholder := ⟨" x ", some "$\x7by:\x7d$"⟩

/-- A text where a doubled marker stands just before a reference and a marker just behind it. -/
def markersAround : Text := "$$$\x7b x :$\x7by:\x7d$\x7d$"

theorem references_grammar_markersAround :
    Decomposes markersAround [.doubled, .reference nestedReference, .literal .marker] ∧
      ⟨2, 15, "x", some "$\x7by:\x7d$"⟩ ∈ references markersAround ∧
      (2 < 15 ∧ 15 ≤ markersAround.length) ∧
      referenceAt markersAround 2 = some ⟨2, 15, "x", some "$\x7by:\x7d$"⟩ := by
  obtain ⟨ps, hunique, _, hmem, _, hbounds, hat⟩ := references_grammar markersAround
  have hpieces : [.doubled, .reference nestedReference, .literal .marker] =
      pieces markersAround := by cbv
  have hps : Decomposes markersAround [.doubled, .reference nestedReference, .literal .marker] :=
    decomposes_iff.2 hpieces
  have hfound : ⟨2, 15, "x", some "$\x7by:\x7d$"⟩ ∈ references markersAround :=
    (hmem _).2 ⟨[.doubled], nestedReference, [.literal .marker], ((hunique _).1 hps).symm,
      by decide⟩
  exact ⟨hps, hfound, hbounds _ hfound, (hat 2 _).2 ⟨hfound, rfl⟩⟩

end VersionedProperties
