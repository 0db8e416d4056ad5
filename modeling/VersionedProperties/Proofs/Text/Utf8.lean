import Mathlib.Data.List.TakeWhile
import VersionedProperties.Text.Utf8

/-!
# Reading bytes back

Each character is written as one sequence: a first byte that tells the length, a second byte that
may follow it, and continuation bytes. A sequence is read as the character that its bits make up,
and reading goes on behind it, so the bytes of a text are read as the text.
-/

namespace VersionedProperties.Utf8

theorem toNat_toUInt8 {n : Nat} (hn : n < 0x100) : n.toUInt8.toNat = n := by
  rw [Nat.toUInt8, UInt8.toNat_ofNat']
  exact Nat.mod_eq_of_lt hn

theorem isContinuation_iff {b : UInt8} :
    isContinuation b = true ↔ 0x80 ≤ b.toNat ∧ b.toNat < 0xC0 := by
  simp only [isContinuation, Bool.and_eq_true, decide_eq_true_eq, UInt8.le_iff_toNat_le,
    UInt8.lt_iff_toNat_lt, UInt8.reduceToNat]

theorem isSecond_iff {first b : UInt8} :
    isSecond first b = true ↔ isContinuation b = true ∧
      (first.toNat = 0xE0 → 0xA0 ≤ b.toNat) ∧ (first.toNat = 0xED → b.toNat < 0xA0) ∧
      (first.toNat = 0xF0 → 0x90 ≤ b.toNat) ∧ (first.toNat = 0xF4 → b.toNat < 0x90) := by
  simp only [isSecond, Bool.and_eq_true, Bool.not_eq_true', Bool.and_eq_false_imp, beq_iff_eq,
    decide_eq_false_iff_not, ← UInt8.toNat_inj, UInt8.le_iff_toNat_le, UInt8.lt_iff_toNat_lt,
    UInt8.reduceToNat, Nat.not_lt, Nat.not_le, and_assoc]

theorem sequenceLength?_eq (first : UInt8) :
    sequenceLength? first =
      if first.toNat < 0x80 then some 1
      else if first.toNat < 0xC2 then none
      else if first.toNat < 0xE0 then some 2
      else if first.toNat < 0xF0 then some 3
      else if first.toNat < 0xF5 then some 4
      else none := by
  simp only [sequenceLength?, UInt8.lt_iff_toNat_lt, UInt8.reduceToNat]

theorem assemble_eq (first : UInt8) (continuation : Bytes) :
    assemble first continuation =
      Char.ofNat (continuation.foldl (fun n b => n * 0x40 + b.toNat % 0x40)
        (if first.toNat < 0x80 then first.toNat
          else if first.toNat < 0xE0 then first.toNat % 0x20
          else if first.toNat < 0xF0 then first.toNat % 0x10
          else first.toNat % 0x08)) := by
  simp only [assemble, UInt8.lt_iff_toNat_lt, UInt8.reduceToNat]

/-- Bytes that are one sequence, and the character that it stands for. -/
structure Spells (first : UInt8) (continuation : Bytes) (c : Char) : Prop where
  length : sequenceLength? first = some (continuation.length + 1)
  second : ∀ b ∈ continuation.head?, isSecond first b = true
  others : ∀ b ∈ continuation.tail, isContinuation b = true
  assembled : assemble first continuation = c

theorem Spells.following_eq {first : UInt8} {continuation : Bytes} {c : Char}
    (h : Spells first continuation c) (rest : Bytes) :
    following first continuation.length (continuation ++ rest) = continuation.length := by
  cases continuation with
  | nil => rw [List.length_nil, following]
  | cons b others =>
      have hothers : others.takeWhile isContinuation = others :=
        List.takeWhile_eq_self_iff.2 h.others
      rw [List.length_cons, List.cons_append, following, if_pos (h.second b rfl),
        List.take_left, hothers, Nat.add_comm]

/-- A sequence is read as its character, and reading goes on behind it. -/
theorem decodeFrom_spells {first : UInt8} {continuation : Bytes} {c : Char}
    (h : Spells first continuation c) (position : Nat) (rest : Bytes) :
    decodeFrom position (first :: (continuation ++ rest)) =
      (decodeFrom (position + (continuation.length + 1)) rest).map (.scalar c :: ·) := by
  rw [decodeFrom, h.length]
  dsimp only
  rw [Nat.add_sub_cancel, h.following_eq, if_pos rfl, List.drop_left, List.take_left, h.assembled]

theorem isContinuation_toUInt8 (n : Nat) : isContinuation (0x80 + n % 0x40).toUInt8 = true := by
  rw [isContinuation_iff, toNat_toUInt8 (by omega)]
  omega

theorem spells_one {n : Nat} (hn : n < 0x80) : Spells n.toUInt8 [] (Char.ofNat n) where
  length := by
    rw [sequenceLength?_eq, toNat_toUInt8 (by omega), if_pos hn]
    rfl
  second b hb := nomatch hb
  others b hb := nomatch hb
  assembled := by
    rw [assemble_eq, toNat_toUInt8 (by omega), if_pos hn]
    rfl

theorem spells_two {n : Nat} (hone : 0x80 ≤ n) (hn : n < 0x800) :
    Spells (0xC0 + n / 0x40).toUInt8 [(0x80 + n % 0x40).toUInt8] (Char.ofNat n) where
  length := by
    rw [sequenceLength?_eq, toNat_toUInt8 (by omega), if_neg (by omega), if_neg (by omega),
      if_pos (by omega)]
    rfl
  second b hb := by
    cases hb
    rw [isSecond_iff, toNat_toUInt8 (by omega), toNat_toUInt8 (by omega)]
    exact ⟨isContinuation_toUInt8 n, by omega⟩
  others b hb := nomatch hb
  assembled := by
    rw [assemble_eq, toNat_toUInt8 (by omega), if_neg (by omega), if_pos (by omega)]
    simp only [List.foldl_cons, List.foldl_nil, toNat_toUInt8 (n := 0x80 + n % 0x40) (by omega)]
    congr 1
    omega

theorem spells_three {n : Nat} (htwo : 0x800 ≤ n) (hn : n < 0x10000)
    (hvalid : n < 0xD800 ∨ 0xDFFF < n) :
    Spells (0xE0 + n / 0x1000).toUInt8
      [(0x80 + n / 0x40 % 0x40).toUInt8, (0x80 + n % 0x40).toUInt8] (Char.ofNat n) where
  length := by
    rw [sequenceLength?_eq, toNat_toUInt8 (by omega), if_neg (by omega), if_neg (by omega),
      if_neg (by omega), if_pos (by omega)]
    rfl
  second b hb := by
    cases hb
    rw [isSecond_iff, toNat_toUInt8 (by omega), toNat_toUInt8 (by omega)]
    exact ⟨isContinuation_toUInt8 (n / 0x40), by omega⟩
  others b hb := by
    rw [List.tail_cons, List.mem_singleton] at hb
    rw [hb]
    exact isContinuation_toUInt8 n
  assembled := by
    rw [assemble_eq, toNat_toUInt8 (by omega), if_neg (by omega), if_neg (by omega),
      if_pos (by omega)]
    simp only [List.foldl_cons, List.foldl_nil, toNat_toUInt8 (n := 0x80 + n % 0x40) (by omega),
      toNat_toUInt8 (n := 0x80 + n / 0x40 % 0x40) (by omega)]
    congr 1
    omega

theorem spells_four {n : Nat} (hthree : 0x10000 ≤ n) (hn : n < 0x110000) :
    Spells (0xF0 + n / 0x40000).toUInt8
      [(0x80 + n / 0x1000 % 0x40).toUInt8, (0x80 + n / 0x40 % 0x40).toUInt8,
        (0x80 + n % 0x40).toUInt8] (Char.ofNat n) where
  length := by
    rw [sequenceLength?_eq, toNat_toUInt8 (by omega), if_neg (by omega), if_neg (by omega),
      if_neg (by omega), if_neg (by omega), if_pos (by omega)]
    rfl
  second b hb := by
    cases hb
    rw [isSecond_iff, toNat_toUInt8 (by omega), toNat_toUInt8 (by omega)]
    exact ⟨isContinuation_toUInt8 (n / 0x1000), by omega⟩
  others b hb := by
    rw [List.tail_cons, List.mem_cons, List.mem_singleton] at hb
    rcases hb with rfl | rfl
    · exact isContinuation_toUInt8 (n / 0x40)
    · exact isContinuation_toUInt8 n
  assembled := by
    rw [assemble_eq, toNat_toUInt8 (by omega), if_neg (by omega), if_neg (by omega),
      if_neg (by omega)]
    simp only [List.foldl_cons, List.foldl_nil, toNat_toUInt8 (n := 0x80 + n % 0x40) (by omega),
      toNat_toUInt8 (n := 0x80 + n / 0x40 % 0x40) (by omega),
      toNat_toUInt8 (n := 0x80 + n / 0x1000 % 0x40) (by omega)]
    congr 1
    omega

/-- A character is written as one sequence. -/
theorem spells_encodeChar (c : Char) :
    ∃ first continuation, encodeChar c = first :: continuation ∧ Spells first continuation c := by
  have hvalid : c.toNat < 0xD800 ∨ 0xDFFF < c.toNat ∧ c.toNat < 0x110000 := c.valid
  suffices h : ∃ first continuation,
      encodeChar c = first :: continuation ∧ Spells first continuation (Char.ofNat c.toNat) by
    rwa [Char.ofNat_toNat] at h
  unfold encodeChar
  dsimp only
  split
  · exact ⟨_, _, rfl, spells_one ‹_›⟩
  split
  · exact ⟨_, _, rfl, spells_two (by omega) ‹_›⟩
  split
  · exact ⟨_, _, rfl, spells_three (by omega) ‹_› (by omega)⟩
  · exact ⟨_, _, rfl, spells_four (by omega) (by omega)⟩

/-- What is written is read back, at any position. -/
theorem decodeFrom_encodeFrom {t : Text} {bytes : Bytes} {position place : Nat}
    (h : encodeFrom position t = .ok bytes) : decodeFrom place bytes = .ok t := by
  induction t generalizing bytes position place with
  | nil =>
      cases h
      rw [decodeFrom]
  | cons c t ih =>
      cases c with
      | surrogate u => cases h
      | scalar c =>
          obtain ⟨first, continuation, hspelled, hspells⟩ := spells_encodeChar c
          rw [encodeFrom] at h
          cases hrest : encodeFrom (position + 1) t with
          | error e =>
              rw [hrest] at h
              cases h
          | ok rest =>
              rw [hrest] at h
              cases h
              dsimp only
              rw [hspelled, List.cons_append, decodeFrom_spells hspells, ih hrest]
              rfl

/-- The bytes of a text are read as the text. -/
theorem decode_encode {t : Text} {bytes : Bytes} (h : encode t = .ok bytes) :
    decode bytes = .ok t :=
  decodeFrom_encodeFrom h

end VersionedProperties.Utf8
