import Mathlib.Data.List.Basic
import VersionedProperties.Proofs.Numeral.Integer

/-!
# Reading back written integers

An integer is written as its decimal digits with a minus in front if it is negative. Digits are
nothing but digits to each stage of the reader, so what is read is the number of the digits, which
is the number they were made from.
-/

namespace VersionedProperties.Numeral

/-- A digit is a digit in every base from ten on. -/
theorem isHexDigit_of_isDigit {d : Char} (hd : d.isDigit = true) :
    IsHexDigit d ∧ digitIn? 10 d = some (d.toNat - '0'.toNat) := by
  have hrange : 0x30 ≤ d.toNat ∧ d.toNat ≤ 0x39 := Char.isDigit_iff_toNat.1 hd
  have hhex : hexDigit? (.scalar d) = some (d.toNat - 0x30) := if_pos hrange
  obtain ⟨d', heq, hdigit, -⟩ := exists_isHexDigit hhex
  obtain rfl := CodePoint.scalar.inj heq
  have hascii : CodePoint.asciiDigit? (.scalar d) = some (d.toNat - 0x30) := if_pos hrange
  have hlt : d.toNat - 0x30 < 10 := by omega
  refine ⟨hdigit, ?_⟩
  rw [digitIn?, hascii, Option.filter_some, if_pos (decide_eq_true hlt)]
  rfl

section Digits

variable {cs : List Char} (hcs : ∀ d ∈ cs, d.isDigit = true)

include hcs

theorem digitsOf_digits : digitsOf 10 cs = cs.map fun d => d.toNat - '0'.toNat := by
  rw [digitsOf, List.filterMap_congr fun d hd => (isHexDigit_of_isDigit (hcs d hd)).2]
  exact congrFun List.filterMap_eq_map cs

/-- Digits are read as their number if there are not too many. -/
theorem readDigits_digits (hne : cs ≠ []) (hlength : cs.length ≤ maxDigits) :
    readDigits 10 cs = .ok (some (Nat.ofDigitChars 10 cs 0)) := by
  have hall : ∀ d ∈ cs, isDigitOrMark 10 d = true := by
    intro d hd
    rw [isDigitOrMark, (isHexDigit_of_isDigit (hcs d hd)).2, Option.isSome_some, Bool.or_true]
  have hgrouped := isGrouped_of_not_mem hne fun d hd =>
    (isHexDigit_of_isDigit (hcs d hd)).1.groupMark
  have hfew : ¬ (10 = 10 ∧ maxDigits < (digitsOf 10 cs).length) := by
    rw [digitsOf_digits hcs, List.length_map]
    omega
  have hvalue : ofDigits 10 (digitsOf 10 cs) = Nat.ofDigitChars 10 cs 0 := by
    rw [digitsOf_digits hcs, ofDigits, List.foldl_map, Nat.ofDigitChars_eq_foldl]
    simp only [Nat.mul_comm]
  have hmark : afterBaseMark 10 cs = cs := rfl
  rw [readDigits, hmark, List.takeWhile_eq_self_iff.2 hall, List.dropWhile_eq_nil_iff.2 hall,
    hgrouped, Bool.not_true, if_neg Bool.false_ne_true, if_neg hfew, hvalue]
  rfl

end Digits

/-- The characters of a written integer. -/
def writtenChars (n : Int) : List Char :=
  if n < 0 then '-' :: Nat.toDigits 10 n.natAbs else Nat.toDigits 10 n.natAbs

theorem writeInteger_eq_map (n : Int) : writeInteger n = (writtenChars n).map .scalar := by
  unfold writeInteger writtenChars
  split <;> rfl

theorem isDigit_toDigits (n : Nat) : ∀ d ∈ Nat.toDigits 10 n, d.isDigit = true :=
  fun _ hd => Nat.isDigit_of_mem_toDigits (by decide) (by decide) hd

/-- The characters of a written integer are a minus and digits. -/
theorem mem_writtenChars {n : Int} {d : Char} (hd : d ∈ writtenChars n) :
    d = '-' ∨ d.isDigit = true := by
  unfold writtenChars at hd
  split at hd
  · rcases List.mem_cons.1 hd with rfl | hd
    · exact .inl rfl
    · exact .inr (isDigit_toDigits _ d hd)
  · exact .inr (isDigit_toDigits _ d hd)

theorem plain_writeInteger (n : Int) : plain (writeInteger n) = writtenChars n := by
  rw [writeInteger_eq_map]
  apply plain_of_isAscii
  intro d hd
  rcases mem_writtenChars hd with rfl | hdigit
  · rfl
  · exact (isHexDigit_of_isDigit hdigit).1.ascii

/-- The sign and the digits of a written integer are told apart. -/
theorem signed_writtenChars (n : Int) :
    signed ((writtenChars n).dropWhile isSpace) = (decide (n < 0), Nat.toDigits 10 n.natAbs) := by
  have hhex : ∀ d ∈ Nat.toDigits 10 n.natAbs, IsHexDigit d :=
    fun d hd => (isHexDigit_of_isDigit (isDigit_toDigits _ d hd)).1
  unfold writtenChars
  by_cases hn : n < 0
  · rw [if_pos hn, decide_eq_true hn]
    rfl
  · rw [if_neg hn, decide_eq_false hn, dropWhile_isSpace_hexDigits hhex, signed_hexDigits hhex]

/-- An integer that has few enough digits is read back. -/
theorem readInteger_writeInteger {n : Int} (hn : (decimal n.natAbs).length ≤ maxDigits) :
    readInteger 10 (writeInteger n) = .ok n := by
  rw [decimal, List.length_map] at hn
  have hread := readDigits_digits (isDigit_toDigits n.natAbs) Nat.toDigits_ne_nil hn
  rw [Nat.ofDigitChars_toDigits (by decide) (by decide)] at hread
  rw [readInteger, plain_writeInteger, signed_writtenChars]
  dsimp only
  rw [hread]
  dsimp only
  by_cases hneg : n < 0
  · rw [decide_eq_true hneg, if_pos rfl]
    congr 1
    omega
  · rw [decide_eq_false hneg, if_neg Bool.false_ne_true]
    congr 1
    omega

theorem writeInteger?_eq_ok {n : Int} (hn : (decimal n.natAbs).length ≤ maxDigits) :
    writeInteger? n = .ok (writeInteger n) :=
  if_neg (Nat.not_lt.2 hn)

/-- A code point of a written integer is none below the minus and none above the digit nine. -/
theorem mem_writeInteger {n : Int} {c : CodePoint} (hc : c ∈ writeInteger n) :
    0x2d ≤ c.toNat ∧ c.toNat ≤ 0x39 := by
  rw [writeInteger_eq_map] at hc
  obtain ⟨d, hd, rfl⟩ := List.mem_map.1 hc
  rcases mem_writtenChars hd with rfl | hdigit
  · decide
  · have hrange : 0x30 ≤ d.toNat ∧ d.toNat ≤ 0x39 := Char.isDigit_iff_toNat.1 hdigit
    rw [CodePoint.toNat_scalar]
    omega

end VersionedProperties.Numeral
