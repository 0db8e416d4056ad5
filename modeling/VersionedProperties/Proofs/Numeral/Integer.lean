import Mathlib.Data.List.TakeWhile
import VersionedProperties.Numeral.Integer

/-!
# Reading integers

Every character of an integer is a digit, an underscore, a sign, a space, or the letter of a base
mark; a text with any other character is refused, wherever it stands. A text of hexadecimal digits
is read as the number that they denote.
-/

namespace VersionedProperties.Numeral

section Foreign

/-- Whether a character stands in no integer of a base. -/
def isForeign (base : Nat) (c : Char) : Bool :=
  !(isSpace c || isDigitOrMark base c) && c ≠ '+' && c ≠ '-' && c ≠ 'x' && c ≠ 'X'

variable {base : Nat} {c : Char} {t : List Char}

theorem isForeign_iff : isForeign base c = true ↔ isSpace c = false ∧
    isDigitOrMark base c = false ∧ c ≠ '+' ∧ c ≠ '-' ∧ c ≠ 'x' ∧ c ≠ 'X' := by
  simp [isForeign, and_assoc]

theorem mem_dropWhile_of_neg {p : Char → Bool} (hc : p c = false) (ht : c ∈ t) :
    c ∈ t.dropWhile p := by
  rw [← List.takeWhile_append_dropWhile (p := p) (l := t), List.mem_append] at ht
  refine ht.resolve_left fun h => ?_
  rw [List.mem_takeWhile_imp h] at hc
  cases hc

theorem mem_signed (hplus : c ≠ '+') (hminus : c ≠ '-') (ht : c ∈ t) : c ∈ (signed t).2 := by
  fun_cases signed t with
  | case1 rest => exact List.mem_of_ne_of_mem hminus ht
  | case2 rest => exact List.mem_of_ne_of_mem hplus ht
  | case3 => exact ht

theorem mem_afterBaseMark (hc : isForeign base c = true) (ht : c ∈ t) :
    c ∈ afterBaseMark base t := by
  obtain ⟨-, hdigit, -, -, hx, hX⟩ := isForeign_iff.1 hc
  unfold afterBaseMark
  split
  · exact ht
  · rename_i hbase
    obtain rfl := Decidable.not_not.1 hbase
    have hzero : c ≠ '0' := by
      rintro rfl
      exact absurd hdigit (by decide)
    have hmark : c ≠ '_' := by
      rintro rfl
      exact absurd hdigit (by decide)
    split
    · rename_i x rest
      split
      · rename_i hletter
        have hne : c ≠ x := by
          rintro rfl
          exact hletter.elim hx hX
        have hrest := List.mem_of_ne_of_mem hne (List.mem_of_ne_of_mem hzero ht)
        split
        · exact List.mem_of_ne_of_mem hmark hrest
        · exact hrest
      · exact ht
    · exact ht

theorem readDigits_ne_some (hc : isForeign base c = true) (ht : c ∈ t) (n : Nat) :
    readDigits base t ≠ .ok (some n) := by
  obtain ⟨hspace, hdigit, -⟩ := isForeign_iff.1 hc
  have hrest : ((afterBaseMark base t).dropWhile (isDigitOrMark base)).all isSpace = false :=
    List.all_eq_false.2
      ⟨c, mem_dropWhile_of_neg hdigit (mem_afterBaseMark hc ht), Bool.eq_false_iff.1 hspace⟩
  intro h
  rw [readDigits, hrest] at h
  split at h
  · cases h
  · split at h <;> cases h

/-- A text with a foreign character is no integer, wherever the character stands. -/
theorem not_isForeign_of_readInteger {t : Text} {n : Int} (h : readInteger base t = .ok n) :
    ∀ c ∈ plain t, isForeign base c = false := by
  intro c hc
  rw [← Bool.not_eq_true]
  intro hforeign
  obtain ⟨hspace, -, hplus, hminus, -, -⟩ := isForeign_iff.1 hforeign
  have hdigits : c ∈ (signed ((plain t).dropWhile isSpace)).2 :=
    mem_signed hplus hminus (mem_dropWhile_of_neg hspace hc)
  rw [readInteger] at h
  dsimp only at h
  split at h
  · cases h
  · cases h
  · rename_i value hread
    exact readDigits_ne_some hforeign hdigits value hread

theorem mem_plainForeign_of_backslash {t : Text} (ht : CodePoint.scalar '\\' ∈ t) :
    '\\' ∈ plainForeign t ∨ '?' ∈ plainForeign t := by
  have hlater : ∀ {d : CodePoint} {rest : Text} (e : Char), CodePoint.scalar '\\' ∈ d :: rest →
      ¬ d.toNat < 0x7f →
      (CodePoint.scalar '\\' ∈ rest → '\\' ∈ plainForeign rest ∨ '?' ∈ plainForeign rest) →
      '\\' ∈ e :: plainForeign rest ∨ '?' ∈ e :: plainForeign rest := by
    intro d rest e hmem hd ih
    have hne : CodePoint.scalar '\\' ≠ d := by
      rintro rfl
      exact hd (by decide)
    exact (ih (List.mem_of_ne_of_mem hne hmem)).imp (List.mem_cons_of_mem e)
      (List.mem_cons_of_mem e)
  fun_induction plainForeign t with
  | case1 => cases ht
  | case2 d rest hd ih =>
      rcases List.mem_cons.1 ht with rfl | hrest
      · exact .inl List.mem_cons_self
      · exact (ih hrest).imp (List.mem_cons_of_mem _) (List.mem_cons_of_mem _)
  | case3 d rest hd _ ih => exact hlater _ ht hd ih
  | case4 d rest hd _ v _ ih => exact hlater _ ht hd ih
  | case5 d rest => exact .inr List.mem_cons_self

/-- A text with a backslash is no integer in base sixteen. -/
theorem not_mem_of_readInteger {t : Text} {n : Int} (h : readInteger 16 t = .ok n) :
    CodePoint.scalar '\\' ∉ t := by
  intro ht
  have hplain : '\\' ∈ plain t ∨ '?' ∈ plain t := by
    rw [plain]
    split
    · exact .inl (List.mem_map_of_mem ht)
    · exact mem_plainForeign_of_backslash ht
  rcases hplain with hmem | hmem
  · exact absurd (not_isForeign_of_readInteger h _ hmem) (by decide)
  · exact absurd (not_isForeign_of_readInteger h _ hmem) (by decide)

end Foreign

section Hexadecimal

/-- The value of a hexadecimal digit. -/
def hexDigit? (c : CodePoint) : Option Nat :=
  if 0x30 ≤ c.toNat ∧ c.toNat ≤ 0x39 then some (c.toNat - 0x30)
  else if 0x41 ≤ c.toNat ∧ c.toNat ≤ 0x46 then some (c.toNat - 0x41 + 10)
  else if 0x61 ≤ c.toNat ∧ c.toNat ≤ 0x66 then some (c.toNat - 0x61 + 10)
  else none

/-- A character that is read as a digit in base sixteen, whatever stands around it. -/
structure IsHexDigit (d : Char) : Prop where
  ascii : isAscii d = true
  space : isSpace d = false
  sign : d ≠ '+' ∧ d ≠ '-'
  baseMark : d ≠ 'x' ∧ d ≠ 'X'
  groupMark : d ≠ '_'
  digit : (digitIn? 16 d).isSome = true

theorem exists_isHexDigit {c : CodePoint} {v : Nat} (h : hexDigit? c = some v) :
    ∃ d : Char, c = .scalar d ∧ IsHexDigit d ∧ digitIn? 16 d = some v := by
  have hall : ∀ n : Fin 0x67, (hexDigit? (.scalar (Char.ofNat n))).isSome = true →
      isAscii (.scalar (Char.ofNat n)) = true ∧ isSpace (Char.ofNat n) = false ∧
        (Char.ofNat n ≠ '+' ∧ Char.ofNat n ≠ '-') ∧ (Char.ofNat n ≠ 'x' ∧ Char.ofNat n ≠ 'X') ∧
        Char.ofNat n ≠ '_' ∧
        digitIn? 16 (Char.ofNat n) = hexDigit? (.scalar (Char.ofNat n)) := by decide
  have hsmall : c.toNat < 0x67 := by
    unfold hexDigit? at h
    split at h
    · omega
    split at h
    · omega
    split at h
    · omega
    · cases h
  cases c with
  | surrogate u =>
      rw [CodePoint.toNat_surrogate] at hsmall
      omega
  | scalar d =>
      have hd := hall ⟨d.toNat, hsmall⟩
      rw [Char.ofNat_toNat, h] at hd
      obtain ⟨hascii, hspace, hsign, hbase, hgroup, hdigit⟩ := hd rfl
      exact ⟨d, rfl, ⟨hascii, hspace, hsign, hbase, hgroup, by rw [hdigit]; rfl⟩, hdigit⟩

theorem hexDigit?_lt {c : CodePoint} {v : Nat} (h : hexDigit? c = some v) : v < 16 := by
  obtain ⟨d, -, -, hdigit⟩ := exists_isHexDigit h
  rw [digitIn?, Option.filter_eq_some_iff] at hdigit
  exact of_decide_eq_true hdigit.2

theorem exists_hexDigits {t : Text} {digits : List Nat}
    (h : t.map hexDigit? = digits.map some) :
    ∃ cs : List Char, t = cs.map .scalar ∧ (∀ d ∈ cs, IsHexDigit d) ∧
      cs.map (digitIn? 16) = digits.map some := by
  induction t generalizing digits with
  | nil => exact ⟨[], rfl, nofun, h⟩
  | cons c t ih =>
      cases digits with
      | nil => cases h
      | cons v digits =>
          obtain ⟨hc, ht⟩ := List.cons.inj h
          obtain ⟨d, rfl, hd, hv⟩ := exists_isHexDigit hc
          obtain ⟨cs, rfl, hcs, hvalues⟩ := ih ht
          refine ⟨d :: cs, rfl, List.forall_mem_cons.2 ⟨hd, hcs⟩, ?_⟩
          rw [List.map_cons, hv, hvalues, List.map_cons]

theorem isGrouped_of_not_mem {cs : List Char} (hcs : cs ≠ []) (hmark : ∀ c ∈ cs, c ≠ '_') :
    isGrouped cs = true := by
  fun_induction isGrouped cs with
  | case1 => exact absurd rfl hcs
  | case2 => exact absurd rfl (hmark _ List.mem_cons_self)
  | case3 => rfl
  | case4 => exact absurd rfl (hmark _ List.mem_cons_self)
  | case5 => exact absurd rfl (hmark _ (List.mem_cons_of_mem _ List.mem_cons_self))
  | case6 d c rest _ _ ih =>
      exact ih (List.cons_ne_nil c rest) fun e he => hmark e (List.mem_cons_of_mem d he)

/-- ASCII characters are their own plain form. -/
theorem plain_of_isAscii {cs : List Char} (hcs : ∀ d ∈ cs, isAscii d = true) :
    plain (cs.map .scalar) = cs := by
  have hascii : (cs.map CodePoint.scalar).all isAscii = true := by
    rw [List.all_map, List.all_eq_true]
    exact hcs
  rw [plain, if_pos hascii, List.map_map]
  exact List.map_id'' Char.ofNat_toNat cs

section Reading

variable {cs : List Char} (hcs : ∀ d ∈ cs, IsHexDigit d)

include hcs

theorem plain_hexDigits : plain (cs.map .scalar) = cs :=
  plain_of_isAscii fun d hd => (hcs d hd).ascii

theorem dropWhile_isSpace_hexDigits : cs.dropWhile isSpace = cs := by
  cases cs with
  | nil => rfl
  | cons d cs =>
      exact List.dropWhile_cons_of_neg (Bool.eq_false_iff.1 (hcs d List.mem_cons_self).space)

theorem signed_hexDigits : signed cs = (false, cs) := by
  fun_cases signed cs with
  | case1 => exact absurd rfl (hcs _ List.mem_cons_self).sign.2
  | case2 => exact absurd rfl (hcs _ List.mem_cons_self).sign.1
  | case3 => rfl

theorem afterBaseMark_hexDigits : afterBaseMark 16 cs = cs := by
  unfold afterBaseMark
  split
  · rfl
  · split
    · rename_i x rest
      have hx := (hcs x (List.mem_cons_of_mem _ List.mem_cons_self)).baseMark
      rw [if_neg (not_or.2 hx)]
    · rfl

theorem readDigits_hexDigits (hne : cs ≠ []) {digits : List Nat}
    (hdigits : cs.map (digitIn? 16) = digits.map some) :
    readDigits 16 cs = .ok (some (ofDigits 16 digits)) := by
  have hall : ∀ d ∈ cs, isDigitOrMark 16 d = true := by
    intro d hd
    rw [isDigitOrMark, (hcs d hd).digit, Bool.or_true]
  have hvalues : digitsOf 16 cs = digits := by
    have hvalues := congrArg (List.filterMap id) hdigits
    rwa [List.filterMap_map, List.filterMap_map, Function.id_comp, Function.id_comp,
      List.filterMap_some] at hvalues
  have hgrouped := isGrouped_of_not_mem hne fun d hd => (hcs d hd).groupMark
  rw [readDigits, afterBaseMark_hexDigits hcs, List.takeWhile_eq_self_iff.2 hall,
    List.dropWhile_eq_nil_iff.2 hall, hgrouped, hvalues]
  rfl

end Reading

/-- Hexadecimal digits are read as the number that they denote. -/
theorem readInteger_hexDigits {t : Text} (ht : t ≠ []) {digits : List Nat}
    (h : t.map hexDigit? = digits.map some) :
    readInteger 16 t = .ok (ofDigits 16 digits) := by
  obtain ⟨cs, rfl, hcs, hdigits⟩ := exists_hexDigits h
  have hne : cs ≠ [] := by
    rintro rfl
    exact ht rfl
  rw [readInteger, plain_hexDigits hcs, dropWhile_isSpace_hexDigits hcs, signed_hexDigits hcs]
  dsimp only
  rw [readDigits_hexDigits hcs hne hdigits]
  rfl

end Hexadecimal

end VersionedProperties.Numeral
