/-!
# Texts

A text is a list of code points, so every position and every length counts code points. A code
point is a character or one of the 2048 surrogates: an escape such as `\ud83d` names a surrogate on
its own, and such a text can be held and compared although it has no UTF-8 form.

Texts are ordered by the numbers of their code points, read from the left.
-/

namespace VersionedProperties

/-- A code point: a character, or the surrogate `0xD800 + u`. -/
inductive CodePoint where
  | scalar (c : Char)
  | surrogate (u : Fin 2048)
  deriving DecidableEq, Inhabited

/-- A sequence of code points. -/
abbrev Text := List CodePoint

instance : LawfulBEq Text := inferInstance

namespace CodePoint

instance : Coe Char CodePoint := ⟨.scalar⟩

/-- The number of a code point. -/
def toNat : CodePoint → Nat
  | .scalar c => c.toNat
  | .surrogate u => 0xD800 + u.val

@[simp] theorem toNat_scalar (c : Char) : (scalar c).toNat = c.toNat := rfl

@[simp] theorem toNat_surrogate (u : Fin 2048) : (surrogate u).toNat = 0xD800 + u.val := rfl

/-- The code point of a number, if there is one. -/
def ofNat? (n : Nat) : Option CodePoint :=
  if n.isValidChar then some (.scalar (Char.ofNat n))
  else if h : 0xD800 ≤ n ∧ n - 0xD800 < 2048 then some (.surrogate ⟨n - 0xD800, h.2⟩)
  else none

/-- Whether a code point is a character. -/
def isScalar : CodePoint → Bool
  | .scalar _ => true
  | .surrogate _ => false

@[simp] theorem isScalar_scalar (c : Char) : (scalar c).isScalar = true := rfl

@[simp] theorem isScalar_surrogate (u : Fin 2048) : (surrogate u).isScalar = false := rfl

end CodePoint

namespace Text

/-- The code points of a string. -/
def ofString (s : String) : Text := s.toList.map .scalar

instance : Coe String Text := ⟨ofString⟩

/-- Whether one text comes no later than another, by the numbers of their code points. -/
def le : Text → Text → Bool
  | [], _ => true
  | _ :: _, [] => false
  | a :: s, b :: t =>
    if a.toNat < b.toNat then true
    else if b.toNat < a.toNat then false
    else le s t

@[simp] theorem le_nil_left (t : Text) : le [] t = true := by
  cases t <;> rfl

theorem le_refl (t : Text) : le t t = true := by
  induction t with
  | nil => rfl
  | cons a t ih => simp [le, ih]

/-- Texts in ascending order. -/
def sorted (texts : List Text) : List Text := texts.mergeSort le

/-- The texts one after the other, with a separator between neighbours. -/
def joined (separator : Text) : List Text → Text
  | [] => []
  | [t] => t
  | t :: rest => t ++ separator ++ joined separator rest

/-- Whether every code point of a text is a character, so that the text has a UTF-8 form. -/
def isScalar (t : Text) : Bool := t.all CodePoint.isScalar

/-- What follows the text `start` at the beginning of a text, if the text begins with it. -/
def after? : (start t : Text) → Option Text
  | [], t => some t
  | _ :: _, [] => none
  | a :: start, c :: t => if a = c then after? start t else none

theorem after?_eq_some_iff {start t rest : Text} :
    after? start t = some rest ↔ t = start ++ rest := by
  induction start generalizing t with
  | nil => simp [after?]
  | cons a start ih =>
    cases t with
    | nil => simp [after?]
    | cons c t =>
      by_cases h : a = c
      · simp [after?, h, ih]
      · simp [after?, h, Ne.symm h]

/-- A text with every occurrence of the nonempty text `a :: old` replaced by `new`. Occurrences are
taken from the left and do not overlap. -/
def replaceFrom (a : CodePoint) (old new : Text) : Text → Text
  | [] => []
  | c :: t =>
    match _found : after? (a :: old) (c :: t) with
    | some rest => new ++ replaceFrom a old new rest
    | none => c :: replaceFrom a old new t
termination_by t => t.length
decreasing_by
  · have := congrArg List.length (after?_eq_some_iff.1 (by assumption))
    simp at this ⊢
    omega
  · simp

/-- A text with every occurrence of `old` replaced by `new`. The empty text occurs in front of
every code point and at the end. -/
def replace (old new : Text) (t : Text) : Text :=
  match old with
  | [] => new ++ t.flatMap fun c => c :: new
  | a :: rest => replaceFrom a rest new t

end Text

end VersionedProperties
