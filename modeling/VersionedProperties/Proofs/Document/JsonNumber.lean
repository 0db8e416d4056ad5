import Mathlib.Data.List.TakeWhile
import VersionedProperties.Document.JsonReader

/-!
# Numbers at the beginning of a text

A number is read as far as it goes: its digits, a fraction if digits follow the point, an exponent
if digits follow its letter. What comes behind it matters only where it could continue it, so the
same number is read whatever else follows. An integer is refused exactly if it has too many digits
and nothing behind it makes it a longer number.
-/

namespace VersionedProperties.Json

section Scanning

variable {s t rest : Text}

/-- Whether a code point may continue a number. -/
def isNumeric (c : CodePoint) : Bool :=
  isDigit c || c = .scalar '.' || c = .scalar 'e' || c = .scalar 'E'

/-- Two texts that begin with the same code point, one that continues no number. -/
def Alike (s t : Text) : Prop :=
  s.head? = t.head? ∧ ∀ c ∈ s.head?, isNumeric c = false

theorem head?_append_congr (h : s.head? = t.head?) (w : Text) :
    (w ++ s).head? = (w ++ t).head? := by
  cases w with
  | nil => exact h
  | cons c w => rfl

/-- A text is divided at the end of its leading digits, whatever else follows. -/
theorem takeWhile_isDigit_append {digits : Text} (hdigits : ∀ c ∈ digits, isDigit c = true)
    (hrest : ∀ c ∈ rest.head?, isDigit c = false) :
    (digits ++ rest).takeWhile isDigit = digits ∧ (digits ++ rest).dropWhile isDigit = rest := by
  rw [List.takeWhile_append_of_pos hdigits, List.dropWhile_append_of_pos hdigits]
  cases rest with
  | nil => exact ⟨List.append_nil digits, rfl⟩
  | cons c rest =>
      have hc : ¬ isDigit c = true := by
        rw [hrest c rfl]
        exact Bool.false_ne_true
      rw [List.takeWhile_cons_of_neg hc, List.dropWhile_cons_of_neg hc, List.append_nil]
      exact ⟨rfl, rfl⟩

theorem head?_dropWhile_isDigit (t : Text) :
    ∀ c ∈ (t.dropWhile isDigit).head?, isDigit c = false := by
  intro c hc
  have hnot := List.head?_dropWhile_not isDigit t
  rw [Option.mem_def.1 hc] at hnot
  exact hnot

/-- Digits that do not begin with a zero are a whole number. -/
theorem readWhole_of_isDigit {digits : Text} (hdigits : ∀ c ∈ digits, isDigit c = true)
    (hrest : ∀ c ∈ rest.head?, isDigit c = false)
    (hzero : (digits ++ rest).head? ≠ some (.scalar '0')) :
    readWhole (digits ++ rest) = (digits, rest) := by
  obtain ⟨htake, hdrop⟩ := takeWhile_isDigit_append hdigits hrest
  cases ht : digits ++ rest with
  | nil =>
      obtain ⟨rfl, rfl⟩ := List.append_eq_nil_iff.1 ht
      rfl
  | cons c t =>
      rw [ht, List.head?_cons, ne_eq, Option.some_inj] at hzero
      rw [readWhole, if_neg hzero, ← ht, htake, hdrop]

/-- A whole number is a zero or all the digits that stand there. -/
theorem readWhole_cases {whole : Text} (h : readWhole t = (whole, rest)) :
    t = whole ++ rest ∧ (whole = [.scalar '0'] ∨ t.head? ≠ some (.scalar '0') ∧
      (∀ d ∈ whole, isDigit d = true) ∧ ∀ d ∈ rest.head?, isDigit d = false) := by
  cases t with
  | nil =>
      obtain ⟨rfl, rfl⟩ := Prod.mk.inj h
      exact ⟨rfl, .inr ⟨by decide, List.forall_mem_nil _,
        fun d hd => absurd hd (Option.some_ne_none d).symm⟩⟩
  | cons c t =>
      rw [readWhole] at h
      split at h
      case isTrue hc =>
        obtain ⟨rfl, rfl⟩ := Prod.mk.inj h
        exact ⟨rfl, .inl (by rw [hc])⟩
      case isFalse hc =>
        obtain ⟨rfl, rfl⟩ := Prod.mk.inj h
        refine ⟨List.takeWhile_append_dropWhile.symm, .inr ⟨?_,
          fun d hd => List.mem_takeWhile_imp hd, head?_dropWhile_isDigit (c :: t)⟩⟩
        rw [List.head?_cons, ne_eq, Option.some_inj]
        exact hc

theorem isDigit_of_readWhole {whole : Text} (h : readWhole t = (whole, rest)) :
    ∀ d ∈ whole, isDigit d = true := by
  obtain ⟨-, rfl | ⟨-, hdigits, -⟩⟩ := readWhole_cases h
  · intro d hd
    rw [List.mem_singleton.1 hd]
    rfl
  · exact hdigits

/-- The digits of a whole number end where they end, whatever else follows. -/
theorem readWhole_append {whole : Text} (h : readWhole t = (whole, rest)) :
    t = whole ++ rest ∧ ∀ rest' : Text, rest.head? = rest'.head? →
      readWhole (whole ++ rest') = (whole, rest') := by
  obtain ⟨rfl, rfl | ⟨hzero, hdigits, hstop⟩⟩ := readWhole_cases h
  · exact ⟨rfl, fun rest' _ => rfl⟩
  · refine ⟨rfl, fun rest' hrest => readWhole_of_isDigit hdigits (hrest ▸ hstop) ?_⟩
    rwa [← head?_append_congr hrest]

/-- A fraction is read exactly where digits follow a point. -/
theorem readFraction_cases {fraction : Text} (h : readFraction t = (fraction, rest)) :
    fraction = [] ∧ rest = t ∨
      fraction ≠ [] ∧ (∀ d ∈ fraction, isDigit d = true) ∧
        (∀ d ∈ rest.head?, isDigit d = false) ∧ t = .scalar '.' :: (fraction ++ rest) := by
  unfold readFraction at h
  split at h
  case h_1 u =>
    split at h
    case isTrue =>
      obtain ⟨rfl, rfl⟩ := Prod.mk.inj h
      exact .inl ⟨rfl, rfl⟩
    case isFalse hdigits =>
      obtain ⟨rfl, rfl⟩ := Prod.mk.inj h
      refine .inr ⟨hdigits, fun d hd => List.mem_takeWhile_imp hd, head?_dropWhile_isDigit u, ?_⟩
      rw [List.takeWhile_append_dropWhile]
  case h_2 =>
    obtain ⟨rfl, rfl⟩ := Prod.mk.inj h
    exact .inl ⟨rfl, rfl⟩

theorem readFraction_of_isDigit {digits : Text} (hne : digits ≠ [])
    (hdigits : ∀ d ∈ digits, isDigit d = true) (hrest : ∀ d ∈ rest.head?, isDigit d = false) :
    readFraction (.scalar '.' :: (digits ++ rest)) = (digits, rest) := by
  obtain ⟨htake, hdrop⟩ := takeWhile_isDigit_append hdigits hrest
  rw [readFraction, htake, hdrop, if_neg hne]

theorem readFraction_of_head? (h : t.head? ≠ some (.scalar '.')) : readFraction t = ([], t) := by
  rw [readFraction]
  intro u hu
  rw [hu] at h
  exact h rfl

/-- Whether a minus stands in front of the digits of an exponent, and what follows the sign. -/
def splitExponentSign (t : Text) : Bool × Text :=
  match t with
  | .scalar '-' :: rest => (true, rest)
  | .scalar '+' :: rest => (false, rest)
  | rest => (false, rest)

/-- The marks that may stand in front of the digits of an exponent. -/
def IsExponentSign (sign : Text) : Prop :=
  sign = [] ∨ sign = [.scalar '-'] ∨ sign = [.scalar '+']

theorem splitExponentSign_cases {negative : Bool} (h : splitExponentSign t = (negative, rest)) :
    ∃ sign, IsExponentSign sign ∧ t = sign ++ rest ∧
      (negative = true ↔ sign = [.scalar '-']) := by
  unfold splitExponentSign at h
  split at h
  case h_1 =>
    obtain ⟨rfl, rfl⟩ := Prod.mk.inj h
    exact ⟨[.scalar '-'], .inr (.inl rfl), rfl, by decide⟩
  case h_2 =>
    obtain ⟨rfl, rfl⟩ := Prod.mk.inj h
    exact ⟨[.scalar '+'], .inr (.inr rfl), rfl, by decide⟩
  case h_3 =>
    obtain ⟨rfl, rfl⟩ := Prod.mk.inj h
    exact ⟨[], .inl rfl, rfl, by decide⟩

theorem splitExponentSign_append {sign : Text} (hsign : IsExponentSign sign) {d : CodePoint}
    (hd : isDigit d = true) (t : Text) :
    splitExponentSign (sign ++ d :: t) = (decide (sign = [.scalar '-']), d :: t) := by
  rcases hsign with rfl | rfl | rfl
  · rw [List.nil_append, splitExponentSign]
    · rfl
    · intro u hu
      rw [(List.cons.inj hu).1] at hd
      exact absurd hd (by decide)
    · intro u hu
      rw [(List.cons.inj hu).1] at hd
      exact absurd hd (by decide)
  · rfl
  · rfl

theorem readExponent_cons (e : CodePoint) (t : Text) :
    readExponent (e :: t) =
      if e = .scalar 'e' ∨ e = .scalar 'E' then
        match splitExponentSign t with
        | (negative, digits) =>
          if digits.takeWhile isDigit = [] then (none, e :: t)
          else
            let n : Int := digitsValue (digits.takeWhile isDigit)
            (some (if negative then -n else n), digits.dropWhile isDigit)
      else (none, e :: t) :=
  rfl

/-- An exponent is read exactly where digits follow its letter, perhaps behind a sign. -/
theorem readExponent_cases {exponent : Option Int} (h : readExponent t = (exponent, rest)) :
    exponent = none ∧ rest = t ∨
      ∃ e sign digits, (e = .scalar 'e' ∨ e = .scalar 'E') ∧ IsExponentSign sign ∧ digits ≠ [] ∧
        (∀ d ∈ digits, isDigit d = true) ∧ (∀ d ∈ rest.head?, isDigit d = false) ∧
        t = e :: (sign ++ (digits ++ rest)) ∧
        exponent = some (if sign = [.scalar '-'] then -(digitsValue digits : Int)
          else digitsValue digits) := by
  cases t with
  | nil =>
      obtain ⟨rfl, rfl⟩ := Prod.mk.inj h
      exact .inl ⟨rfl, rfl⟩
  | cons e t =>
      rw [readExponent_cons] at h
      split at h
      case isTrue he =>
        rcases hsplit : splitExponentSign t with ⟨negative, digits⟩
        rw [hsplit] at h
        dsimp only at h
        split at h
        case isTrue =>
          obtain ⟨rfl, rfl⟩ := Prod.mk.inj h
          exact .inl ⟨rfl, rfl⟩
        case isFalse hdigits =>
          obtain ⟨rfl, rfl⟩ := Prod.mk.inj h
          obtain ⟨sign, hsign, rfl, hnegative⟩ := splitExponentSign_cases hsplit
          refine .inr ⟨e, sign, digits.takeWhile isDigit, he, hsign, hdigits,
            fun d hd => List.mem_takeWhile_imp hd, head?_dropWhile_isDigit digits, ?_, ?_⟩
          · rw [List.takeWhile_append_dropWhile]
          · simp only [hnegative]
      case isFalse =>
        obtain ⟨rfl, rfl⟩ := Prod.mk.inj h
        exact .inl ⟨rfl, rfl⟩

theorem readExponent_of_isDigit {e : CodePoint} (he : e = .scalar 'e' ∨ e = .scalar 'E')
    {sign : Text} (hsign : IsExponentSign sign) {digits : Text} (hne : digits ≠ [])
    (hdigits : ∀ d ∈ digits, isDigit d = true) (hrest : ∀ d ∈ rest.head?, isDigit d = false) :
    readExponent (e :: (sign ++ (digits ++ rest))) =
      (some (if sign = [.scalar '-'] then -(digitsValue digits : Int) else digitsValue digits),
        rest) := by
  obtain ⟨htake, hdrop⟩ := takeWhile_isDigit_append hdigits hrest
  obtain ⟨d, digits, rfl⟩ := List.exists_cons_of_ne_nil hne
  have hsplit := splitExponentSign_append hsign (hdigits d List.mem_cons_self) (digits ++ rest)
  rw [← List.cons_append] at hsplit
  simp only [readExponent_cons, if_pos he, hsplit, htake, hdrop, if_neg hne, decide_eq_true_eq]

theorem readExponent_of_head? (h : ∀ e ∈ t.head?, e ≠ .scalar 'e' ∧ e ≠ .scalar 'E') :
    readExponent t = (none, t) := by
  cases t with
  | nil => rfl
  | cons e t => rw [readExponent_cons, if_neg (not_or.2 (h e rfl))]

end Scanning

section Endings

variable {rest : Text}

/-- What may stand between the first digits of a number and further ones. -/
def digitMarks : List Text := ["", ".", "e", "e-", "e+", "E", "E-", "E+"]

/-- A number goes on in what follows its first digits if a digit stands there, perhaps behind a
point or behind the letter of an exponent and its sign. -/
def NumberGoesOn (rest : Text) : Prop :=
  ∃ mark ∈ digitMarks, ∃ d more, isDigit d = true ∧ rest = mark ++ d :: more

theorem mem_digitMarks_iff {mark : Text} : mark ∈ digitMarks ↔ mark = [] ∨ mark = [.scalar '.'] ∨
    ∃ e sign, (e = .scalar 'e' ∨ e = .scalar 'E') ∧ IsExponentSign sign ∧ mark = e :: sign := by
  constructor
  · intro h
    simp only [digitMarks, List.mem_cons, List.not_mem_nil, or_false] at h
    rcases h with rfl | rfl | rfl | rfl | rfl | rfl | rfl | rfl
    · exact .inl rfl
    · exact .inr (.inl rfl)
    · exact .inr (.inr ⟨_, _, .inl rfl, .inl rfl, rfl⟩)
    · exact .inr (.inr ⟨_, _, .inl rfl, .inr (.inl rfl), rfl⟩)
    · exact .inr (.inr ⟨_, _, .inl rfl, .inr (.inr rfl), rfl⟩)
    · exact .inr (.inr ⟨_, _, .inr rfl, .inl rfl, rfl⟩)
    · exact .inr (.inr ⟨_, _, .inr rfl, .inr (.inl rfl), rfl⟩)
    · exact .inr (.inr ⟨_, _, .inr rfl, .inr (.inr rfl), rfl⟩)
  · rintro (rfl | rfl | ⟨e, sign, rfl | rfl, rfl | rfl | rfl, rfl⟩) <;> decide

theorem exists_digits {d : CodePoint} (hd : isDigit d = true) (more : Text) :
    ∃ digits after, d :: more = digits ++ after ∧ digits ≠ [] ∧ (∀ d ∈ digits, isDigit d = true) ∧
      ∀ d ∈ after.head?, isDigit d = false := by
  refine ⟨_, _, List.takeWhile_append_dropWhile.symm, ?_, fun d hd => List.mem_takeWhile_imp hd,
    head?_dropWhile_isDigit (d :: more)⟩
  rw [List.takeWhile_cons_of_pos hd]
  exact List.cons_ne_nil d _

/-- A number goes on where its readers find further digits. -/
theorem not_numberGoesOn_iff : ¬ NumberGoesOn rest ↔
    (∀ d ∈ rest.head?, isDigit d = false) ∧ (readFraction rest).1 = [] ∧
      (readExponent rest).1 = none := by
  constructor
  · intro h
    refine ⟨fun d hd => ?_, ?_, ?_⟩
    · obtain ⟨more, rfl⟩ := List.head?_eq_some_iff.1 hd
      exact Bool.eq_false_iff.2 fun hdigit =>
        h ⟨[], mem_digitMarks_iff.2 (.inl rfl), d, more, hdigit, rfl⟩
    · rcases hread : readFraction rest with ⟨fraction, after⟩
      rcases readFraction_cases hread with ⟨hnone, _⟩ | ⟨hne, hdigits, _, htext⟩
      · exact hnone
      · obtain ⟨d, more, rfl⟩ := List.exists_cons_of_ne_nil hne
        exact absurd ⟨_, mem_digitMarks_iff.2 (.inr (.inl rfl)), d, more ++ after,
          hdigits d List.mem_cons_self, htext⟩ h
    · rcases hread : readExponent rest with ⟨exponent, after⟩
      rcases readExponent_cases hread with
        ⟨hnone, _⟩ | ⟨e, sign, digits, he, hsign, hne, hdigits, _, htext, _⟩
      · exact hnone
      · obtain ⟨d, more, rfl⟩ := List.exists_cons_of_ne_nil hne
        exact absurd ⟨_, mem_digitMarks_iff.2 (.inr (.inr ⟨e, sign, he, hsign, rfl⟩)), d,
          more ++ after, hdigits d List.mem_cons_self, htext⟩ h
  · rintro ⟨hhead, hfraction, hexponent⟩ ⟨mark, hmark, d, more, hd, rfl⟩
    obtain ⟨digits, after, htext, hne, hdigits, hafter⟩ := exists_digits hd more
    rcases mem_digitMarks_iff.1 hmark with rfl | rfl | ⟨e, sign, he, hsign, rfl⟩
    · exact Bool.false_ne_true ((hhead d rfl).symm.trans hd)
    · rw [List.singleton_append, htext, readFraction_of_isDigit hne hdigits hafter] at hfraction
      exact hne hfraction
    · rw [List.cons_append, htext, readExponent_of_isDigit he hsign hne hdigits hafter]
        at hexponent
      exact Option.some_ne_none _ hexponent

end Endings

section Numbers

variable {t rest : Text}

/-- Whether a minus stands at the beginning of a text, and what follows it. -/
def splitSign (t : Text) : Bool × Text :=
  match t with
  | .scalar '-' :: rest => (true, rest)
  | t => (false, t)

/-- A minus that may stand in front of a number. -/
def IsSign (sign : Text) : Prop := sign = [] ∨ sign = [.scalar '-']

theorem splitSign_cases (t : Text) :
    ∃ sign, IsSign sign ∧ t = sign ++ (splitSign t).2 ∧
      (splitSign t).1 = decide (sign = [.scalar '-']) := by
  unfold splitSign
  split
  · exact ⟨_, .inr rfl, rfl, rfl⟩
  · exact ⟨_, .inl rfl, rfl, rfl⟩

theorem splitSign_append {sign : Text} (hsign : IsSign sign) {u : Text}
    (hu : u.head? ≠ some (.scalar '-')) :
    splitSign (sign ++ u) = (decide (sign = [.scalar '-']), u) := by
  rcases hsign with rfl | rfl
  · rw [List.nil_append, splitSign]
    · rfl
    · intro u' hu'
      rw [hu'] at hu
      exact hu rfl
  · rfl

/-- The number that its parts denote: with a fraction or an exponent it is real. -/
def numberOf (negative : Bool) (whole fraction : Text) (exponent : Option Int) :
    Except ReadError Value :=
  if fraction = [] ∧ exponent = none then
    if Numeral.maxDigits < whole.length then .error (.tooManyDigits whole.length)
    else
      let n : Int := digitsValue whole
      .ok (.integer (if negative then -n else n))
  else
    .ok (.real (.ofDecimal negative (digitsValue (whole ++ fraction))
      (exponent.getD 0 - fraction.length)))

theorem map_numberOf (negative : Bool) (whole fraction : Text) (exponent : Option Int)
    (rest : Text) :
    (numberOf negative whole fraction exponent).map (·, rest) =
      if fraction = [] ∧ exponent = none then
        if Numeral.maxDigits < whole.length then .error (.tooManyDigits whole.length)
        else
          let n : Int := digitsValue whole
          .ok (.integer (if negative then -n else n), rest)
      else
        .ok (.real (.ofDecimal negative (digitsValue (whole ++ fraction))
          (exponent.getD 0 - fraction.length)), rest) := by
  unfold numberOf
  split
  · split <;> rfl
  · rfl

/-- A number is its sign, its whole digits, its fraction and its exponent, read one after the
other. -/
theorem readNumber_eq {negative : Bool} {u whole r fraction r' : Text} {exponent : Option Int}
    (hsign : splitSign t = (negative, u)) (hwhole : readWhole u = (whole, r))
    (hfraction : readFraction r = (fraction, r')) (hexponent : readExponent r' = (exponent, rest)) :
    readNumber t =
      if whole = [] then .error (.malformed .expectingValue t)
      else (numberOf negative whole fraction exponent).map (·, rest) := by
  rw [map_numberOf]
  unfold readNumber
  split
  case h_1 negative' u' hsplit =>
    have hsplit' : splitSign t = (negative', u') := hsplit
    obtain ⟨rfl, rfl⟩ := Prod.mk.inj (hsplit'.symm.trans hsign)
    simp only [hwhole, hfraction, hexponent]

end Numbers

section Locality

variable {t rest rest' : Text}

theorem Alike.head?_ne (h : Alike rest rest') {c : CodePoint} (hc : isNumeric c = true) :
    rest.head? ≠ some c := by
  intro hhead
  exact Bool.false_ne_true ((h.2 c hhead).symm.trans hc)

theorem readExponent_append {exponent : Option Int} (h : readExponent t = (exponent, rest)) :
    ∃ w, t = w ++ rest ∧ ∀ rest', Alike rest rest' →
      t.head? ≠ some (.scalar '.') ∧ readExponent (w ++ rest') = (exponent, rest') := by
  rcases readExponent_cases h with
    ⟨rfl, rfl⟩ | ⟨e, sign, digits, he, hsign, hne, hdigits, hend, rfl, rfl⟩
  · refine ⟨[], rfl, fun rest' hrest =>
      ⟨hrest.head?_ne rfl, readExponent_of_head? fun e he => ?_⟩⟩
    rw [List.nil_append, ← hrest.1] at he
    constructor
    · rintro rfl
      exact hrest.head?_ne rfl he
    · rintro rfl
      exact hrest.head?_ne rfl he
  · refine ⟨e :: (sign ++ digits), ?_, fun rest' hrest => ⟨?_, ?_⟩⟩
    · rw [List.cons_append, List.append_assoc]
    · rintro hpoint
      rw [List.head?_cons, Option.some_inj] at hpoint
      rcases he with rfl | rfl <;> exact absurd hpoint (by decide)
    · rw [List.cons_append, List.append_assoc]
      exact readExponent_of_isDigit he hsign hne hdigits (hrest.1 ▸ hend)

theorem readFraction_append {fraction : Text} (h : readFraction t = (fraction, rest)) :
    ∃ w, t = w ++ rest ∧ ∀ rest' : Text, rest.head? = rest'.head? →
      rest.head? ≠ some (.scalar '.') → readFraction (w ++ rest') = (fraction, rest') := by
  rcases readFraction_cases h with ⟨rfl, rfl⟩ | ⟨hne, hdigits, hend, rfl⟩
  · exact ⟨[], rfl, fun rest' hhead hpoint => readFraction_of_head? (hhead ▸ hpoint)⟩
  · exact ⟨.scalar '.' :: fraction, rfl, fun rest' hhead _ =>
      readFraction_of_isDigit hne hdigits (hhead ▸ hend)⟩

theorem splitSign_of_isDigit {sign : Text} (hsign : IsSign sign) {d : CodePoint}
    (hd : isDigit d = true) (u : Text) :
    splitSign (sign ++ d :: u) = (decide (sign = [.scalar '-']), d :: u) := by
  refine splitSign_append hsign fun hminus => ?_
  rw [List.head?_cons, Option.some_inj] at hminus
  rw [hminus] at hd
  exact absurd hd (by decide)

/-- A number that is read begins with a digit, perhaps behind a minus, and is read in front of any
other text that does not continue it. -/
theorem readNumber_append {v : Value} (h : readNumber t = .ok (v, rest)) :
    ∃ sign d w, IsSign sign ∧ isDigit d = true ∧ t = sign ++ d :: (w ++ rest) ∧
      ∀ rest', Alike rest rest' → readNumber (sign ++ d :: (w ++ rest')) = .ok (v, rest') := by
  rcases hsign : splitSign t with ⟨negative, u⟩
  rcases hwhole : readWhole u with ⟨whole, r⟩
  rcases hfraction : readFraction r with ⟨fraction, r'⟩
  rcases hexponent : readExponent r' with ⟨exponent, r''⟩
  rw [readNumber_eq hsign hwhole hfraction hexponent] at h
  split at h
  case isTrue => cases h
  case isFalse hne =>
    cases hnumber : numberOf negative whole fraction exponent with
    | error e =>
        rw [hnumber] at h
        cases h
    | ok v' =>
        rw [hnumber] at h
        obtain ⟨rfl, rfl⟩ := Prod.mk.inj (Except.ok.inj h)
        obtain ⟨sign, hissign, ht, hnegative⟩ := splitSign_cases t
        obtain ⟨w₃, rfl, hexponent'⟩ := readExponent_append hexponent
        obtain ⟨w₂, rfl, hfraction'⟩ := readFraction_append hfraction
        obtain ⟨rfl, hwhole'⟩ := readWhole_append hwhole
        obtain ⟨d, whole, rfl⟩ := List.exists_cons_of_ne_nil hne
        have hd := isDigit_of_readWhole hwhole d List.mem_cons_self
        rw [hsign] at ht hnegative
        refine ⟨sign, d, whole ++ (w₂ ++ w₃), hissign, hd, ?_, fun rest' hrest => ?_⟩
        · rw [ht]
          simp only [List.cons_append, List.append_assoc]
        · obtain ⟨hpoint, hread₃⟩ := hexponent' rest' hrest
          have hhead₃ := head?_append_congr hrest.1 w₃
          have hread₂ := hfraction' _ hhead₃ hpoint
          have hread₁ := hwhole' _ (head?_append_congr hhead₃ w₂)
          have hsign' := splitSign_of_isDigit hissign hd (whole ++ (w₂ ++ (w₃ ++ rest')))
          rw [← hnegative] at hsign'
          simp only [List.append_assoc]
          rw [readNumber_eq hsign' hread₁ hread₂ hread₃, if_neg hne, hnumber]
          rfl

end Locality

section Limits

variable {t : Text}

/-- A text begins with an integer of more digits than can be read. -/
def BeginsTooLong (t : Text) : Prop :=
  ∃ sign digits rest, IsSign sign ∧ (∀ d ∈ digits, isDigit d = true) ∧
    digits.head? ≠ some (.scalar '0') ∧ Numeral.maxDigits < digits.length ∧
    ¬ NumberGoesOn rest ∧ t = sign ++ (digits ++ rest)

theorem BeginsTooLong.exists_isDigit (h : BeginsTooLong t) :
    ∃ sign d u, IsSign sign ∧ isDigit d = true ∧ t = sign ++ d :: u := by
  obtain ⟨sign, digits, rest, hsign, hdigits, -, hlong, -, rfl⟩ := h
  obtain ⟨d, digits, rfl⟩ : ∃ d more, digits = d :: more :=
    List.exists_cons_of_length_pos (Nat.zero_lt_of_lt hlong)
  exact ⟨sign, d, digits ++ rest, hsign, hdigits d List.mem_cons_self, rfl⟩

theorem readNumber_of_beginsTooLong (h : BeginsTooLong t) :
    ∃ n, readNumber t = .error (.tooManyDigits n) := by
  obtain ⟨sign, digits, rest, hsign, hdigits, hzero, hlong, hend, rfl⟩ := h
  obtain ⟨hstop, hfraction, hexponent⟩ := not_numberGoesOn_iff.1 hend
  obtain ⟨d, digits, rfl⟩ : ∃ d more, digits = d :: more :=
    List.exists_cons_of_length_pos (Nat.zero_lt_of_lt hlong)
  have hsplit := splitSign_of_isDigit hsign (hdigits d List.mem_cons_self) (digits ++ rest)
  have hwhole := readWhole_of_isDigit hdigits hstop hzero
  refine ⟨(d :: digits).length, ?_⟩
  rcases hread : readFraction rest with ⟨fraction, r⟩
  rcases readFraction_cases hread with ⟨rfl, rfl⟩ | ⟨hne, -⟩
  · rcases hread' : readExponent r with ⟨exponent, r'⟩
    rw [hread'] at hexponent
    rw [List.cons_append, readNumber_eq hsplit hwhole hread hread', if_neg (List.cons_ne_nil d _),
      numberOf, if_pos ⟨rfl, hexponent⟩, if_pos hlong]
    rfl
  · rw [hread] at hfraction
    exact absurd hfraction hne

/-- No number is read where none begins, or where an integer begins that has too many digits. -/
theorem readNumber_error {e : ReadError} (h : readNumber t = .error e) :
    e = .malformed .expectingValue t ∨ (∃ n, e = .tooManyDigits n) ∧ BeginsTooLong t := by
  rcases hsign : splitSign t with ⟨negative, u⟩
  rcases hwhole : readWhole u with ⟨whole, r⟩
  rcases hfraction : readFraction r with ⟨fraction, r'⟩
  rcases hexponent : readExponent r' with ⟨exponent, r''⟩
  rw [readNumber_eq hsign hwhole hfraction hexponent] at h
  split at h
  case isTrue => exact .inl (Except.error.inj h).symm
  case isFalse hne =>
    unfold numberOf at h
    split at h
    case isFalse => cases h
    case isTrue hinteger =>
      obtain ⟨rfl, rfl⟩ := hinteger
      split at h
      case isFalse => cases h
      case isTrue hlong =>
        obtain ⟨sign, hissign, ht, -⟩ := splitSign_cases t
        have hnone : r' = r := by
          rcases readFraction_cases hfraction with ⟨-, hr⟩ | ⟨hsome, -⟩
          · exact hr
          · exact absurd rfl hsome
        obtain ⟨rfl, rfl | ⟨hzero, hdigits, hstop⟩⟩ := readWhole_cases hwhole
        · exact absurd hlong (by decide)
        · have hhead : whole.head? ≠ some (.scalar '0') := by
            intro hhead
            rw [List.head?_append, hhead] at hzero
            exact hzero rfl
          have hend : ¬ NumberGoesOn r := not_numberGoesOn_iff.2
            ⟨hstop, by rw [hfraction], by rw [← hnone, hexponent]⟩
          rw [hsign] at ht
          exact .inr ⟨⟨whole.length, (Except.error.inj h).symm⟩,
            sign, whole, r, hissign, hdigits, hhead, hlong, hend, ht⟩

end Limits

end VersionedProperties.Json
