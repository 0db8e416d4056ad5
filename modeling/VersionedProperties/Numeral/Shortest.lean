import VersionedProperties.Numeral.Binary64

/-!
# Shortest decimals

Every double precision number is read back from any decimal inside the interval of reals that round
to it. The shortest decimal of a number is the one on the coarsest grid of powers of ten that has a
point in this interval; of two such points it is the nearer one, and of two equally near ones the
one with an even last digit.
-/

namespace VersionedProperties.Binary64

/-- The interval of reals that round to a positive finite number, in units of `2 ^ (exponent - 2)`:
its lower end, the number and its upper end. The lower neighbour of a power of two is only half as
far away. -/
structure Interval where
  low : Nat
  value : Nat
  high : Nat
  closed : Bool
  deriving DecidableEq

/-- The interval around `mantissa * 2 ^ exponent`. It contains its ends if the mantissa is even. -/
def interval (mantissa : Nat) (exponent : Int) : Interval where
  low := if mantissa = Nat.pow 2 52 ∧ -1074 < exponent then 4 * mantissa - 1 else 4 * mantissa - 2
  value := 4 * mantissa
  high := 4 * mantissa + 2
  closed := mantissa % 2 = 0

/-- Whether `n / d` lies in the interval. -/
def Interval.has (i : Interval) (n d : Nat) : Bool :=
  if i.closed then i.low * d ≤ n && n ≤ i.high * d else i.low * d < n && n < i.high * d

/-- The multiple of `10 ^ k` that stands for `mantissa * 2 ^ exponent`, if one lies in the interval
of the number. -/
def pointOn? (mantissa : Nat) (exponent k : Int) : Option Nat :=
  let i := interval mantissa exponent
  -- `10 ^ k` in units of `2 ^ (exponent - 2)` is `num / den`
  let num := Nat.pow 10 k.toNat * Nat.pow 2 (2 - exponent).toNat
  let den := Nat.pow 10 (-k).toNat * Nat.pow 2 (exponent - 2).toNat
  let below := i.value * den / num
  match i.has (below * num) den, i.has ((below + 1) * num) den with
  | false, false => none
  | true, false => some below
  | false, true => some (below + 1)
  | true, true =>
    let down := i.value * den - below * num
    let up := (below + 1) * num - i.value * den
    if down < up then some below
    else if up < down then some (below + 1)
    else if below % 2 = 0 then some below else some (below + 1)

/-- The first grid with a point, from `10 ^ k` downwards through a number of grids. -/
def coarsest (mantissa : Nat) (exponent : Int) : (grids : Nat) → (k : Int) → Nat × Int
  | 0, k => (mantissa, k)
  | grids + 1, k =>
    match pointOn? mantissa exponent k with
    | some point => (point, k)
    | none => coarsest mantissa exponent grids (k - 1)

/-- The shortest decimal `digits * 10 ^ k` that is read back as `mantissa * 2 ^ exponent`. -/
def shortest (mantissa : Nat) (exponent : Int) : Nat × Int := coarsest mantissa exponent 634 309

end VersionedProperties.Binary64
