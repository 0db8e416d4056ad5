/-!
# Sets of code points as ranges

A class of code points that has no shorter rule is given as a list of ranges, both ends included.
-/

namespace VersionedProperties

/-- A set of numbers, as ranges with both ends included. -/
abbrev Ranges := List (Nat × Nat)

/-- Whether a number lies in one of the ranges. -/
def Ranges.has (ranges : Ranges) (n : Nat) : Bool :=
  ranges.any fun r => r.1 ≤ n && n ≤ r.2

@[simp] theorem Ranges.has_nil (n : Nat) : Ranges.has [] n = false := rfl

theorem Ranges.has_cons (r : Nat × Nat) (ranges : Ranges) (n : Nat) :
    Ranges.has (r :: ranges) n = ((r.1 ≤ n && n ≤ r.2) || Ranges.has ranges n) := rfl

end VersionedProperties
