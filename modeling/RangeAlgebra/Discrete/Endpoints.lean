import RangeAlgebra.Discrete.Domain

/-!
Cuts and ranges as a discrete domain sees them. The cut above a value and the cut below the
next one enclose the same values, so among them one is preferred: an end just below a value of
the domain wherever there is such a value. The values of a range are counted in words of 64 bits.
-/

namespace RangeAlgebra

universe u

variable {α : Type u}

namespace Count

/-- The greatest count that a word holds. It stands for all sums that no word holds. -/
def greatest : Nat :=
  18446744073709551615

def add (a b : Nat) : Nat :=
  min (a + b) greatest

/-- The word with the bits of a number of steps, which is the number itself unless the steps go
down. -/
def ofSteps (steps : Int) : Nat :=
  (steps % (greatest + 1)).toNat

end Count

namespace Cut

def leastValueAbove (cut : Cut α) (domain : DiscreteDomain α) : Option α :=
  match cut with
  | .belowAll => domain.least?
  | .below value => some value
  | .above value => domain.next value
  | .aboveAll => none

def greatestValueBelow (cut : Cut α) (domain : DiscreteDomain α) : Option α :=
  match cut with
  | .belowAll => none
  | .below value => domain.previous value
  | .above value => some value
  | .aboveAll => domain.greatest?

/-- A cut with no next value above it is as good as the one above all values, and the cut below
all values is the one below the least value if there is one. -/
def canonical (cut : Cut α) (domain : DiscreteDomain α) : Cut α :=
  match cut with
  | .belowAll => domain.least?.elim .belowAll .below
  | .above value => (domain.next value).elim .aboveAll .below
  | .below value => .below value
  | .aboveAll => .aboveAll

end Cut

namespace Range

/-- Ranges of the same values have the same canonical form, if they have values at all. A range that
starts above all values becomes the empty range at its own lower cut. -/
def canonical [DecidableEq α] (range : Range α) (domain : DiscreteDomain α) : Range α :=
  let lower := range.lower.canonical domain
  let upper := range.upper.canonical domain
  if lower = range.lower ∧ upper = range.upper then range
  else if lower = .aboveAll then ⟨range.lower, range.lower⟩
  else ⟨lower, upper⟩

/-- The first and the last value of the domain in the range. -/
def endpoints? [Ord α] (range : Range α) (domain : DiscreteDomain α) : Option (α × α) := do
  let low ← range.lower.leastValueAbove domain
  let high ← range.upper.greatestValueBelow domain
  if (compare low high).isLE then some (low, high) else none

/-- The number of values of the domain in the range. -/
def valueCount [Ord α] (range : Range α) (domain : DiscreteDomain α) : Nat :=
  (range.endpoints? domain).elim 0 fun (low, high) =>
    Count.add (Count.ofSteps (domain.distance low high)) 1

end Range

end RangeAlgebra
