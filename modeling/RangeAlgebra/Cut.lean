/-!
The positions between the elements of an ordered type. Each element has a cut just below it
and one just above it, and there is a cut before all elements and one after them. Ranges are
pairs of cuts, so whether an end is open, closed or infinite is decided here once and the rest
of the library only compares positions.
-/

namespace RangeAlgebra

universe u

/-- How a range treats the element at one of its ends. -/
inductive BoundType where
  | exclusive
  | inclusive
deriving DecidableEq, Repr

def BoundType.ofInclusive (inclusive : Bool) : BoundType :=
  if inclusive then .inclusive else .exclusive

/-- A position in an ordered type that no element occupies. -/
inductive Cut (α : Type u) where
  | belowAll
  | below (value : α)
  | above (value : α)
  | aboveAll
deriving DecidableEq, Hashable, Repr

namespace Cut

variable {α : Type u}

/-- The element that a cut adjoins; the two infinite cuts adjoin none. -/
def endpoint? : Cut α → Option α
  | .below value | .above value => some value
  | .belowAll | .aboveAll => none

def isBounded (cut : Cut α) : Bool :=
  cut.endpoint?.isSome

/-- As the lower end of a range, a cut below an element keeps that element in the range. -/
def lowerBoundType? : Cut α → Option BoundType
  | .below _ => some .inclusive
  | .above _ => some .exclusive
  | .belowAll | .aboveAll => none

/-- As the upper end of a range, a cut above an element keeps that element in the range. -/
def upperBoundType? : Cut α → Option BoundType
  | .below _ => some .exclusive
  | .above _ => some .inclusive
  | .belowAll | .aboveAll => none

/-- Cuts at different elements are ordered as the elements are. At one element the cut below
it comes first, and no cut lies between the two. -/
protected def compare [Ord α] : Cut α → Cut α → Ordering
  | .belowAll, .belowAll | .aboveAll, .aboveAll => .eq
  | .belowAll, _ | _, .aboveAll => .lt
  | .aboveAll, _ | _, .belowAll => .gt
  | .below a, .below b | .above a, .above b => compare a b
  | .below a, .above b => (compare a b).then .lt
  | .above a, .below b => (compare a b).then .gt

instance [Ord α] : Ord (Cut α) := ⟨Cut.compare⟩
instance [Ord α] : LE (Cut α) := leOfOrd
instance [Ord α] : LT (Cut α) := ltOfOrd
instance [Ord α] : DecidableLE (Cut α) := fun a b => instDecidableRelLe a b
instance [Ord α] : DecidableLT (Cut α) := fun a b => instDecidableRelLt a b
instance [Ord α] : Min (Cut α) := .leftLeaningOfLE _
instance [Ord α] : Max (Cut α) := .leftLeaningOfLE _

/-- Whether a cut comes before an element. -/
def isLessThan [Ord α] : Cut α → α → Bool
  | .belowAll, _ => true
  | .aboveAll, _ => false
  | .below bound, value => (compare bound value).isLE
  | .above bound, value => (compare bound value).isLT

end Cut

/-- The cut that opens a range at `value`. -/
def BoundType.lowerCut {α : Type u} : BoundType → α → Cut α
  | .exclusive, value => .above value
  | .inclusive, value => .below value

/-- The cut that closes a range at `value`. -/
def BoundType.upperCut {α : Type u} : BoundType → α → Cut α
  | .exclusive, value => .below value
  | .inclusive, value => .above value

end RangeAlgebra
