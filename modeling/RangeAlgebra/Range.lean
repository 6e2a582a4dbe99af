import RangeAlgebra.Cut

/-!
A range is everything between two cuts. Two ranges are compared by their cuts alone: they
overlap when some position lies in both, and they are connected when they overlap or touch, so
that nothing lies between them. A range whose two cuts coincide is empty but still has a place
in the order, such as the range from just below 3 to just below 3.
-/

namespace RangeAlgebra

universe u

/-- What lies after `lower` and before `upper`. -/
structure Range (α : Type u) where
  lower : Cut α
  upper : Cut α
deriving DecidableEq, Hashable, Repr

namespace Range

variable {α : Type u}

/-- The range between the two infinite cuts. -/
def all : Range α :=
  ⟨.belowAll, .aboveAll⟩

def hasLowerBound (range : Range α) : Bool :=
  range.lower.isBounded

def hasUpperBound (range : Range α) : Bool :=
  range.upper.isBounded

def isEmpty [DecidableEq α] (range : Range α) : Bool :=
  range.lower = range.upper

def isAll [DecidableEq α] (range : Range α) : Bool :=
  range = all

section Order

variable [Ord α]

/-- The cuts of a range may coincide but are never inverted, and an infinite cut stands only on
its own side. -/
def Valid (range : Range α) : Prop :=
  range.lower ≤ range.upper ∧ range.lower ≠ .aboveAll ∧ range.upper ≠ .belowAll

/-- A range covers the positions from its lower cut up to its upper cut, the latter excluded.
An empty range covers none, and two touching ranges share none. -/
def Covers (range : Range α) (cut : Cut α) : Prop :=
  range.lower ≤ cut ∧ cut < range.upper

instance (range : Range α) (cut : Cut α) : Decidable (range.Covers cut) :=
  inferInstanceAs (Decidable (_ ∧ _))

/-- Ranges are ordered by their lower cut, then by their upper cut. -/
protected def compare (a b : Range α) : Ordering :=
  (compare a.lower b.lower).then (compare a.upper b.upper)

instance : Ord (Range α) := ⟨Range.compare⟩

def sort (ranges : List (Range α)) : List (Range α) :=
  ranges.mergeSort fun a b => (compare a b).isLE

def contains (range : Range α) (value : α) : Bool :=
  range.lower.isLessThan value && !range.upper.isLessThan value

def containsAll (range : Range α) (values : List α) : Bool :=
  values.all range.contains

def encloses (outer inner : Range α) : Bool :=
  outer.lower ≤ inner.lower && inner.upper ≤ outer.upper

/-- No position lies strictly between the two ranges. -/
def isConnected (a b : Range α) : Bool :=
  a.lower ≤ b.upper && b.lower ≤ a.upper

/-- The largest range that both enclose. Connected ranges have one; it is empty when they only
touch. -/
def intersection (a b : Range α) : Option (Range α) :=
  if a.isConnected b then some ⟨max a.lower b.lower, min a.upper b.upper⟩ else none

/-- The smallest range that encloses both. -/
def span (a b : Range α) : Range α :=
  ⟨min a.lower b.lower, max a.upper b.upper⟩

/-- What lies between two ranges that do not overlap; it is empty when they touch. -/
def gap (a b : Range α) : Option (Range α) :=
  if a.lower < b.upper && b.lower < a.upper then none
  else if a.lower < b.lower then some ⟨a.upper, b.lower⟩
  else some ⟨b.upper, a.lower⟩

/-- The ranges share more than a touching point. -/
def overlaps [DecidableEq α] (a b : Range α) : Bool :=
  (a.intersection b).any fun shared => !shared.isEmpty

end Order

end Range

end RangeAlgebra
