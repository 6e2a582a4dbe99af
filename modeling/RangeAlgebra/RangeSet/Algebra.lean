import RangeAlgebra.RangeSet.Collection

/-!
The set algebra. Union, intersection and difference are made in an index, by adding and
removing the ranges of the operands one after the other, and the outcome is copied into a set.
A copy shares the sequence of a set that stores its own ranges and stores those of any other
collection, so a copy never depends on what its ranges were read through.
-/

namespace RangeAlgebra.RangeSet

universe u

variable {α : Type u} [Ord α] [DecidableEq α]

def copyOf (collection : RangeCollection α) (label : Nat := 0) : RangeSet α :=
  if collection.isEmpty then .empty
  else if collection.encloses .all then .all
  else
    match collection with
    | .ofSet set => if set.isPartialView then ofCanonical set.ranges label else set
    | .ofIndex index => ofCanonical index.ranges label

/-- The smallest set that encloses each of the ranges. -/
def unionOf (ranges : List (Range α)) (label : Nat := 0) : RangeSet α :=
  copyOf (RangeIndex.ofRanges ranges) label

def union (set : RangeSet α) (other : RangeCollection α) (label : Nat := 0) : RangeSet α :=
  unionOf (set.ranges ++ other.ranges) label

/-- What is left of the set without the complement of the other operand. -/
def intersection (set : RangeSet α) (other : RangeCollection α) (label : Nat := 0) :
    RangeSet α :=
  copyOf ((RangeIndex.ofRanges set.ranges).removeAll other.complement.ranges) label

def difference (set : RangeSet α) (other : RangeCollection α) (label : Nat := 0) :
    RangeSet α :=
  copyOf ((RangeIndex.ofRanges set.ranges).removeAll other.ranges) label

/-- An operation whose other operand is a single range takes the set of that range. -/
def withRange (operation : RangeSet α → RangeCollection α → Nat → RangeSet α) (set : RangeSet α)
    (range : Range α) (label : Nat := 0) : RangeSet α :=
  operation set (.ofSet (.ofRange range)) label

def enclosesAll (set : RangeSet α) (other : RangeCollection α) : Bool :=
  other.ranges.all set.encloses

def isSubset (a b : RangeSet α) : Bool :=
  b.enclosesAll a

def overlaps (a b : RangeSet α) : Bool :=
  a.ranges.any b.intersects

def isDisjoint (a b : RangeSet α) : Bool :=
  !a.overlaps b

end RangeAlgebra.RangeSet

namespace RangeAlgebra.Range

universe u

variable {α : Type u} [Ord α] [DecidableEq α]

/-- The set of what two ranges share, which is empty when they only touch. -/
def setIntersection (a b : Range α) (label : Nat := 0) : RangeSet α :=
  (a.intersection b).elim .empty fun shared => .ofRange shared label

def setUnion (a b : Range α) (label : Nat := 0) : RangeSet α :=
  .unionOf [a, b] label

def setDifference (a b : Range α) (label : Nat := 0) : RangeSet α :=
  (RangeSet.ofRange a).difference (RangeSet.ofRange b) label

def isSubset (a b : Range α) : Bool :=
  b.encloses a

def isDisjoint (a b : Range α) : Bool :=
  !a.overlaps b

end RangeAlgebra.Range
