import RangeAlgebra.Discrete.Endpoints
import RangeAlgebra.RangeSet.Algebra

/-!
A set of ranges as the set of values that a discrete domain has in it. Such a view exists when
every range can be walked from a first value to a last one, which only an unbounded end can
prevent. The view keeps the ranges: values are found by stepping through one range after the
other, and their number and positions are added up from the distances in the domain.
-/

namespace RangeAlgebra

universe u

structure DiscreteView (α : Type u) where
  set : RangeSet α
  domain : DiscreteDomain α

/-- Counts of values are not told apart from here on. -/
def DiscreteView.countCap : Nat :=
  2147483647

variable {α : Type u} [Ord α] [DecidableEq α]

/-- The values of the set in `domain`. The ends are judged after the span was brought into
canonical form, which bounds it below by the least value of the domain. -/
def RangeSet.asView (set : RangeSet α) (domain : DiscreteDomain α) :
    Except (Error α) (DiscreteView α) :=
  match set.span with
  | .error _ => .ok ⟨set, domain⟩
  | .ok span =>
    let span := span.canonical domain
    if !span.hasLowerBound then .error .unboundedBelow
    else if !span.hasUpperBound && domain.greatest?.isNone then .error .unboundedAbove
    else .ok ⟨set, domain⟩

namespace DiscreteView

def empty (domain : DiscreteDomain α) : DiscreteView α :=
  ⟨.empty, domain⟩

def size (view : DiscreteView α) : Nat :=
  min ((view.set.ranges.map (·.valueCount view.domain)).foldl Count.add 0) countCap

def isEmpty (view : DiscreteView α) : Bool :=
  view.size = 0

def isSingleton (view : DiscreteView α) : Bool :=
  view.size = 1

def contains (view : DiscreteView α) (value : α) : Bool :=
  view.set.contains value

/-- The number of values before `value`, of which `preceding` lie before the given ranges. -/
def indexFrom (domain : DiscreteDomain α) (value : α) (preceding : Nat) :
    List (Range α) → Option Nat
  | [] => none
  | range :: rest =>
    if range.contains value then
      (range.endpoints? domain).map fun (low, _) =>
        min (Count.add preceding (Count.ofSteps (domain.distance low value))) countCap
    else indexFrom domain value (Count.add preceding (range.valueCount domain)) rest

def indexOf (view : DiscreteView α) (value : α) : Option Nat :=
  indexFrom view.domain value 0 view.set.ranges

section Restriction

def restrict (view : DiscreteView α) (range : Range α) (label : Nat := 0) :
    Except (Error α) (DiscreteView α) :=
  (view.set.restrict range label).asView view.domain

/-- The values below `last`, and `last` itself if `inclusive`. -/
def headSet (view : DiscreteView α) (last : α) (inclusive : Bool) (label : Nat := 0) :
    Except (Error α) (DiscreteView α) :=
  view.restrict (.upTo last (.ofInclusive inclusive)) label

/-- The values above `first`, and `first` itself if `inclusive`. -/
def tailSet (view : DiscreteView α) (first : α) (inclusive : Bool) (label : Nat := 0) :
    Except (Error α) (DiscreteView α) :=
  view.restrict (.downTo first (.ofInclusive inclusive)) label

/-- The values between two, which name no range when they are equal and both left out; then
there are no such values. -/
def subSet (view : DiscreteView α) (first : α) (firstInclusive : Bool) (last : α)
    (lastInclusive : Bool) (label : Nat := 0) : Except (Error α) (DiscreteView α) :=
  if (compare first last).isGT then .error .invertedSelection
  else if first = last && !firstInclusive && !lastInclusive then
    RangeSet.empty.asView view.domain
  else do
    let range ← Range.between first (.ofInclusive firstInclusive) last (.ofInclusive lastInclusive)
    view.restrict range label

end Restriction

section Algebra

def intersection (a b : DiscreteView α) (label : Nat := 0) : Except (Error α) (DiscreteView α) :=
  (a.set.intersection b.set label).asView a.domain

def union (a b : DiscreteView α) (label : Nat := 0) : Except (Error α) (DiscreteView α) :=
  (a.set.union b.set label).asView a.domain

def difference (a b : DiscreteView α) (label : Nat := 0) : Except (Error α) (DiscreteView α) :=
  (a.set.difference b.set label).asView a.domain

def canonicalRanges (view : DiscreteView α) : List (Range α) :=
  view.set.ranges.map (·.canonical view.domain)

/-- Ranges in canonical form touch exactly when no value lies between them, so their union tells
views apart by their values. -/
def canonicalSet (view : DiscreteView α) : RangeSet α :=
  .unionOf view.canonicalRanges

def isSubset (a b : DiscreteView α) : Bool :=
  a.canonicalSet.isSubset b.canonicalSet

def overlaps (a b : DiscreteView α) : Bool :=
  a.canonicalSet.overlaps b.canonicalSet

def isDisjoint (a b : DiscreteView α) : Bool :=
  !a.overlaps b

end Algebra

def quoted [Textual α] (view : DiscreteView α) : String :=
  "AsSet(" ++ view.set.quoted ++ ")"

def plain [Textual α] (view : DiscreteView α) : String :=
  view.set.plain

end DiscreteView

end RangeAlgebra
