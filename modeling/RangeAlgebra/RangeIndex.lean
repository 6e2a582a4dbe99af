import RangeAlgebra.Error
import RangeAlgebra.OrderedMap

/-!
A set of positions that ranges are added to and removed from one after the other. The ranges are
filed under their lower cuts, none of them is empty and no two of them are connected, so a
position lies in at most one of them and the neighbours of a cut decide every query. Adding
absorbs the ranges that the new one is connected to; removing keeps what sticks out on either
side.
-/

namespace RangeAlgebra

universe u

structure RangeIndex (α : Type u) where
  byLowerCut : OrderedMap (Cut α) (Range α)
deriving DecidableEq, Hashable

/-- The gaps before, between and after ascending ranges, beginning at `lower`. -/
def Range.gapsFrom {α : Type u} [Ord α] [DecidableEq α] (lower : Cut α) :
    List (Range α) → List (Range α)
  | [] => if lower = .aboveAll then [] else [⟨lower, .aboveAll⟩]
  | range :: rest =>
      if lower < range.lower then ⟨lower, range.lower⟩ :: gapsFrom range.upper rest
      else gapsFrom range.upper rest

/-- The span of a range and its neighbour if they are connected, otherwise the range alone. -/
def Range.absorb {α : Type u} [Ord α] (range : Range α) (neighbour? : Option (Range α)) :
    Range α :=
  match neighbour? with
  | some neighbour => if neighbour.isConnected range then neighbour.span range else range
  | none => range

namespace RangeIndex

variable {α : Type u}

def empty : RangeIndex α :=
  ⟨∅⟩

instance : EmptyCollection (RangeIndex α) := ⟨empty⟩

def size (index : RangeIndex α) : Nat :=
  index.byLowerCut.size

def isEmpty (index : RangeIndex α) : Bool :=
  index.byLowerCut.isEmpty

/-- The ranges in ascending order. -/
def ranges (index : RangeIndex α) : List (Range α) :=
  index.byLowerCut.values

section Queries

variable [Ord α]

def rangeContaining? (index : RangeIndex α) (value : α) : Option (Range α) :=
  (index.byLowerCut.upTo? (.below value)).filter (·.contains value)

def contains (index : RangeIndex α) (value : α) : Bool :=
  (index.rangeContaining? value).isSome

/-- Of the ranges that start no earlier than `range` the first one overlaps it if any does, and
of those that start before it the last one. -/
def intersects [DecidableEq α] (index : RangeIndex α) (range : Range α) : Bool :=
  (index.byLowerCut.from? range.lower).any (·.overlaps range) ||
    (index.byLowerCut.before? range.lower).any (·.overlaps range)

/-- A single range encloses the given one. -/
def encloses (index : RangeIndex α) (range : Range α) : Bool :=
  (index.byLowerCut.upTo? range.lower).any (·.encloses range)

def span (index : RangeIndex α) : Except (Error α) (Range α) :=
  match index.byLowerCut.first?, index.byLowerCut.last? with
  | some first, some last => .ok (first.span last)
  | _, _ => .error .emptySpan

end Queries

/-- What the index is known by. -/
def fingerprint (index : RangeIndex α) : Nat × List (Range α) :=
  (index.size, index.ranges)

def quoted [Textual α] (index : RangeIndex α) : String :=
  Range.listText Textual.quoted index.ranges

section Changes

variable [Ord α]

/-- Files a range under its lower cut. -/
def file (index : RangeIndex α) (range : Range α) : RangeIndex α :=
  ⟨index.byLowerCut.insert range.lower range⟩

def eraseWithin (index : RangeIndex α) (range : Range α) : RangeIndex α :=
  ⟨index.byLowerCut.eraseWithin range.lower range.upper⟩

variable [DecidableEq α]

/-- Only the range before the new one can reach its lower cut, and only the last range that
starts within what they span can reach beyond it; all others are inside and give way. -/
def add (index : RangeIndex α) (range : Range α) : RangeIndex α :=
  if range.isEmpty then index
  else
    let joined := range.absorb (index.byLowerCut.before? range.lower)
    let joined := joined.absorb (index.byLowerCut.upTo? joined.upper)
    (index.eraseWithin joined).file joined

/-- Only the range before the removed one can stick out below it, and only the last range that
starts no later than its upper cut can stick out above it. -/
def remove (index : RangeIndex α) (range : Range α) : RangeIndex α :=
  if range.isEmpty then index
  else
    let below := ((index.byLowerCut.before? range.lower).filter (range.lower < ·.upper)).map
      fun stored => ⟨stored.lower, range.lower⟩
    let above := ((index.byLowerCut.upTo? range.upper).filter (range.upper < ·.upper)).map
      fun stored => ⟨range.upper, stored.upper⟩
    (below.toList ++ above.toList).foldl file (index.eraseWithin range)

def addAll (index : RangeIndex α) (ranges : List (Range α)) : RangeIndex α :=
  ranges.foldl add index

def removeAll (index : RangeIndex α) (ranges : List (Range α)) : RangeIndex α :=
  ranges.foldl remove index

/-- The union of the given ranges. -/
def ofRanges (ranges : List (Range α)) : RangeIndex α :=
  addAll ∅ ranges

/-- The positions in none of the ranges. -/
def complement (index : RangeIndex α) : RangeIndex α :=
  (Range.gapsFrom .belowAll index.ranges).foldl file ∅

end Changes

end RangeIndex

end RangeAlgebra
