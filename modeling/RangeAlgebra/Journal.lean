import RangeAlgebra.Discrete.View
import RangeAlgebra.Json.Codec

/-!
What an observer is told about the work behind an operation. Each range that an index takes in
or gives up is reported with the number of ranges stored afterwards, empty ranges excepted; a
set built from collected ranges is reported once, and so is a view refused for an unbounded
end. The records of an operation depend on its operands alone, so they are functions beside the
operation rather than part of its result.
-/

namespace RangeAlgebra

universe u

inductive Record where
  | rangeAdded (stored : Nat)
  | rangeRemoved (stored : Nat)
  | setBuilt (ranges added : Nat)
  | unboundedBelow (ranges : Nat)
  | unboundedAbove (ranges : Nat)
deriving DecidableEq, Repr

def Record.line : Record → String
  | .rangeAdded stored => s!"TRACE range added, {stored} disjoint ranges stored"
  | .rangeRemoved stored => s!"TRACE range removed, {stored} disjoint ranges stored"
  | .setBuilt ranges added =>
      s!"TRACE built a range set of {ranges} ranges from {added} added ranges"
  | .unboundedBelow ranges =>
      s!"DEBUG discretization rejected: {ranges} ranges unbounded below"
  | .unboundedAbove ranges =>
      s!"DEBUG discretization rejected: {ranges} ranges unbounded above"

variable {α : Type u} [Ord α] [DecidableEq α]

namespace RangeIndex

def addAllRecords (index : RangeIndex α) : List (Range α) → List Record
  | [] => []
  | range :: rest =>
    let next := index.add range
    if range.isEmpty then next.addAllRecords rest
    else .rangeAdded next.size :: next.addAllRecords rest

def removeAllRecords (index : RangeIndex α) : List (Range α) → List Record
  | [] => []
  | range :: rest =>
    let next := index.remove range
    if range.isEmpty then next.removeAllRecords rest
    else .rangeRemoved next.size :: next.removeAllRecords rest

end RangeIndex

namespace Builder

def buildRecords (builder : Builder α) : List Record :=
  match builder.merged with
  | .ok ranges => [.setBuilt ranges.length builder.added.size]
  | .error _ => []

end Builder

namespace RangeSet

def copyOfRangesRecords (ranges : List (Range α)) : List Record :=
  match (∅ : Builder α).addAll ranges with
  | (builder, none) => builder.buildRecords
  | (_, some _) => []

def ofJsonRecords [JsonElement α] (json : Json) : List Record :=
  match json with
  | .array items =>
    match items.mapM Range.ofJson with
    | .ok ranges => copyOfRangesRecords (α := α) ranges
    | .error _ => []
  | _ => []

def unionOfRecords (ranges : List (Range α)) : List Record :=
  (∅ : RangeIndex α).addAllRecords ranges

def unionRecords (set : RangeSet α) (other : RangeCollection α) : List Record :=
  unionOfRecords (set.ranges ++ other.ranges)

def intersectionRecords (set : RangeSet α) (other : RangeCollection α) : List Record :=
  unionOfRecords set.ranges ++
    (RangeIndex.ofRanges set.ranges).removeAllRecords other.complement.ranges

def differenceRecords (set : RangeSet α) (other : RangeCollection α) : List Record :=
  unionOfRecords set.ranges ++
    (RangeIndex.ofRanges set.ranges).removeAllRecords other.ranges

def asViewRecords (set : RangeSet α) (domain : DiscreteDomain α) : List Record :=
  match set.asView domain with
  | .error .unboundedBelow => [.unboundedBelow set.rangeCount]
  | .error .unboundedAbove => [.unboundedAbove set.rangeCount]
  | _ => []

end RangeSet

namespace Range

def setUnionRecords (a b : Range α) : List Record :=
  RangeSet.unionOfRecords [a, b]

def setDifferenceRecords (a b : Range α) : List Record :=
  (RangeSet.ofRange a).differenceRecords (RangeSet.ofRange b)

end Range

namespace DiscreteView

def restrictRecords (view : DiscreteView α) (range : Range α) : List Record :=
  (view.set.restrict range).asViewRecords view.domain

def headSetRecords (view : DiscreteView α) (last : α) (inclusive : Bool) : List Record :=
  view.restrictRecords (.upTo last (.ofInclusive inclusive))

def tailSetRecords (view : DiscreteView α) (first : α) (inclusive : Bool) : List Record :=
  view.restrictRecords (.downTo first (.ofInclusive inclusive))

/-- Elements that name no range select nothing that could be unbounded. -/
def subSetRecords (view : DiscreteView α) (first : α) (firstInclusive : Bool) (last : α)
    (lastInclusive : Bool) : List Record :=
  match Range.between first (.ofInclusive firstInclusive) last (.ofInclusive lastInclusive) with
  | .ok range => view.restrictRecords range
  | .error _ => []

def intersectionRecords (a b : DiscreteView α) : List Record :=
  a.set.intersectionRecords b.set ++ (a.set.intersection b.set).asViewRecords a.domain

def unionRecords (a b : DiscreteView α) : List Record :=
  a.set.unionRecords b.set ++ (a.set.union b.set).asViewRecords a.domain

def differenceRecords (a b : DiscreteView α) : List Record :=
  a.set.differenceRecords b.set ++ (a.set.difference b.set).asViewRecords a.domain

def canonicalSetRecords (view : DiscreteView α) : List Record :=
  RangeSet.unionOfRecords view.canonicalRanges

/-- The enclosing view is put together first. -/
def isSubsetRecords (a b : DiscreteView α) : List Record :=
  b.canonicalSetRecords ++ a.canonicalSetRecords

def overlapsRecords (a b : DiscreteView α) : List Record :=
  a.canonicalSetRecords ++ b.canonicalSetRecords

end DiscreteView

end RangeAlgebra
