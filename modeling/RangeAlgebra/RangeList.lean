import RangeAlgebra.Listing

/-!
How the ranges of a set are kept. They are stored once, and what is derived from them by
restriction or complement is a description of the stored sequence that is read through when a
range is asked for. Windows only lie over stored sequences, where one would lie over another
view the ranges of that view are stored first, so a read passes through at most a window and a
complement.
-/

namespace RangeAlgebra

universe u

/-- A stored sequence and a window over one carry a label, chosen by whoever makes them. It has no
part in what the ranges are. It tells sequences apart that were made separately, while the
complement of a sequence is known by the sequence itself. -/
inductive RangeList (α : Type u) where
  | stored (label : Nat) (ranges : Array (Range α))
  /-- The `count` ranges of `parent` from position `start` on, cut to `restriction`. -/
  | window (label : Nat) (parent : RangeList α) (start count : Nat) (restriction : Range α)
  | complement (source : RangeList α)
deriving DecidableEq

namespace RangeList

variable {α : Type u}

/-- The complement of a complement is the sequence itself. -/
def flip : RangeList α → RangeList α
  | .complement source => source
  | list => .complement list

/-- The ranges are read through another sequence. -/
def isPartialView : RangeList α → Bool
  | .stored .. => false
  | .window .. | .complement _ => true

/-- How many descriptions a read passes through before it meets a stored sequence. -/
def viewDepth : RangeList α → Nat
  | .stored .. => 0
  | .window _ parent .. => parent.viewDepth + 1
  | .complement source => source.viewDepth + 1

variable [Ord α] [DecidableEq α]

def listing : RangeList α → Listing α
  | .stored _ ranges => .ofArray ranges
  | .window _ parent start count restriction => parent.listing.window start count restriction
  | .complement source => source.listing.gaps

/-- The ranges that share more than a touching point with `range`, cut to it, if there are any.
They are the ones after every range that ends no later than `range` starts and before the first
one that starts no earlier than it ends. -/
def restrict? (list : RangeList α) (range : Range α) (label : Nat) : Option (RangeList α) :=
  if range.isEmpty then none
  else
    let ranges := list.listing
    let start :=
      if range.hasLowerBound then
        (ranges.search range.lower Range.upper .firstAfter .nextHigher).toNat
      else 0
    let stop :=
      if range.hasUpperBound then
        (ranges.search range.upper Range.lower .first .nextHigher).toNat
      else ranges.length
    let count := stop - start
    if count = 0 then none
    else if list.isPartialView then
      some (.window label (.stored label (ranges.slice start count).toArray) 0 count range)
    else some (.window label list start count range)

end RangeList

end RangeAlgebra
