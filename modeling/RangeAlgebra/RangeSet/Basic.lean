import RangeAlgebra.RangeList
import RangeAlgebra.Text

/-!
A set of positions as its canonical sequence of ranges: ascending, none of them empty and no
two of them connected. The empty set and the set of all positions are cases of their own; every
other set reads its ranges from a list, which may be a view of a stored one. Queries search the
sequence instead of scanning it.
-/

namespace RangeAlgebra

universe u

/-- The list of a set is never without ranges and never the single range of all positions. -/
inductive RangeSet (α : Type u) where
  | empty
  | all
  | listed (list : RangeList α)

namespace RangeSet

variable {α : Type u}

instance : EmptyCollection (RangeSet α) := ⟨empty⟩

def isEmpty : RangeSet α → Bool
  | .empty => true
  | .all | .listed _ => false

def isAll : RangeSet α → Bool
  | .all => true
  | .empty | .listed _ => false

/-- The set in the other polarity; the ranges stay where they are. -/
def complement : RangeSet α → RangeSet α
  | .empty => .all
  | .all => .empty
  | .listed list => .listed list.flip

def isPartialView : RangeSet α → Bool
  | .empty | .all => false
  | .listed list => list.isPartialView

/-- Both are the empty set, both are the set of all positions, or both read the same sequence in
the same way. Sets with equal ranges that were made separately are not the same instance. -/
def sameInstance [DecidableEq α] : RangeSet α → RangeSet α → Bool
  | .empty, .empty | .all, .all => true
  | .listed a, .listed b => a = b
  | _, _ => false

variable [Ord α] [DecidableEq α]

def listing : RangeSet α → Listing α
  | .empty => .ofArray #[]
  | .all => .ofArray #[.all]
  | .listed list => list.listing

def rangeCount (set : RangeSet α) : Nat :=
  set.listing.length

/-- The canonical ranges in ascending order. -/
def ranges (set : RangeSet α) : List (Range α) :=
  set.listing.toList

/-- A position is in the set when one of its ranges covers it. -/
def Covers (set : RangeSet α) (cut : Cut α) : Prop :=
  ∃ range ∈ set.ranges, range.Covers cut

/-- The set of a sequence that is already canonical. -/
def ofCanonical (ranges : List (Range α)) (label : Nat := 0) : RangeSet α :=
  if ranges.isEmpty then .empty
  else if ranges = [.all] then .all
  else .listed (.stored label ranges.toArray)

def ofRange (range : Range α) (label : Nat := 0) : RangeSet α :=
  if range.isEmpty then .empty
  else if range.isAll then .all
  else .listed (.stored label #[range])

section Queries

def intersects (set : RangeSet α) (range : Range α) : Bool :=
  match set with
  | .empty => false
  | .all => !range.isEmpty
  | .listed list => list.listing.intersects range

/-- A single range of the set encloses the given one. -/
def encloses (set : RangeSet α) (range : Range α) : Bool :=
  match set with
  | .empty => false
  | .all => true
  | .listed list => list.listing.encloses range

def rangeContaining? (set : RangeSet α) (value : α) : Option (Range α) :=
  match set with
  | .empty => none
  | .all => some .all
  | .listed list => list.listing.rangeContaining? value

def contains (set : RangeSet α) (value : α) : Bool :=
  (set.rangeContaining? value).isSome

def span (set : RangeSet α) : Except (Error α) (Range α) :=
  set.listing.span?.elim (.error .emptySpan) .ok

end Queries

/-- What the set shares with `range`. A range that encloses the span leaves the set as it is; what
any other range cuts out is read through the set's own sequence. -/
def restrict (set : RangeSet α) (range : Range α) (label : Nat := 0) : RangeSet α :=
  match set with
  | .empty => .empty
  | .all => ofRange range label
  | .listed list =>
    match list.listing.span? with
    | none => .empty
    | some span =>
      if range.encloses span then .listed list
      else if range.isConnected span then (list.restrict? range label).elim .empty .listed
      else .empty

/-- What a set is known by, whatever its ranges are read through. -/
def fingerprint (set : RangeSet α) : Nat × List (Range α) :=
  (set.rangeCount, set.ranges)

instance : BEq (RangeSet α) where
  beq a b := a.sameInstance b || a.ranges == b.ranges

instance [Hashable α] : Hashable (RangeSet α) where
  hash set := hash set.fingerprint

def quoted [Textual α] (set : RangeSet α) : String :=
  Range.listText Textual.quoted set.ranges

def plain [Textual α] (set : RangeSet α) : String :=
  Range.listText Textual.plain set.ranges

end RangeSet

end RangeAlgebra
