import RangeAlgebra.Range.Constructors
import RangeAlgebra.Search

/-!
A sequence of ranges that is read by position and need not be stored. A window shows a stretch
of another sequence with its two ends cut to a range, and the gaps of a sequence are read off
its neighbouring ranges, so both cost a few reads however long the sequence is. A read has no
answer outside the sequence or where the ranges behind it fit no range; in ascending,
disconnected sequences only the first happens.
-/

namespace RangeAlgebra

universe u

structure Listing (α : Type u) where
  length : Nat
  get? : Nat → Option (Range α)

namespace Listing

variable {α : Type u}

def ofArray (ranges : Array (Range α)) : Listing α :=
  ⟨ranges.size, fun i => ranges[i]?⟩

/-- Positions below zero hold nothing, like those from the length on. -/
def at? (listing : Listing α) (position : Int) : Option (Range α) :=
  if position < 0 then none else listing.get? position.toNat

/-- The ranges at `count` positions beginning with `start`. -/
def slice (listing : Listing α) (start count : Nat) : List (Range α) :=
  (List.range' start count).filterMap listing.get?

def toList (listing : Listing α) : List (Range α) :=
  listing.slice 0 listing.length

def first? (listing : Listing α) : Option (Range α) :=
  listing.get? 0

def last? (listing : Listing α) : Option (Range α) :=
  listing.get? (listing.length - 1)

/-- From the lower cut of the first range to the upper cut of the last one. -/
def span? (listing : Listing α) : Option (Range α) := do
  return ⟨(← listing.first?).lower, (← listing.last?).upper⟩

variable [Ord α]

/-- The `count` ranges from position `start` on, of which the first and the last are cut to
`restriction`. Those between them are taken to lie inside it. -/
def window (listing : Listing α) (start count : Nat) (restriction : Range α) : Listing α where
  length := count
  get? i :=
    if i < count then do
      let range ← listing.get? (start + i)
      if i = 0 ∨ i + 1 = count then range.intersection restriction else return range
    else none

/-- The gaps before, between and after the ranges. A gap runs from the end of the range before
it to the start of the range after it. There is one before the first range only if that range
is bounded below, and one after the last range only if that one is bounded above. -/
def gaps [DecidableEq α] (listing : Listing α) : Listing α :=
  let leading := listing.first?.any (·.hasLowerBound)
  let trailing := listing.last?.any (·.hasUpperBound)
  let count := listing.length - 1 + leading.toNat + trailing.toNat
  { length := count
    get? := fun i =>
      if i < count then do
        let lower ←
          if leading && i = 0 then some .belowAll
          else (listing.get? (i - leading.toNat)).map (·.upper)
        let upper ←
          if trailing && i + 1 = count then some .aboveAll
          else (listing.get? (i + (!leading).toNat)).map (·.lower)
        (Range.ofCuts lower upper).toOption
      else none }

/-- The position of a cut among the lower or upper cuts of the ranges. -/
def search (listing : Listing α) (key : Cut α) (cutOf : Range α → Cut α)
    (present : Search.Present) (absent : Search.Absent) : Int :=
  (Search.locate listing.length present absent fun i =>
    (listing.get? i).elim .lt fun range => compare key (cutOf range)).result

/-- The first range that starts no earlier than `range` or the one before it overlaps it. -/
def intersects [DecidableEq α] (listing : Listing α) (range : Range α) : Bool :=
  let ceiling := listing.search range.lower Range.lower .any .nextHigher
  (listing.at? ceiling).any (·.overlaps range) ||
    (listing.at? (ceiling - 1)).any (·.overlaps range)

/-- The last range that starts no later than `range` encloses it. -/
def encloses (listing : Listing α) (range : Range α) : Bool :=
  (listing.at? (listing.search range.lower Range.lower .any .nextLower)).any (·.encloses range)

def rangeContaining? (listing : Listing α) (value : α) : Option (Range α) :=
  (listing.at? (listing.search (.below value) Range.lower .any .nextLower)).filter
    (·.contains value)

end Listing

end RangeAlgebra
