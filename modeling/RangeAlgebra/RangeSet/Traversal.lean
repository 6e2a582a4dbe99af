import RangeAlgebra.RangeSet.Basic

/-!
Reading the ranges of a set one by one from either end. A traversal keeps the two positions
between which ranges are left, so steps at the two ends can alternate freely and meet without
giving a range twice.
-/

namespace RangeAlgebra

universe u

/-- The ranges at positions from `front` up to `back`, the latter excluded, are left. -/
structure Traversal (α : Type u) where
  set : RangeSet α
  front : Nat
  back : Nat

namespace Traversal

variable {α : Type u}

def remaining (traversal : Traversal α) : Nat :=
  traversal.back - traversal.front

/-- A lower and an upper bound on the number of ranges that are left. Both are exact. -/
def sizeHint (traversal : Traversal α) : Nat × Option Nat :=
  (traversal.remaining, some traversal.remaining)

variable [Ord α] [DecidableEq α]

def ofSet (set : RangeSet α) : Traversal α :=
  ⟨set, 0, set.rangeCount⟩

/-- The least range that is left, and what is left after it. -/
def next (traversal : Traversal α) : Option (Range α) × Traversal α :=
  if traversal.front < traversal.back then
    (traversal.set.listing.get? traversal.front,
      { traversal with front := traversal.front + 1 })
  else (none, traversal)

/-- The greatest range that is left, and what is left before it. -/
def nextBack (traversal : Traversal α) : Option (Range α) × Traversal α :=
  if traversal.front < traversal.back then
    (traversal.set.listing.get? (traversal.back - 1),
      { traversal with back := traversal.back - 1 })
  else (none, traversal)

theorem remaining_nextBack_lt {traversal after : Traversal α} {range : Range α}
    (h : traversal.nextBack = (some range, after)) : after.remaining < traversal.remaining := by
  unfold nextBack at h
  split at h
  · obtain ⟨-, rfl⟩ := Prod.mk.inj h
    change traversal.back - 1 - traversal.front < traversal.back - traversal.front
    omega
  · cases h

/-- The ranges that are left, each read at the back. -/
def descending (traversal : Traversal α) : List (Range α) :=
  match _ : traversal.nextBack with
  | (none, _) => []
  | (some range, after) => range :: after.descending
termination_by traversal.remaining
decreasing_by exact remaining_nextBack_lt ‹_›

end Traversal

/-- The canonical ranges in descending order. -/
def RangeSet.descendingRanges {α : Type u} [Ord α] [DecidableEq α] (set : RangeSet α) :
    List (Range α) :=
  (Traversal.ofSet set).descending

end RangeAlgebra
