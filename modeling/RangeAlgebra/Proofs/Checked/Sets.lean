import RangeAlgebra.Proofs.Checked.Queries
import RangeAlgebra.Proofs.Set.Restriction
import RangeAlgebra.RangeSet.Traversal

/-!
Queries, restrictions and traversals of a set in checked steps. Only a set that reads its ranges
from a list takes any steps at all: the empty set and the set of all positions answer at once, and a
complement is a set in the other polarity, which is made without reading a range. A traversal stays
between the two ends of the sequence wherever it is stepped from, so every range it reads is there.
-/

namespace RangeAlgebra

open Checked

variable {α : Type} [Ord α] [DecidableEq α]

namespace RangeSet

/-- The number of ranges is asked for before the first of them is read. -/
def checkedRanges (set : RangeSet α) : Checked α (List (Range α)) := do
  let count ← set.reader.length
  set.reader.slice 0 count

def checkedIntersects (set : RangeSet α) (range : Range α) : Checked α Bool :=
  match set with
  | .empty => return false
  | .all => return !range.isEmpty
  | .listed list => list.reader.intersects range

def checkedEncloses (set : RangeSet α) (range : Range α) : Checked α Bool :=
  match set with
  | .empty => return false
  | .all => return true
  | .listed list => list.reader.encloses range

def checkedRangeContaining? (set : RangeSet α) (value : α) : Checked α (Option (Range α)) :=
  match set with
  | .empty => return none
  | .all => return some .all
  | .listed list => list.reader.rangeContaining? value

def checkedSpan (set : RangeSet α) : Checked α (Except (Error α) (Range α)) :=
  match set with
  | .empty => return .error .emptySpan
  | .all => return .ok .all
  | .listed list => return .ok (← list.reader.span)

def checkedRestrict (set : RangeSet α) (range : Range α) (label : Nat := 0) :
    Checked α (RangeSet α) :=
  match set with
  | .empty => return .empty
  | .all => return ofRange range label
  | .listed list => do
    let span ← list.reader.span
    if range.encloses span then return .listed list
    else if range.isConnected span then
      return (← list.checkedRestrict? range label).elim .empty .listed
    else return .empty

variable [Std.TransOrd α] [Std.LawfulEqOrd α] {set : RangeSet α} {ranges : List (Range α)}

theorem Lists.checkedRanges_eq (h : set.Lists ranges) : set.checkedRanges = .ok ranges := by
  have hwithin : 0 + ranges.length ≤ ranges.length := Nat.le_of_eq (Nat.zero_add ranges.length)
  rw [checkedRanges, h.reads.length_eq, ok_bind, h.reads.slice_eq hwithin, List.drop_zero,
    List.take_length]

theorem WellFormed.checkedRanges_eq (h : set.WellFormed) :
    set.checkedRanges = .ok set.ranges :=
  Lists.checkedRanges_eq h

/-- A window that is longer than the sequence under it is found out. -/
example : (listed (.window 2 (.stored 1 #[⟨.below 1, .below (3 : Int)⟩]) 0 2 .all)).checkedRanges =
    .error (.position 1 1) :=
  rfl

theorem WellFormed.length_reader_eq (h : set.WellFormed) :
    set.reader.length = .ok set.rangeCount := by
  have hlists : set.Lists set.ranges := h
  rw [hlists.reads.length_eq, hlists.rangeCount_eq]

theorem Lists.checkedIntersects_eq (h : set.Lists ranges) {range : Range α}
    (hvalid : range.Valid) : set.checkedIntersects range = .ok (set.intersects range) := by
  cases h with
  | empty | all => rfl
  | listed h =>
      rw [checkedIntersects, intersects, h.listing_eq]
      exact h.reads.intersects_eq h.listable.canonical hvalid

theorem Lists.checkedEncloses_eq (h : set.Lists ranges) (range : Range α) :
    set.checkedEncloses range = .ok (set.encloses range) := by
  cases h with
  | empty | all => rfl
  | listed h =>
      rw [checkedEncloses, encloses, h.listing_eq]
      exact h.reads.encloses_eq h.listable.canonical range

theorem Lists.checkedRangeContaining?_eq (h : set.Lists ranges) (value : α) :
    set.checkedRangeContaining? value = .ok (set.rangeContaining? value) := by
  cases h with
  | empty | all => rfl
  | listed h =>
      rw [checkedRangeContaining?, rangeContaining?, h.listing_eq]
      exact h.reads.rangeContaining?_eq h.listable.canonical value

theorem Lists.checkedSpan_eq (h : set.Lists ranges) : set.checkedSpan = .ok set.span := by
  cases h with
  | empty | all => rfl
  | listed h =>
      obtain ⟨span, hread, hlisted⟩ :=
        h.reads.exists_span h.listable.canonical h.listable.ne_nil
      rw [checkedSpan, hread, RangeSet.span, RangeSet.listing, h.listing_eq, hlisted]
      rfl

theorem Lists.checkedRestrict_eq (h : set.Lists ranges) (range : Range α) (label : Nat) :
    set.checkedRestrict range label = .ok (set.restrict range label) := by
  cases h with
  | empty | all => rfl
  | listed h =>
      obtain ⟨span, hread, hlisted⟩ :=
        h.reads.exists_span h.listable.canonical h.listable.ne_nil
      rw [← h.listing_eq] at hlisted
      rw [checkedRestrict, hread, ok_bind, RangeSet.restrict, hlisted]
      dsimp only
      split
      · rfl
      · split
        · rw [h.checkedRestrict?_eq range label]
          rfl
        · rfl

end RangeSet

namespace Traversal

def checkedRemaining (traversal : Traversal α) : Checked α Nat := do
  require (traversal.front ≤ traversal.back) (.underflow traversal.back traversal.front)
  return traversal.remaining

/-- The position moves on before the range behind it is read. -/
def checkedNext (traversal : Traversal α) : Checked α (Option (Range α) × Traversal α) :=
  if traversal.front < traversal.back then do
    let front := traversal.front + 1
    require (1 ≤ front) (.underflow front 1)
    let range ← traversal.set.reader.get (front - 1)
    return (some range, { traversal with front := front })
  else return (none, traversal)

def checkedNextBack (traversal : Traversal α) : Checked α (Option (Range α) × Traversal α) :=
  if traversal.front < traversal.back then do
    require (1 ≤ traversal.back) (.underflow traversal.back 1)
    let back := traversal.back - 1
    let range ← traversal.set.reader.get back
    return (some range, { traversal with back := back })
  else return (none, traversal)

/-- The traversals of a set that steps at either end lead to, in any order. -/
inductive Through (set : RangeSet α) : Traversal α → Prop
  | start : Through set (.ofSet set)
  | next {traversal : Traversal α} (h : Through set traversal) : Through set traversal.next.2
  | nextBack {traversal : Traversal α} (h : Through set traversal) :
      Through set traversal.nextBack.2

/-- What is left lies within the sequence of the set. -/
structure Within (set : RangeSet α) (traversal : Traversal α) : Prop where
  set_eq : traversal.set = set
  front_le : traversal.front ≤ traversal.back
  back_le : traversal.back ≤ set.rangeCount

variable {set : RangeSet α} {traversal : Traversal α}

theorem Within.next (h : Within set traversal) : Within set traversal.next.2 := by
  unfold Traversal.next
  split
  · rename_i hlt
    exact ⟨h.set_eq, hlt, h.back_le⟩
  · exact h

theorem Within.nextBack (h : Within set traversal) : Within set traversal.nextBack.2 := by
  have hback := h.back_le
  unfold Traversal.nextBack
  split
  · rename_i hlt
    refine ⟨h.set_eq, ?_, ?_⟩
    · change traversal.front ≤ traversal.back - 1
      omega
    · change traversal.back - 1 ≤ set.rangeCount
      omega
  · exact h

theorem Through.within (h : Through set traversal) : Within set traversal := by
  induction h with
  | start => exact ⟨rfl, Nat.zero_le set.rangeCount, Nat.le_refl set.rangeCount⟩
  | next h ih => exact ih.next
  | nextBack h ih => exact ih.nextBack

theorem Within.checkedRemaining_eq (h : Within set traversal) :
    traversal.checkedRemaining = .ok traversal.remaining := by
  rw [checkedRemaining, require_of h.front_le]
  rfl

variable [Std.TransOrd α] [Std.LawfulEqOrd α]

/-- A position between the two that a traversal keeps is one of the set's sequence. -/
private theorem Within.get_eq (h : Within set traversal) (hset : set.WellFormed) {i : Nat}
    (hi : i < traversal.back) :
    ∃ range, traversal.set.reader.get i = .ok range ∧
      traversal.set.listing.get? i = some range := by
  have hlists : set.Lists set.ranges := hset
  have hback := h.back_le
  rw [hlists.rangeCount_eq] at hback
  have hrange := List.getElem?_eq_getElem (Nat.lt_of_lt_of_le hi hback)
  refine ⟨set.ranges[i], ?_, ?_⟩
  · rw [h.set_eq]
    exact hlists.reads.get_eq hrange
  · rw [h.set_eq, hlists.listing_eq, Listing.get?_ofList]
    exact hrange

theorem Within.checkedNext_eq (h : Within set traversal) (hset : set.WellFormed) :
    traversal.checkedNext = .ok traversal.next := by
  unfold checkedNext Traversal.next
  split
  · rename_i hlt
    obtain ⟨range, hread, hlisted⟩ := h.get_eq hset hlt
    dsimp only
    rw [require_of (Nat.le_add_left 1 traversal.front), ok_bind, Nat.add_sub_cancel, hread, hlisted]
    rfl
  · rfl

theorem Within.checkedNextBack_eq (h : Within set traversal) (hset : set.WellFormed) :
    traversal.checkedNextBack = .ok traversal.nextBack := by
  unfold checkedNextBack Traversal.nextBack
  split
  · rename_i hlt
    have hlast : traversal.back - 1 < traversal.back := by omega
    have hpositive : 1 ≤ traversal.back := by omega
    obtain ⟨range, hread, hlisted⟩ := h.get_eq hset hlast
    dsimp only
    rw [require_of hpositive, ok_bind, hread, hlisted]
    rfl
  · rfl

end Traversal

end RangeAlgebra
