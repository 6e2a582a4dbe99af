import RangeAlgebra.Proofs.Index.Queries
import RangeAlgebra.Proofs.Set.Lists
import RangeAlgebra.RangeSet.Algebra

/-!
What the set algebra gives. A collection enters an operation only with its ranges, and the index in
which the operation is carried out covers exactly the positions that it should. The index is copied
into a set, so the result is canonical, and the canonical form leaves no choice: it depends on the
positions that the operands cover and on nothing else about them.
-/

namespace RangeAlgebra

universe u

variable {α : Type u} [Ord α] [DecidableEq α]

namespace RangeCollection

/-- A position is in the collection when one of its ranges covers it. -/
def Covers (collection : RangeCollection α) (cut : Cut α) : Prop :=
  ∃ range ∈ collection.ranges, range.Covers cut

def WellFormed : RangeCollection α → Prop
  | .ofSet set => set.WellFormed
  | .ofIndex index => index.WellFormed

variable [Std.TransOrd α] [Std.LawfulEqOrd α] {collection : RangeCollection α}

theorem WellFormed.canonical (h : collection.WellFormed) :
    Range.IsCanonical collection.ranges := by
  cases collection with
  | ofSet set => exact RangeSet.Lists.canonical h
  | ofIndex index => exact RangeIndex.WellFormed.canonical h

theorem WellFormed.valid (h : collection.WellFormed) : ∀ range ∈ collection.ranges, range.Valid :=
  h.canonical.valid

theorem WellFormed.complement (h : collection.WellFormed) : collection.complement.WellFormed := by
  cases collection with
  | ofSet set => exact (RangeSet.Lists.complement h).wellFormed
  | ofIndex index => exact RangeIndex.WellFormed.complement h

theorem WellFormed.ranges_complement (h : collection.WellFormed) :
    collection.complement.ranges = Range.gapsFrom .belowAll collection.ranges := by
  cases collection with
  | ofSet set => exact (RangeSet.Lists.complement h).ranges_eq
  | ofIndex index => exact RangeIndex.WellFormed.ranges_complement h

theorem WellFormed.covers_complement (h : collection.WellFormed) (cut : Cut α) :
    collection.complement.Covers cut ↔ cut ≠ .aboveAll ∧ ¬ collection.Covers cut := by
  rw [Covers, h.ranges_complement]
  exact h.canonical.covered_gaps cut

theorem WellFormed.contains_iff (h : collection.WellFormed) (value : α) :
    collection.contains value = true ↔ collection.Covers (.below value) := by
  cases collection with
  | ofSet set => exact RangeSet.Lists.contains_iff h value
  | ofIndex index => exact RangeIndex.WellFormed.contains_iff h value

theorem WellFormed.isEmpty_iff (h : collection.WellFormed) :
    collection.isEmpty = true ↔ collection.ranges = [] := by
  cases collection with
  | ofSet set => exact RangeSet.Lists.isEmpty_iff h
  | ofIndex index => exact index.isEmpty_iff

theorem WellFormed.encloses_iff (h : collection.WellFormed) {inner : Range α}
    (hvalid : inner.Valid) :
    collection.encloses inner = true ↔
      ∃ range ∈ collection.ranges, range.encloses inner = true := by
  cases collection with
  | ofSet set => exact RangeSet.Lists.encloses_iff h hvalid
  | ofIndex index => exact RangeIndex.WellFormed.encloses_iff h hvalid

/-- A single range encloses all positions only in the sequence of that range. -/
theorem WellFormed.encloses_all_iff (h : collection.WellFormed) :
    collection.encloses .all = true ↔ collection.ranges = [.all] := by
  rw [h.encloses_iff Range.valid_all]
  constructor
  · rintro ⟨range, hrange, hencloses⟩
    refine h.canonical.eq_all fun cut hend => ⟨range, hrange, ?_⟩
    have hall := (Range.covers_all_iff cut).mpr hend
    grind
  · intro hall
    rw [hall]
    exact ⟨.all, by simp, (Range.encloses_iff _ _).mpr ⟨Std.le_refl _, Std.le_refl _⟩⟩

end RangeCollection

namespace RangeSet

variable [Std.TransOrd α] [Std.LawfulEqOrd α]

/-- A copy lists the ranges of the collection, whether it shares their sequence or stores them
anew. -/
theorem lists_copyOf {collection : RangeCollection α} (h : collection.WellFormed) (label : Nat) :
    (copyOf collection label).Lists collection.ranges := by
  unfold copyOf
  by_cases hempty : collection.isEmpty = true
  · rw [if_pos hempty, h.isEmpty_iff.mp hempty]
    exact .empty
  · rw [if_neg hempty]
    by_cases hall : collection.encloses .all = true
    · rw [if_pos hall, h.encloses_all_iff.mp hall]
      exact .all
    · rw [if_neg hall]
      cases collection with
      | ofSet set =>
          by_cases hview : set.isPartialView = true
          · simp only [if_pos hview]
            exact lists_ofCanonical h.canonical label
          · simp only [if_neg hview]
            exact h
      | ofIndex index => exact lists_ofCanonical h.canonical label

/-- Copying an index gives a set of the same positions. -/
private theorem copyOf_index {index : RangeIndex α} (h : index.WellFormed) (label : Nat) :
    (copyOf (.ofIndex index) label).WellFormed ∧
      ∀ cut, (copyOf (.ofIndex index) label).Covers cut ↔ index.Covers cut := by
  have hcollection : (RangeCollection.ofIndex index).WellFormed := h
  have hlists := lists_copyOf hcollection label
  exact ⟨hlists.wellFormed, hlists.covers_iff⟩

theorem unionOf_spec {ranges : List (Range α)} (hvalid : ∀ range ∈ ranges, range.Valid)
    (label : Nat) :
    (unionOf ranges label).WellFormed ∧
      ∀ cut, (unionOf ranges label).Covers cut ↔ Range.Covered ranges cut := by
  have hindex := RangeIndex.wellFormed_ofRanges hvalid
  obtain ⟨hform, hcovers⟩ := copyOf_index hindex label
  exact ⟨hform, fun cut => (hcovers cut).trans (RangeIndex.covers_ofRanges_iff hvalid cut)⟩

variable {set : RangeSet α} {other : RangeCollection α}

theorem union_spec (h : set.WellFormed) (hother : other.WellFormed) (label : Nat) :
    (set.union other label).WellFormed ∧
      ∀ cut, (set.union other label).Covers cut ↔ set.Covers cut ∨ other.Covers cut := by
  have hvalid : ∀ range ∈ set.ranges ++ other.ranges, range.Valid := by
    intro range hrange
    rcases List.mem_append.mp hrange with hrange | hrange
    · exact h.valid range hrange
    · exact hother.valid range hrange
  obtain ⟨hform, hcovers⟩ := unionOf_spec hvalid label
  refine ⟨hform, fun cut => (hcovers cut).trans ?_⟩
  exact Range.covered_append set.ranges other.ranges cut

/-- What is left of a set when ranges are removed from an index of its ranges. -/
private theorem copyOf_removeAll (h : set.WellFormed) {removed : List (Range α)}
    (hvalid : ∀ range ∈ removed, range.Valid) (label : Nat) :
    let result := copyOf ((RangeIndex.ofRanges set.ranges).removeAll removed) label
    result.WellFormed ∧
      ∀ cut, result.Covers cut ↔ set.Covers cut ∧ ¬ Range.Covered removed cut := by
  have hindex := RangeIndex.wellFormed_ofRanges h.valid
  obtain ⟨hremoved, hleft⟩ := hindex.removeAll hvalid
  obtain ⟨hform, hcovers⟩ := copyOf_index hremoved label
  refine ⟨hform, fun cut => (hcovers cut).trans ?_⟩
  rw [hleft, RangeIndex.covers_ofRanges_iff h.valid]
  exact Iff.rfl

theorem difference_spec (h : set.WellFormed) (hother : other.WellFormed) (label : Nat) :
    (set.difference other label).WellFormed ∧
      ∀ cut, (set.difference other label).Covers cut ↔ set.Covers cut ∧ ¬ other.Covers cut :=
  copyOf_removeAll h hother.valid label

/-- The position after all elements is in no set, so removing the complement leaves exactly what
both cover. -/
theorem intersection_spec (h : set.WellFormed) (hother : other.WellFormed) (label : Nat) :
    (set.intersection other label).WellFormed ∧
      ∀ cut, (set.intersection other label).Covers cut ↔ set.Covers cut ∧ other.Covers cut := by
  obtain ⟨hform, hcovers⟩ := copyOf_removeAll h hother.complement.valid label
  refine ⟨hform, fun cut => (hcovers cut).trans ?_⟩
  have hcomplement := hother.covers_complement cut
  have hend : set.Covers cut → cut ≠ .aboveAll := fun hcut heq =>
    Range.not_covered_aboveAll set.ranges (heq ▸ hcut)
  rw [RangeCollection.Covers] at hcomplement
  rw [Range.Covered, hcomplement]
  grind

end RangeSet

end RangeAlgebra
