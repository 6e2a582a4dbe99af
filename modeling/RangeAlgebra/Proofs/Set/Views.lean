import RangeAlgebra.Proofs.Set.Reachable

/-!
What a restricted set is, however deep it is nested. A restriction reads its ranges through the
set's own sequence or through a stored part of it, and both give the ranges of the set cut to the
restriction. So restricting a restricted set depends on the two restrictions only by what they
share, and a restriction equals the intersection with the set of its range, which is computed in an
index and stored.
-/

namespace RangeAlgebra.RangeSet

universe u

variable {α : Type u} [Ord α] [Std.TransOrd α] [Std.LawfulEqOrd α] [DecidableEq α]

theorem WellFormed.beq_intersection_ofRange {set : RangeSet α} (h : set.WellFormed)
    {range : Range α} (hvalid : range.Valid) (label rangeLabel setLabel : Nat) :
    (set.restrict range label ==
      set.intersection (.ofSet (.ofRange range rangeLabel)) setLabel) = true := by
  have hrestricted := Lists.restrict h hvalid label
  have hrange : (RangeCollection.ofSet (ofRange range rangeLabel)).WellFormed :=
    (lists_ofRange hvalid rangeLabel).wellFormed
  obtain ⟨hform, hcovers⟩ := intersection_spec h hrange setLabel
  apply beq_of_covers_iff hrestricted.wellFormed hform
  intro cut
  rw [hrestricted.covers_iff, h.canonical.covered_within hvalid, hcovers]
  exact and_congr_right' (covers_ofRange_iff hvalid rangeLabel cut).symm

/-- A restricted set gives, position by position, what is left of the ranges of the set inside the
restriction. It equals the intersection with the set of that range. A second restriction leaves
what the two restrictions share of the first set, and nothing if they are not connected. -/
theorem restrict_exact {set : RangeSet α} (h : set.Reachable) {range : Range α}
    (hvalid : range.Valid) (label : Nat) :
    let view := set.restrict range label
    let shared := Range.within range set.ranges
    (view.ranges = shared ∧ view.rangeCount = shared.length ∧
        ∀ i, view.listing.get? i = shared[i]?) ∧
      (∀ rangeLabel setLabel,
        (view == set.intersection (.ofSet (.ofRange range rangeLabel)) setLabel) = true) ∧
      ∀ other : Range α, other.Valid → ∀ otherLabel,
        (∀ both, range.intersection other = some both → ∀ bothLabel,
          (view.restrict other otherLabel == set.restrict both bothLabel) = true) ∧
        (range.intersection other = none → view.restrict other otherLabel = .empty) := by
  intro view shared
  have hset := h.wellFormed
  have hview : view.Lists shared := Lists.restrict hset hvalid label
  refine ⟨⟨hview.ranges_eq, hview.rangeCount_eq, ?_⟩, ?_, ?_⟩
  · intro i
    rw [hview.listing_eq, Listing.get?_ofList]
  · exact hset.beq_intersection_ofRange hvalid label
  · intro other hother otherLabel
    have htwice := hview.restrict hother otherLabel
    constructor
    · intro both hboth bothLabel
      have honce := Lists.restrict hset (hvalid.intersection hother hboth) bothLabel
      rw [beq_iff, htwice.ranges_eq, honce.ranges_eq]
      exact hset.canonical.within_within hvalid hother hboth
    · intro hnone
      rw [htwice.eq_empty_iff]
      exact hset.canonical.within_within_eq_nil hvalid hother
        (Range.apart_of_intersection_eq_none hnone)

/-- The restricted set is the complement of a window. The second restriction starts inside a gap and
has no end, and a third range only touches the first. -/
theorem restrict_exact_nested :
    let parts : RangeSet Int := .unionOf [⟨.below 1, .below 4⟩, ⟨.above 6, .above 9⟩] 1
    let gaps := (parts.restrict ⟨.below 2, .aboveAll⟩ 2).complement
    let range : Range Int := ⟨.belowAll, .below 8⟩
    (gaps.restrict range 3).ranges = [⟨.belowAll, .below 2⟩, ⟨.below 4, .above 6⟩] ∧
      ((gaps.restrict range 3).restrict ⟨.above 2, .aboveAll⟩ 4 ==
        gaps.restrict ⟨.above 2, .below 8⟩ 5) = true ∧
      (gaps.restrict range 3).restrict ⟨.above 8, .aboveAll⟩ 6 = .empty := by
  intro parts gaps range
  have hparts : parts.Reachable := RangeCollection.Reachable.unionOf (by decide) 1
  have hgaps : gaps.Reachable := (hparts.restrict (by decide) 2).complement
  have hvalid : range.Valid := by decide
  obtain ⟨⟨hranges, -⟩, -, htwice⟩ := restrict_exact hgaps hvalid 3
  refine ⟨hranges.trans ?_, ?_, ?_⟩
  · decide +kernel
  · exact (htwice ⟨.above 2, .aboveAll⟩ (by decide) 4).1 _ rfl 5
  · exact (htwice ⟨.above 8, .aboveAll⟩ (by decide) 6).2 rfl

end RangeAlgebra.RangeSet
