import RangeAlgebra.Proofs.Canonical
import RangeAlgebra.Proofs.Coverage.Shared

/-!
Sequences derived from a canonical one: its gaps, and what it shares with one more range. Both are
canonical again, and what they cover is said by the sequence they come from. Taking the gaps twice
gives the sequence back.
-/

namespace RangeAlgebra.Range

universe u

variable {α : Type u} [Ord α] [DecidableEq α]

/-- What is left of each range inside `restriction`, where that is not empty. -/
def within (restriction : Range α) (ranges : List (Range α)) : List (Range α) :=
  ranges.filterMap fun range => (range.intersection restriction).filter fun shared =>
    !shared.isEmpty

variable [Std.TransOrd α] [Std.LawfulEqOrd α]

/-- The invariant of the walk over the ranges: everything before `lower` is settled, and no range
that is left starts before it. -/
private theorem gapsFrom_invariant {lower : Cut α} {ranges : List (Range α)}
    (h : IsCanonical ranges) (hlower : ∀ range ∈ ranges, lower ≤ range.lower) :
    IsCanonical (gapsFrom lower ranges) ∧
      (∀ gap ∈ gapsFrom lower ranges, lower ≤ gap.lower) ∧
      ∀ cut, Covered (gapsFrom lower ranges) cut ↔
        lower ≤ cut ∧ cut ≠ .aboveAll ∧ ¬ Covered ranges cut := by
  induction ranges generalizing lower with
  | nil =>
      have hle := Cut.le_aboveAll lower
      by_cases hend : lower = .aboveAll
      · refine ⟨?_, ?_, ?_⟩
        · simpa [gapsFrom, hend] using isCanonical_nil
        · simp [gapsFrom, hend]
        · intro cut
          have hcut := Cut.le_aboveAll cut
          simp only [gapsFrom, hend, if_true, not_covered_nil, false_iff]
          grind
      · have hlt : lower < .aboveAll := by grind
        refine ⟨?_, ?_, ?_⟩
        · simpa [gapsFrom, hend, isCanonical_cons, isCanonical_nil] using hlt
        · simp [gapsFrom, hend, Std.le_refl]
        · intro cut
          have hcut := Cut.le_aboveAll cut
          simp only [gapsFrom, hend, if_false, covered_cons, not_covered_nil, or_false]
          grind
  | cons range rest ih =>
      obtain ⟨hproper, hbefore, hrest⟩ := (isCanonical_cons range rest).mp h
      have hstart : lower ≤ range.lower := hlower range (by simp)
      have hnext : ∀ other ∈ rest, range.upper ≤ other.lower := fun other hother =>
        Std.le_of_lt (hbefore other hother)
      obtain ⟨hcanonical, hfrom, hcovered⟩ := ih hrest hnext
      by_cases hgap : lower < range.lower
      · simp only [gapsFrom, hgap, if_true]
        refine ⟨?_, ?_, ?_⟩
        · rw [isCanonical_cons]
          refine ⟨hgap, ?_, hcanonical⟩
          intro other hother
          exact Std.lt_of_lt_of_le hproper (hfrom other hother)
        · intro gap hmember
          rcases List.mem_cons.mp hmember with rfl | hmember
          · exact Std.le_refl _
          · have hle := hfrom gap hmember
            grind
        · intro cut
          rw [covered_cons, covered_cons, hcovered]
          have hend := Cut.le_aboveAll range.upper
          have hlater : Covered rest cut → range.upper < cut := by
            rintro ⟨other, hother, hcovers⟩
            exact Std.lt_of_lt_of_le (hbefore other hother) hcovers.1
          grind
      · simp only [gapsFrom, hgap, if_false]
        refine ⟨hcanonical, ?_, ?_⟩
        · intro gap hmember
          have hle := hfrom gap hmember
          grind
        · intro cut
          rw [covered_cons, hcovered]
          grind

theorem IsCanonical.gaps {ranges : List (Range α)} (h : IsCanonical ranges) :
    IsCanonical (gapsFrom .belowAll ranges) :=
  (gapsFrom_invariant h fun range _ => Cut.belowAll_le range.lower).1

theorem IsCanonical.covered_gaps {ranges : List (Range α)} (h : IsCanonical ranges)
    (cut : Cut α) :
    Covered (gapsFrom .belowAll ranges) cut ↔ cut ≠ .aboveAll ∧ ¬ Covered ranges cut := by
  have hcovered := (gapsFrom_invariant h fun range _ => Cut.belowAll_le range.lower).2.2 cut
  simpa [Cut.belowAll_le] using hcovered

theorem IsCanonical.gaps_gaps {ranges : List (Range α)} (h : IsCanonical ranges) :
    gapsFrom .belowAll (gapsFrom .belowAll ranges) = ranges := by
  apply h.gaps.gaps.eq_of_covered_iff h
  intro cut
  rw [h.gaps.covered_gaps, h.covered_gaps]
  have hend := not_covered_aboveAll ranges
  grind

/-- Intersecting two ranges that are not inverted is clipping one to the other, where what is
left is not empty. -/
private theorem filter_intersection {restriction range : Range α} (hvalid : restriction.Valid)
    (hproper : range.lower < range.upper) :
    ((range.intersection restriction).filter fun shared => !shared.isEmpty) =
      if (clip restriction range).lower < (clip restriction range).upper
      then some (clip restriction range) else none := by
  have hle := hvalid.1
  rw [Option.ext_iff]
  intro shared
  obtain ⟨lower, upper⟩ := shared
  simp only [Option.filter_eq_some_iff, intersection_eq_some_iff, Bool.not_eq_true',
    ← Bool.not_eq_true, isEmpty_iff, isConnected_iff, clip]
  grind

theorem IsCanonical.within_eq {ranges : List (Range α)} (h : IsCanonical ranges)
    {restriction : Range α} (hvalid : restriction.Valid) :
    within restriction ranges =
      (ranges.map (clip restriction)).filter fun shared => shared.lower < shared.upper := by
  induction ranges with
  | nil => rfl
  | cons range rest ih =>
      obtain ⟨hproper, -, hrest⟩ := (isCanonical_cons range rest).mp h
      have ih := ih hrest
      rw [within] at ih
      rw [within, List.filterMap_cons, filter_intersection hvalid hproper, ih, List.map_cons,
        List.filter_cons]
      by_cases hlt : (clip restriction range).lower < (clip restriction range).upper
      · simp [hlt]
      · simp [hlt]

theorem IsCanonical.mem_within_iff {ranges : List (Range α)} (h : IsCanonical ranges)
    {restriction : Range α} (hvalid : restriction.Valid) (shared : Range α) :
    shared ∈ within restriction ranges ↔
      shared.lower < shared.upper ∧ ∃ range ∈ ranges, clip restriction range = shared := by
  rw [h.within_eq hvalid, List.mem_filter, List.mem_map, decide_eq_true_eq, and_comm]

theorem IsCanonical.within {ranges : List (Range α)} (h : IsCanonical ranges)
    {restriction : Range α} (hvalid : restriction.Valid) :
    IsCanonical (within restriction ranges) := by
  refine ⟨fun shared hshared => ((h.mem_within_iff hvalid shared).mp hshared).1, ?_⟩
  rw [h.within_eq hvalid]
  apply List.Pairwise.filter
  rw [List.pairwise_map]
  refine h.disconnected.imp ?_
  intro a b hab
  rw [upper_clip, lower_clip]
  grind

theorem IsCanonical.covered_within {ranges : List (Range α)} (h : IsCanonical ranges)
    {restriction : Range α} (hvalid : restriction.Valid) (cut : Cut α) :
    Covered (Range.within restriction ranges) cut ↔
      Covered ranges cut ∧ restriction.Covers cut := by
  constructor
  · rintro ⟨shared, hshared, hcovers⟩
    obtain ⟨-, range, hrange, rfl⟩ := (h.mem_within_iff hvalid shared).mp hshared
    have hboth := (clip_covers_iff restriction range cut).mp hcovers
    exact ⟨⟨range, hrange, hboth.1⟩, hboth.2⟩
  · rintro ⟨⟨range, hrange, hcovers⟩, hrestriction⟩
    have hclip := (clip_covers_iff restriction range cut).mpr ⟨hcovers, hrestriction⟩
    have hproper := Std.lt_of_le_of_lt hclip.1 hclip.2
    exact ⟨_, (h.mem_within_iff hvalid _).mpr ⟨hproper, range, hrange, rfl⟩, hclip⟩

/-- Restricting twice is restricting once to what the two restrictions share. -/
theorem IsCanonical.within_within {ranges : List (Range α)} (h : IsCanonical ranges)
    {a b shared : Range α} (ha : a.Valid) (hb : b.Valid)
    (hshared : a.intersection b = some shared) :
    Range.within b (Range.within a ranges) = Range.within shared ranges := by
  have hvalid := ha.intersection hb hshared
  apply ((h.within ha).within hb).eq_of_covered_iff (h.within hvalid)
  intro cut
  rw [(h.within ha).covered_within hb, h.covered_within ha, h.covered_within hvalid,
    covers_intersection_iff hshared, and_assoc]

/-- Restrictions that share no position leave nothing. -/
theorem IsCanonical.within_within_eq_nil {ranges : List (Range α)} (h : IsCanonical ranges)
    {a b : Range α} (ha : a.Valid) (hb : b.Valid) (hapart : a.Apart b) :
    Range.within b (Range.within a ranges) = [] := by
  apply ((h.within ha).within hb).eq_of_covered_iff isCanonical_nil
  intro cut
  rw [(h.within ha).covered_within hb, h.covered_within ha, iff_false_right (not_covered_nil cut)]
  exact fun hcut => hapart cut hcut.1.2 hcut.2

end RangeAlgebra.Range
