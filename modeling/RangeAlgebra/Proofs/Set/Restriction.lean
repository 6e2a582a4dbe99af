import RangeAlgebra.Proofs.Set.Lists

/-!
What a restricted set lists. The two searches of a restriction count the ranges that end before it
and those that start before its end, so the stretch between them holds exactly the ranges that
share a position with it. Over a stored sequence the window is laid over that stretch. A view has
the stretch stored first, and the window then lies over the whole of what was stored.
-/

namespace RangeAlgebra

universe u

variable {α : Type u} [Ord α]

namespace Range

theorem IsCanonical.stretch {ranges : List (Range α)} (h : IsCanonical ranges)
    (start count : Nat) : IsCanonical ((ranges.drop start).take count) := by
  have hsublist :=
    (List.take_sublist count (ranges.drop start)).trans (List.drop_sublist start ranges)
  exact ⟨fun range hrange => h.lower_lt_upper range (hsublist.subset hrange),
    h.disconnected.sublist hsublist⟩

variable [Std.TransOrd α] [Std.LawfulEqOrd α]

section Stretch

variable {ranges : List (Range α)} {restriction : Range α} {start count : Nat}

/-- Every range of the stretch starts before the restriction ends and ends after it starts. -/
private theorem IsCanonical.reach_of_mem_stretch (h : IsCanonical ranges)
    (hstart : start = endedBefore restriction ranges)
    (hstop : start + count = startedBefore restriction ranges) {range : Range α}
    (hrange : range ∈ (ranges.drop start).take count) :
    restriction.lower < range.upper ∧ range.lower < restriction.upper := by
  obtain ⟨i, hi, rfl⟩ := List.mem_iff_getElem.mp hrange
  rw [List.length_take, List.length_drop] at hi
  have hlength : start + i < ranges.length := by omega
  have hended := h.lt_endedBefore_iff restriction (start + i) hlength
  have hstarted := h.lt_startedBefore_iff restriction (start + i) hlength
  rw [← hstart] at hended
  rw [← hstop] at hstarted
  rw [List.getElem_take, List.getElem_drop]
  refine ⟨Std.not_le.mp fun hle => ?_, hstarted.mp (by omega)⟩
  have hbefore := hended.mpr hle
  omega

/-- Of a stretch that has been taken out, no range ends before the restriction starts. -/
theorem IsCanonical.endedBefore_stretch (h : IsCanonical ranges)
    (hstart : start = endedBefore restriction ranges)
    (hstop : start + count = startedBefore restriction ranges) :
    endedBefore restriction ((ranges.drop start).take count) = 0 := by
  rw [endedBefore, List.countP_eq_zero]
  intro range hrange
  have hreach := h.reach_of_mem_stretch hstart hstop hrange
  rw [decide_eq_true_eq, Std.not_le]
  exact hreach.1

/-- Of a stretch that has been taken out, all ranges start before the restriction ends. -/
theorem IsCanonical.startedBefore_stretch (h : IsCanonical ranges)
    (hstart : start = endedBefore restriction ranges)
    (hstop : start + count = startedBefore restriction ranges) :
    startedBefore restriction ((ranges.drop start).take count) = count := by
  have hlength : startedBefore restriction ranges ≤ ranges.length := List.countP_le_length
  have hall : startedBefore restriction ((ranges.drop start).take count) =
      ((ranges.drop start).take count).length := by
    rw [startedBefore, List.countP_eq_length]
    intro range hrange
    exact decide_eq_true (h.reach_of_mem_stretch hstart hstop hrange).2
  rw [hall, List.length_take, List.length_drop]
  omega

end Stretch

variable [DecidableEq α]

/-- A restriction that holds all ranges leaves them as they are. -/
theorem IsCanonical.within_eq_self {ranges : List (Range α)} (h : IsCanonical ranges)
    {restriction : Range α} (hvalid : restriction.Valid)
    (hinside : ∀ range ∈ ranges, restriction.encloses range = true) :
    Range.within restriction ranges = ranges := by
  apply (h.within hvalid).eq_of_covered_iff h
  intro cut
  rw [h.covered_within hvalid, and_iff_left_iff_imp]
  rintro ⟨range, hrange, hcovers⟩
  have hencloses := hinside range hrange
  grind

/-- A restriction that shares no position with a range leaves nothing. -/
theorem IsCanonical.within_eq_nil {ranges : List (Range α)} (h : IsCanonical ranges)
    {restriction : Range α} (hvalid : restriction.Valid)
    (hapart : ∀ range ∈ ranges, ∀ cut, range.Covers cut → ¬ restriction.Covers cut) :
    Range.within restriction ranges = [] := by
  apply (h.within hvalid).eq_of_covered_iff isCanonical_nil
  intro cut
  rw [h.covered_within hvalid, iff_false_right (not_covered_nil cut)]
  rintro ⟨⟨range, hrange, hcovers⟩, hrestriction⟩
  exact hapart range hrange cut hcovers hrestriction

/-- Cutting ranges to a restriction only looks at the stretch. -/
theorem IsCanonical.within_stretch {ranges : List (Range α)} (h : IsCanonical ranges)
    {restriction : Range α} (hproper : restriction.lower < restriction.upper) {start count : Nat}
    (hstart : start = endedBefore restriction ranges)
    (hstop : start + count = startedBefore restriction ranges) :
    Range.within restriction ((ranges.drop start).take count) =
      Range.within restriction ranges := by
  rw [(h.stretch start count).within_eq_map_clip hproper, h.endedBefore_stretch hstart hstop,
    h.startedBefore_stretch hstart hstop, h.within_eq_map_clip hproper, ← hstart, ← hstop,
    Nat.add_sub_cancel_left, Nat.sub_zero, List.drop_zero, List.take_take, Nat.min_self]

/-- What a restriction leaves of a sequence of a set is again one, unless nothing is left. -/
theorem Listable.within {ranges : List (Range α)} (h : Listable ranges) {restriction : Range α}
    (hvalid : restriction.Valid) (hne : Range.within restriction ranges ≠ []) :
    Listable (Range.within restriction ranges) := by
  refine ⟨h.canonical.within hvalid, hne, ?_⟩
  intro hall
  apply h.ne_all
  apply h.canonical.eq_all
  intro cut hend
  have hcovered := h.canonical.covered_within hvalid cut
  rw [hall, covered_all_iff] at hcovered
  exact (hcovered.mp hend).1

end Range

variable [Std.TransOrd α] [Std.LawfulEqOrd α]

namespace RangeList

variable {ranges : List (Range α)} {range : Range α}

/-- Where the search for the start of the stretch ends. An infinite start needs no search. -/
private theorem start_eq (h : Range.IsCanonical ranges) (hvalid : range.Valid) :
    (if range.hasLowerBound then
      ((Listing.ofList ranges).search range.lower Range.upper .firstAfter .nextHigher).toNat
    else 0) = Range.endedBefore range ranges := by
  by_cases hbound : range.hasLowerBound = true
  · rw [if_pos hbound, Listing.search_firstAfter h.ascending_upper]
    rfl
  · have hinfinite : range.lower = .belowAll :=
      Classical.byContradiction fun hne => hbound (hvalid.hasLowerBound_iff.mpr hne)
    rw [if_neg hbound, eq_comm, Range.endedBefore, List.countP_eq_zero]
    intro other hother
    have hproper := h.lower_lt_upper other hother
    have hfirst := Cut.belowAll_le other.lower
    rw [decide_eq_true_eq, hinfinite, Std.not_le]
    exact Std.lt_of_le_of_lt hfirst hproper

/-- Where the search for the end of the stretch ends. An infinite end needs no search. -/
private theorem stop_eq (h : Range.IsCanonical ranges) (hvalid : range.Valid) :
    (if range.hasUpperBound then
      ((Listing.ofList ranges).search range.upper Range.lower .first .nextHigher).toNat
    else ranges.length) = Range.startedBefore range ranges := by
  by_cases hbound : range.hasUpperBound = true
  · rw [if_pos hbound, Listing.search_first h.ascending]
    rfl
  · have hinfinite : range.upper = .aboveAll :=
      Classical.byContradiction fun hne => hbound (hvalid.hasUpperBound_iff.mpr hne)
    rw [if_neg hbound, eq_comm, Range.startedBefore, List.countP_eq_length]
    intro other hother
    have hproper := h.lower_lt_upper other hother
    have hlast := Cut.le_aboveAll other.upper
    rw [decide_eq_true_eq, hinfinite]
    exact Std.lt_of_lt_of_le hproper hlast

variable [DecidableEq α]

omit [Std.TransOrd α] [Std.LawfulEqOrd α] in
/-- A list that is not a view stores its ranges. -/
private theorem Lists.eq_stored {list : RangeList α} (h : list.Lists ranges)
    (hstored : ¬ list.isPartialView = true) : ∃ label, list = .stored label ranges.toArray := by
  cases h with
  | direct h hranges =>
      cases h with
      | stored hcanonical => exact ⟨_, rfl⟩
      | window hcanonical hproper hstart hstop => exact absurd rfl hstored
  | complement h hranges => exact absurd rfl hstored

theorem Lists.restrict? {list : RangeList α} (h : list.Lists ranges) (hvalid : range.Valid)
    (label : Nat) :
    RangeSet.Lists ((list.restrict? range label).elim .empty .listed)
      (Range.within range ranges) := by
  have hcanonical := h.listable.canonical
  unfold RangeList.restrict?
  by_cases hempty : range.isEmpty = true
  · have hnone : Range.within range ranges = [] := by
      refine hcanonical.within_eq_nil hvalid ?_
      intro other hother cut hcovers
      grind
    rw [if_pos hempty, hnone]
    exact .empty
  · have hproper := hvalid.lt_of_not_isEmpty hempty
    rw [if_neg hempty, h.listing_eq]
    simp only [start_eq hcanonical hvalid, stop_eq hcanonical hvalid, Listing.length_ofList,
      Listing.slice_ofList]
    have hwithin := hcanonical.within_eq_map_clip hproper
    generalize hstart : Range.endedBefore range ranges = start at hwithin ⊢
    generalize hcount : Range.startedBefore range ranges - start = count at hwithin ⊢
    by_cases hzero : count = 0
    · rw [hzero, List.take_zero, List.map_nil] at hwithin
      rw [if_pos hzero, hwithin]
      exact .empty
    · have hstop : start + count = Range.startedBefore range ranges := by omega
      have hlength : Range.startedBefore range ranges ≤ ranges.length := List.countP_le_length
      have hlistable : Range.Listable (Range.within range ranges) := by
        refine h.listable.within hvalid ?_
        rw [hwithin, ne_eq, ← List.length_eq_zero_iff, List.length_map, List.length_take,
          List.length_drop]
        omega
      rw [if_neg hzero]
      by_cases hview : list.isPartialView = true
      · have hstretch := hcanonical.within_stretch hproper hstart.symm hstop
        have hended := hcanonical.endedBefore_stretch hstart.symm hstop
        have hstarted := hcanonical.startedBefore_stretch hstart.symm hstop
        rw [← hstretch] at hlistable
        rw [if_pos hview, ← hstretch]
        refine .listed (.direct (.window (hcanonical.stretch start count) hproper ?_ ?_) hlistable)
        · exact hended.symm
        · rw [Nat.zero_add, hstarted]
      · obtain ⟨storedLabel, rfl⟩ := h.eq_stored hview
        rw [if_neg hview]
        exact .listed (.direct (.window hcanonical hproper hstart.symm hstop) hlistable)

end RangeList

namespace Listing

/-- The span of a sequence that has ranges encloses each of them. -/
theorem exists_span?_ofList {ranges : List (Range α)} (h : Range.IsCanonical ranges)
    (hne : ranges ≠ []) :
    ∃ span, (ofList ranges).span? = some span ∧ ∀ range ∈ ranges, span.encloses range = true := by
  have hfirst := List.head?_eq_some_head hne
  have hlast := List.getLast?_eq_some_getLast hne
  refine ⟨_, span?_ofList hfirst hlast, ?_⟩
  intro range hrange
  rw [Range.encloses_iff]
  exact ⟨h.lower_head_le hfirst range hrange, h.upper_le_getLast hlast range hrange⟩

end Listing

namespace RangeSet

variable [DecidableEq α]

theorem Lists.restrict {set : RangeSet α} {ranges : List (Range α)} (h : set.Lists ranges)
    {range : Range α} (hvalid : range.Valid) (label : Nat) :
    (set.restrict range label).Lists (Range.within range ranges) := by
  cases h with
  | empty => exact .empty
  | all =>
      have hrange := lists_ofRange hvalid label
      by_cases hempty : range.isEmpty = true
      · have hnone : Range.within range [.all] = [] := by
          refine Range.isCanonical_all.within_eq_nil hvalid ?_
          intro other hother cut hcovers
          grind
        rw [if_pos hempty] at hrange
        rwa [hnone]
      · have hproper := hvalid.lt_of_not_isEmpty hempty
        have hsame : Range.within range [.all] = [range] := by
          apply (Range.isCanonical_all.within hvalid).eq_of_covered_iff
            (Range.isCanonical_singleton hproper)
          intro cut
          have hend : range.Covers cut → cut ≠ .aboveAll := fun hcovers heq =>
            Range.not_covers_aboveAll range (heq ▸ hcovers)
          rw [Range.isCanonical_all.covered_within hvalid, Range.covered_all_iff,
            Range.covered_cons, or_iff_left (Range.not_covered_nil cut), and_iff_right_iff_imp]
          exact hend
        rw [if_neg hempty] at hrange
        rwa [hsame]
  | listed h =>
      have hcanonical := h.listable.canonical
      obtain ⟨span, hspan, hencloses⟩ :=
        Listing.exists_span?_ofList hcanonical h.listable.ne_nil
      rw [RangeSet.restrict, h.listing_eq]
      simp only [hspan]
      by_cases hwhole : range.encloses span = true
      · have hsame : Range.within range ranges = ranges := by
          refine hcanonical.within_eq_self hvalid ?_
          intro other hother
          have hother := hencloses other hother
          grind
        rw [if_pos hwhole, hsame]
        exact .listed h
      · rw [if_neg hwhole]
        by_cases hconnected : range.isConnected span = true
        · rw [if_pos hconnected]
          exact h.restrict? hvalid label
        · have hnone : Range.within range ranges = [] := by
            refine hcanonical.within_eq_nil hvalid ?_
            intro other hother cut hcovers
            have hother := hencloses other hother
            grind
          rw [if_neg hconnected, hnone]
          exact .empty

end RangeSet

end RangeAlgebra
