import RangeAlgebra.Proofs.Set.Reachable

/-!
What sets and indexes answer. A set searches a sequence that it may compute on the way, and an index
looks up the neighbours of a cut in a map, but each answer is what a scan of the ranges finds. So
answers depend on the ranges alone, and a set and an index of the same ranges cannot be told apart
by asking.
-/

namespace RangeAlgebra

universe u

variable {α : Type u} [Ord α] [Std.TransOrd α] [Std.LawfulEqOrd α] [DecidableEq α]

namespace RangeCollection

variable {collection : RangeCollection α}

theorem WellFormed.rangeContaining?_eq_some_iff (h : collection.WellFormed) (value : α)
    (found : Range α) :
    collection.rangeContaining? value = some found ↔
      found ∈ collection.ranges ∧ found.contains value = true := by
  cases collection with
  | ofSet set => exact RangeSet.Lists.rangeContaining?_eq_some_iff h value found
  | ofIndex index => exact RangeIndex.WellFormed.rangeContaining?_eq_some_iff h value found

theorem WellFormed.rangeContaining?_eq_none_iff (h : collection.WellFormed) (value : α) :
    collection.rangeContaining? value = none ↔
      ∀ range ∈ collection.ranges, ¬ range.contains value = true := by
  simp only [Option.eq_none_iff_forall_ne_some, ne_eq, h.rangeContaining?_eq_some_iff, not_and]

theorem WellFormed.contains_eq_any (h : collection.WellFormed) (value : α) :
    collection.contains value = collection.ranges.any (·.contains value) := by
  rw [Bool.eq_iff_iff, contains, Option.isSome_iff_exists, List.any_eq_true]
  exact exists_congr (h.rangeContaining?_eq_some_iff value)

theorem WellFormed.intersects_eq_any (h : collection.WellFormed) {range : Range α}
    (hvalid : range.Valid) :
    collection.intersects range = collection.ranges.any (·.overlaps range) := by
  rw [Bool.eq_iff_iff, List.any_eq_true]
  cases collection with
  | ofSet set => exact RangeSet.Lists.intersects_iff h hvalid
  | ofIndex index => exact RangeIndex.WellFormed.intersects_iff h hvalid

theorem WellFormed.encloses_eq_any (h : collection.WellFormed) {range : Range α}
    (hvalid : range.Valid) :
    collection.encloses range = collection.ranges.any (·.encloses range) := by
  rw [Bool.eq_iff_iff, List.any_eq_true]
  exact h.encloses_iff hvalid

theorem WellFormed.span_eq_error (h : collection.WellFormed) (hnil : collection.ranges = []) :
    collection.span = .error .emptySpan := by
  cases collection with
  | ofSet set =>
      have hlists : set.Lists set.ranges := h
      change set.ranges = [] at hnil
      rw [hnil] at hlists
      exact hlists.span_eq_error
  | ofIndex index => exact RangeIndex.span_eq_error hnil

theorem WellFormed.span_eq_ok (h : collection.WellFormed) {first last : Range α}
    (hfirst : collection.ranges.head? = some first)
    (hlast : collection.ranges.getLast? = some last) :
    collection.span = .ok ⟨first.lower, last.upper⟩ := by
  cases collection with
  | ofSet set => exact RangeSet.Lists.span_eq_ok h hfirst hlast
  | ofIndex index => exact RangeIndex.WellFormed.span_eq_ok h hfirst hlast

theorem WellFormed.span_eq_error_iff (h : collection.WellFormed) :
    collection.span = .error .emptySpan ↔ collection.ranges = [] := by
  refine ⟨fun herror => Classical.byContradiction fun hne => ?_, h.span_eq_error⟩
  rw [h.span_eq_ok (List.head?_eq_some_head hne) (List.getLast?_eq_some_getLast hne)] at herror
  cases herror

/-- Collections of the same ranges answer alike. -/
theorem WellFormed.answers_eq {other : RangeCollection α} (h : collection.WellFormed)
    (hother : other.WellFormed) (hranges : other.ranges = collection.ranges) (value : α)
    {range : Range α} (hvalid : range.Valid) :
    other.rangeContaining? value = collection.rangeContaining? value ∧
      other.contains value = collection.contains value ∧
      other.intersects range = collection.intersects range ∧
      other.encloses range = collection.encloses range ∧ other.span = collection.span := by
  refine ⟨?_, ?_, ?_, ?_, ?_⟩
  · apply Option.ext
    intro found
    rw [hother.rangeContaining?_eq_some_iff, h.rangeContaining?_eq_some_iff, hranges]
  · rw [hother.contains_eq_any, h.contains_eq_any, hranges]
  · rw [hother.intersects_eq_any hvalid, h.intersects_eq_any hvalid, hranges]
  · rw [hother.encloses_eq_any hvalid, h.encloses_eq_any hvalid, hranges]
  · -- Without ranges there is no span, and otherwise the first and the last range make it.
    by_cases hnil : collection.ranges = []
    · rw [hother.span_eq_error (hranges.trans hnil), h.span_eq_error hnil]
    · have hfirst := List.head?_eq_some_head hnil
      have hlast := List.getLast?_eq_some_getLast hnil
      rw [h.span_eq_ok hfirst hlast]
      exact hother.span_eq_ok ((congrArg List.head? hranges).trans hfirst)
        ((congrArg List.getLast? hranges).trans hlast)

end RangeCollection

namespace RangeSet

/-- Every query of a set is answered as by a scan of its ranges, and as by an index that holds the
same ranges. The range that contains an element is the only one that does. -/
theorem queries_eq_scan {set : RangeSet α} (h : set.Reachable) (value : α) {range : Range α}
    (hvalid : range.Valid) :
    (∀ found, set.rangeContaining? value = some found ↔
        found ∈ set.ranges ∧ found.contains value = true) ∧
      (set.rangeContaining? value = none ↔
        ∀ found ∈ set.ranges, ¬ found.contains value = true) ∧
      set.contains value = set.ranges.any (·.contains value) ∧
      set.intersects range = set.ranges.any (·.overlaps range) ∧
      set.encloses range = set.ranges.any (·.encloses range) ∧
      (set.span = .error .emptySpan ↔ set.ranges = []) ∧
      (∀ first last, set.ranges.head? = some first → set.ranges.getLast? = some last →
        set.span = .ok ⟨first.lower, last.upper⟩) ∧
      ∀ index : RangeIndex α, index.Reachable → index.ranges = set.ranges →
        index.rangeContaining? value = set.rangeContaining? value ∧
          index.contains value = set.contains value ∧
          index.intersects range = set.intersects range ∧
          index.encloses range = set.encloses range ∧ index.span = set.span := by
  have hset : (RangeCollection.ofSet set).WellFormed := h.wellFormed
  refine ⟨hset.rangeContaining?_eq_some_iff value, hset.rangeContaining?_eq_none_iff value,
    hset.contains_eq_any value, hset.intersects_eq_any hvalid, hset.encloses_eq_any hvalid,
    hset.span_eq_error_iff, fun first last => hset.span_eq_ok, ?_⟩
  intro index hindex hranges
  have hcollection : (RangeCollection.ofIndex index).WellFormed := hindex.wellFormed
  exact hset.answers_eq hcollection hranges value hvalid

/-- The set is a window over a stored list, cut inside its first and its last range. An index of the
same ranges comes from the gaps on either side being removed. The range asked for is empty and lies
at the end of a range. -/
theorem queries_eq_scan_window :
    let parts : RangeSet Int := .unionOf [⟨.below 1, .below 4⟩, ⟨.above 6, .above 9⟩] 1
    let window := parts.restrict ⟨.below 2, .below 8⟩ 2
    let index : RangeIndex Int :=
      (RangeIndex.ofRanges [⟨.below 2, .below 8⟩]).remove ⟨.below 4, .above 6⟩
    let range : Range Int := ⟨.below 4, .below 4⟩
    window.rangeContaining? 3 = some ⟨.below 2, .below 4⟩ ∧ window.contains 5 = false ∧
      window.intersects range = false ∧ window.encloses range = true ∧
      window.span = .ok ⟨.below 2, .below 8⟩ ∧
      index.rangeContaining? 3 = window.rangeContaining? 3 ∧
      index.encloses range = window.encloses range ∧ index.span = window.span := by
  intro parts window index range
  have hparts : parts.Reachable := RangeCollection.Reachable.unionOf (by decide) 1
  have hwindow : window.Reachable := hparts.restrict (by decide) 2
  have hranges : window.ranges = [⟨.below 2, .below 4⟩, ⟨.above 6, .below 8⟩] := by decide +kernel
  have hcalls : RangeIndex.Call.AllValid
      [RangeIndex.Call.addRanges [(⟨.below 2, .below 8⟩ : Range Int)],
        RangeIndex.Call.remove ⟨.below 4, .above 6⟩] := by decide
  have hindex : index.Reachable := .run .empty hcalls rfl
  have hsame : index.ranges = window.ranges := hranges ▸ by decide
  have hvalid : range.Valid := by decide
  obtain ⟨hfound, -, -, hintersects, hencloses, -, hspan, hagree⟩ :=
    queries_eq_scan hwindow 3 hvalid
  obtain ⟨-, -, hcontains, -⟩ := queries_eq_scan hwindow 5 hvalid
  obtain ⟨hindexFound, -, -, hindexEncloses, hindexSpan⟩ := hagree index hindex hsame
  refine ⟨(hfound _).mpr ?_, hcontains.trans ?_, hintersects.trans ?_, hencloses.trans ?_,
    hspan ⟨.below 2, .below 4⟩ ⟨.above 6, .below 8⟩ ?_ ?_, hindexFound, hindexEncloses, hindexSpan⟩
  all_goals
    rw [hranges]
    decide

end RangeSet

end RangeAlgebra
