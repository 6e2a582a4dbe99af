import RangeAlgebra.Proofs.Index.Changes

/-!
What an index answers. Its look-ups test the ranges next to a cut, the last one that starts up to it
or the first one from it on, and in a well formed index these decide for all of them.
-/

namespace RangeAlgebra.RangeIndex

universe u

variable {α : Type u}

theorem isEmpty_iff (index : RangeIndex α) : index.isEmpty = true ↔ index.ranges = [] := by
  rw [isEmpty, ranges, OrderedMap.isEmpty, OrderedMap.values, List.isEmpty_iff,
    List.map_eq_nil_iff]

theorem span_eq_error [Ord α] {index : RangeIndex α} (h : index.ranges = []) :
    index.span = .error .emptySpan := by
  rw [span, OrderedMap.first?, OrderedMap.last?, ← ranges, h]
  rfl

variable [Ord α] [Std.TransOrd α] [Std.LawfulEqOrd α] {index : RangeIndex α}

theorem WellFormed.rangeContaining?_eq_some_iff (h : index.WellFormed) (value : α)
    (range : Range α) :
    index.rangeContaining? value = some range ↔
      range ∈ index.ranges ∧ range.contains value = true := by
  rw [rangeContaining?, h.filed.upTo?_eq]
  exact h.canonical.filter_contains_eq_some_iff value range

theorem WellFormed.contains_iff (h : index.WellFormed) (value : α) :
    index.contains value = true ↔ index.Covers (.below value) := by
  rw [contains, rangeContaining?, h.filed.upTo?_eq]
  exact h.canonical.isSome_filter_contains_iff value

theorem WellFormed.intersects_iff [DecidableEq α] (h : index.WellFormed) {range : Range α}
    (hvalid : range.Valid) :
    index.intersects range = true ↔ ∃ other ∈ index.ranges, other.overlaps range = true := by
  rw [intersects, h.filed.from?_eq, h.filed.before?_eq]
  exact h.canonical.any_overlaps_iff hvalid

theorem WellFormed.encloses_iff (h : index.WellFormed) {inner : Range α}
    (hvalid : inner.Valid) :
    index.encloses inner = true ↔ ∃ range ∈ index.ranges, range.encloses inner = true := by
  rw [encloses, h.filed.upTo?_eq]
  exact h.canonical.any_encloses_iff hvalid.1

/-- The first range starts first and the last one ends last, so their span reaches from the one cut
to the other. -/
theorem WellFormed.span_eq_ok (h : index.WellFormed) {first last : Range α}
    (hfirst : index.ranges.head? = some first) (hlast : index.ranges.getLast? = some last) :
    index.span = .ok ⟨first.lower, last.upper⟩ := by
  rw [span, OrderedMap.first?, OrderedMap.last?, ← ranges, hfirst, hlast]
  simp only [Except.ok.injEq]
  apply Range.ext
  · have hleast := h.canonical.lower_head_le hfirst last (List.mem_of_getLast? hlast)
    rw [Range.lower_span, Cut.min_eq_ite, if_pos hleast]
  · have hgreatest := h.canonical.upper_le_getLast hlast first (List.mem_of_head? hfirst)
    rw [Range.upper_span]
    grind

end RangeAlgebra.RangeIndex
