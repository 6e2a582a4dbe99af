import RangeAlgebra.Proofs.Set.Algebra

/-!
What the relations between sets say. One set is part of another when each of its ranges lies in a
single range of the other, and sets overlap when some range of one does with some range of the
other. In terms of positions these are inclusion and a common position: canonical ranges leave a
position out between any two of them, so what lies in several ranges together lies in one.
-/

namespace RangeAlgebra

universe u

variable {α : Type u} [Ord α] [Std.TransOrd α] [Std.LawfulEqOrd α]

namespace Range

/-- No range of a canonical sequence covers the end of another one. -/
theorem IsCanonical.not_covered_upper {ranges : List (Range α)} (h : IsCanonical ranges)
    {range : Range α} (hrange : range ∈ ranges) : ¬ Covered ranges range.upper := by
  rintro ⟨other, hother, hlower, hupper⟩
  rcases Std.lt_trichotomy range.lower other.lower with hbefore | hsame | hafter
  · exact Std.not_lt.mpr hlower (h.upper_lt range hrange other hother hbefore)
  · rw [h.eq_of_lower_eq range hrange other hother hsame] at hupper
    exact Std.lt_irrefl hupper
  · have hend := h.upper_lt other hother range hrange hafter
    have hproper := h.lower_lt_upper range hrange
    exact Std.lt_irrefl (Std.lt_trans hupper (Std.lt_trans hend hproper))

/-- The range that covers the start of another one encloses it if every position of that is
covered. -/
theorem IsCanonical.exists_encloses_iff {ranges : List (Range α)} (h : IsCanonical ranges)
    {inner : Range α} (hinner : inner.lower < inner.upper) :
    (∃ range ∈ ranges, range.encloses inner = true) ↔
      ∀ cut, inner.Covers cut → Covered ranges cut := by
  constructor
  · rintro ⟨range, hrange, hencloses⟩ cut ⟨hlower, hupper⟩
    obtain ⟨hstart, hend⟩ := (encloses_iff range inner).mp hencloses
    exact ⟨range, hrange, Std.le_trans hstart hlower, Std.lt_of_lt_of_le hupper hend⟩
  · intro hcovered
    obtain ⟨range, hrange, hstart, hbeyond⟩ := hcovered inner.lower (covers_lower hinner)
    refine ⟨range, hrange, (encloses_iff range inner).mpr ⟨hstart, ?_⟩⟩
    rw [← Std.not_lt]
    intro hend
    exact h.not_covered_upper hrange (hcovered range.upper ⟨Std.le_of_lt hbeyond, hend⟩)

end Range

variable [DecidableEq α]

/-- A collection encloses another one range by range exactly if it covers all its positions. -/
theorem RangeCollection.WellFormed.enclosesAll_iff {collection other : RangeCollection α}
    (h : collection.WellFormed) (hother : other.WellFormed) :
    collection.enclosesAll other = true ↔ ∀ cut, other.Covers cut → collection.Covers cut := by
  have hencloses : ∀ range ∈ other.ranges, collection.encloses range = true ↔
      ∀ cut, range.Covers cut → collection.Covers cut := by
    intro range hrange
    rw [h.encloses_iff (hother.valid range hrange)]
    exact h.canonical.exists_encloses_iff (hother.canonical.lower_lt_upper range hrange)
  rw [enclosesAll, List.all_eq_true]
  constructor
  · rintro hall cut ⟨range, hrange, hcut⟩
    exact (hencloses range hrange).mp (hall range hrange) cut hcut
  · intro hall range hrange
    exact (hencloses range hrange).mpr fun cut hcut => hall cut ⟨range, hrange, hcut⟩

namespace RangeSet

theorem WellFormed.enclosesAll_iff {set : RangeSet α} {other : RangeCollection α}
    (h : set.WellFormed) (hother : other.WellFormed) :
    set.enclosesAll other = true ↔ ∀ cut, other.Covers cut → set.Covers cut := by
  have hset : (RangeCollection.ofSet set).WellFormed := h
  exact hset.enclosesAll_iff hother

theorem WellFormed.isSubset_iff {a b : RangeSet α} (ha : a.WellFormed) (hb : b.WellFormed) :
    a.isSubset b = true ↔ ∀ cut, a.Covers cut → b.Covers cut := by
  have hcollection : (RangeCollection.ofSet a).WellFormed := ha
  exact hb.enclosesAll_iff hcollection

theorem WellFormed.overlaps_iff {a b : RangeSet α} (ha : a.WellFormed) (hb : b.WellFormed) :
    a.overlaps b = true ↔ ∃ cut, a.Covers cut ∧ b.Covers cut := by
  rw [overlaps, List.any_eq_true]
  constructor
  · rintro ⟨range, hrange, hintersects⟩
    obtain ⟨other, hother, hoverlaps⟩ := (Lists.intersects_iff hb (ha.valid range hrange)).mp
      hintersects
    obtain ⟨cut, hcutOther, hcut⟩ :=
      (Range.overlaps_iff (hb.valid other hother) (ha.valid range hrange)).mp hoverlaps
    exact ⟨cut, ⟨range, hrange, hcut⟩, other, hother, hcutOther⟩
  · rintro ⟨cut, ⟨range, hrange, hcut⟩, other, hother, hcutOther⟩
    refine ⟨range, hrange, (Lists.intersects_iff hb (ha.valid range hrange)).mpr ?_⟩
    refine ⟨other, hother, ?_⟩
    exact (Range.overlaps_iff (hb.valid other hother) (ha.valid range hrange)).mpr
      ⟨cut, hcutOther, hcut⟩

end RangeSet

end RangeAlgebra
