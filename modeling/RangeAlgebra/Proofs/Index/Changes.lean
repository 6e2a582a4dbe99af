import RangeAlgebra.Proofs.Canonical.Derived
import RangeAlgebra.Proofs.Index.Filing

/-!
What adding and removing do to an index. The stored ranges stay canonical, and the positions
covered change by exactly those of the range added or removed. For an addition the two look-ups
find the only ranges that can stick out of the new one, so the joined range leaves every other
stored range strictly before it, inside it or strictly after it. For a removal they find the
ranges that the two ends of the removed one split.
-/

namespace RangeAlgebra

universe u

variable {α : Type u} [Ord α]

namespace Range

/-- `joined` is what `range` becomes with the stored ranges it is connected to: it covers no
position of its own, and no stored range touches either of its ends from outside. -/
structure Joins (stored : List (Range α)) (range joined : Range α) : Prop where
  lower_le : joined.lower ≤ range.lower
  le_upper : range.upper ≤ joined.upper
  apart : ∀ other ∈ stored, other.upper < joined.lower ∨
    joined.lower ≤ other.lower ∧ other.upper ≤ joined.upper ∨ joined.upper < other.lower
  covered : ∀ cut, joined.Covers cut → range.Covers cut ∨ Covered stored cut

/-- `rest` is what sticks out of `range` at one end of `other`. -/
def Remainder (range other rest : Range α) : Prop :=
  rest.lower < rest.upper ∧
    (rest.lower = other.lower ∧ rest.upper = min other.upper range.lower ∨
      rest.lower = max other.lower range.upper ∧ rest.upper = other.upper)

variable [Std.TransOrd α] [Std.LawfulEqOrd α]

theorem exists_remainder_covers_iff {range : Range α} (hproper : range.lower < range.upper)
    (other : Range α) (cut : Cut α) :
    (∃ rest, Remainder range other rest ∧ rest.Covers cut) ↔
      other.Covers cut ∧ ¬ range.Covers cut := by
  constructor
  · rintro ⟨rest, ⟨-, hpart⟩, hcovers⟩
    grind
  · rintro ⟨hcovers, hout⟩
    by_cases hbefore : cut < range.lower
    · exact ⟨⟨other.lower, min other.upper range.lower⟩, ⟨by grind, by grind⟩, by grind⟩
    · exact ⟨⟨max other.lower range.upper, other.upper⟩, ⟨by grind, by grind⟩, by grind⟩

/-- The last range of a stretch is absorbed if it is connected to the new one. If none is, every
range of the stretch ends before the new one starts. -/
private theorem absorb_lastStarting? {stored : List (Range α)} (h : IsCanonical stored)
    {starts : Cut α → Bool} {range : Range α}
    (hstarts : ∀ cut, starts cut = true → cut ≤ range.upper) :
    (range.absorb (lastStarting? starts stored) = range ∧
        ∀ other ∈ stored, starts other.lower = true → other.upper < range.lower) ∨
      ∃ last ∈ stored, range.absorb (lastStarting? starts stored) = last.span range ∧
        last.isConnected range = true ∧ starts last.lower = true ∧
        ∀ other ∈ stored, starts other.lower = true → other = last ∨ other.upper < last.lower := by
  cases hlast : lastStarting? starts stored with
  | none =>
      have hnone := (lastStarting?_eq_none_iff _ _).mp hlast
      exact Or.inl ⟨rfl, fun other hother hstart => absurd hstart (hnone other hother)⟩
  | some last =>
      obtain ⟨hmember, hstart, hothers⟩ := h.lastStarting?_spec hlast
      by_cases hconnected : last.isConnected range = true
      · have hjoined : range.absorb (some last) = last.span range := by simp [absorb, hconnected]
        exact Or.inr ⟨last, hmember, hjoined, hconnected, hstart, hothers⟩
      · have hjoined : range.absorb (some last) = range := by simp [absorb, hconnected]
        have hproper := h.lower_lt_upper last hmember
        have hreach := hstarts last.lower hstart
        refine Or.inl ⟨hjoined, ?_⟩
        intro other hother hotherStart
        rcases hothers other hother hotherStart with rfl | hbefore
        · grind
        · grind

/-- After the range before it is absorbed, no stored range reaches the start from below. -/
private theorem absorb_before {stored : List (Range α)} (h : IsCanonical stored)
    {range : Range α} (hproper : range.lower < range.upper) :
    let joined := range.absorb (lastStarting? (· < range.lower) stored)
    joined.lower ≤ range.lower ∧ range.upper ≤ joined.upper ∧
      (∀ other ∈ stored, other.upper < joined.lower ∨ joined.lower ≤ other.lower) ∧
      ∀ cut, joined.Covers cut → range.Covers cut ∨ Covered stored cut := by
  intro joined
  have hreach : ∀ cut, decide (cut < range.lower) = true → cut ≤ range.upper := by
    intro cut hcut
    exact Std.le_of_lt (Std.lt_trans (of_decide_eq_true hcut) hproper)
  rcases absorb_lastStarting? h hreach with
    ⟨hjoined, hbefore⟩ | ⟨last, hmember, hjoined, hconnected, hstart, hothers⟩
  · change joined = range at hjoined
    rw [hjoined]
    refine ⟨Std.le_refl _, Std.le_refl _, ?_, fun cut hcovers => Or.inl hcovers⟩
    intro other hother
    have hother := hbefore other hother
    grind
  · change joined = last.span range at hjoined
    have hlastProper := h.lower_lt_upper last hmember
    have hlower : joined.lower = last.lower := by
      rw [hjoined, lower_span]
      grind
    have hupper : joined.upper = max last.upper range.upper := by
      rw [hjoined, upper_span]
    refine ⟨by grind, by grind, ?_, ?_⟩
    · intro other hother
      by_cases hlater : last.lower ≤ other.lower
      · exact Or.inr (hlower ▸ hlater)
      · rcases hothers other hother (by grind) with rfl | hbefore
        · exact absurd (Std.le_refl _) hlater
        · exact Or.inl (hlower ▸ hbefore)
    · intro cut hcovers
      rw [hjoined, covers_span_iff hconnected] at hcovers
      exact hcovers.symm.imp_right fun hlast => ⟨last, hmember, hlast⟩

/-- If no stored range reaches the start from below, absorbing the last range that starts up to
the end settles every stored range. -/
private theorem absorb_upTo {stored : List (Range α)} (h : IsCanonical stored)
    {range : Range α}
    (hstart : ∀ other ∈ stored, other.upper < range.lower ∨ range.lower ≤ other.lower) :
    Joins stored range (range.absorb (lastStarting? (· ≤ range.upper) stored)) := by
  have hreach : ∀ cut, decide (cut ≤ range.upper) = true → cut ≤ range.upper := by
    intro cut hcut
    exact of_decide_eq_true hcut
  rcases absorb_lastStarting? h hreach with
    ⟨hjoined, hbefore⟩ | ⟨last, hmember, hjoined, hconnected, hlastStart, hothers⟩
  · rw [hjoined]
    refine ⟨Std.le_refl _, Std.le_refl _, ?_, fun cut hcovers => Or.inl hcovers⟩
    intro other hother
    have hother := hbefore other hother
    grind
  · have hlastProper := h.lower_lt_upper last hmember
    have hlastApart := hstart last hmember
    have hlower : (last.span range).lower = range.lower := by
      rw [lower_span]
      grind
    have hupper := upper_span last range
    rw [hjoined]
    refine ⟨by grind, by grind, ?_, ?_⟩
    · intro other hother
      have hotherProper := h.lower_lt_upper other hother
      have hotherStart := hstart other hother
      by_cases hwithin : other.lower ≤ range.upper
      · rcases hothers other hother (by grind) with rfl | hbefore
        · grind
        · grind
      · have hapart := h.upper_lt last hmember other hother (by grind)
        grind
    · intro cut hcovers
      rw [covers_span_iff hconnected] at hcovers
      exact hcovers.symm.imp_right fun hlast => ⟨last, hmember, hlast⟩

/-- The joined range that an addition files. -/
theorem joins_absorb {stored : List (Range α)} (h : IsCanonical stored)
    {range : Range α} (hproper : range.lower < range.upper) :
    let joined := range.absorb (lastStarting? (· < range.lower) stored)
    Joins stored range (joined.absorb (lastStarting? (· ≤ joined.upper) stored)) := by
  intro joined
  obtain ⟨hlower, hupper, hstart, hcovered⟩ := absorb_before h hproper
  have hjoins := absorb_upTo h hstart
  refine ⟨Std.le_trans hjoins.lower_le hlower, Std.le_trans hupper hjoins.le_upper,
    hjoins.apart, ?_⟩
  intro cut hcovers
  rcases hjoins.covered cut hcovers with hrange | hstored
  · exact hcovered cut hrange
  · exact Or.inr hstored

end Range

namespace RangeIndex

/-- A position is in the index when one of its ranges covers it. -/
def Covers (index : RangeIndex α) (cut : Cut α) : Prop :=
  ∃ range ∈ index.ranges, range.Covers cut

/-- The ranges are filed under their lower cuts and form a canonical sequence. -/
structure WellFormed (index : RangeIndex α) : Prop where
  filed : index.Filed
  canonical : Range.IsCanonical index.ranges

theorem wellFormed_empty : (∅ : RangeIndex α).WellFormed :=
  ⟨filed_empty, Range.isCanonical_nil⟩

theorem not_covers_empty (cut : Cut α) : ¬ (∅ : RangeIndex α).Covers cut :=
  Range.not_covered_nil cut

variable [Std.TransOrd α] [Std.LawfulEqOrd α]

theorem Filed.foldl_file_filed {index : RangeIndex α} (h : index.Filed)
    (added : List (Range α)) : (added.foldl RangeIndex.file index).Filed := by
  induction added generalizing index with
  | nil => exact h
  | cons range rest ih => exact ih (h.file range)

private theorem WellFormed.mem_file_eraseWithin_iff {index : RangeIndex α}
    (h : index.WellFormed) {range joined : Range α} (hproper : range.lower < range.upper)
    (hjoins : Range.Joins index.ranges range joined) (stored : Range α) :
    stored ∈ ((index.eraseWithin joined).file joined).ranges ↔
      stored = joined ∨ stored ∈ index.ranges ∧
        (stored.upper < joined.lower ∨ joined.upper < stored.lower) := by
  rw [(h.filed.eraseWithin joined).mem_file_iff, h.filed.mem_eraseWithin_iff]
  have hlower := hjoins.lower_le
  have hupper := hjoins.le_upper
  constructor
  · rintro (rfl | ⟨⟨hmember, hkept⟩, hkey⟩)
    · exact Or.inl rfl
    · have hapart := hjoins.apart stored hmember
      have hstored := h.canonical.lower_lt_upper stored hmember
      grind
  · rintro (rfl | ⟨hmember, hapart⟩)
    · exact Or.inl rfl
    · have hstored := h.canonical.lower_lt_upper stored hmember
      grind

/-- Filing what sticks out below and then what sticks out above. -/
private theorem Filed.mem_foldl_file_iff {index : RangeIndex α} (h : index.Filed)
    (below above : Option (Range α)) (stored : Range α) :
    stored ∈ ((below.toList ++ above.toList).foldl RangeIndex.file index).ranges ↔
      above = some stored ∨ (∀ range, above = some range → stored.lower ≠ range.lower) ∧
        (below = some stored ∨ (∀ range, below = some range → stored.lower ≠ range.lower) ∧
          stored ∈ index.ranges) := by
  cases below with
  | none =>
      cases above with
      | none => simp
      | some upper =>
          simp only [Option.toList_none, Option.toList_some, List.nil_append, List.foldl_cons,
            List.foldl_nil, h.mem_file_iff]
          grind
  | some lower =>
      cases above with
      | none =>
          simp only [Option.toList_none, Option.toList_some, List.append_nil, List.foldl_cons,
            List.foldl_nil, h.mem_file_iff]
          grind
      | some upper =>
          simp only [Option.toList_some, List.cons_append, List.nil_append, List.foldl_cons,
            List.foldl_nil, (h.file lower).mem_file_iff, h.mem_file_iff]
          grind

variable [DecidableEq α]

/-- An addition files the joined range in place of the ranges inside it. -/
private theorem WellFormed.exists_add_eq {index : RangeIndex α} (h : index.WellFormed)
    {range : Range α} (hproper : range.lower < range.upper) :
    ∃ joined, Range.Joins index.ranges range joined ∧
      index.add range = (index.eraseWithin joined).file joined := by
  have hnonempty : ¬ range.isEmpty = true := by grind
  refine ⟨_, Range.joins_absorb h.canonical hproper, ?_⟩
  simp only [add, if_neg hnonempty, h.filed.before?_eq, h.filed.upTo?_eq]

theorem WellFormed.add {index : RangeIndex α} (h : index.WellFormed) {range : Range α}
    (hvalid : range.Valid) : (index.add range).WellFormed := by
  by_cases hempty : range.isEmpty = true
  · rwa [RangeIndex.add, if_pos hempty]
  · have hproper := hvalid.lt_of_not_isEmpty hempty
    obtain ⟨joined, hjoins, hadd⟩ := h.exists_add_eq hproper
    have hmem := h.mem_file_eraseWithin_iff hproper hjoins
    have hfiled := (h.filed.eraseWithin joined).file joined
    have hlower := hjoins.lower_le
    have hupper := hjoins.le_upper
    rw [hadd]
    refine ⟨hfiled, Range.isCanonical_of_ascending hfiled.ascending ?_ ?_⟩
    · intro stored hstored
      rcases (hmem stored).mp hstored with rfl | ⟨hmember, -⟩
      · grind
      · exact h.canonical.lower_lt_upper stored hmember
    · intro a ha b hb hab
      rcases (hmem a).mp ha with rfl | ⟨hmemberA, hapartA⟩
      · rcases (hmem b).mp hb with rfl | ⟨hmemberB, hapartB⟩
        · exact absurd hab (Std.not_lt.mpr (Std.le_refl _))
        · have hproperB := h.canonical.lower_lt_upper b hmemberB
          grind
      · rcases (hmem b).mp hb with rfl | ⟨hmemberB, -⟩
        · grind
        · exact h.canonical.upper_lt a hmemberA b hmemberB hab

theorem WellFormed.covers_add {index : RangeIndex α} (h : index.WellFormed) {range : Range α}
    (hvalid : range.Valid) (cut : Cut α) :
    (index.add range).Covers cut ↔ range.Covers cut ∨ index.Covers cut := by
  by_cases hempty : range.isEmpty = true
  · rw [RangeIndex.add, if_pos hempty]
    grind
  · have hproper := hvalid.lt_of_not_isEmpty hempty
    obtain ⟨joined, hjoins, hadd⟩ := h.exists_add_eq hproper
    have hmem := h.mem_file_eraseWithin_iff hproper hjoins
    have hlower := hjoins.lower_le
    have hupper := hjoins.le_upper
    rw [hadd]
    constructor
    · rintro ⟨stored, hstored, hcovers⟩
      rcases (hmem stored).mp hstored with rfl | ⟨hmember, -⟩
      · exact hjoins.covered cut hcovers
      · exact Or.inr ⟨stored, hmember, hcovers⟩
    · rintro (hcovers | ⟨stored, hmember, hcovers⟩)
      · exact ⟨joined, (hmem joined).mpr (Or.inl rfl), by grind⟩
      · rcases hjoins.apart stored hmember with hbefore | ⟨hstart, hend⟩ | hafter
        · exact ⟨stored, (hmem stored).mpr (Or.inr ⟨hmember, Or.inl hbefore⟩), hcovers⟩
        · exact ⟨joined, (hmem joined).mpr (Or.inl rfl), by grind⟩
        · exact ⟨stored, (hmem stored).mpr (Or.inr ⟨hmember, Or.inr hafter⟩), hcovers⟩

/-- Ranges that touch are joined. -/
example : (ofRanges [(⟨.below 1, .below 4⟩ : Range Int), ⟨.below 4, .above 6⟩]).ranges =
    [⟨.below 1, .above 6⟩] := by decide

/-- A removal leaves exactly what sticks out of the removed range. -/
private theorem WellFormed.mem_remove_iff {index : RangeIndex α} (h : index.WellFormed)
    {range : Range α} (hproper : range.lower < range.upper) (stored : Range α) :
    stored ∈ (index.remove range).ranges ↔
      ∃ other ∈ index.ranges, Range.Remainder range other stored := by
  have hnonempty : ¬ range.isEmpty = true := by grind
  have hbelow := h.canonical.filter_split_eq_some_iff range.lower
  have habove := h.canonical.filter_covering_eq_some_iff range.upper
  rw [remove, if_neg hnonempty, (h.filed.eraseWithin range).mem_foldl_file_iff,
    h.filed.mem_eraseWithin_iff, h.filed.before?_eq, h.filed.upTo?_eq]
  simp only [Option.map_eq_some_iff, hbelow, habove, Range.covers_iff]
  constructor
  · rintro (⟨other, ⟨hmember, hcovers⟩, rfl⟩ | ⟨habove, ⟨other, ⟨hmember, hsplit⟩, rfl⟩ |
      ⟨hbelow, hmember, hkept⟩⟩)
    · exact ⟨other, hmember, hcovers.2, Or.inr (by grind)⟩
    · exact ⟨other, hmember, hsplit.1, Or.inl (by grind)⟩
    · refine ⟨stored, hmember, h.canonical.lower_lt_upper stored hmember, ?_⟩
      by_cases hstart : stored.lower < range.lower
      · -- It starts before the removed range, and it would have been cut if it reached into it.
        have hend : ¬ range.lower < stored.upper := fun hreach =>
          hbelow _ ⟨stored, ⟨hmember, hstart, hreach⟩, rfl⟩ rfl
        exact Or.inl (by grind)
      · exact Or.inr (by grind)
  · rintro ⟨other, hmember, hrest, ⟨hlower, hupper⟩ | ⟨hlower, hupper⟩⟩
    · refine Or.inr ⟨?_, ?_⟩
      · rintro - ⟨third, -, rfl⟩
        grind
      · by_cases hreach : range.lower < other.upper
        · exact Or.inl ⟨other, ⟨hmember, by grind, hreach⟩, Range.ext (by grind) (by grind)⟩
        · have hsame : stored = other := Range.ext hlower (by grind)
          subst hsame
          refine Or.inr ⟨?_, hmember, by grind⟩
          rintro - ⟨third, ⟨hthird, -, hthirdEnd⟩, rfl⟩ hkey
          have heq := h.canonical.eq_of_lower_eq stored hmember third hthird hkey
          exact hreach (heq ▸ hthirdEnd)
    · by_cases hreach : other.lower ≤ range.upper
      · exact Or.inl ⟨other, ⟨hmember, hreach, by grind⟩, Range.ext (by grind) (by grind)⟩
      · have hsame : stored = other := Range.ext (by grind) hupper
        subst hsame
        refine Or.inr ⟨?_, Or.inr ⟨?_, hmember, by grind⟩⟩
        · rintro - ⟨third, -, rfl⟩
          grind
        · rintro - ⟨third, ⟨hthird, hthirdStart, -⟩, rfl⟩
          grind

theorem WellFormed.remove {index : RangeIndex α} (h : index.WellFormed) {range : Range α}
    (hvalid : range.Valid) : (index.remove range).WellFormed := by
  by_cases hempty : range.isEmpty = true
  · rwa [RangeIndex.remove, if_pos hempty]
  · have hproper := hvalid.lt_of_not_isEmpty hempty
    have hmem := h.mem_remove_iff hproper
    have hfiled : (index.remove range).Filed := by
      rw [RangeIndex.remove, if_neg hempty]
      exact (h.filed.eraseWithin range).foldl_file_filed _
    refine ⟨hfiled, Range.isCanonical_of_ascending hfiled.ascending ?_ ?_⟩
    · intro stored hstored
      obtain ⟨other, -, hrest, -⟩ := (hmem stored).mp hstored
      exact hrest
    · intro a ha b hb hab
      obtain ⟨otherA, hmemberA, hproperA, hpartA⟩ := (hmem a).mp ha
      obtain ⟨otherB, hmemberB, hproperB, hpartB⟩ := (hmem b).mp hb
      have hforth := h.canonical.upper_lt otherA hmemberA otherB hmemberB
      have hback := h.canonical.upper_lt otherB hmemberB otherA hmemberA
      have hsame := h.canonical.eq_of_lower_eq otherA hmemberA otherB hmemberB
      grind

theorem WellFormed.covers_remove {index : RangeIndex α} (h : index.WellFormed)
    {range : Range α} (hvalid : range.Valid) (cut : Cut α) :
    (index.remove range).Covers cut ↔ index.Covers cut ∧ ¬ range.Covers cut := by
  by_cases hempty : range.isEmpty = true
  · rw [RangeIndex.remove, if_pos hempty]
    grind
  · have hproper := hvalid.lt_of_not_isEmpty hempty
    have hmem := h.mem_remove_iff hproper
    have hpart := Range.exists_remainder_covers_iff hproper
    constructor
    · rintro ⟨stored, hstored, hcovers⟩
      obtain ⟨other, hmember, hrest⟩ := (hmem stored).mp hstored
      have hboth := (hpart other cut).mp ⟨stored, hrest, hcovers⟩
      exact ⟨⟨other, hmember, hboth.1⟩, hboth.2⟩
    · rintro ⟨⟨other, hmember, hcovers⟩, hout⟩
      obtain ⟨stored, hrest, hstored⟩ := (hpart other cut).mpr ⟨hcovers, hout⟩
      exact ⟨stored, (hmem stored).mpr ⟨other, hmember, hrest⟩, hstored⟩

/-- A range is split in two. -/
example : ((ofRanges [(⟨.below 1, .above 6⟩ : Range Int)]).remove ⟨.above 2, .below 4⟩).ranges =
    [⟨.below 1, .above 2⟩, ⟨.below 4, .above 6⟩] := by decide

theorem WellFormed.addAll {index : RangeIndex α} (h : index.WellFormed)
    {added : List (Range α)} (hvalid : ∀ range ∈ added, range.Valid) :
    (index.addAll added).WellFormed ∧
      ∀ cut, (index.addAll added).Covers cut ↔ Range.Covered added cut ∨ index.Covers cut := by
  induction added generalizing index with
  | nil => exact ⟨h, fun cut => (or_iff_right (Range.not_covered_nil cut)).symm⟩
  | cons range rest ih =>
      have hrange := hvalid range (by simp)
      obtain ⟨hrest, hcovers⟩ := ih (h.add hrange) fun other hother =>
        hvalid other (by simp [hother])
      refine ⟨hrest, ?_⟩
      intro cut
      have hstep := (hcovers cut).trans (or_congr_right (h.covers_add hrange cut))
      rw [Range.covered_cons]
      exact hstep.trans (by grind)

theorem WellFormed.removeAll {index : RangeIndex α} (h : index.WellFormed)
    {removed : List (Range α)} (hvalid : ∀ range ∈ removed, range.Valid) :
    (index.removeAll removed).WellFormed ∧
      ∀ cut, (index.removeAll removed).Covers cut ↔
        index.Covers cut ∧ ¬ Range.Covered removed cut := by
  induction removed generalizing index with
  | nil => exact ⟨h, fun cut => (and_iff_left (Range.not_covered_nil cut)).symm⟩
  | cons range rest ih =>
      have hrange := hvalid range (by simp)
      obtain ⟨hrest, hcovers⟩ := ih (h.remove hrange) fun other hother =>
        hvalid other (by simp [hother])
      refine ⟨hrest, ?_⟩
      intro cut
      have hstep := (hcovers cut).trans (and_congr_left' (h.covers_remove hrange cut))
      rw [Range.covered_cons]
      exact hstep.trans (by grind)

theorem wellFormed_ofRanges {added : List (Range α)} (hvalid : ∀ range ∈ added, range.Valid) :
    (ofRanges added).WellFormed :=
  (wellFormed_empty.addAll hvalid).1

theorem covers_ofRanges_iff {added : List (Range α)} (hvalid : ∀ range ∈ added, range.Valid)
    (cut : Cut α) : (ofRanges added).Covers cut ↔ Range.Covered added cut :=
  ((wellFormed_empty.addAll hvalid).2 cut).trans (or_iff_left (not_covers_empty cut))

/-- Adding the ranges of a canonical sequence one by one leaves them as they are. -/
theorem ranges_ofRanges_of_isCanonical {added : List (Range α)} (h : Range.IsCanonical added) :
    (ofRanges added).ranges = added := by
  apply (wellFormed_ofRanges h.valid).canonical.eq_of_covered_iff h
  exact covers_ofRanges_iff h.valid

private theorem WellFormed.filed_complement {index : RangeIndex α} (h : index.WellFormed) :
    index.complement.Filed ∧
      index.complement.ranges = Range.gapsFrom .belowAll index.ranges :=
  filed_empty.foldl_file _ h.canonical.gaps.ascending

theorem WellFormed.ranges_complement {index : RangeIndex α} (h : index.WellFormed) :
    index.complement.ranges = Range.gapsFrom .belowAll index.ranges :=
  h.filed_complement.2

theorem WellFormed.complement {index : RangeIndex α} (h : index.WellFormed) :
    index.complement.WellFormed := by
  refine ⟨h.filed_complement.1, ?_⟩
  rw [h.ranges_complement]
  exact h.canonical.gaps

theorem WellFormed.covers_complement {index : RangeIndex α} (h : index.WellFormed)
    (cut : Cut α) : index.complement.Covers cut ↔ cut ≠ .aboveAll ∧ ¬ index.Covers cut := by
  rw [Covers, h.ranges_complement]
  exact h.canonical.covered_gaps cut

end RangeIndex

end RangeAlgebra
