import RangeAlgebra.Proofs.Canonical
import RangeAlgebra.Proofs.Coverage.Shared

/-!
The last range of a sequence that starts in a given stretch of positions, and the first one. Every
look-up near a position asks for such a range and then tests it. In a canonical sequence the test
decides for the whole sequence: ranges that start earlier end before the last one starts, so where
they could pass the test the last one does, and ranges that start later are further away than the
first one.
-/

namespace RangeAlgebra.Range

universe u

variable {α : Type u}

/-- The last range whose lower cut satisfies `starts`. -/
def lastStarting? (starts : Cut α → Bool) (ranges : List (Range α)) : Option (Range α) :=
  (ranges.filter fun range => starts range.lower).getLast?

/-- The first range whose lower cut satisfies `starts`. -/
def firstStarting? (starts : Cut α → Bool) (ranges : List (Range α)) : Option (Range α) :=
  ranges.find? fun range => starts range.lower

theorem lastStarting?_eq_none_iff (starts : Cut α → Bool) (ranges : List (Range α)) :
    lastStarting? starts ranges = none ↔ ∀ range ∈ ranges, ¬ starts range.lower = true := by
  simp [lastStarting?]

variable [Ord α]

/-- Every other range that starts in the stretch ends before the last one starts. -/
theorem IsCanonical.lastStarting?_spec {ranges : List (Range α)} (h : IsCanonical ranges)
    {starts : Cut α → Bool} {last : Range α} (hlast : lastStarting? starts ranges = some last) :
    last ∈ ranges ∧ starts last.lower = true ∧
      ∀ range ∈ ranges, starts range.lower = true → range = last ∨ range.upper < last.lower := by
  obtain ⟨earlier, hfilter⟩ := List.getLast?_eq_some_iff.mp hlast
  have hpairs := h.disconnected.filter fun range => starts range.lower
  rw [hfilter, List.pairwise_append] at hpairs
  have hmember : last ∈ ranges.filter fun range => starts range.lower := by simp [hfilter]
  obtain ⟨hin, hstarts⟩ := List.mem_filter.mp hmember
  refine ⟨hin, hstarts, ?_⟩
  intro range hrange hrangeStarts
  have hfiltered : range ∈ earlier ++ [last] := by
    rw [← hfilter]
    exact List.mem_filter.mpr ⟨hrange, hrangeStarts⟩
  rcases List.mem_append.mp hfiltered with hearlier | hsame
  · exact Or.inr (hpairs.2.2 range hearlier last (by simp))
  · exact Or.inl (List.mem_singleton.mp hsame)

/-- The first range that starts in the stretch ends before every other one starts. -/
theorem IsCanonical.firstStarting?_spec {ranges : List (Range α)} (h : IsCanonical ranges)
    {starts : Cut α → Bool} {first : Range α} (hfirst : firstStarting? starts ranges = some first) :
    first ∈ ranges ∧ starts first.lower = true ∧
      ∀ range ∈ ranges, starts range.lower = true → range = first ∨ first.upper < range.lower := by
  obtain ⟨hstarts, earlier, later, rfl, hearlier⟩ := List.find?_eq_some_iff_append.mp hfirst
  obtain ⟨-, hpairs, -⟩ := List.pairwise_append.mp h.disconnected
  refine ⟨by simp, hstarts, ?_⟩
  intro range hrange hrangeStarts
  rcases List.mem_append.mp hrange with hbefore | hafter
  · have hnot := hearlier range hbefore
    rw [hrangeStarts] at hnot
    exact absurd hnot Bool.false_ne_true
  · rcases List.mem_cons.mp hafter with hsame | hlater
    · exact Or.inl hsame
    · exact Or.inr ((List.pairwise_cons.mp hpairs).1 range hlater)

variable [Std.TransOrd α]

/-- A test that a range passes only if it reaches beyond every start in the stretch is passed by
one range at most, and by the last one if by any. -/
theorem IsCanonical.filter_lastStarting?_eq_some_iff {ranges : List (Range α)}
    (h : IsCanonical ranges) {starts : Cut α → Bool} {test : Range α → Bool}
    (htest : ∀ range cut, test range = true → starts cut = true → cut ≤ range.upper)
    (range : Range α) :
    (lastStarting? starts ranges).filter test = some range ↔
      range ∈ ranges ∧ starts range.lower = true ∧ test range = true := by
  rw [Option.filter_eq_some_iff]
  constructor
  · rintro ⟨hlast, hrange⟩
    obtain ⟨hmember, hstarts, -⟩ := h.lastStarting?_spec hlast
    exact ⟨hmember, hstarts, hrange⟩
  · rintro ⟨hmember, hstarts, hrange⟩
    cases hlast : lastStarting? starts ranges with
    | none =>
        have hnone := (lastStarting?_eq_none_iff starts ranges).mp hlast
        exact absurd hstarts (hnone range hmember)
    | some last =>
        obtain ⟨-, hlastStarts, hothers⟩ := h.lastStarting?_spec hlast
        rcases hothers range hmember hstarts with rfl | hbefore
        · exact ⟨rfl, hrange⟩
        · have hreach := htest range last.lower hrange hlastStarts
          exact absurd hbefore (Std.not_lt.mpr hreach)

theorem IsCanonical.any_lastStarting?_iff {ranges : List (Range α)}
    (h : IsCanonical ranges) {starts : Cut α → Bool} {test : Range α → Bool}
    (htest : ∀ range cut, test range = true → starts cut = true → cut ≤ range.upper) :
    (lastStarting? starts ranges).any test = true ↔
      ∃ range ∈ ranges, starts range.lower = true ∧ test range = true := by
  have hfilter := h.filter_lastStarting?_eq_some_iff htest
  simp only [Option.filter_eq_some_iff] at hfilter
  rw [Option.any_eq_true]
  exact exists_congr hfilter

variable [Std.LawfulEqOrd α]

/-- The range that a position splits in two is the last one that starts before it. -/
theorem IsCanonical.filter_split_eq_some_iff {ranges : List (Range α)} (h : IsCanonical ranges)
    (cut : Cut α) (range : Range α) :
    (lastStarting? (· < cut) ranges).filter (cut < ·.upper) = some range ↔
      range ∈ ranges ∧ range.lower < cut ∧ cut < range.upper := by
  rw [h.filter_lastStarting?_eq_some_iff]
  · simp only [decide_eq_true_eq]
  · intro other start hend hstart
    grind

/-- The range that covers a position is the last one that starts up to it. -/
theorem IsCanonical.filter_covering_eq_some_iff {ranges : List (Range α)}
    (h : IsCanonical ranges) (cut : Cut α) (range : Range α) :
    (lastStarting? (· ≤ cut) ranges).filter (cut < ·.upper) = some range ↔
      range ∈ ranges ∧ range.Covers cut := by
  rw [h.filter_lastStarting?_eq_some_iff]
  · simp only [decide_eq_true_eq, covers_iff]
  · intro other start hend hstart
    grind

/-- The last range that starts no later than a range starts is the only one that can enclose it. -/
theorem IsCanonical.any_encloses_iff {ranges : List (Range α)} (h : IsCanonical ranges)
    {inner : Range α} (hinner : inner.lower ≤ inner.upper) :
    (lastStarting? (· ≤ inner.lower) ranges).any (·.encloses inner) = true ↔
      ∃ range ∈ ranges, range.encloses inner = true := by
  rw [h.any_lastStarting?_iff]
  · apply exists_congr
    intro range
    grind
  · intro range cut hencloses hcut
    grind

/-- The last range that starts before an element is the only one that can contain it. -/
theorem IsCanonical.filter_contains_eq_some_iff {ranges : List (Range α)}
    (h : IsCanonical ranges) (value : α) (range : Range α) :
    (lastStarting? (· ≤ .below value) ranges).filter (·.contains value) = some range ↔
      range ∈ ranges ∧ range.contains value = true := by
  rw [h.filter_lastStarting?_eq_some_iff]
  · simp only [contains_iff]
    grind
  · intro range cut hcontains hcut
    rw [contains_iff] at hcontains
    grind

theorem IsCanonical.isSome_filter_contains_iff {ranges : List (Range α)}
    (h : IsCanonical ranges) (value : α) :
    ((lastStarting? (· ≤ .below value) ranges).filter (·.contains value)).isSome = true ↔
      Covered ranges (.below value) := by
  rw [Option.isSome_iff_exists]
  apply exists_congr
  intro range
  rw [h.filter_contains_eq_some_iff, contains_iff]

variable [DecidableEq α]

/-- If a range that starts no earlier than the given one overlaps it, the first such range does. -/
private theorem IsCanonical.any_firstStarting?_overlaps {ranges : List (Range α)}
    (h : IsCanonical ranges) {range other : Range α} (hvalid : range.Valid)
    (hother : other ∈ ranges)
    (hstart : range.lower ≤ other.lower) (hoverlaps : other.overlaps range = true) :
    (firstStarting? (range.lower ≤ ·) ranges).any (·.overlaps range) = true := by
  obtain ⟨cut, hcut, hshared⟩ := (overlaps_iff (h.valid other hother) hvalid).mp hoverlaps
  cases hfirst : firstStarting? (range.lower ≤ ·) ranges with
  | none =>
      have hnone := List.find?_eq_none.mp hfirst other hother
      exact absurd (decide_eq_true hstart) hnone
  | some first =>
      obtain ⟨hmember, hfirstStart, hothers⟩ := h.firstStarting?_spec hfirst
      rw [Option.any_some]
      rcases hothers other hother (decide_eq_true hstart) with rfl | hbefore
      · exact hoverlaps
      · -- The first range lies between the start of the given range and the other range.
        have hproper := h.lower_lt_upper first hmember
        have hend : first.lower < range.upper :=
          Std.lt_trans (Std.lt_trans hproper hbefore) (Std.lt_of_le_of_lt hcut.1 hshared.2)
        exact (overlaps_iff (h.valid first hmember) hvalid).mpr
          ⟨first.lower, covers_lower hproper, of_decide_eq_true hfirstStart, hend⟩

/-- Of the ranges that start no earlier than a range the first one overlaps it if any does, and of
those that start before it the last one. -/
theorem IsCanonical.any_overlaps_iff {ranges : List (Range α)} (h : IsCanonical ranges)
    {range : Range α} (hvalid : range.Valid) :
    ((firstStarting? (range.lower ≤ ·) ranges).any (·.overlaps range) ||
        (lastStarting? (· < range.lower) ranges).any (·.overlaps range)) = true ↔
      ∃ other ∈ ranges, other.overlaps range = true := by
  have hreach : ∀ (other : Range α) cut, other.overlaps range = true →
      decide (cut < range.lower) = true → cut ≤ other.upper := by
    intro other cut hoverlaps hcut
    have hconnected := (isConnected_iff other range).mp (isConnected_of_overlaps hoverlaps)
    exact Std.le_trans (Std.le_of_lt (of_decide_eq_true hcut)) hconnected.2
  rw [Bool.or_eq_true, h.any_lastStarting?_iff hreach]
  constructor
  · rintro (hfirst | ⟨other, hother, -, hoverlaps⟩)
    · obtain ⟨first, hfirst, hoverlaps⟩ := (Option.any_eq_true _ _).mp hfirst
      exact ⟨first, (h.firstStarting?_spec hfirst).1, hoverlaps⟩
    · exact ⟨other, hother, hoverlaps⟩
  · rintro ⟨other, hother, hoverlaps⟩
    by_cases hstart : other.lower < range.lower
    · exact Or.inr ⟨other, hother, decide_eq_true hstart, hoverlaps⟩
    · exact Or.inl (h.any_firstStarting?_overlaps hvalid hother (Std.not_lt.mp hstart) hoverlaps)

end RangeAlgebra.Range
