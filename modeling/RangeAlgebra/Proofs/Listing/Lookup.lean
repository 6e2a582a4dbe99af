import RangeAlgebra.Proofs.Canonical.Neighbours
import RangeAlgebra.Proofs.Listing
import RangeAlgebra.Proofs.Search

/-!
What searching a listing finds. The position that a search for a cut answers with is a number of
ranges: of those before the cut, or of those up to it. So the look-ups that test the range at such
a position test the last range that starts up to the cut.
-/

namespace RangeAlgebra

universe u

variable {α : Type u} [Ord α] [Std.TransOrd α] [Std.LawfulEqOrd α]

namespace Listing

section Counts

variable {cutOf : Range α → Cut α} {ranges : List (Range α)}

omit [Std.LawfulEqOrd α] in
private theorem countP_lt_le_countP_le (cutOf : Range α → Cut α) (ranges : List (Range α))
    (key : Cut α) : ranges.countP (cutOf · < key) ≤ ranges.countP (cutOf · ≤ key) := by
  apply List.countP_mono_left
  intro range _ hlt
  rw [decide_eq_true_eq] at hlt ⊢
  exact Std.le_of_lt hlt

/-- At most one range has its cut at the key. -/
private theorem countP_le_le_succ (hsorted : ranges.Pairwise fun a b => cutOf a < cutOf b)
    (key : Cut α) : ranges.countP (cutOf · ≤ key) ≤ ranges.countP (cutOf · < key) + 1 := by
  generalize hbefore : ranges.countP (cutOf · < key) = before
  rw [← Nat.not_lt]
  intro hmany
  have hlength : ranges.countP (cutOf · ≤ key) ≤ ranges.length := List.countP_le_length
  have hfirst := Range.lt_countP_lt_iff hsorted key before (by omega)
  have hsecond := Range.lt_countP_le_iff hsorted key (before + 1) (by omega)
  have hpair := List.pairwise_iff_getElem.mp hsorted before (before + 1) (by omega) (by omega)
    (Nat.lt_succ_self before)
  rw [hbefore] at hfirst
  grind

/-- The ranges compare with a key in the order in which a search expects it. -/
private theorem sorted_compare (hsorted : ranges.Pairwise fun a b => cutOf a < cutOf b)
    (key : Cut α) :
    Search.Sorted
      (fun i => ((ofList ranges).get? i).elim .lt fun range => compare key (cutOf range))
      ranges.length (ranges.countP (cutOf · < key))
      (ranges.countP (cutOf · ≤ key) - ranges.countP (cutOf · < key)) := by
  have hle := countP_lt_le_countP_le cutOf ranges key
  have hlength : ranges.countP (cutOf · ≤ key) ≤ ranges.length := List.countP_le_length
  refine ⟨by omega, ?_, ?_⟩
  · intro i hi
    rw [Range.lt_countP_lt_iff hsorted key i hi, get?_ofList, List.getElem?_eq_getElem hi]
    exact Std.compare_eq_gt
  · intro i hi
    have hlt := Range.lt_countP_lt_iff hsorted key i hi
    have hupTo := Range.lt_countP_le_iff hsorted key i hi
    rw [Nat.add_sub_cancel' hle, hupTo, ← Nat.not_lt, hlt, get?_ofList,
      List.getElem?_eq_getElem hi]
    change compare key (cutOf ranges[i]) = .eq ↔ _
    rw [Std.compare_eq_iff_eq]
    grind

/-- What a search answers: if no range has its cut at the key, the place where such a range would
stand, and otherwise a position that is right for the one range that has. -/
private theorem search_answers (hsorted : ranges.Pairwise fun a b => cutOf a < cutOf b)
    (key : Cut α) (present : Search.Present) (absent : Search.Absent) :
    (ranges.countP (cutOf · ≤ key) = ranges.countP (cutOf · < key) ∧
        (ofList ranges).search key cutOf present absent =
          absent.resolve (ranges.countP (cutOf · < key))) ∨
      (ranges.countP (cutOf · ≤ key) = ranges.countP (cutOf · < key) + 1 ∧
        present.Answers (ranges.countP (cutOf · < key)) 1
          ((ofList ranges).search key cutOf present absent)) := by
  have hle := countP_lt_le_countP_le cutOf ranges key
  have hsucc := countP_le_le_succ hsorted key
  have hcompare := sorted_compare hsorted key
  rw [search, length_ofList]
  rcases Nat.le_and_le_add_one_iff.mp ⟨hle, hsucc⟩ with hnone | hone
  · rw [hnone, Nat.sub_self] at hcompare
    exact Or.inl ⟨hnone, hcompare.locate_absent present absent⟩
  · rw [hone, Nat.add_sub_cancel_left] at hcompare
    exact Or.inr ⟨hone, hcompare.locate_present Nat.zero_lt_one present absent⟩

/-- After the last range whose cut is not beyond the key. -/
theorem search_firstAfter (hsorted : ranges.Pairwise fun a b => cutOf a < cutOf b)
    (key : Cut α) :
    (ofList ranges).search key cutOf .firstAfter .nextHigher =
      (ranges.countP (cutOf · ≤ key) : Nat) := by
  rcases search_answers hsorted key .firstAfter .nextHigher with
    ⟨hcount, hanswer⟩ | ⟨hcount, hanswer⟩
  · rw [hanswer, hcount, Search.Absent.resolve]
  · rw [Search.Present.Answers] at hanswer
    omega

/-- At the first range whose cut is not before the key. -/
theorem search_first (hsorted : ranges.Pairwise fun a b => cutOf a < cutOf b) (key : Cut α) :
    (ofList ranges).search key cutOf .first .nextHigher =
      (ranges.countP (cutOf · < key) : Nat) := by
  rcases search_answers hsorted key .first .nextHigher with ⟨-, hanswer⟩ | ⟨-, hanswer⟩
  · exact hanswer
  · exact hanswer

/-- At the last range whose cut is not beyond the key. -/
theorem search_any_nextLower (hsorted : ranges.Pairwise fun a b => cutOf a < cutOf b)
    (key : Cut α) :
    (ofList ranges).search key cutOf .any .nextLower =
      (ranges.countP (cutOf · ≤ key) : Nat) - 1 := by
  rcases search_answers hsorted key .any .nextLower with
    ⟨hcount, hanswer⟩ | ⟨hcount, hanswer⟩
  · rw [hanswer, hcount, Search.Absent.resolve]
  · rw [Search.Present.Answers] at hanswer
    omega

/-- At the first range whose cut is not before the key. -/
theorem search_any_nextHigher (hsorted : ranges.Pairwise fun a b => cutOf a < cutOf b)
    (key : Cut α) :
    (ofList ranges).search key cutOf .any .nextHigher =
      (ranges.countP (cutOf · < key) : Nat) := by
  rcases search_answers hsorted key .any .nextHigher with ⟨-, hanswer⟩ | ⟨-, hanswer⟩
  · exact hanswer
  · rw [Search.Present.Answers] at hanswer
    omega

end Counts

section Neighbours

variable {ranges : List (Range α)}

private theorem lt_downward (h : Range.IsCanonical ranges) (key : Cut α) :
    ranges.Pairwise fun a b => decide (b.lower < key) = true → decide (a.lower < key) = true := by
  refine h.ascending.imp ?_
  intro a b hab hb
  rw [decide_eq_true_eq] at hb ⊢
  exact Std.lt_trans hab hb

private theorem le_downward (h : Range.IsCanonical ranges) (key : Cut α) :
    ranges.Pairwise fun a b => decide (b.lower ≤ key) = true → decide (a.lower ≤ key) = true := by
  refine h.ascending.imp ?_
  intro a b hab hb
  rw [decide_eq_true_eq] at hb ⊢
  exact Std.le_of_lt (Std.lt_of_lt_of_le hab hb)

/-- The range that a look-up of a cut tests. -/
theorem at?_search_any_nextLower (h : Range.IsCanonical ranges) (key : Cut α) :
    (ofList ranges).at? ((ofList ranges).search key Range.lower .any .nextLower) =
      Range.lastStarting? (· ≤ key) ranges := by
  rw [search_any_nextLower h.ascending, at?_countP_sub_one (le_downward h key)]
  rfl

/-- The two ranges that a look-up of what overlaps a range tests. -/
theorem at?_search_any_nextHigher (h : Range.IsCanonical ranges) (key : Cut α) :
    let position := (ofList ranges).search key Range.lower .any .nextHigher
    (ofList ranges).at? position = Range.firstStarting? (key ≤ ·) ranges ∧
      (ofList ranges).at? (position - 1) = Range.lastStarting? (· < key) ranges := by
  intro position
  have hposition : position = (ranges.countP (·.lower < key) : Nat) :=
    search_any_nextHigher h.ascending key
  rw [hposition, at?_countP (lt_downward h key), at?_countP_sub_one (lt_downward h key)]
  refine ⟨?_, rfl⟩
  rw [Range.firstStarting?]
  congr 1
  funext range
  rw [Bool.eq_iff_iff, Bool.not_eq_true', decide_eq_false_iff_not, decide_eq_true_eq, Std.not_lt]

end Neighbours

theorem intersects_ofList [DecidableEq α] {ranges : List (Range α)} (h : Range.IsCanonical ranges)
    {range : Range α} (hvalid : range.Valid) :
    (ofList ranges).intersects range = true ↔ ∃ other ∈ ranges, other.overlaps range = true := by
  obtain ⟨hfirst, hlast⟩ := at?_search_any_nextHigher h range.lower
  rw [intersects]
  simp only [hfirst, hlast]
  exact h.any_overlaps_iff hvalid

theorem encloses_ofList {ranges : List (Range α)} (h : Range.IsCanonical ranges)
    {inner : Range α} (hinner : inner.lower ≤ inner.upper) :
    (ofList ranges).encloses inner = true ↔ ∃ range ∈ ranges, range.encloses inner = true := by
  rw [encloses, at?_search_any_nextLower h]
  exact h.any_encloses_iff hinner

theorem rangeContaining?_ofList {ranges : List (Range α)} (h : Range.IsCanonical ranges)
    (value : α) (range : Range α) :
    (ofList ranges).rangeContaining? value = some range ↔
      range ∈ ranges ∧ range.contains value = true := by
  rw [rangeContaining?, at?_search_any_nextLower h]
  exact h.filter_contains_eq_some_iff value range

end Listing

end RangeAlgebra
