import RangeAlgebra.Proofs.Listing

/-!
What the gaps of a listing list. A gap is computed from its position: the cuts that start one and
the cuts that end one are two sequences, and the gap at a position joins the two cuts there. Walking
over the ranges joins the same cuts in the same order. Only a sequence without ranges is different,
since its single gap has no neighbour to be read from.
-/

namespace RangeAlgebra

universe u

variable {α : Type u}

namespace Range

/-- The cuts at which the gaps of a sequence start. -/
private def gapLowers (ranges : List (Range α)) : List (Cut α) :=
  (if ranges.head?.any (·.hasLowerBound) then [.belowAll] else []) ++ ranges.map (·.upper)

/-- The cuts at which the gaps of a sequence end. -/
private def gapUppers (ranges : List (Range α)) : List (Cut α) :=
  (ranges.drop (if ranges.head?.any (·.hasLowerBound) then 0 else 1)).map (·.lower) ++
    if ranges.getLast?.any (·.hasUpperBound) then [.aboveAll] else []

private theorem getElem?_gapLowers (ranges : List (Range α)) (i : Nat) :
    (gapLowers ranges)[i]? =
      if ranges.head?.any (·.hasLowerBound) && i = 0 then some .belowAll
      else (ranges[i - (ranges.head?.any (·.hasLowerBound)).toNat]?).map (·.upper) := by
  rw [gapLowers]
  cases ranges.head?.any (·.hasLowerBound) with
  | false => simp
  | true =>
      cases i with
      | zero => rfl
      | succ i => simp

private theorem length_gapLowers (ranges : List (Range α)) :
    (gapLowers ranges).length =
      (ranges.head?.any (·.hasLowerBound)).toNat + ranges.length := by
  rw [gapLowers]
  cases ranges.head?.any (·.hasLowerBound) <;> simp [Nat.add_comm]

private theorem length_gapUppers {ranges : List (Range α)} (hne : ranges ≠ []) :
    (gapUppers ranges).length = ranges.length - 1 +
      (ranges.head?.any (·.hasLowerBound)).toNat +
      (ranges.getLast?.any (·.hasUpperBound)).toNat := by
  have hpositive := List.length_pos_iff.mpr hne
  rw [gapUppers]
  cases ranges.head?.any (·.hasLowerBound) <;> cases ranges.getLast?.any (·.hasUpperBound) <;>
    simp <;> omega

private theorem getElem?_gapUppers {ranges : List (Range α)} (hne : ranges ≠ []) {i : Nat}
    (hi : i < (gapUppers ranges).length) :
    (gapUppers ranges)[i]? =
      if ranges.getLast?.any (·.hasUpperBound) && i + 1 = (gapUppers ranges).length
      then some .aboveAll
      else (ranges[i + (!ranges.head?.any (·.hasLowerBound)).toNat]?).map (·.lower) := by
  have hpositive := List.length_pos_iff.mpr hne
  rw [length_gapUppers hne] at hi ⊢
  rw [gapUppers]
  generalize ranges.head?.any (·.hasLowerBound) = leading at hi ⊢
  have hget : ((ranges.drop (if leading then 0 else 1)).map (·.lower))[i]? =
      (ranges[i + (!leading).toNat]?).map (·.lower) := by
    rw [List.getElem?_map, List.getElem?_drop, Nat.add_comm]
    cases leading <;> rfl
  have hlength : ((ranges.drop (if leading then 0 else 1)).map (·.lower)).length =
      ranges.length - 1 + leading.toNat := by
    cases leading with
    | false => simp
    | true =>
        simp
        omega
  generalize ranges.getLast?.any (·.hasUpperBound) = trailing at hi ⊢
  cases trailing with
  | false => simpa using hget
  | true =>
      rw [Bool.toNat_true] at hi
      by_cases hend : i = ranges.length - 1 + leading.toNat
      · simp [hend, ← hlength]
      · rw [List.getElem?_append_left (by omega), hget]
        simp [hend]

variable [Ord α]

/-- Two cuts name the range between them if they are not inverted and no infinite cut stands on the
wrong side. -/
theorem ofCuts_eq_ok_iff [DecidableEq α] [Std.TransOrd α] (lower upper : Cut α) (range : Range α) :
    ofCuts lower upper = .ok range ↔ range = ⟨lower, upper⟩ ∧ range.Valid := by
  constructor
  · intro hcuts
    unfold ofCuts at hcuts
    by_cases hinverted : upper < lower
    · rw [if_pos hinverted] at hcuts
      cases hcuts
    · rw [if_neg hinverted] at hcuts
      by_cases hinfinite : lower = .aboveAll ∨ upper = .belowAll
      · rw [if_pos hinfinite] at hcuts
        cases hcuts
      · rw [if_neg hinfinite] at hcuts
        cases hcuts
        exact ⟨rfl, Std.not_lt.mp hinverted, fun hlower => hinfinite (Or.inl hlower),
          fun hupper => hinfinite (Or.inr hupper)⟩
  · rintro ⟨rfl, hle, hlower, hupper⟩
    rw [ofCuts, if_neg (Std.not_lt.mpr hle), if_neg (not_or.mpr ⟨hlower, hupper⟩)]

theorem toOption_ofCuts_eq_some_iff [DecidableEq α] [Std.TransOrd α] (lower upper : Cut α)
    (range : Range α) :
    (ofCuts lower upper).toOption = some range ↔ range = ⟨lower, upper⟩ ∧ range.Valid := by
  rw [← ofCuts_eq_ok_iff]
  cases ofCuts lower upper <;> simp [Except.toOption]

variable [Std.TransOrd α] [Std.LawfulEqOrd α] [DecidableEq α]

/-- After the first range, each gap joins the end of a range to the start of the next one, or to
the last position. -/
private theorem gapsFrom_upper_eq_zipWith {range : Range α} {rest : List (Range α)}
    (h : IsCanonical (range :: rest)) :
    gapsFrom range.upper rest =
      List.zipWith mk ((range :: rest).map (·.upper)) (rest.map (·.lower) ++
        if (range :: rest).getLast?.any (·.hasUpperBound) then [.aboveAll] else []) := by
  induction rest generalizing range with
  | nil =>
      have hvalid := h.valid range (by simp)
      by_cases hend : range.upper = .aboveAll
      · simp [gapsFrom, hend, hvalid.hasUpperBound_iff]
      · simp [gapsFrom, hend, hvalid.hasUpperBound_iff]
  | cons next rest ih =>
      obtain ⟨-, hbefore, hrest⟩ := (isCanonical_cons range (next :: rest)).mp h
      have hgap := hbefore next (by simp)
      rw [gapsFrom, if_pos hgap, ih hrest]
      simp

private theorem gapsFrom_eq_zipWith {ranges : List (Range α)} (h : IsCanonical ranges)
    (hne : ranges ≠ []) :
    gapsFrom .belowAll ranges = List.zipWith mk (gapLowers ranges) (gapUppers ranges) := by
  cases ranges with
  | nil => exact absurd rfl hne
  | cons range rest =>
      have hvalid := h.valid range (by simp)
      have hfirst := Cut.belowAll_le range.lower
      have hrest := gapsFrom_upper_eq_zipWith h
      by_cases hstart : range.lower = .belowAll
      · have hbound : ¬ range.hasLowerBound = true := by simp [hvalid.hasLowerBound_iff, hstart]
        rw [gapsFrom, if_neg (by grind), hrest]
        simp [gapLowers, gapUppers, hbound]
      · have hbound : range.hasLowerBound = true := hvalid.hasLowerBound_iff.mpr hstart
        rw [gapsFrom, if_pos (by grind), hrest]
        simp [gapLowers, gapUppers, hbound]

end Range

namespace Listing

variable [Ord α] [DecidableEq α]

/-- A gap is made of the two cuts that are read for its position. -/
theorem exists_cuts_of_get?_gaps {listing : Listing α} {i : Nat} {gap : Range α}
    (hgap : listing.gaps.get? i = some gap) :
    let leading := listing.first?.any (·.hasLowerBound)
    let trailing := listing.last?.any (·.hasUpperBound)
    ∃ lower upper,
      (if leading && i = 0 then some .belowAll
        else (listing.get? (i - leading.toNat)).map (·.upper)) = some lower ∧
      (if trailing && i + 1 = listing.gaps.length then some .aboveAll
        else (listing.get? (i + (!leading).toNat)).map (·.lower)) = some upper ∧
      (Range.ofCuts lower upper).toOption = some gap := by
  intro leading trailing
  have hi : i < listing.gaps.length := by
    refine Classical.byContradiction fun hbeyond => ?_
    cases (if_neg hbeyond).symm.trans hgap
  have hread := (if_pos hi).symm.trans hgap
  -- The cut of either end is chosen first and read afterwards.
  split at hread <;> rename_i hfirst <;>
    obtain ⟨lower, hlower, hread⟩ := Option.bind_eq_some_iff.mp hread <;>
    split at hread <;> rename_i hlast <;>
    obtain ⟨upper, hupper, hread⟩ := Option.bind_eq_some_iff.mp hread
  · exact ⟨lower, upper, (if_pos hfirst).trans hlower, (if_pos hlast).trans hupper, hread⟩
  · exact ⟨lower, upper, (if_pos hfirst).trans hlower, (if_neg hlast).trans hupper, hread⟩
  · exact ⟨lower, upper, (if_neg hfirst).trans hlower, (if_pos hlast).trans hupper, hread⟩
  · exact ⟨lower, upper, (if_neg hfirst).trans hlower, (if_neg hlast).trans hupper, hread⟩

/-- Reading the two cuts of a gap by position and joining them. -/
private theorem get?_gaps_ofList {ranges : List (Range α)} (hne : ranges ≠ [])
    (i : Nat) :
    (ofList ranges).gaps.get? i =
      if i < (Range.gapUppers ranges).length then do
        let lower ← (Range.gapLowers ranges)[i]?
        let upper ← (Range.gapUppers ranges)[i]?
        (Range.ofCuts lower upper).toOption
      else none := by
  by_cases hi : i < (Range.gapUppers ranges).length
  · rw [if_pos hi, Range.getElem?_gapLowers, Range.getElem?_gapUppers hne hi]
    rw [Range.length_gapUppers hne] at hi ⊢
    simp only [gaps, first?_ofList, last?_ofList, length_ofList, get?_ofList]
    refine (if_pos hi).trans ?_
    generalize (ranges.head?.any (·.hasLowerBound) && decide (i = 0)) = atFirst
    generalize (ranges.getLast?.any (·.hasUpperBound) && decide (i + 1 = _)) = atLast
    cases atFirst <;> cases atLast <;> rfl
  · rw [if_neg hi]
    rw [Range.length_gapUppers hne] at hi
    simp only [gaps, first?_ofList, last?_ofList]
    exact if_neg hi

variable [Std.TransOrd α] [Std.LawfulEqOrd α]

theorem gaps_ofList {ranges : List (Range α)} (h : Range.IsCanonical ranges)
    (hne : ranges ≠ []) : (ofList ranges).gaps = ofList (Range.gapsFrom .belowAll ranges) := by
  have hzip := Range.gapsFrom_eq_zipWith h hne
  have hlengths : (Range.gapUppers ranges).length ≤ (Range.gapLowers ranges).length := by
    have hlast := Bool.toNat_le (ranges.getLast?.any (·.hasUpperBound))
    have hpositive := List.length_pos_iff.mpr hne
    rw [Range.length_gapUppers hne, Range.length_gapLowers]
    omega
  have hlength : (Range.gapsFrom .belowAll ranges).length = (Range.gapUppers ranges).length := by
    rw [hzip, List.length_zipWith, Nat.min_eq_right hlengths]
  apply eq_ofList
  · rw [hlength, Range.length_gapUppers hne]
    simp only [gaps, first?_ofList, last?_ofList]
    rfl
  · intro i
    rw [get?_gaps_ofList hne]
    by_cases hi : i < (Range.gapUppers ranges).length
    · obtain ⟨gap, hgap⟩ : ∃ gap, (Range.gapsFrom .belowAll ranges)[i]? = some gap :=
        ⟨_, List.getElem?_eq_getElem (by omega)⟩
      have hproper := h.gaps.lower_lt_upper gap (List.mem_of_getElem? hgap)
      rw [hgap, if_pos hi]
      rw [hzip, List.getElem?_zipWith_eq_some] at hgap
      obtain ⟨lower, upper, hlower, hupper, rfl⟩ := hgap
      rw [hlower, hupper]
      exact (Range.toOption_ofCuts_eq_some_iff lower upper _).mpr
        ⟨rfl, Range.valid_of_lt hproper⟩
    · rw [if_neg hi, eq_comm, List.getElem?_eq_none_iff]
      omega

end Listing

end RangeAlgebra
