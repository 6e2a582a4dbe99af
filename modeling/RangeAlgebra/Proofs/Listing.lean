import RangeAlgebra.Listing
import RangeAlgebra.Proofs.Canonical.Derived

/-!
Listings and the sequences they list. A listing that reads off a list of ranges is determined by
that list, and views of it are listings of lists again: a window lists what its restriction cuts
out of the ranges, and the gaps of a listing are the gaps of the ranges. Reading a view by
position therefore never has to be considered again once the list behind it is known.
-/

namespace RangeAlgebra

universe u

section Prefix

variable {β : Type u}

/-- A test that fails everywhere after it failed once holds at the positions below the number of
elements that pass it. -/
theorem getElem_iff_lt_countP {test : β → Bool} {items : List β}
    (hdownward : items.Pairwise fun a b => test b = true → test a = true) (i : Nat)
    (hi : i < items.length) : test items[i] = true ↔ i < items.countP test := by
  induction items generalizing i with
  | nil => exact absurd hi (Nat.not_lt_zero i)
  | cons item rest ih =>
      obtain ⟨hbefore, hrest⟩ := List.pairwise_cons.mp hdownward
      have ih := ih hrest
      rw [List.countP_cons]
      by_cases hitem : test item = true
      · rw [if_pos hitem]
        cases i with
        | zero => exact iff_of_true hitem (Nat.succ_pos _)
        | succ i =>
            rw [List.getElem_cons_succ, ih i (Nat.lt_of_succ_lt_succ hi)]
            omega
      · have hnone : rest.countP test = 0 := by
          rw [List.countP_eq_zero]
          intro other hother htest
          exact hitem (hbefore other hother htest)
        rw [if_neg hitem, hnone]
        cases i with
        | zero => exact iff_of_false hitem (Nat.lt_irrefl 0)
        | succ i =>
            rw [List.getElem_cons_succ, ih i (Nat.lt_of_succ_lt_succ hi), hnone]
            omega

/-- The elements that pass a test which fails everywhere after it failed once. -/
theorem filter_eq_take_countP {test : β → Bool} {items : List β}
    (hdownward : items.Pairwise fun a b => test b = true → test a = true) :
    items.filter test = items.take (items.countP test) := by
  induction items with
  | nil => rfl
  | cons item rest ih =>
      obtain ⟨hbefore, hrest⟩ := List.pairwise_cons.mp hdownward
      by_cases hitem : test item = true
      · rw [List.filter_cons_of_pos hitem, List.countP_cons_of_pos hitem, List.take_succ_cons,
          ih hrest]
      · have hnone : ∀ other ∈ rest, ¬ test other = true := fun other hother htest =>
          hitem (hbefore other hother htest)
        rw [List.filter_cons_of_neg hitem, List.countP_cons_of_neg hitem,
          List.filter_eq_nil_iff.mpr hnone, List.countP_eq_zero.mpr hnone, List.take_zero]

/-- The first element that fails the test stands right after those that pass it. -/
theorem getElem?_countP_eq_find? {test : β → Bool} {items : List β}
    (hdownward : items.Pairwise fun a b => test b = true → test a = true) :
    items[items.countP test]? = items.find? fun item => !test item := by
  induction items with
  | nil => rfl
  | cons item rest ih =>
      obtain ⟨hbefore, hrest⟩ := List.pairwise_cons.mp hdownward
      by_cases hitem : test item = true
      · rw [List.countP_cons_of_pos hitem, List.getElem?_cons_succ, ih hrest,
          List.find?_cons_of_neg (by simpa using hitem)]
      · have hnone : ∀ other ∈ rest, ¬ test other = true := fun other hother htest =>
          hitem (hbefore other hother htest)
        rw [List.countP_cons_of_neg hitem, List.countP_eq_zero.mpr hnone,
          List.getElem?_cons_zero, List.find?_cons_of_pos (by simpa using hitem)]

end Prefix

variable {α : Type u}

namespace Listing

def ofList (ranges : List (Range α)) : Listing α :=
  ⟨ranges.length, fun i => ranges[i]?⟩

@[simp]
theorem length_ofList (ranges : List (Range α)) : (ofList ranges).length = ranges.length :=
  rfl

@[simp]
theorem get?_ofList (ranges : List (Range α)) (i : Nat) : (ofList ranges).get? i = ranges[i]? :=
  rfl

theorem ofArray_eq (ranges : Array (Range α)) : ofArray ranges = ofList ranges.toList := by
  simp only [ofArray, ofList, Array.length_toList, Array.getElem?_toList]

/-- A listing lists a sequence when it has the same length and the same ranges at all positions
below it, and nothing from there on. -/
theorem eq_ofList {listing : Listing α} {ranges : List (Range α)}
    (hlength : listing.length = ranges.length)
    (hget : ∀ i, listing.get? i = ranges[i]?) : listing = ofList ranges := by
  cases listing
  simp only [ofList, mk.injEq]
  exact ⟨hlength, funext hget⟩

theorem slice_ofList (ranges : List (Range α)) (start count : Nat) :
    (ofList ranges).slice start count = (ranges.drop start).take count := by
  induction count generalizing start with
  | zero => rfl
  | succ count ih =>
      have ih := ih (start + 1)
      rw [slice] at ih
      rw [slice, List.range'_succ, List.filterMap_cons, ih]
      by_cases hstart : start < ranges.length
      · have hget : (ofList ranges).get? start = some ranges[start] :=
          List.getElem?_eq_getElem hstart
        rw [hget, List.drop_eq_getElem_cons hstart, List.take_succ_cons]
      · have hget : (ofList ranges).get? start = none :=
          List.getElem?_eq_none (Nat.le_of_not_lt hstart)
        rw [hget, List.drop_eq_nil_of_le (by omega), List.drop_eq_nil_of_le (by omega),
          List.take_nil, List.take_nil]

theorem toList_ofList (ranges : List (Range α)) : (ofList ranges).toList = ranges := by
  rw [toList, slice_ofList, List.drop_zero]
  exact List.take_length

theorem first?_ofList (ranges : List (Range α)) : (ofList ranges).first? = ranges.head? :=
  List.head?_eq_getElem?.symm

theorem last?_ofList (ranges : List (Range α)) : (ofList ranges).last? = ranges.getLast? :=
  List.getLast?_eq_getElem?.symm

theorem span?_ofList {ranges : List (Range α)} {first last : Range α}
    (hfirst : ranges.head? = some first) (hlast : ranges.getLast? = some last) :
    (ofList ranges).span? = some ⟨first.lower, last.upper⟩ := by
  rw [span?, first?_ofList, last?_ofList, hfirst, hlast]
  rfl

/-- The position after those of the ranges that pass the test. -/
theorem at?_countP {test : Range α → Bool} {ranges : List (Range α)}
    (hdownward : ranges.Pairwise fun a b => test b = true → test a = true) :
    (ofList ranges).at? (ranges.countP test : Nat) = ranges.find? fun range => !test range := by
  have hnonneg : ¬ ((ranges.countP test : Nat) : Int) < 0 := by omega
  rw [at?, if_neg hnonneg, Int.toNat_natCast, get?_ofList, getElem?_countP_eq_find? hdownward]

/-- The position of the last range that passes the test, which is below zero if none does. -/
theorem at?_countP_sub_one {test : Range α → Bool} {ranges : List (Range α)}
    (hdownward : ranges.Pairwise fun a b => test b = true → test a = true) :
    (ofList ranges).at? ((ranges.countP test : Nat) - 1) = (ranges.filter test).getLast? := by
  have hlength : ranges.countP test ≤ ranges.length := List.countP_le_length
  rw [filter_eq_take_countP hdownward, List.getLast?_eq_getElem?, List.length_take,
    Nat.min_eq_left hlength]
  generalize ranges.countP test = count
  cases count with
  | zero => simp [at?]
  | succ count =>
      have hposition : ((count + 1 : Nat) : Int) - 1 = (count : Nat) := by omega
      have hnonneg : ¬ ((count : Nat) : Int) < 0 := by omega
      rw [hposition, at?, if_neg hnonneg, Int.toNat_natCast, get?_ofList, Nat.add_sub_cancel,
        List.getElem?_take_of_lt (Nat.lt_succ_self count)]

end Listing

variable [Ord α]

namespace Range

/-- How many ranges end no later than `restriction` starts. -/
def endedBefore (restriction : Range α) (ranges : List (Range α)) : Nat :=
  ranges.countP (·.upper ≤ restriction.lower)

/-- How many ranges start before `restriction` ends. -/
def startedBefore (restriction : Range α) (ranges : List (Range α)) : Nat :=
  ranges.countP (·.lower < restriction.upper)

private theorem endedBefore_cons (restriction range : Range α) (rest : List (Range α)) :
    endedBefore restriction (range :: rest) =
      endedBefore restriction rest + if range.upper ≤ restriction.lower then 1 else 0 := by
  simp only [endedBefore, List.countP_cons, decide_eq_true_eq]

private theorem startedBefore_cons (restriction range : Range α) (rest : List (Range α)) :
    startedBefore restriction (range :: rest) =
      startedBefore restriction rest + if range.lower < restriction.upper then 1 else 0 := by
  simp only [startedBefore, List.countP_cons, decide_eq_true_eq]

variable [Std.TransOrd α] [Std.LawfulEqOrd α]

/-- The ranges end in strictly ascending order. -/
theorem IsCanonical.ascending_upper {ranges : List (Range α)} (h : IsCanonical ranges) :
    ranges.Pairwise fun a b => a.upper < b.upper := by
  refine List.Pairwise.imp_of_mem ?_ h.disconnected
  intro a b _ hb hab
  exact Std.lt_trans hab (h.lower_lt_upper b hb)

section Counts

variable {cutOf : Range α → Cut α} {ranges : List (Range α)}

theorem lt_countP_lt_iff (hsorted : ranges.Pairwise fun a b => cutOf a < cutOf b)
    (key : Cut α) (i : Nat) (hi : i < ranges.length) :
    i < ranges.countP (cutOf · < key) ↔ cutOf ranges[i] < key := by
  rw [← getElem_iff_lt_countP _ i hi, decide_eq_true_eq]
  refine hsorted.imp ?_
  intro a b hab hb
  rw [decide_eq_true_eq] at hb ⊢
  exact Std.lt_trans hab hb

theorem lt_countP_le_iff (hsorted : ranges.Pairwise fun a b => cutOf a < cutOf b)
    (key : Cut α) (i : Nat) (hi : i < ranges.length) :
    i < ranges.countP (cutOf · ≤ key) ↔ cutOf ranges[i] ≤ key := by
  rw [← getElem_iff_lt_countP _ i hi, decide_eq_true_eq]
  refine hsorted.imp ?_
  intro a b hab hb
  rw [decide_eq_true_eq] at hb ⊢
  exact Std.le_of_lt (Std.lt_of_lt_of_le hab hb)

end Counts

theorem IsCanonical.lt_endedBefore_iff {ranges : List (Range α)} (h : IsCanonical ranges)
    (restriction : Range α) (i : Nat) (hi : i < ranges.length) :
    i < endedBefore restriction ranges ↔ ranges[i].upper ≤ restriction.lower :=
  lt_countP_le_iff h.ascending_upper restriction.lower i hi

theorem IsCanonical.lt_startedBefore_iff {ranges : List (Range α)} (h : IsCanonical ranges)
    (restriction : Range α) (i : Nat) (hi : i < ranges.length) :
    i < startedBefore restriction ranges ↔ ranges[i].lower < restriction.upper :=
  lt_countP_lt_iff h.ascending restriction.upper i hi

/-- What a restriction shares with a canonical sequence is a stretch of its ranges, each of them
clipped. -/
theorem IsCanonical.within_eq_map_clip [DecidableEq α] {ranges : List (Range α)}
    (h : IsCanonical ranges) {restriction : Range α}
    (hproper : restriction.lower < restriction.upper) :
    Range.within restriction ranges =
      ((ranges.drop (endedBefore restriction ranges)).take
        (startedBefore restriction ranges - endedBefore restriction ranges)).map
          (clip restriction) := by
  rw [h.within_eq (valid_of_lt hproper)]
  induction ranges with
  | nil => rfl
  | cons range rest ih =>
      obtain ⟨hrange, hbefore, hrest⟩ := (isCanonical_cons range rest).mp h
      have ih := ih hrest
      have hclip := clip_lt_iff hrange hproper
      rw [List.map_cons, List.filter_cons, ih, endedBefore_cons, startedBefore_cons]
      by_cases hended : range.upper ≤ restriction.lower
      · have hstarted : range.lower < restriction.upper := by grind
        have hnothing : ¬ (clip restriction range).lower < (clip restriction range).upper := by
          grind
        rw [if_pos hended, if_pos hstarted, Nat.add_sub_add_right, List.drop_succ_cons]
        simp only [hnothing, decide_false, Bool.false_eq_true, if_false]
      · have hnone : endedBefore restriction rest = 0 := by
          rw [endedBefore, List.countP_eq_zero]
          intro other hother
          have hlater := hbefore other hother
          have hother := hrest.lower_lt_upper other hother
          grind
        by_cases hstarted : range.lower < restriction.upper
        · have hshared : (clip restriction range).lower < (clip restriction range).upper := by
            grind
          rw [if_neg hended, if_pos hstarted, hnone]
          simp only [hshared, decide_true, if_true, Nat.add_zero, Nat.sub_zero, List.drop_zero,
            List.take_succ_cons, List.map_cons]
        · have hlater : startedBefore restriction rest = 0 := by
            rw [startedBefore, List.countP_eq_zero]
            intro other hother
            have hlater := hbefore other hother
            grind
          have hnothing : ¬ (clip restriction range).lower < (clip restriction range).upper := by
            grind
          rw [if_neg hended, if_neg hstarted, hnone, hlater]
          simp only [hnothing, decide_false, Bool.false_eq_true, if_false, Nat.add_zero,
            Nat.sub_zero, List.take_zero]

end Range

end RangeAlgebra
