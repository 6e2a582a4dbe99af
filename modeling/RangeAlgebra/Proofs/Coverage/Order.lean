import RangeAlgebra.Proofs.Coverage

/-!
The orders of cuts and of ranges. Both comparisons are total and find only equal values equal, so
the order relations, the equality that data structures use and the comparison that searches use
never disagree. An element stands right between its two cuts: a cut comes before the element exactly
if it comes before the upper one of them, and then it is not after the lower one.
-/

namespace RangeAlgebra

universe u

section Comparison

variable {β : Type u}

/-- The laws of a comparison by which a type is totally ordered. -/
structure TotalComparison (cmp : β → β → Ordering) : Prop where
  refl (a : β) : cmp a a = .eq
  eq_iff (a b : β) : cmp a b = .eq ↔ a = b
  swap (a b : β) : cmp b a = (cmp a b).swap
  antisymm (a b : β) : (cmp a b).isLE = true → (cmp b a).isLE = true → a = b
  trans (a b c : β) : (cmp a b).isLE = true → (cmp b c).isLE = true → (cmp a c).isLE = true
  lt_trans (a b c : β) : cmp a b = .lt → cmp b c = .lt → cmp a c = .lt
  total (a b : β) : (cmp a b).isLE = true ∨ (cmp b a).isLE = true

theorem totalComparison_of_lawful (cmp : β → β → Ordering) [Std.TransCmp cmp]
    [Std.LawfulEqCmp cmp] : TotalComparison cmp where
  refl _ := Std.ReflCmp.compare_self
  eq_iff _ _ := Std.LawfulEqCmp.compare_eq_iff_eq
  swap _ _ := Std.OrientedCmp.eq_swap
  antisymm _ _ hforth hback :=
    Std.LawfulEqCmp.eq_of_compare (Std.OrientedCmp.isLE_antisymm hforth hback)
  trans _ _ _ := Std.TransCmp.isLE_trans
  lt_trans _ _ _ := Std.TransCmp.lt_trans
  total a b := by
    have hswap : cmp a b = (cmp b a).swap := Std.OrientedCmp.eq_swap
    rw [hswap]
    cases cmp b a <;> decide

/-- The comparison that the order relation and the equality of a type make. It has no answer for
values that are neither equal nor related. -/
def partialCompare [LT β] [DecidableLT β] [DecidableEq β] (a b : β) : Option Ordering :=
  if a < b then some .lt
  else if a = b then some .eq
  else if b < a then some .gt
  else none

end Comparison

variable {α : Type u} [Ord α]

namespace Cut

theorem lt_above_iff (cut : Cut α) (value : α) : cut < .above value ↔ cut ≤ .below value := by
  cases cut with
  | belowAll => exact iff_of_true rfl rfl
  | aboveAll => exact iff_of_false nofun nofun
  | below bound => exact below_lt_above_iff bound value
  | above bound => exact (above_le_below_iff bound value).symm

variable [Std.TransOrd α]

/-- Between the two cuts of an element is no other cut. -/
theorem not_between (cut : Cut α) (value : α) : ¬ (.below value < cut ∧ cut < .above value) := by
  rintro ⟨hbelow, habove⟩
  exact Std.not_lt.mpr ((lt_above_iff cut value).mp habove) hbelow

variable [Std.LawfulEqOrd α]

theorem isLessThan_antitone {a b : Cut α} {value : α} (h : a ≤ b)
    (hvalue : b.isLessThan value = true) : a.isLessThan value = true := by
  rw [isLessThan_iff] at hvalue ⊢
  exact Std.le_trans h hvalue

theorem isLessThan_monotone (cut : Cut α) {first last : α} (h : (compare first last).isLE = true)
    (hfirst : cut.isLessThan first = true) : cut.isLessThan last = true := by
  have hcuts : below first ≤ below last := h
  rw [isLessThan_iff] at hfirst ⊢
  exact Std.le_trans hfirst hcuts

theorem partialCompare_eq [DecidableEq α] (a b : Cut α) :
    partialCompare a b = some (compare a b) := by
  cases h : compare a b with
  | lt => exact if_pos h
  | eq =>
      have hsame := Std.LawfulEqOrd.eq_of_compare h
      subst hsame
      simp [partialCompare, Std.lt_irrefl]
  | gt =>
      have hback : b < a := Std.OrientedCmp.gt_iff_lt.mp h
      have hne : a ≠ b := fun hsame => Std.lt_irrefl (hsame ▸ hback)
      simp [partialCompare, hback, hne, Std.not_lt.mpr (Std.le_of_lt hback)]

end Cut

namespace Range

instance [Std.TransOrd α] : Std.TransOrd (Range α) :=
  inferInstanceAs (Std.TransCmp (compareLex (compareOn lower) (compareOn upper)))

instance [Std.TransOrd α] [Std.LawfulEqOrd α] : Std.LawfulEqOrd (Range α) where
  eq_of_compare {a b} h := by
    change (compare a.lower b.lower).then (compare a.upper b.upper) = .eq at h
    obtain ⟨hlower, hupper⟩ := Ordering.then_eq_eq.mp h
    exact Range.ext (Std.LawfulEqOrd.eq_of_compare hlower)
      (Std.LawfulEqOrd.eq_of_compare hupper)

end Range

/-- Cuts are totally ordered, by their comparison as by their order relation. No cut stands between
the two at an element, so being before the element, not being after its lower cut and being before
its upper cut are one; this holds of earlier cuts and of later elements too. A range contains what
lies behind its lower cut and before its upper one. Ranges are totally ordered as well. -/
theorem positions_totally_ordered [Std.TransOrd α] [Std.LawfulEqOrd α] [DecidableEq α] :
    TotalComparison (compare : Cut α → Cut α → Ordering) ∧
      (∀ a b : Cut α, partialCompare a b = some (compare a b) ∧ (a ≤ b ↔ a < b ∨ a = b)) ∧
      (∀ (cut : Cut α) (value : α), ¬ (.below value < cut ∧ cut < .above value)) ∧
      (∀ (cut : Cut α) (value : α), (cut.isLessThan value = true ↔ cut ≤ .below value) ∧
        (cut ≤ .below value ↔ cut < .above value)) ∧
      (∀ (a b : Cut α) (value : α), a ≤ b → b.isLessThan value = true →
        a.isLessThan value = true) ∧
      (∀ (cut : Cut α) (first last : α), (compare first last).isLE = true →
        cut.isLessThan first = true → cut.isLessThan last = true) ∧
      (∀ (range : Range α) (value : α), range.contains value = true ↔
        range.lower ≤ .below value ∧ .below value < range.upper) ∧
      TotalComparison (compare : Range α → Range α → Ordering) := by
  refine ⟨totalComparison_of_lawful _, ?_, Cut.not_between, ?_, ?_, ?_, Range.contains_iff,
    totalComparison_of_lawful _⟩
  · exact fun a b => ⟨Cut.partialCompare_eq a b, Std.le_iff_lt_or_eq⟩
  · exact fun cut value => ⟨cut.isLessThan_iff value, (cut.lt_above_iff value).symm⟩
  · exact fun _ _ _ => Cut.isLessThan_antitone
  · exact fun cut _ _ => cut.isLessThan_monotone

/-- No integer lies between 3 and 4, and yet the cut above the first comes before the cut below the
second. The empty range at the former comes before the range between the two. -/
theorem positions_totally_ordered_adjacent :
    let three : Cut Int := .above 3
    let four : Cut Int := .below 4
    Std.TransOrd Int ∧ Std.LawfulEqOrd Int ∧
      compare three four = .lt ∧ partialCompare three four = some .lt ∧
      (∀ cut : Cut Int, ¬ (.below 4 < cut ∧ cut < .above 4)) ∧
      four.isLessThan 4 = true ∧ four < .above 4 ∧ three.isLessThan 4 = true ∧
      (∀ value, Range.contains ⟨three, four⟩ value = true ↔
        three ≤ .below value ∧ .below value < four) ∧
      compare (⟨three, three⟩ : Range Int) ⟨three, four⟩ = .lt ∧
      compare (⟨three, four⟩ : Range Int) ⟨three, three⟩ = .gt := by
  intro three four
  have hfour : four.isLessThan 4 = true := by decide
  have hcuts : three ≤ four := by decide
  have hranges : compare (⟨three, three⟩ : Range Int) ⟨three, four⟩ = .lt := by decide
  obtain ⟨-, hrelation, hbetween, hadjoins, hantitone, -, hcontains, hordered⟩ :=
    positions_totally_ordered (α := Int)
  refine ⟨inferInstance, inferInstance, by decide, (hrelation three four).1, ?_, hfour, ?_, ?_, ?_,
    hranges, ?_⟩
  · exact fun cut => hbetween cut 4
  · exact (hadjoins four 4).2.mp ((hadjoins four 4).1.mp hfour)
  · exact hantitone three four 4 hcuts hfour
  · exact hcontains ⟨three, four⟩
  · rw [hordered.swap ⟨three, three⟩, hranges]
    rfl

end RangeAlgebra
