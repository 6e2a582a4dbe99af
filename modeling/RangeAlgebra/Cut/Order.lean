import RangeAlgebra.Cut

/-!
Cuts over a totally ordered element type are totally ordered: the comparison is transitive and
finds no two different cuts equal. The order relations are derived from it and carry the
standard classes, so comparisons of cuts can be argued with the general facts about linear
orders.
-/

namespace RangeAlgebra.Cut

universe u

variable {α : Type u} [Ord α]

private theorem isLE_then_lt (o : Ordering) : (o.then .lt).isLE = o.isLE := by
  cases o <;> rfl

private theorem isLE_then_gt (o : Ordering) : (o.then .gt).isLE = (o == .lt) := by
  cases o <;> rfl

instance [Std.OrientedOrd α] : Std.OrientedOrd (Cut α) where
  eq_swap {a b} := by
    change Cut.compare a b = (Cut.compare b a).swap
    cases a <;> cases b <;>
      simp only [Cut.compare, Ordering.swap_lt, Ordering.swap_eq, Ordering.swap_gt]
    all_goals
      rename_i x y
      have h := @Std.OrientedOrd.eq_swap α _ _ x y
      revert h
      generalize compare x y = o
      generalize compare y x = p
      intro h
      subst h
      cases p <;> rfl

/-- Each step of a chain of three cuts compares their elements, strictly where the cut above one
element is followed by the cut below the next. -/
instance [Std.TransOrd α] : Std.TransOrd (Cut α) where
  isLE_trans {a b c} := by
    change (Cut.compare a b).isLE → (Cut.compare b c).isLE → (Cut.compare a c).isLE
    have isLE_trans (x y z : α) := @Std.TransOrd.isLE_trans α _ _ x y z
    have lt_of_lt_of_isLE (x y z : α) := @Std.TransCmp.lt_of_lt_of_isLE α compare _ x y z
    have lt_of_isLE_of_lt (x y z : α) := @Std.TransCmp.lt_of_isLE_of_lt α compare _ x y z
    have isLE_of_lt {x y : α} : compare x y = .lt → (compare x y).isLE := by
      intro h
      rw [h]
      rfl
    cases a <;> cases b <;> cases c <;>
      simp only [Cut.compare, isLE_then_lt, isLE_then_gt, beq_iff_eq, Ordering.isLE_lt,
        Ordering.isLE_gt, Ordering.isLE_eq, reduceCtorEq, false_implies, implies_true]
    all_goals grind

instance [Std.LawfulEqOrd α] : Std.LawfulEqOrd (Cut α) where
  compare_self {a} := by
    change Cut.compare a a = .eq
    cases a <;> simp [Cut.compare]
  eq_of_compare {a b} := by
    change Cut.compare a b = .eq → a = b
    cases a <;> cases b <;> simp [Cut.compare, Ordering.then_eq_eq]

section Linear

variable [Std.TransOrd α]

instance : Std.LawfulOrderOrd (Cut α) where
  isLE_compare _ _ := Iff.rfl
  isGE_compare _ _ := Std.OrientedCmp.isGE_iff_isLE

instance [Std.LawfulEqOrd α] : Std.IsLinearOrder (Cut α) :=
  Std.IsLinearOrder.of_ord

end Linear

instance : Std.LawfulOrderLeftLeaningMin (Cut α) where
  min_eq_left _ _ h := if_pos h
  min_eq_right _ _ h := if_neg h

instance : Std.LawfulOrderLeftLeaningMax (Cut α) where
  max_eq_left _ _ h := if_pos h
  max_eq_right _ _ h := if_neg h

end RangeAlgebra.Cut
