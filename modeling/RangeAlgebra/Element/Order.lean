import RangeAlgebra.Cut.Order
import RangeAlgebra.Element.Dynamic

/-!
The elements of every type are totally ordered: integers as numbers and text by its characters.
-/

namespace RangeAlgebra

namespace BoundedInt

variable {kind : IntegerKind}

theorem val_injective {a b : BoundedInt kind} (h : a.val = b.val) : a = b := by
  cases a
  cases b
  cases h
  rfl

theorem compare_eq_lt_iff (a b : BoundedInt kind) : compare a b = .lt ↔ a.val < b.val :=
  Int.compare_eq_lt

theorem isLE_compare_iff (a b : BoundedInt kind) : (compare a b).isLE = true ↔ a.val ≤ b.val :=
  Int.isLE_compare

instance : Std.TransOrd (BoundedInt kind) where
  eq_swap {a b} := Std.OrientedOrd.eq_swap (a := a.val) (b := b.val)
  isLE_trans {a b c} := Std.TransOrd.isLE_trans (a := a.val) (b := b.val) (c := c.val)

instance : Std.LawfulEqOrd (BoundedInt kind) where
  compare_self {a} := by
    change compare a.val a.val = .eq
    exact Std.ReflCmp.compare_self
  eq_of_compare {a b} h := val_injective (Std.LawfulEqOrd.eq_of_compare (a := a.val) h)

end BoundedInt

namespace ElementType

instance : (type : ElementType) → Std.TransOrd type.Carrier
  | .integer kind => inferInstanceAs (Std.TransOrd (BoundedInt kind))
  | .text => inferInstanceAs (Std.TransOrd String)

instance : (type : ElementType) → Std.LawfulEqOrd type.Carrier
  | .integer kind => inferInstanceAs (Std.LawfulEqOrd (BoundedInt kind))
  | .text => inferInstanceAs (Std.LawfulEqOrd String)

end ElementType

end RangeAlgebra
