import RangeAlgebra.Error

/-!
The ways to name a range. Two cuts make a range when they are not inverted and no infinite cut
stands on the wrong side. Ranges given by elements follow the usual letters: `i` for an
infinite end, `o` for an end that leaves its element out and `c` for one that keeps it.
-/

namespace RangeAlgebra.Range

universe u

variable {α : Type u}

section Checked

variable [Ord α]

/-- Inverted cuts are reported before infinite ones. -/
def ofCuts [DecidableEq α] (lower upper : Cut α) : Except (Error α) (Range α) :=
  if upper < lower then .error .invertedCuts
  else if lower = .aboveAll ∨ upper = .belowAll then .error .infiniteCuts
  else .ok ⟨lower, upper⟩

/-- Equal elements name a range, an empty one unless both ends keep the element; only leaving
it out at both ends inverts the cuts. -/
def between (lower : α) (lowerType : BoundType) (upper : α) (upperType : BoundType) :
    Except (Error α) (Range α) :=
  let range := ⟨lowerType.lowerCut lower, upperType.upperCut upper⟩
  if range.upper < range.lower then .error .invertedEndpoints else .ok range

def ioo (lower upper : α) : Except (Error α) (Range α) :=
  between lower .exclusive upper .exclusive

def icc (lower upper : α) : Except (Error α) (Range α) :=
  between lower .inclusive upper .inclusive

def ico (lower upper : α) : Except (Error α) (Range α) :=
  between lower .inclusive upper .exclusive

def ioc (lower upper : α) : Except (Error α) (Range α) :=
  between lower .exclusive upper .inclusive

end Checked

def upTo (upper : α) (type : BoundType) : Range α :=
  ⟨.belowAll, type.upperCut upper⟩

def downTo (lower : α) (type : BoundType) : Range α :=
  ⟨type.lowerCut lower, .aboveAll⟩

def iio (upper : α) : Range α :=
  upTo upper .exclusive

def iic (upper : α) : Range α :=
  upTo upper .inclusive

def ioi (lower : α) : Range α :=
  downTo lower .exclusive

def ici (lower : α) : Range α :=
  downTo lower .inclusive

def singleton (value : α) : Range α :=
  ⟨.below value, .above value⟩

end RangeAlgebra.Range
