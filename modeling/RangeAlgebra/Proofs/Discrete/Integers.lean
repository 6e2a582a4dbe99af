import Mathlib.Order.Interval.Finset.Basic
import Mathlib.Data.Int.Interval
import RangeAlgebra.Element.Order
import RangeAlgebra.Proofs.Discrete.Carrier

/-!
The integers of a kind as a discrete domain. All of them are stepped over, one by one, from the
least to the greatest.
-/

namespace RangeAlgebra

variable {kind : IntegerKind}

namespace BoundedInt

theorem ofInt?_eq_some_iff (val : Int) (a : BoundedInt kind) :
    ofInt? kind val = some a ↔ a.val = val := by
  rw [ofInt?]
  by_cases hbounds : kind.minimum ≤ val ∧ val ≤ kind.maximum
  · rw [dif_pos hbounds, Option.some.injEq]
    constructor
    · rintro rfl
      rfl
    · intro hval
      exact val_injective hval.symm
  · rw [dif_neg hbounds]
    refine iff_of_false (by simp) ?_
    rintro rfl
    exact hbounds ⟨a.minimum_le, a.le_maximum⟩

/-- Every integer between two of a kind is of that kind. -/
theorem exists_val_eq (first last : BoundedInt kind) (val : Int) (hfirst : first.val ≤ val)
    (hlast : val ≤ last.val) : ∃ a : BoundedInt kind, a.val = val :=
  ⟨⟨val, Int.le_trans first.minimum_le hfirst, Int.le_trans hlast last.le_maximum⟩, rfl⟩

theorem image_stretch (first last : BoundedInt kind) :
    BoundedInt.val '' DiscreteDomain.stretch Set.univ first last =
      {value | first.val ≤ value ∧ value < last.val} := by
  ext value
  constructor
  · rintro ⟨a, ⟨-, hle, hlt⟩, rfl⟩
    exact ⟨(isLE_compare_iff first a).mp hle, (compare_eq_lt_iff a last).mp hlt⟩
  · rintro ⟨hle, hlt⟩
    obtain ⟨a, rfl⟩ := exists_val_eq first last value hle (Int.le_of_lt hlt)
    have hafter := (isLE_compare_iff first a).mpr hle
    exact ⟨a, ⟨trivial, hafter, (compare_eq_lt_iff a last).mpr hlt⟩, rfl⟩

theorem ncard_stretch (first last : BoundedInt kind) :
    (DiscreteDomain.stretch Set.univ first last).ncard = (last.val - first.val).toNat := by
  have hset : {value | first.val ≤ value ∧ value < last.val} =
      (Finset.Ico first.val last.val : Set Int) := (Finset.coe_Ico first.val last.val).symm
  rw [← Set.ncard_image_of_injective _ fun _ _ => val_injective, image_stretch, hset,
    Set.ncard_coe_finset, Int.card_Ico]

end BoundedInt

namespace DiscreteDomain

open BoundedInt in
theorem stepsOver_integers (kind : IntegerKind) : (integers kind).StepsOver Set.univ where
  next_eq_some_iff := by
    intro value _ next
    change BoundedInt.ofInt? kind (value.val + 1) = some next ↔ _
    rw [ofInt?_eq_some_iff, compare_eq_lt_iff]
    constructor
    · intro hnext
      refine ⟨trivial, by omega, fun other _ hlt => ?_⟩
      rw [compare_eq_lt_iff] at hlt
      rw [isLE_compare_iff]
      omega
    · rintro ⟨-, hlt, hleast⟩
      -- The number one above is of the kind, for it is at most `next`.
      obtain ⟨above, habove⟩ := exists_val_eq value next (value.val + 1) (by omega) (by omega)
      have hle := hleast above trivial ((compare_eq_lt_iff value above).mpr (by omega))
      rw [isLE_compare_iff] at hle
      omega
  previous_eq_some_iff := by
    intro value _ previous
    change BoundedInt.ofInt? kind (value.val - 1) = some previous ↔ _
    rw [ofInt?_eq_some_iff, compare_eq_lt_iff]
    constructor
    · intro hprevious
      refine ⟨trivial, by omega, fun other _ hlt => ?_⟩
      rw [compare_eq_lt_iff] at hlt
      rw [isLE_compare_iff]
      omega
    · rintro ⟨-, hlt, hgreatest⟩
      obtain ⟨below, hbelow⟩ := exists_val_eq previous value (value.val - 1) (by omega) (by omega)
      have hle := hgreatest below trivial ((compare_eq_lt_iff below value).mpr (by omega))
      rw [isLE_compare_iff] at hle
      omega
  distance_eq := by
    intro first _ last _
    change max (-9223372036854775808) (min (last.val - first.val) 9223372036854775807) = _
    rw [steps, ncard_stretch, ncard_stretch]
    omega
  least := by
    rintro value hleast
    cases hleast
    exact ⟨trivial, fun other _ => (isLE_compare_iff _ other).mpr other.minimum_le⟩
  greatest := by
    rintro value hgreatest
    cases hgreatest
    exact ⟨trivial, fun other _ => (isLE_compare_iff other _).mpr other.le_maximum⟩
  finite := by
    intro first _ last _
    refine Set.Finite.of_finite_image ?_ (fun _ _ _ _ => val_injective)
    rw [image_stretch]
    exact Set.finite_Ico first.val last.val

end DiscreteDomain

end RangeAlgebra
