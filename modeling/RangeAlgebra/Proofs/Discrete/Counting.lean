import RangeAlgebra.Discrete.View
import RangeAlgebra.Proofs.Discrete.Walk

/-!
How a view counts. The number of values of a range and the position of a value are taken from
distances in the domain, which stop at the bounds of a 64-bit integer, and added up in words that
stop at their greatest one. Both bounds lie above the one that a view reports, so nothing is lost
before that: sizes and positions are those of the values on the ways through the ranges.
-/

namespace RangeAlgebra

universe u

namespace Count

/-- A number of steps that does not go down is counted as it is. -/
theorem ofSteps_natCast {steps : Nat} (h : steps ≤ greatest) : ofSteps steps = steps := by
  rw [ofSteps, Int.emod_eq_of_lt (Int.natCast_nonneg steps) (by omega), Int.toNat_natCast]

theorem ofSteps_min_natCast (steps : Nat) :
    ofSteps (min (steps : Int) 9223372036854775807) = min steps 9223372036854775807 := by
  have hsteps : min (steps : Int) 9223372036854775807 = (min steps 9223372036854775807 : Nat) := by
    omega
  rw [hsteps, ofSteps_natCast]
  rw [greatest]
  omega

end Count

variable {α : Type u} [Ord α] {domain : DiscreteDomain α} {carrier : Set α}

namespace Range.Walk

variable {range : Range α} {values : List α}

theorem endpoints?_cons {first : α} {rest : List α}
    (h : range.Walk domain carrier (first :: rest)) :
    ∃ last, range.endpoints? domain = some (first, last) ∧
      (first :: rest).getLast? = some last := by
  have hlast := List.getLast?_eq_some_getLast (List.cons_ne_nil first rest)
  refine ⟨_, ?_, hlast⟩
  rw [h.endpoints?_eq, firstAndLast?, hlast]
  rfl

theorem contains_iff [Std.TransOrd α] (h : range.Walk domain carrier values) {value : α}
    (hvalue : value ∈ carrier) : range.contains value = true ↔ value ∈ values := by
  rw [Range.contains_iff, h.enumerates.mem_iff, and_iff_right hvalue]

/-- The steps from the first value to one of the others are as many as the values before that. -/
theorem ofSteps_distance {first value : α} {rest before after : List α}
    (h : range.Walk domain carrier (first :: rest))
    (hvalue : first :: rest = before ++ value :: after) :
    Count.ofSteps (domain.distance first value) = min before.length 9223372036854775807 := by
  rw [h.distance_eq first rfl before value after hvalue, Count.ofSteps_min_natCast]

/-- The values of a range are counted, as far as a distance goes. -/
theorem valueCount_eq (h : range.Walk domain carrier values) :
    range.valueCount domain = min values.length 9223372036854775808 := by
  cases values with
  | nil =>
      rw [valueCount, h.endpoints?_eq]
      rfl
  | cons first rest =>
      obtain ⟨last, hends, hlast⟩ := h.endpoints?_cons
      obtain ⟨before, hbefore⟩ := List.getLast?_eq_some_iff.mp hlast
      have hlength : (first :: rest).length = before.length + 1 := by
        rw [hbefore, List.length_append, List.length_singleton]
      rw [valueCount, hends, hlength]
      change Count.add (Count.ofSteps (domain.distance first last)) 1 = _
      rw [h.ofSteps_distance hbefore, Count.add, Count.greatest]
      omega

end Range.Walk

variable {ranges : List (Range α)} {ways : List (List α)}

/-- The counts of the ranges, added to what was counted before. A view reports nothing above its
cap, so it does not matter that a sum has stopped growing long after it. -/
theorem foldl_valueCount_eq (h : List.Forall₂ (Range.Walk domain carrier) ranges ways)
    (preceding : Nat) :
    min ((ranges.map (·.valueCount domain)).foldl Count.add preceding) DiscreteView.countCap =
      min (preceding + ways.flatten.length) DiscreteView.countCap := by
  induction h generalizing preceding with
  | nil => rfl
  | cons hwalk hrest ih =>
      rw [List.map_cons, List.foldl_cons, ih, hwalk.valueCount_eq, List.flatten_cons,
        List.length_append, Count.add, Count.greatest, DiscreteView.countCap]
      omega

namespace DiscreteView

variable [Std.TransOrd α]

theorem indexFrom_eq_none (h : List.Forall₂ (Range.Walk domain carrier) ranges ways) {value : α}
    (hvalue : value ∈ carrier) (hnone : value ∉ ways.flatten) (preceding : Nat) :
    indexFrom domain value preceding ranges = none := by
  induction h generalizing preceding with
  | nil => rfl
  | cons hwalk hrest ih =>
      rw [List.flatten_cons, List.mem_append, not_or] at hnone
      rw [indexFrom, if_neg (mt (hwalk.contains_iff hvalue).mp hnone.1)]
      exact ih hnone.2 _

/-- The range that contains a value is reached with the number of values before that range, and the
distance from its first value is the number of the others. -/
theorem indexFrom_eq_some (h : List.Forall₂ (Range.Walk domain carrier) ranges ways) {value : α}
    (hvalue : value ∈ carrier) (hmem : value ∈ ways.flatten) (preceding : Nat) :
    ∃ before after, ways.flatten = before ++ value :: after ∧
      indexFrom domain value preceding ranges =
        some (min (preceding + before.length) countCap) := by
  induction h generalizing preceding with
  | nil => cases hmem
  | cons hwalk hrest ih =>
      rename_i range way ranges ways
      rw [indexFrom, List.flatten_cons]
      by_cases hway : value ∈ way
      · rw [if_pos ((hwalk.contains_iff hvalue).mpr hway)]
        obtain ⟨before, after, hsplit⟩ := List.append_of_mem hway
        refine ⟨before, after ++ ways.flatten, ?_, ?_⟩
        · rw [hsplit, List.append_assoc, List.cons_append]
        · cases way with
          | nil => cases hway
          | cons first rest =>
              obtain ⟨last, hends, -⟩ := hwalk.endpoints?_cons
              rw [hends, Option.map_some]
              change some (min (Count.add preceding (Count.ofSteps (domain.distance first value)))
                countCap) = _
              rw [hwalk.ofSteps_distance hsplit, Count.add, Count.greatest, countCap]
              congr 1
              omega
      · rw [if_neg (mt (hwalk.contains_iff hvalue).mp hway)]
        have hlater : value ∈ ways.flatten := (List.mem_append.mp hmem).resolve_left hway
        obtain ⟨before, after, hsplit, hindex⟩ :=
          ih hlater (Count.add preceding (range.valueCount domain))
        refine ⟨way ++ before, after, by rw [hsplit, List.append_assoc], ?_⟩
        rw [hindex, hwalk.valueCount_eq, List.length_append, Count.add, Count.greatest, countCap]
        congr 1
        omega

end DiscreteView

end RangeAlgebra
