import RangeAlgebra.Proofs.Set.Relations

/-!
Operations on two ranges and on the sets of these ranges. Both give the same set, and both answer
alike for elements, for overlap and for disjointness: a set forgets where an empty range lies, and
none of these asks for it. Inclusion does. An empty range is part of another range only if it lies
inside it, while the set of an empty range is part of every set.
-/

namespace RangeAlgebra

universe u

variable {α : Type u} [Ord α] [Std.TransOrd α] [Std.LawfulEqOrd α]

namespace Range

variable [DecidableEq α] {a b : Range α}

section Operations

variable (ha : a.Valid) (hb : b.Valid) (leftLabel rightLabel label : Nat)

include ha hb

private theorem intersection_ofRange_spec :
    let shared := (RangeSet.ofRange a leftLabel).intersection (RangeSet.ofRange b rightLabel) label
    shared.WellFormed ∧ ∀ cut, shared.Covers cut ↔ a.Covers cut ∧ b.Covers cut := by
  have hleft := (RangeSet.lists_ofRange ha leftLabel).wellFormed
  have hright : (RangeCollection.ofSet (RangeSet.ofRange b rightLabel)).WellFormed :=
    (RangeSet.lists_ofRange hb rightLabel).wellFormed
  obtain ⟨hform, hcovers⟩ := RangeSet.intersection_spec hleft hright label
  refine ⟨hform, fun cut => (hcovers cut).trans ?_⟩
  apply and_congr
  · exact RangeSet.covers_ofRange_iff ha leftLabel cut
  · exact RangeSet.covers_ofRange_iff hb rightLabel cut

private theorem union_ofRange_spec :
    let either := (RangeSet.ofRange a leftLabel).union (RangeSet.ofRange b rightLabel) label
    either.WellFormed ∧ ∀ cut, either.Covers cut ↔ a.Covers cut ∨ b.Covers cut := by
  have hleft := (RangeSet.lists_ofRange ha leftLabel).wellFormed
  have hright : (RangeCollection.ofSet (RangeSet.ofRange b rightLabel)).WellFormed :=
    (RangeSet.lists_ofRange hb rightLabel).wellFormed
  obtain ⟨hform, hcovers⟩ := RangeSet.union_spec hleft hright label
  refine ⟨hform, fun cut => (hcovers cut).trans ?_⟩
  apply or_congr
  · exact RangeSet.covers_ofRange_iff ha leftLabel cut
  · exact RangeSet.covers_ofRange_iff hb rightLabel cut

private theorem difference_ofRange_spec :
    let rest := (RangeSet.ofRange a leftLabel).difference (RangeSet.ofRange b rightLabel) label
    rest.WellFormed ∧ ∀ cut, rest.Covers cut ↔ a.Covers cut ∧ ¬ b.Covers cut := by
  have hleft := (RangeSet.lists_ofRange ha leftLabel).wellFormed
  have hright : (RangeCollection.ofSet (RangeSet.ofRange b rightLabel)).WellFormed :=
    (RangeSet.lists_ofRange hb rightLabel).wellFormed
  obtain ⟨hform, hcovers⟩ := RangeSet.difference_spec hleft hright label
  refine ⟨hform, fun cut => (hcovers cut).trans ?_⟩
  apply and_congr
  · exact RangeSet.covers_ofRange_iff ha leftLabel cut
  · exact not_congr (RangeSet.covers_ofRange_iff hb rightLabel cut)

theorem setIntersection_spec :
    (a.setIntersection b label).WellFormed ∧
      ∀ cut, (a.setIntersection b label).Covers cut ↔ a.Covers cut ∧ b.Covers cut := by
  unfold setIntersection
  cases hshared : a.intersection b with
  | none =>
      refine ⟨RangeSet.Lists.empty.wellFormed, fun cut => ?_⟩
      have hapart := apart_of_intersection_eq_none hshared cut
      rw [Option.elim_none, RangeSet.Lists.empty.covers_iff]
      exact iff_of_false (not_covered_nil cut) fun hboth => hapart hboth.1 hboth.2
  | some shared =>
      have hvalid := ha.intersection hb hshared
      refine ⟨(RangeSet.lists_ofRange hvalid label).wellFormed, fun cut => ?_⟩
      rw [Option.elim_some, RangeSet.covers_ofRange_iff hvalid]
      exact covers_intersection_iff hshared cut

theorem setUnion_spec :
    (a.setUnion b label).WellFormed ∧
      ∀ cut, (a.setUnion b label).Covers cut ↔ a.Covers cut ∨ b.Covers cut := by
  have hvalid : ∀ range ∈ [a, b], range.Valid := by simp [ha, hb]
  obtain ⟨hform, hcovers⟩ := RangeSet.unionOf_spec hvalid label
  refine ⟨hform, fun cut => (hcovers cut).trans ?_⟩
  simp

theorem setDifference_spec :
    (a.setDifference b label).WellFormed ∧
      ∀ cut, (a.setDifference b label).Covers cut ↔ a.Covers cut ∧ ¬ b.Covers cut :=
  difference_ofRange_spec ha hb 0 0 label

end Operations

/-- The set of an empty range is part of every set, and otherwise inclusion is enclosure. -/
theorem isSubset_ofRange (ha : a.Valid) (hb : b.Valid) (leftLabel rightLabel : Nat) :
    (RangeSet.ofRange a leftLabel).isSubset (.ofRange b rightLabel) =
      (a.isEmpty || a.isSubset b) := by
  have hleft := (RangeSet.lists_ofRange ha leftLabel).wellFormed
  have hright := (RangeSet.lists_ofRange hb rightLabel).wellFormed
  rw [Bool.eq_iff_iff, Bool.or_eq_true, hleft.isSubset_iff hright]
  simp only [RangeSet.covers_ofRange_iff ha, RangeSet.covers_ofRange_iff hb]
  by_cases hempty : a.isEmpty = true
  · apply iff_of_true
    · intro cut hcut
      exact absurd hempty (not_isEmpty_of_covers hcut)
    · exact Or.inl hempty
  · rw [or_iff_right hempty, isSubset, encloses_iff_forall_covers b (ha.lt_of_not_isEmpty hempty)]

theorem overlaps_ofRange (ha : a.Valid) (hb : b.Valid) (leftLabel rightLabel : Nat) :
    (RangeSet.ofRange a leftLabel).overlaps (.ofRange b rightLabel) = a.overlaps b := by
  have hleft := (RangeSet.lists_ofRange ha leftLabel).wellFormed
  have hright := (RangeSet.lists_ofRange hb rightLabel).wellFormed
  rw [Bool.eq_iff_iff, hleft.overlaps_iff hright, overlaps_iff ha hb]
  simp only [RangeSet.covers_ofRange_iff ha, RangeSet.covers_ofRange_iff hb]

theorem contains_ofRange (ha : a.Valid) (label : Nat) (value : α) :
    (RangeSet.ofRange a label).contains value = a.contains value := by
  have hlists := RangeSet.lists_ofRange ha label
  rw [Bool.eq_iff_iff, hlists.contains_iff, ← hlists.covers_iff, RangeSet.covers_ofRange_iff ha,
    contains_iff]

omit [Std.TransOrd α] [Std.LawfulEqOrd α] [Ord α] in
theorem isEmpty_ofRange (a : Range α) (label : Nat) :
    (RangeSet.ofRange a label).isEmpty = a.isEmpty := by
  unfold RangeSet.ofRange
  by_cases hempty : a.isEmpty = true
  · simp [hempty, RangeSet.isEmpty]
  · by_cases hall : a.isAll = true <;> simp [hempty, hall, RangeSet.isEmpty]

/-- What two ranges give together is what their sets give, also when the other set is given as its
range. Their sets answer as they do, except that the set of an empty range is part of every set:
inclusion of the sets is inclusion of the ranges or emptiness of the first. -/
theorem operations_eq_on_sets (ha : a.Valid) (hb : b.Valid)
    (leftLabel rightLabel label setLabel : Nat) :
    let left := RangeSet.ofRange a leftLabel
    let right := RangeSet.ofRange b rightLabel
    ((a.setIntersection b label == left.intersection right setLabel) = true ∧
      (a.setUnion b label == left.union right setLabel) = true ∧
      (a.setDifference b label == left.difference right setLabel) = true) ∧
    ((left.withRange (·.intersection · ·) b label == left.intersection right setLabel) = true ∧
      (left.withRange (·.union · ·) b label == left.union right setLabel) = true ∧
      (left.withRange (·.difference · ·) b label == left.difference right setLabel) = true) ∧
    (left.isSubset right = (a.isEmpty || a.isSubset b) ∧
      left.overlaps right = a.overlaps b ∧ left.isDisjoint right = a.isDisjoint b) ∧
    (∀ value, left.contains value = a.contains value) ∧ left.isEmpty = a.isEmpty := by
  intro left right
  have hintersection := intersection_ofRange_spec ha hb leftLabel rightLabel setLabel
  have hunion := union_ofRange_spec ha hb leftLabel rightLabel setLabel
  have hdifference := difference_ofRange_spec ha hb leftLabel rightLabel setLabel
  refine ⟨⟨?_, ?_, ?_⟩, ⟨?_, ?_, ?_⟩, ⟨?_, ?_, ?_⟩, ?_, ?_⟩
  · exact RangeSet.beq_of_spec (setIntersection_spec ha hb label) hintersection
  · exact RangeSet.beq_of_spec (setUnion_spec ha hb label) hunion
  · exact RangeSet.beq_of_spec (setDifference_spec ha hb label) hdifference
  · exact RangeSet.beq_of_spec (intersection_ofRange_spec ha hb leftLabel 0 label) hintersection
  · exact RangeSet.beq_of_spec (union_ofRange_spec ha hb leftLabel 0 label) hunion
  · exact RangeSet.beq_of_spec (difference_ofRange_spec ha hb leftLabel 0 label) hdifference
  · exact isSubset_ofRange ha hb leftLabel rightLabel
  · exact overlaps_ofRange ha hb leftLabel rightLabel
  · exact congrArg (!·) (overlaps_ofRange ha hb leftLabel rightLabel)
  · exact contains_ofRange ha leftLabel
  · exact isEmpty_ofRange a leftLabel

/-- The empty range lies outside the other one, and its set is part of the set of that. -/
theorem isSubset_outside :
    let outside : Range Int := ⟨.below 5, .below 5⟩
    let other : Range Int := ⟨.below 1, .above 2⟩
    outside.Valid ∧ other.Valid ∧ outside.isSubset other = false ∧
      (RangeSet.ofRange outside).isSubset (RangeSet.ofRange other) = true := by
  intro outside other
  exact ⟨by decide, by decide, by decide, by decide +kernel⟩

/-- The ranges touch, so what they share is an empty range and an empty set. -/
theorem operations_eq_on_sets_touching :
    let a : Range Int := ⟨.below 1, .below 3⟩
    let b : Range Int := ⟨.below 3, .aboveAll⟩
    a.Valid ∧ b.Valid ∧
      (a.setIntersection b == (RangeSet.ofRange a 1).intersection (RangeSet.ofRange b 2) 3) = true ∧
      (RangeSet.ofRange a 1).overlaps (RangeSet.ofRange b 2) = a.overlaps b ∧
      (RangeSet.ofRange a 1).isSubset (RangeSet.ofRange b 2) = (a.isEmpty || a.isSubset b) := by
  intro a b
  have ha : a.Valid := by decide
  have hb : b.Valid := by decide
  obtain ⟨⟨hintersection, -⟩, -, ⟨hsubset, hoverlaps, -⟩, -⟩ :=
    operations_eq_on_sets ha hb 1 2 0 3
  exact ⟨ha, hb, hintersection, hoverlaps, hsubset⟩

end Range

end RangeAlgebra
