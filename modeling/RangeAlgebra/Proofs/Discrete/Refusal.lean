import RangeAlgebra.Proofs.Discrete.Enumeration

/-!
Which sets are refused a view. The ends are judged on the span in canonical form. Below, it has a
bound if the span has one or the domain has a least value. Above, a cut with no next value counts as
infinite even if the span ends there, and a span that only starts there becomes empty and counts as
bounded. For the integers of a kind these are the spans that end or start just above the greatest
one.
-/

namespace RangeAlgebra

universe u

variable {α : Type u} {domain : DiscreteDomain α}

namespace DiscreteDomain

theorem minValue_eq_error_iff : domain.minValue = .error .noLeastValue ↔ domain.least? = none := by
  cases hleast : domain.least? <;> simp [minValue, hleast]

theorem maxValue_eq_error_iff :
    domain.maxValue = .error .noGreatestValue ↔ domain.greatest? = none := by
  cases hgreatest : domain.greatest? <;> simp [maxValue, hgreatest]

/-- The greatest integer of a kind is the only one without a next one. -/
theorem next_integers_eq_none_iff {kind : IntegerKind} (value : BoundedInt kind) :
    (integers kind).next value = none ↔ value = .greatest kind := by
  have hnext (above : BoundedInt kind) : (integers kind).next value = some above ↔
      above.val = value.val + 1 := BoundedInt.ofInt?_eq_some_iff (value.val + 1) above
  have hgreatest : (BoundedInt.greatest kind).val = kind.maximum := rfl
  rw [Option.eq_none_iff_forall_ne_some]
  constructor
  · intro hnone
    by_contra hne
    have hle := value.le_maximum
    have hval : value.val ≠ kind.maximum := fun hval => hne (BoundedInt.val_injective hval)
    obtain ⟨above, habove⟩ :=
      BoundedInt.exists_val_eq value (.greatest kind) (value.val + 1) (by omega) (by omega)
    exact hnone above ((hnext above).mpr habove)
  · rintro rfl above habove
    have hle := above.le_maximum
    rw [hnext] at habove
    omega

end DiscreteDomain

namespace Cut

theorem canonical_ne_belowAll {cut : Cut α} (h : cut ≠ .belowAll) :
    cut.canonical domain ≠ .belowAll := by
  cases hlow : cut.leastValueAbove domain with
  | some low => simp [canonical_eq_below hlow]
  | none => simp [canonical_eq_aboveAll hlow h]

/-- If only one value has no next one, the cut above it is as good as the one above all values. -/
theorem canonical_eq_aboveAll_iff_of_last {last : α}
    (hlast : ∀ value, domain.next value = none ↔ value = last) (cut : Cut α) :
    cut.canonical domain = .aboveAll ↔ cut = .aboveAll ∨ cut = .above last := by
  rw [canonical_eq_aboveAll_iff]
  cases cut <;> simp [leastValueAbove, hlast]

end Cut

variable [Ord α] [DecidableEq α]

/-- In canonical form a range is unbounded above only if its upper cut becomes infinite, and then
only if its lower cut does not. -/
theorem Range.Valid.hasUpperBound_canonical_iff {range : Range α} (hvalid : range.Valid) :
    (range.canonical domain).hasUpperBound = true ↔
      (range.upper.canonical domain = .aboveAll → range.lower.canonical domain = .aboveAll) := by
  by_cases hlower : range.lower.canonical domain = .aboveAll
  · have hne := ((Cut.canonical_eq_aboveAll_iff _).mp hlower).1
    rw [canonical_eq_of_eq hvalid.2.1 hlower, hasUpperBound, Cut.isBounded_iff]
    exact iff_of_true ⟨hne, hvalid.2.1⟩ fun _ => hlower
  · have hne : range.upper.canonical domain ≠ .belowAll := Cut.canonical_ne_belowAll hvalid.2.2
    rw [canonical_eq_of_ne hlower, hasUpperBound, Cut.isBounded_iff, and_iff_right hne]
    exact ⟨fun hupper habove => absurd habove hupper, fun himp habove => hlower (himp habove)⟩

namespace RangeSet

variable {set : RangeSet α}

theorem asView_eq_unboundedBelow_iff {span : Range α} (h : set.span = .ok span) :
    set.asView domain = .error .unboundedBelow ↔
      (span.canonical domain).hasLowerBound = false := by
  simp only [asView, h]
  cases (span.canonical domain).hasLowerBound <;> cases (span.canonical domain).hasUpperBound <;>
    cases domain.greatest? <;> simp

theorem asView_eq_unboundedAbove_iff {span : Range α} (h : set.span = .ok span) :
    set.asView domain = .error .unboundedAbove ↔
      (span.canonical domain).hasLowerBound = true ∧
        (span.canonical domain).hasUpperBound = false ∧ domain.greatest? = none := by
  simp only [asView, h]
  cases (span.canonical domain).hasLowerBound <;> cases (span.canonical domain).hasUpperBound <;>
    cases domain.greatest? <;> simp

/-- There are no refusals but these two. -/
theorem asView_eq_ok_of_ne (hbelow : set.asView domain ≠ .error .unboundedBelow)
    (habove : set.asView domain ≠ .error .unboundedAbove) :
    set.asView domain = .ok ⟨set, domain⟩ := by
  cases hspan : set.span with
  | error error => exact asView_eq_ok_of_span_eq_error hspan
  | ok span =>
      rw [ne_eq, asView_eq_unboundedBelow_iff hspan, Bool.not_eq_false] at hbelow
      rw [ne_eq, asView_eq_unboundedAbove_iff hspan, not_and, not_and] at habove
      refine (asView_eq_ok_iff hspan).mpr ⟨rfl, hbelow, ?_⟩
      rw [or_iff_not_imp_left, Bool.not_eq_true, Option.isSome_iff_ne_none]
      exact habove hbelow

variable [Std.TransOrd α] [Std.LawfulEqOrd α]

/-- A view is refused at the lower end when neither the span nor the domain ends there. -/
theorem WellFormed.asView_eq_unboundedBelow_iff (h : set.WellFormed) :
    set.asView domain = .error .unboundedBelow ↔ set.isEmpty = false ∧
      ∃ span, set.span = .ok span ∧ span.hasLowerBound = false ∧ domain.least? = none := by
  rcases h.span_cases with ⟨-, hempty, hspan⟩ | ⟨span, hempty, hspan, hproper, -⟩
  · simp [asView_eq_ok_of_span_eq_error hspan, hempty]
  · have hvalid := Range.valid_of_lt hproper
    rw [RangeSet.asView_eq_unboundedBelow_iff hspan, ← Bool.not_eq_true,
      hvalid.hasLowerBound_canonical_iff]
    simp only [hspan, hempty, true_and, Except.ok.injEq, exists_eq_left', ← Bool.not_eq_true,
      hvalid.hasLowerBound_iff, Classical.not_imp, not_not, Option.not_isSome_iff_eq_none]

/-- A view is refused at the upper end when the span ends at or above the last value that the
domain steps to, starts below the place above it, and the domain does not name that value. -/
theorem WellFormed.asView_eq_unboundedAbove_iff (h : set.WellFormed) {last : α}
    (hlast : ∀ value, domain.next value = none ↔ value = last) :
    set.asView domain = .error .unboundedAbove ↔
      set.asView domain ≠ .error .unboundedBelow ∧ set.isEmpty = false ∧
        ∃ span, set.span = .ok span ∧ ((span.hasUpperBound = false ∧ span.lower ≠ .above last) ∨
          span.upper = .above last) ∧ domain.greatest? = none := by
  rcases h.span_cases with ⟨-, hempty, hspan⟩ | ⟨span, hempty, hspan, hproper, -⟩
  · simp [asView_eq_ok_of_span_eq_error hspan, hempty]
  · have hvalid := Range.valid_of_lt hproper
    have hupper : (span.canonical domain).hasUpperBound = false ↔
        (span.hasUpperBound = false ∧ span.lower ≠ .above last) ∨ span.upper = .above last := by
      rw [← Bool.not_eq_true, ← Bool.not_eq_true, hvalid.hasUpperBound_canonical_iff,
        hvalid.hasUpperBound_iff, Cut.canonical_eq_aboveAll_iff_of_last hlast,
        Cut.canonical_eq_aboveAll_iff_of_last hlast]
      have hlower := hvalid.2.1
      -- A span that ends just above `last` holds a position, so it does not start there.
      have hne := Std.ne_of_lt hproper
      grind
    rw [RangeSet.asView_eq_unboundedAbove_iff hspan, ne_eq,
      RangeSet.asView_eq_unboundedBelow_iff hspan, Bool.not_eq_false, hupper]
    simp only [hspan, hempty, true_and, Except.ok.injEq, exists_eq_left']

section Integers

variable {kind : IntegerKind}

/-- With the steps of the integers, and their least and their greatest value or not, a view is
refused at the lower end exactly when neither the span of a set with ranges nor the domain ends
there. At the upper end that is not so: without a greatest value in the domain a span that is
closed at the greatest integer is refused too, and one that has no end but starts above that
integer is not. -/
theorem asView_refused_iff {set : RangeSet (BoundedInt kind)} (h : set.Reachable)
    (least greatest : Bool) :
    let domain := (DiscreteDomain.integers kind).keepBounds least greatest
    (set.asView domain = .error .unboundedBelow ↔ set.isEmpty = false ∧ ∃ span,
        set.span = .ok span ∧ span.hasLowerBound = false ∧
          domain.minValue = .error .noLeastValue) ∧
      (set.asView domain = .error .unboundedAbove ↔
        set.asView domain ≠ .error .unboundedBelow ∧ set.isEmpty = false ∧ ∃ span,
          set.span = .ok span ∧
            ((span.hasUpperBound = false ∧ span.lower ≠ .above (.greatest kind)) ∨
              span.upper = .above (.greatest kind)) ∧
            domain.maxValue = .error .noGreatestValue) ∧
      (set.asView domain ≠ .error .unboundedBelow → set.asView domain ≠ .error .unboundedAbove →
        set.asView domain = .ok ⟨set, domain⟩) := by
  intro domain
  simp only [DiscreteDomain.minValue_eq_error_iff, DiscreteDomain.maxValue_eq_error_iff]
  have hlast : ∀ value, domain.next value = none ↔ value = .greatest kind :=
    DiscreteDomain.next_integers_eq_none_iff
  exact ⟨h.wellFormed.asView_eq_unboundedBelow_iff, h.wellFormed.asView_eq_unboundedAbove_iff hlast,
    asView_eq_ok_of_ne⟩

/-- The set ends at the greatest integer and reads its range as the gap of a stored sequence. -/
theorem asView_refused_iff_gaps :
    let domain := (DiscreteDomain.integers .int8).keepBounds true false
    let one : BoundedInt .int8 := ⟨1, by decide, by decide⟩
    let gaps : RangeSet (BoundedInt .int8) := RangeSet.complement <| .unionOf
      [⟨.belowAll, .below one⟩, ⟨.above (.greatest .int8), .aboveAll⟩] 1
    gaps.Reachable ∧ gaps.span = .ok ⟨.below one, .above (.greatest .int8)⟩ ∧
      gaps.asView domain = .error .unboundedAbove := by
  intro domain one gaps
  have hgaps : gaps.Reachable := RangeCollection.Reachable.complement (.unionOf (by decide) 1)
  have hspan : gaps.span = .ok ⟨.below one, .above (.greatest .int8)⟩ := by decide +kernel
  obtain ⟨hbelow, habove, -⟩ := asView_refused_iff hgaps true false
  refine ⟨hgaps, hspan, habove.mpr ⟨?_, rfl, _, hspan, Or.inr rfl, rfl⟩⟩
  rw [ne_eq, hbelow]
  rintro ⟨-, -, -, -, hleast⟩
  cases hleast

/-- The first set ends at the greatest integer and is refused as if it did not end, the second one
does not end and has a view, in a domain without a greatest value. -/
theorem asView_at_greatest :
    let domain := (DiscreteDomain.integers .int8).keepBounds true false
    let ended : RangeSet (BoundedInt .int8) :=
      .ofRange ⟨.below ⟨1, by decide, by decide⟩, .above (.greatest .int8)⟩
    let endless : RangeSet (BoundedInt .int8) :=
      .ofRange ⟨.above (.greatest .int8), .aboveAll⟩
    ended.Reachable ∧ endless.Reachable ∧ endless.isEmpty = false ∧
      (∀ span, ended.span = .ok span → span.hasUpperBound = true) ∧
      ended.asView domain = .error .unboundedAbove ∧
      (∃ span, endless.span = .ok span ∧ span.hasUpperBound = false) ∧
      domain.maxValue = .error .noGreatestValue ∧ endless.asView domain = .ok ⟨endless, domain⟩ := by
  intro domain ended endless
  refine ⟨.ofRange (by decide) 0, .ofRange (by decide) 0, rfl, ?_, rfl, ⟨_, rfl, rfl⟩, rfl, rfl⟩
  rintro span hspan
  cases hspan
  rfl

end Integers

end RangeSet

end RangeAlgebra
