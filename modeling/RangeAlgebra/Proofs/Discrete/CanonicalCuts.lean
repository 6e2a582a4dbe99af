import RangeAlgebra.Proofs.Discrete.Walk

/-!
What the canonical form of cuts and ranges keeps. A cut moves to the one just below the least value
above it, if the domain finds one, and otherwise behind all values; only the cut below all values
stays where it is when the domain has no least value. In a domain of all values of the type, no
value lies between a cut and its canonical form, and a range in canonical form covers both cuts of
each of its values but no other position.
-/

namespace RangeAlgebra

universe u

variable {α : Type u} {domain : DiscreteDomain α}

namespace Cut

/-- Cuts that are judged by the value they adjoin are compared by their values. -/
theorem forall_endpoint?_iff (p q : α → Prop) :
    (∀ cut : Cut α, (∃ value, cut.endpoint? = some value ∧ p value) →
      ∃ value, cut.endpoint? = some value ∧ q value) ↔ ∀ value, p value → q value := by
  constructor
  · intro hcuts value hvalue
    obtain ⟨_, hend, hother⟩ := hcuts (.below value) ⟨value, rfl, hvalue⟩
    cases hend
    exact hother
  · rintro hvalues cut ⟨value, hend, hvalue⟩
    exact ⟨value, hend, hvalues value hvalue⟩

theorem canonical_eq_below {cut : Cut α} {low : α} (h : cut.leastValueAbove domain = some low) :
    cut.canonical domain = .below low := by
  cases cut with
  | belowAll =>
      have hleast : domain.least? = some low := h
      rw [canonical, hleast]
      rfl
  | below value =>
      cases h
      rfl
  | above value =>
      have hnext : domain.next value = some low := h
      rw [canonical, hnext]
      rfl
  | aboveAll => cases h

theorem canonical_eq_aboveAll {cut : Cut α} (h : cut.leastValueAbove domain = none)
    (hcut : cut ≠ .belowAll) : cut.canonical domain = .aboveAll := by
  cases cut with
  | belowAll => exact absurd rfl hcut
  | below value => cases h
  | above value =>
      have hnext : domain.next value = none := h
      rw [canonical, hnext]
      rfl
  | aboveAll => rfl

theorem canonical_belowAll (h : domain.least? = none) :
    (belowAll : Cut α).canonical domain = .belowAll := by
  rw [canonical, h]
  rfl

theorem canonical_eq_aboveAll_iff (cut : Cut α) :
    cut.canonical domain = .aboveAll ↔ cut ≠ .belowAll ∧ cut.leastValueAbove domain = none := by
  cases hlow : cut.leastValueAbove domain with
  | some low => simp [canonical_eq_below hlow]
  | none =>
      by_cases hcut : cut = .belowAll
      · subst hcut
        simp [canonical_belowAll hlow]
      · simp [canonical_eq_aboveAll hlow hcut, hcut]

/-- The canonical forms are cuts just below values, and the one above all. -/
theorem canonical_cases (hleast : domain.least?.isSome = true) (cut : Cut α) :
    (∃ low, cut.canonical domain = .below low) ∨ cut.canonical domain = .aboveAll := by
  cases hlow : cut.leastValueAbove domain with
  | some low => exact Or.inl ⟨low, canonical_eq_below hlow⟩
  | none =>
      refine Or.inr (canonical_eq_aboveAll hlow ?_)
      rintro rfl
      rw [show domain.least? = none from hlow] at hleast
      cases hleast

/-- The cuts of a value lie on the same side of every cut in canonical form. -/
theorem canonical_le_above_iff [Ord α] (hleast : domain.least?.isSome = true) (cut : Cut α)
    (value : α) : cut.canonical domain ≤ .above value ↔ cut.canonical domain ≤ .below value := by
  rcases canonical_cases hleast cut with ⟨low, hcut⟩ | hcut
  · rw [hcut, below_le_above_iff]
  · rw [hcut]
    exact iff_of_false Bool.false_ne_true Bool.false_ne_true

end Cut

namespace Range

variable [DecidableEq α]

theorem canonical_eq_of_ne {range : Range α} (h : range.lower.canonical domain ≠ .aboveAll) :
    range.canonical domain = ⟨range.lower.canonical domain, range.upper.canonical domain⟩ := by
  by_cases hsame : range.lower.canonical domain = range.lower ∧
      range.upper.canonical domain = range.upper
  · rw [canonical, if_pos hsame, hsame.1, hsame.2]
  · rw [canonical, if_neg hsame, if_neg h]

theorem canonical_eq_of_eq {range : Range α} (hlower : range.lower ≠ .aboveAll)
    (h : range.lower.canonical domain = .aboveAll) :
    range.canonical domain = ⟨range.lower, range.lower⟩ := by
  rw [canonical, if_neg, if_pos h]
  rintro ⟨hsame, -⟩
  exact hlower (hsame.symm.trans h)

/-- A range without an upper bound gets one only by having nothing above its lower cut. -/
theorem leastValueAbove_eq_none (range : Range α) (hupper : range.upper = .aboveAll)
    (h : (range.canonical domain).hasUpperBound = true) :
    range.lower ≠ .belowAll ∧ range.lower.leastValueAbove domain = none := by
  rw [← Cut.canonical_eq_aboveAll_iff]
  by_contra hlower
  rw [canonical_eq_of_ne hlower, hupper] at h
  cases h

variable [Ord α]

/-- In canonical form a range is unbounded below only if the domain has no least value. -/
theorem Valid.hasLowerBound_canonical_iff {range : Range α} (hvalid : range.Valid) :
    (range.canonical domain).hasLowerBound = true ↔
      (range.lower = .belowAll → domain.least?.isSome = true) := by
  cases hlow : range.lower.leastValueAbove domain with
  | some low =>
      have hlower := Cut.canonical_eq_below hlow
      rw [canonical_eq_of_ne (by simp [hlower]), hlower]
      refine iff_of_true rfl fun hbelow => ?_
      rw [hbelow] at hlow
      exact Option.isSome_iff_exists.mpr ⟨low, hlow⟩
  | none =>
      by_cases hbelow : range.lower = .belowAll
      · rw [hbelow] at hlow
        have hlower : range.lower.canonical domain = .belowAll :=
          hbelow ▸ Cut.canonical_belowAll hlow
        rw [canonical_eq_of_ne (by simp [hlower]), hlower]
        refine iff_of_false Bool.false_ne_true fun hsome => ?_
        have hleast : domain.least?.isSome = true := hsome hbelow
        rw [show domain.least? = none from hlow] at hleast
        cases hleast
      · rw [canonical_eq_of_eq hvalid.2.1 (Cut.canonical_eq_aboveAll hlow hbelow)]
        refine iff_of_true ?_ fun habsurd => absurd habsurd hbelow
        exact hvalid.hasLowerBound_iff.mpr hbelow

end Range

section AllValues

variable [Ord α] [Std.TransOrd α] [Std.LawfulEqOrd α]

namespace Cut

/-- No value lies between a cut and its canonical form. -/
theorem canonical_le_below_iff (h : domain.StepsOver Set.univ)
    (hleast : domain.least?.isSome = true) (cut : Cut α) (value : α) :
    cut.canonical domain ≤ .below value ↔ cut ≤ .below value := by
  have hend : ∀ other, cut.endpoint? = some other → other ∈ Set.univ := fun _ _ => trivial
  cases hlow : cut.leastValueAbove domain with
  | some low =>
      obtain ⟨-, hle, hfirst⟩ := h.leastValueAbove_spec hend hlow
      rw [canonical_eq_below hlow]
      exact ⟨Std.le_trans hle, hfirst value trivial⟩
  | none =>
      have hbeyond := h.not_le_of_leastValueAbove_eq_none hend (fun _ => hleast) hlow value trivial
      have hcut : cut ≠ .belowAll := by
        rintro rfl
        exact hbeyond (belowAll_le _)
      rw [canonical_eq_aboveAll hlow hcut]
      exact iff_of_false Bool.false_ne_true hbeyond

theorem below_lt_canonical_iff (h : domain.StepsOver Set.univ)
    (hleast : domain.least?.isSome = true) (cut : Cut α) (value : α) :
    .below value < cut.canonical domain ↔ .below value < cut := by
  rw [← Std.not_le, canonical_le_below_iff h hleast, Std.not_le]

theorem canonical_mono (h : domain.StepsOver Set.univ) (hleast : domain.least?.isSome = true)
    {a b : Cut α} (hle : a ≤ b) : a.canonical domain ≤ b.canonical domain := by
  rcases canonical_cases hleast b with ⟨low, hcut⟩ | hcut
  · have hlow := (canonical_le_below_iff h hleast b low).mp (Std.le_of_eq hcut)
    rw [hcut, canonical_le_below_iff h hleast]
    exact Std.le_trans hle hlow
  · rw [hcut]
    exact le_aboveAll _

end Cut

namespace Range

variable [DecidableEq α]

theorem Valid.canonical (h : domain.StepsOver Set.univ) (hleast : domain.least?.isSome = true)
    {range : Range α} (hvalid : range.Valid) : (range.canonical domain).Valid := by
  by_cases hbeyond : range.lower.canonical domain = .aboveAll
  · rw [canonical_eq_of_eq hvalid.2.1 hbeyond]
    exact ⟨Std.le_refl _, hvalid.2.1, ((Cut.canonical_eq_aboveAll_iff _).mp hbeyond).1⟩
  · rw [canonical_eq_of_ne hbeyond]
    refine ⟨Cut.canonical_mono h hleast hvalid.1, hbeyond, ?_⟩
    rcases Cut.canonical_cases hleast range.upper with ⟨low, hcut⟩ | hcut <;> simp [hcut]

/-- In canonical form a range covers both cuts of each of its values, and nothing else. -/
theorem Valid.covers_canonical_iff (h : domain.StepsOver Set.univ)
    (hleast : domain.least?.isSome = true) {range : Range α} (hvalid : range.Valid) (cut : Cut α) :
    (range.canonical domain).Covers cut ↔
      ∃ value, cut.endpoint? = some value ∧ range.Covers (.below value) := by
  by_cases hbeyond : range.lower.canonical domain = .aboveAll
  · rw [canonical_eq_of_eq hvalid.2.1 hbeyond]
    refine iff_of_false (fun hcut => Std.lt_irrefl (Std.lt_of_le_of_lt hcut.1 hcut.2)) ?_
    rintro ⟨value, -, hlower, -⟩
    rw [← Cut.canonical_le_below_iff h hleast, hbeyond] at hlower
    exact Bool.false_ne_true hlower
  · rw [canonical_eq_of_ne hbeyond]
    have hcovers (value : α) : (⟨range.lower.canonical domain, range.upper.canonical domain⟩ :
        Range α).Covers (.below value) ↔ range.Covers (.below value) := and_congr
      (Cut.canonical_le_below_iff h hleast range.lower value)
      (Cut.below_lt_canonical_iff h hleast range.upper value)
    cases cut with
    | belowAll =>
        refine iff_of_false ?_ (by simp [Cut.endpoint?])
        rintro ⟨hlower, -⟩
        rcases Cut.canonical_cases hleast range.lower with ⟨low, hcut⟩ | hcut
        · rw [hcut] at hlower
          exact Bool.false_ne_true hlower
        · exact hbeyond hcut
    | below value => simp [Cut.endpoint?, hcovers]
    | above value =>
        have hsides : ∀ bound : Cut α, .above value < bound.canonical domain ↔
            .below value < bound.canonical domain := by
          intro bound
          rw [← Std.not_le, ← Std.not_le, Cut.canonical_le_above_iff hleast]
        simp only [Cut.endpoint?, Option.some.injEq, exists_eq_left', ← hcovers]
        exact and_congr (Cut.canonical_le_above_iff hleast range.lower value) (hsides range.upper)
    | aboveAll => exact iff_of_false (not_covers_aboveAll _) (by simp [Cut.endpoint?])

end Range

end AllValues

end RangeAlgebra
