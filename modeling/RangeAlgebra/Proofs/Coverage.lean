import RangeAlgebra.Cut.Order
import RangeAlgebra.Range

/-!
What it means for a position to lie in a range, and how the operations on ranges read in these
terms. Elements enter only through the cut just below them: an element is in a range exactly when
the range covers that cut. Everything else about ranges is the order of their cuts.
-/

namespace RangeAlgebra

universe u

variable {α : Type u}

namespace Cut

theorem isBounded_iff (cut : Cut α) :
    cut.isBounded = true ↔ cut ≠ .belowAll ∧ cut ≠ .aboveAll := by
  cases cut <;> simp [isBounded, endpoint?]

variable [Ord α]

theorem belowAll_le (cut : Cut α) : .belowAll ≤ cut := by
  cases cut <;> rfl

theorem le_aboveAll (cut : Cut α) : cut ≤ .aboveAll := by
  cases cut <;> rfl

@[grind =]
theorem max_eq_ite (a b : Cut α) : max a b = if b ≤ a then a else b :=
  rfl

@[grind =]
theorem min_eq_ite (a b : Cut α) : min a b = if a ≤ b then a else b :=
  rfl

theorem isLessThan_iff (cut : Cut α) (value : α) :
    cut.isLessThan value = true ↔ cut ≤ .below value := by
  cases cut with
  | belowAll => exact iff_of_true rfl rfl
  | aboveAll => exact iff_of_false Bool.false_ne_true Bool.false_ne_true
  | below bound => exact Iff.rfl
  | above bound =>
      change (compare bound value).isLT = true ↔ ((compare bound value).then .gt).isLE = true
      cases compare bound value <;> decide

theorem below_lt_above_iff (a b : α) : below a < above b ↔ below a ≤ below b := by
  change ((compare a b).then .lt) = .lt ↔ (compare a b).isLE = true
  cases compare a b <;> decide

theorem below_le_above_iff (a b : α) : below a ≤ above b ↔ below a ≤ below b := by
  change ((compare a b).then .lt).isLE = true ↔ (compare a b).isLE = true
  cases compare a b <;> decide

theorem above_lt_below_iff (a b : α) : above a < below b ↔ compare a b = .lt := by
  change ((compare a b).then .gt) = .lt ↔ compare a b = .lt
  cases compare a b <;> decide

theorem above_le_below_iff (a b : α) : above a ≤ below b ↔ compare a b = .lt := by
  change ((compare a b).then .gt).isLE = true ↔ compare a b = .lt
  cases compare a b <;> decide

end Cut

namespace Range

@[ext]
protected theorem ext {a b : Range α} (hlower : a.lower = b.lower) (hupper : a.upper = b.upper) :
    a = b := by
  cases a
  cases b
  exact congr (congrArg mk hlower) hupper

@[grind =]
theorem isEmpty_iff [DecidableEq α] (range : Range α) :
    range.isEmpty = true ↔ range.lower = range.upper := by
  simp [isEmpty]

variable [Ord α]

instance [DecidableEq α] (range : Range α) : Decidable range.Valid :=
  inferInstanceAs (Decidable (_ ∧ _))

@[grind =]
theorem covers_iff (range : Range α) (cut : Cut α) :
    range.Covers cut ↔ range.lower ≤ cut ∧ cut < range.upper :=
  Iff.rfl

@[grind =]
theorem encloses_iff (outer inner : Range α) :
    outer.encloses inner = true ↔ outer.lower ≤ inner.lower ∧ inner.upper ≤ outer.upper := by
  simp [encloses]

@[grind =]
theorem isConnected_iff (a b : Range α) :
    a.isConnected b = true ↔ a.lower ≤ b.upper ∧ b.lower ≤ a.upper := by
  simp [isConnected]

@[grind =]
theorem lower_span (a b : Range α) : (a.span b).lower = min a.lower b.lower :=
  rfl

@[grind =]
theorem upper_span (a b : Range α) : (a.span b).upper = max a.upper b.upper :=
  rfl

/-- Connected ranges share the range between the later start and the earlier end. -/
@[grind =]
theorem intersection_eq_some_iff (a b shared : Range α) :
    a.intersection b = some shared ↔
      a.isConnected b = true ∧
        shared.lower = max a.lower b.lower ∧ shared.upper = min a.upper b.upper := by
  obtain ⟨lower, upper⟩ := shared
  simp only [intersection, Option.ite_none_right_eq_some, Option.some.injEq, mk.injEq]
  grind

theorem Valid.hasLowerBound_iff {range : Range α} (hvalid : range.Valid) :
    range.hasLowerBound = true ↔ range.lower ≠ .belowAll := by
  rw [hasLowerBound, Cut.isBounded_iff, and_iff_left hvalid.2.1]

theorem Valid.hasUpperBound_iff {range : Range α} (hvalid : range.Valid) :
    range.hasUpperBound = true ↔ range.upper ≠ .aboveAll := by
  rw [hasUpperBound, Cut.isBounded_iff, and_iff_right hvalid.2.2]

variable [Std.TransOrd α]

theorem contains_iff (range : Range α) (value : α) :
    range.contains value = true ↔ range.Covers (.below value) := by
  rw [contains, Bool.and_eq_true, Bool.not_eq_true', ← Bool.not_eq_true, Cut.isLessThan_iff,
    Cut.isLessThan_iff, Std.not_le]
  exact Iff.rfl

variable [Std.LawfulEqOrd α]

/-- A range whose cuts are in strict order has no infinite cut on the wrong side. -/
theorem valid_of_lt {range : Range α} (h : range.lower < range.upper) : range.Valid := by
  have hupper := Cut.le_aboveAll range.upper
  have hlower := Cut.belowAll_le range.lower
  exact ⟨Std.le_of_lt h, by grind, by grind⟩

theorem Valid.lt_of_not_isEmpty [DecidableEq α] {range : Range α} (hvalid : range.Valid)
    (hempty : ¬ range.isEmpty = true) : range.lower < range.upper := by
  have hle := hvalid.1
  grind

theorem valid_all : (all : Range α).Valid :=
  valid_of_lt rfl

/-- No range reaches beyond the last position. -/
theorem not_covers_aboveAll (range : Range α) : ¬ range.Covers .aboveAll := by
  have hupper := Cut.le_aboveAll range.upper
  grind

theorem covers_all_iff (cut : Cut α) : (all : Range α).Covers cut ↔ cut ≠ .aboveAll := by
  have hlower := Cut.belowAll_le cut
  have hupper := Cut.le_aboveAll cut
  change .belowAll ≤ cut ∧ cut < .aboveAll ↔ cut ≠ .aboveAll
  grind

/-- The span of connected ranges covers no position between them. -/
theorem covers_span_iff {a b : Range α} (hconnected : a.isConnected b = true) (cut : Cut α) :
    (a.span b).Covers cut ↔ a.Covers cut ∨ b.Covers cut := by
  rw [covers_iff, lower_span, upper_span]
  grind

theorem not_isEmpty_of_covers [DecidableEq α] {range : Range α} {cut : Cut α}
    (h : range.Covers cut) : ¬ range.isEmpty = true := by
  rw [isEmpty_iff]
  intro hempty
  have hlt := Std.lt_of_le_of_lt h.1 h.2
  rw [hempty] at hlt
  exact Std.lt_irrefl hlt

theorem covers_lower {range : Range α} (h : range.lower < range.upper) :
    range.Covers range.lower :=
  ⟨Std.le_refl _, h⟩

/-- One range encloses another one that holds a position if it covers every such position. -/
theorem encloses_iff_forall_covers (outer : Range α) {inner : Range α}
    (hinner : inner.lower < inner.upper) :
    outer.encloses inner = true ↔ ∀ cut, inner.Covers cut → outer.Covers cut := by
  rw [encloses_iff]
  constructor
  · intro hends cut hcut
    exact ⟨Std.le_trans hends.1 hcut.1, Std.lt_of_lt_of_le hcut.2 hends.2⟩
  · intro hcovers
    obtain ⟨hstart, hbeyond⟩ := hcovers inner.lower (covers_lower hinner)
    refine ⟨hstart, Std.not_lt.mp ?_⟩
    intro hend
    -- Otherwise `inner` covers the end of `outer`, which `outer` does not.
    have hcut := hcovers outer.upper ⟨Std.le_of_lt hbeyond, hend⟩
    exact Std.lt_irrefl hcut.2

end Range

end RangeAlgebra
