import RangeAlgebra.Proofs.Coverage

/-!
What two ranges have in common. Connected ranges have an intersection, which covers the positions
that both cover; ranges that are not connected have none and share no position. Overlapping is
sharing a position, so ranges that only touch do not overlap although their intersection exists.
-/

namespace RangeAlgebra.Range

universe u

variable {α : Type u} [Ord α]

/-- No position lies in both ranges. -/
def Apart (a b : Range α) : Prop :=
  ∀ cut, a.Covers cut → ¬ b.Covers cut

theorem Apart.symm {a b : Range α} (h : a.Apart b) : b.Apart a :=
  fun cut hb ha => h cut ha hb

/-- The range between the later start and the earlier end, whether or not these are in order. -/
def clip (restriction range : Range α) : Range α :=
  ⟨max range.lower restriction.lower, min range.upper restriction.upper⟩

@[grind =]
theorem lower_clip (restriction range : Range α) :
    (clip restriction range).lower = max range.lower restriction.lower :=
  rfl

@[grind =]
theorem upper_clip (restriction range : Range α) :
    (clip restriction range).upper = min range.upper restriction.upper :=
  rfl

/-- A range inside the restriction is not changed by it. -/
theorem clip_eq_self {restriction range : Range α} (hlower : restriction.lower ≤ range.lower)
    (hupper : range.upper ≤ restriction.upper) : clip restriction range = range := by
  apply Range.ext
  · rw [lower_clip]
    grind
  · rw [upper_clip]
    grind

theorem intersection_eq_clip {restriction range : Range α}
    (hconnected : range.isConnected restriction = true) :
    range.intersection restriction = some (clip restriction range) := by
  rw [intersection_eq_some_iff]
  exact ⟨hconnected, rfl, rfl⟩

theorem eq_clip_of_intersection {a b shared : Range α} (h : a.intersection b = some shared) :
    shared = clip b a := by
  obtain ⟨-, hlower, hupper⟩ := (intersection_eq_some_iff a b shared).mp h
  exact Range.ext hlower hupper

theorem intersection_eq_none_iff (a b : Range α) :
    a.intersection b = none ↔ ¬ a.isConnected b = true := by
  rw [intersection, ite_eq_right_iff]
  simp only [reduceCtorEq, imp_false]

theorem isConnected_of_overlaps [DecidableEq α] {a b : Range α} (h : a.overlaps b = true) :
    a.isConnected b = true := by
  obtain ⟨shared, hshared, -⟩ := (Option.any_eq_true _ _).mp h
  exact ((intersection_eq_some_iff a b shared).mp hshared).1

variable [Std.TransOrd α] [Std.LawfulEqOrd α]

theorem clip_covers_iff (restriction range : Range α) (cut : Cut α) :
    (clip restriction range).Covers cut ↔ range.Covers cut ∧ restriction.Covers cut := by
  rw [covers_iff, lower_clip, upper_clip, Std.max_le_iff]
  grind

/-- What is left of a range is not empty if each of the two starts before the other ends. -/
theorem clip_lt_iff {restriction range : Range α} (hproper : range.lower < range.upper)
    (hrestriction : restriction.lower < restriction.upper) :
    (clip restriction range).lower < (clip restriction range).upper ↔
      restriction.lower < range.upper ∧ range.lower < restriction.upper := by
  rw [lower_clip, upper_clip]
  grind

theorem covers_intersection_iff {a b shared : Range α} (h : a.intersection b = some shared)
    (cut : Cut α) : shared.Covers cut ↔ a.Covers cut ∧ b.Covers cut := by
  rw [eq_clip_of_intersection h]
  exact clip_covers_iff b a cut

/-- A shared position lies between the start of either range and the end of the other. -/
theorem isConnected_of_covers {a b : Range α} {cut : Cut α} (ha : a.Covers cut)
    (hb : b.Covers cut) : a.isConnected b = true := by
  rw [isConnected_iff]
  exact ⟨Std.le_of_lt (Std.lt_of_le_of_lt ha.1 hb.2), Std.le_of_lt (Std.lt_of_le_of_lt hb.1 ha.2)⟩

/-- A range that ends no later than another one starts shares no position with it. -/
theorem apart_of_upper_le {a b : Range α} (h : a.upper ≤ b.lower) : a.Apart b := by
  intro cut ha hb
  exact Std.not_le.mpr ha.2 (Std.le_trans h hb.1)

theorem apart_span_iff {a b other : Range α} (hconnected : a.isConnected b = true) :
    (a.span b).Apart other ↔ a.Apart other ∧ b.Apart other := by
  simp only [Apart, covers_span_iff hconnected, or_imp, forall_and]

theorem apart_of_intersection_eq_none {a b : Range α} (h : a.intersection b = none) :
    a.Apart b :=
  fun _ ha hb => (intersection_eq_none_iff a b).mp h (isConnected_of_covers ha hb)

/-- The intersection of ranges that are not inverted is not inverted either. -/
theorem Valid.intersection {a b shared : Range α} (ha : a.Valid) (hb : b.Valid)
    (h : a.intersection b = some shared) : shared.Valid := by
  obtain ⟨hconnected, hlower, hupper⟩ := (intersection_eq_some_iff a b shared).mp h
  obtain ⟨hforth, hback⟩ := (isConnected_iff a b).mp hconnected
  obtain ⟨hleA, hlowerA, hupperA⟩ := ha
  obtain ⟨hleB, hlowerB, hupperB⟩ := hb
  refine ⟨?_, ?_, ?_⟩
  · rw [hlower, hupper, Std.max_le_iff, Std.le_min_iff, Std.le_min_iff]
    exact ⟨⟨hleA, hforth⟩, hback, hleB⟩
  · rw [hlower]
    grind
  · rw [hupper]
    grind

theorem Valid.span {a b : Range α} (ha : a.Valid) (hb : b.Valid) : (a.span b).Valid := by
  obtain ⟨hleA, hlowerA, hupperA⟩ := ha
  obtain ⟨hleB, hlowerB, hupperB⟩ := hb
  unfold Valid
  rw [lower_span, upper_span]
  refine ⟨?_, ?_, ?_⟩
  · exact Std.le_trans Std.min_le_left (Std.le_trans hleA Std.left_le_max)
  · grind
  · grind

theorem overlaps_iff [DecidableEq α] {a b : Range α} (ha : a.Valid) (hb : b.Valid) :
    a.overlaps b = true ↔ ∃ cut, a.Covers cut ∧ b.Covers cut := by
  rw [overlaps, Option.any_eq_true]
  constructor
  · rintro ⟨shared, hshared, hnonempty⟩
    have hvalid := ha.intersection hb hshared
    have hproper := hvalid.lt_of_not_isEmpty (by simpa using hnonempty)
    exact ⟨shared.lower, (covers_intersection_iff hshared _).mp (covers_lower hproper)⟩
  · rintro ⟨cut, hcutA, hcutB⟩
    have hshared := intersection_eq_clip (isConnected_of_covers hcutA hcutB)
    have hcut := (covers_intersection_iff hshared cut).mpr ⟨hcutA, hcutB⟩
    refine ⟨clip b a, hshared, ?_⟩
    rw [Bool.not_eq_true', ← Bool.not_eq_true]
    exact not_isEmpty_of_covers hcut

theorem not_overlaps_iff [DecidableEq α] {a b : Range α} (ha : a.Valid) (hb : b.Valid) :
    ¬ a.overlaps b = true ↔ a.Apart b := by
  rw [overlaps_iff ha hb, not_exists]
  simp only [not_and, Apart]

end RangeAlgebra.Range
