import RangeAlgebra.Proofs.Coverage.Shared

/-!
Ranges ordered by enclosure. The intersection of two ranges is the greatest range that both
enclose, and the span the least one that encloses both. Ranges that are not connected have no
range in common, not even an empty one, so they have no intersection. Two ranges that hold
positions either share one or have a gap, and then the span falls into the two of them and the
gap.
-/

namespace RangeAlgebra.Range

universe u

variable {α : Type u} [Ord α] [Std.TransOrd α] [Std.LawfulEqOrd α] {a b : Range α}

theorem encloses_refl (range : Range α) : range.encloses range = true := by
  rw [encloses_iff]
  exact ⟨Std.le_refl _, Std.le_refl _⟩

theorem encloses_antisymm (hforth : a.encloses b = true) (hback : b.encloses a = true) :
    a = b := by
  rw [encloses_iff] at hforth hback
  apply Range.ext
  · exact Std.le_antisymm hforth.1 hback.1
  · exact Std.le_antisymm hback.2 hforth.2

theorem encloses_trans {inner : Range α} (houter : a.encloses b = true)
    (hinner : b.encloses inner = true) : a.encloses inner = true := by
  rw [encloses_iff] at houter hinner ⊢
  exact ⟨Std.le_trans houter.1 hinner.1, Std.le_trans hinner.2 houter.2⟩

section Intersection

theorem encloses_clip_iff (a b inner : Range α) :
    (clip b a).encloses inner = true ↔ a.encloses inner = true ∧ b.encloses inner = true := by
  rw [encloses_iff, lower_clip, upper_clip, Std.max_le_iff, Std.le_min_iff, encloses_iff,
    encloses_iff]
  exact and_and_and_comm

/-- What encloses the same ranges is the same range. -/
theorem clip_comm (a b : Range α) : clip b a = clip a b := by
  have hsame (inner : Range α) :
      (clip b a).encloses inner = true ↔ (clip a b).encloses inner = true := by
    rw [encloses_clip_iff, encloses_clip_iff]
    exact and_comm
  apply encloses_antisymm
  · exact (hsame _).mpr (encloses_refl _)
  · exact (hsame _).mp (encloses_refl _)

omit [Std.TransOrd α] [Std.LawfulEqOrd α] in
theorem isConnected_comm (a b : Range α) : a.isConnected b = b.isConnected a := by
  rw [Bool.eq_iff_iff, isConnected_iff, isConnected_iff]
  exact and_comm

/-- Ranges that enclose a third one, be it empty, are connected. -/
theorem isConnected_of_encloses {inner : Range α} (hinner : inner.Valid)
    (ha : a.encloses inner = true) (hb : b.encloses inner = true) : a.isConnected b = true := by
  rw [encloses_iff] at ha hb
  rw [isConnected_iff]
  constructor
  · exact Std.le_trans ha.1 (Std.le_trans hinner.1 hb.2)
  · exact Std.le_trans hb.1 (Std.le_trans hinner.1 ha.2)

theorem intersection_comm (a b : Range α) : a.intersection b = b.intersection a := by
  by_cases hconnected : a.isConnected b = true
  · have hback : b.isConnected a = true := isConnected_comm a b ▸ hconnected
    rw [intersection_eq_clip hconnected, intersection_eq_clip hback, clip_comm]
  · have hback : ¬ b.isConnected a = true := isConnected_comm a b ▸ hconnected
    rw [(intersection_eq_none_iff a b).mpr hconnected, (intersection_eq_none_iff b a).mpr hback]

theorem encloses_both_iff {inner : Range α} (hinner : inner.Valid) :
    a.encloses inner = true ∧ b.encloses inner = true ↔
      ∃ shared, a.intersection b = some shared ∧ shared.encloses inner = true := by
  constructor
  · rintro ⟨ha, hb⟩
    have hshared := intersection_eq_clip (isConnected_of_encloses hinner ha hb)
    exact ⟨clip b a, hshared, (encloses_clip_iff a b inner).mpr ⟨ha, hb⟩⟩
  · rintro ⟨shared, hshared, hencloses⟩
    rw [eq_clip_of_intersection hshared] at hencloses
    exact (encloses_clip_iff a b inner).mp hencloses

/-- The intersection is itself enclosed by both. -/
theorem encloses_intersection {shared : Range α} (h : a.intersection b = some shared) :
    a.encloses shared = true ∧ b.encloses shared = true := by
  rw [← encloses_clip_iff, ← eq_clip_of_intersection h]
  exact encloses_refl shared

/-- A range that is enclosed by the other one is what they share. -/
theorem intersection_of_encloses (hb : b.Valid) (h : a.encloses b = true) :
    a.intersection b = some b := by
  obtain ⟨shared, hshared, hencloses⟩ := (encloses_both_iff hb).mp ⟨h, encloses_refl b⟩
  rw [hshared, encloses_antisymm hencloses (encloses_intersection hshared).2]

theorem intersection_eq_none_iff_forall (ha : a.Valid) (hb : b.Valid) :
    a.intersection b = none ↔
      ∀ inner : Range α, inner.Valid → ¬ (a.encloses inner = true ∧ b.encloses inner = true) := by
  constructor
  · intro hnone inner hinner hboth
    obtain ⟨shared, hshared, -⟩ := (encloses_both_iff hinner).mp hboth
    rw [hnone] at hshared
    cases hshared
  · intro hnothing
    cases hshared : a.intersection b with
    | none => rfl
    | some shared =>
        have hvalid := ha.intersection hb hshared
        exact absurd (encloses_intersection hshared) (hnothing shared hvalid)

end Intersection

theorem encloses_span_iff (outer a b : Range α) :
    outer.encloses (a.span b) = true ↔ outer.encloses a = true ∧ outer.encloses b = true := by
  rw [encloses_iff, lower_span, upper_span, Std.le_min_iff, Std.max_le_iff, encloses_iff,
    encloses_iff]
  exact and_and_and_comm

/-- Like `clip_comm`, this follows from what the two sides are enclosed by. -/
theorem span_comm (a b : Range α) : a.span b = b.span a := by
  have hsame (outer : Range α) :
      outer.encloses (a.span b) = true ↔ outer.encloses (b.span a) = true := by
    rw [encloses_span_iff, encloses_span_iff]
    exact and_comm
  apply encloses_antisymm
  · exact (hsame _).mp (encloses_refl _)
  · exact (hsame _).mpr (encloses_refl _)

section Gap

/-- Each of two ranges starts before the other one ends. -/
def Meet (a b : Range α) : Prop :=
  a.lower < b.upper ∧ b.lower < a.upper

omit [Std.TransOrd α] [Std.LawfulEqOrd α] in
theorem Meet.symm (h : Meet a b) : Meet b a :=
  ⟨h.2, h.1⟩

omit [Std.LawfulEqOrd α] in
theorem upper_le_or_meet (a b : Range α) :
    a.upper ≤ b.lower ∨ b.upper ≤ a.lower ∨ Meet a b := by
  by_cases hbefore : a.upper ≤ b.lower
  · exact Or.inl hbefore
  · by_cases hafter : b.upper ≤ a.lower
    · exact Or.inr (Or.inl hafter)
    · rw [Std.not_le] at hbefore hafter
      exact Or.inr (Or.inr ⟨hafter, hbefore⟩)

/-- Ranges that hold positions share one if neither ends before the other one starts. -/
theorem meet_iff (ha : a.lower < a.upper) (hb : b.lower < b.upper) :
    Meet a b ↔ ∃ cut, a.Covers cut ∧ b.Covers cut := by
  constructor
  · rintro ⟨hforth, hback⟩
    have hproper := (clip_lt_iff ha hb).mpr ⟨hback, hforth⟩
    exact ⟨_, (clip_covers_iff b a _).mp (covers_lower hproper)⟩
  · rintro ⟨cut, hcutA, hcutB⟩
    exact ⟨Std.lt_of_le_of_lt hcutA.1 hcutB.2, Std.lt_of_le_of_lt hcutB.1 hcutA.2⟩

omit [Std.TransOrd α] [Std.LawfulEqOrd α] in
theorem gap_of_meet (h : Meet a b) : a.gap b = none := by
  simp [gap, h.1, h.2]

theorem gap_of_upper_le (ha : a.lower < a.upper) (h : a.upper ≤ b.lower) :
    a.gap b = some ⟨a.upper, b.lower⟩ := by
  have hstart : a.lower < b.lower := Std.lt_of_lt_of_le ha h
  have hend : ¬ b.lower < a.upper := Std.not_lt.mpr h
  simp [gap, hstart, hend]

theorem gap_of_le_lower (hb : b.lower < b.upper) (h : b.upper ≤ a.lower) :
    a.gap b = some ⟨b.upper, a.lower⟩ := by
  have hend : ¬ a.lower < b.upper := Std.not_lt.mpr h
  have hstart : ¬ a.lower < b.lower := Std.not_lt.mpr (Std.le_of_lt (Std.lt_of_lt_of_le hb h))
  simp [gap, hstart, hend]

theorem gap_comm (ha : a.lower < a.upper) (hb : b.lower < b.upper) : a.gap b = b.gap a := by
  rcases upper_le_or_meet a b with hbefore | hafter | hmeet
  · rw [gap_of_upper_le ha hbefore, gap_of_le_lower ha hbefore]
  · rw [gap_of_le_lower hb hafter, gap_of_upper_le hb hafter]
  · rw [gap_of_meet hmeet, gap_of_meet hmeet.symm]

theorem gap_eq_none_iff (ha : a.lower < a.upper) (hb : b.lower < b.upper) :
    a.gap b = none ↔ ∃ cut, a.Covers cut ∧ b.Covers cut := by
  rw [← meet_iff ha hb]
  rcases upper_le_or_meet a b with hbefore | hafter | hmeet
  · have hapart : ¬ Meet a b := fun hmeet => Std.not_lt.mpr hbefore hmeet.2
    simp [gap_of_upper_le ha hbefore, hapart]
  · have hapart : ¬ Meet a b := fun hmeet => Std.not_lt.mpr hafter hmeet.1
    simp [gap_of_le_lower hb hafter, hapart]
  · simp [gap_of_meet hmeet, hmeet]

variable [DecidableEq α]

/-- The range in the middle fills up two ranges to their span, and no two of the three share a
position. -/
structure Separates (middle a b : Range α) : Prop where
  valid : middle.Valid
  isEmpty_iff : middle.isEmpty = true ↔ a.isConnected b = true
  covers_span_iff (cut : Cut α) :
    (a.span b).Covers cut ↔ a.Covers cut ∨ middle.Covers cut ∨ b.Covers cut
  apart_left : a.Apart middle
  apart_right : middle.Apart b
  apart : a.Apart b

theorem Separates.symm {middle : Range α} (h : Separates middle a b) : Separates middle b a where
  valid := h.valid
  isEmpty_iff := by
    rw [h.isEmpty_iff, isConnected_comm]
  covers_span_iff := by
    intro cut
    rw [span_comm, h.covers_span_iff, or_comm, or_assoc, or_left_comm]
  apart_left := h.apart_right.symm
  apart_right := h.apart_left.symm
  apart := h.apart.symm

omit [DecidableEq α] in
theorem span_of_upper_le (ha : a.lower < a.upper) (hb : b.lower < b.upper)
    (h : a.upper ≤ b.lower) : a.span b = ⟨a.lower, b.upper⟩ := by
  have hstart : a.lower ≤ b.lower := Std.le_of_lt (Std.lt_of_lt_of_le ha h)
  have hend : ¬ b.upper ≤ a.upper := Std.not_le.mpr (Std.lt_of_le_of_lt h hb)
  apply Range.ext
  · rw [lower_span, Cut.min_eq_ite, if_pos hstart]
  · rw [upper_span, Cut.max_eq_ite, if_neg hend]

/-- On the way from the start of the first range to the end of the second one, the end of the first
and the start of the second are passed in this order. -/
theorem separates_of_upper_le (ha : a.lower < a.upper) (hb : b.lower < b.upper)
    (h : a.upper ≤ b.lower) : Separates ⟨a.upper, b.lower⟩ a b where
  valid := by
    obtain ⟨-, -, hupper⟩ := valid_of_lt ha
    obtain ⟨-, hlower, -⟩ := valid_of_lt hb
    refine ⟨h, ?_, ?_⟩
    · intro hend
      change a.upper = .aboveAll at hend
      rw [hend] at h
      exact hlower (Std.le_antisymm (Cut.le_aboveAll _) h)
    · intro hstart
      change b.lower = .belowAll at hstart
      rw [hstart] at h
      exact hupper (Std.le_antisymm h (Cut.belowAll_le _))
  isEmpty_iff := by
    have hforth : a.lower ≤ b.upper :=
      Std.le_of_lt (Std.lt_of_lt_of_le ha (Std.le_trans h (Std.le_of_lt hb)))
    rw [isEmpty_iff, isConnected_iff, and_iff_right hforth]
    constructor
    · exact fun hend => Std.le_of_eq hend.symm
    · exact fun hback => Std.le_antisymm h hback
  covers_span_iff := by
    intro cut
    rw [span_of_upper_le ha hb h]
    constructor
    · rintro ⟨hstart, hend⟩
      by_cases hfirst : cut < a.upper
      · exact Or.inl ⟨hstart, hfirst⟩
      · by_cases hmiddle : cut < b.lower
        · exact Or.inr (Or.inl ⟨Std.not_lt.mp hfirst, hmiddle⟩)
        · exact Or.inr (Or.inr ⟨Std.not_lt.mp hmiddle, hend⟩)
    · have hlast := Std.lt_of_le_of_lt h hb
      rintro (hcut | hcut | hcut)
      · exact ⟨hcut.1, Std.lt_trans hcut.2 hlast⟩
      · exact ⟨Std.le_of_lt (Std.lt_of_lt_of_le ha hcut.1), Std.lt_trans hcut.2 hb⟩
      · exact ⟨Std.le_of_lt (Std.lt_of_lt_of_le ha (Std.le_trans h hcut.1)), hcut.2⟩
  apart_left := apart_of_upper_le (Std.le_refl _)
  apart_right := apart_of_upper_le (Std.le_refl _)
  apart := apart_of_upper_le h

theorem separates_gap (ha : a.lower < a.upper) (hb : b.lower < b.upper) {middle : Range α}
    (hgap : a.gap b = some middle) : Separates middle a b := by
  rcases upper_le_or_meet a b with hbefore | hafter | hmeet
  · rw [gap_of_upper_le ha hbefore] at hgap
    cases hgap
    exact separates_of_upper_le ha hb hbefore
  · rw [gap_of_le_lower hb hafter] at hgap
    cases hgap
    exact (separates_of_upper_le hb ha hafter).symm
  · rw [gap_of_meet hmeet] at hgap
    cases hgap

end Gap

/-- Enclosure orders the ranges, the intersection is the greatest range that two of them enclose and
the span the least that encloses both. Overlapping is sharing a position. The gap of two ranges that
hold positions is there exactly if they share none, from either side, and it fills them up to their
span. -/
theorem enclosure_lattice [DecidableEq α] {a b r : Range α} (ha : a.Valid) (hb : b.Valid)
    (hr : r.Valid) :
    (a.encloses a = true ∧ (a.encloses b = true → b.encloses a = true → a = b) ∧
      (a.encloses b = true → b.encloses r = true → a.encloses r = true)) ∧
    ((a.encloses r = true ∧ b.encloses r = true ↔
        ∃ shared, a.intersection b = some shared ∧ shared.encloses r = true) ∧
      (∀ shared, a.intersection b = some shared →
        shared.Valid ∧ a.encloses shared = true ∧ b.encloses shared = true) ∧
      (a.encloses b = true → a.intersection b = some b) ∧
      a.intersection b = b.intersection a ∧
      (a.intersection b = none ↔ ¬ a.isConnected b = true) ∧
      (a.intersection b = none ↔ ∀ inner : Range α, inner.Valid →
        ¬ (a.encloses inner = true ∧ b.encloses inner = true))) ∧
    (r.encloses a = true ∧ r.encloses b = true ↔ r.encloses (a.span b) = true) ∧
    (a.overlaps b = true ↔ ∃ cut, a.Covers cut ∧ b.Covers cut) ∧
    (¬ a.isEmpty = true → ¬ b.isEmpty = true →
      (a.gap b = none ↔ a.overlaps b = true) ∧ a.gap b = b.gap a ∧
      ∀ middle, a.gap b = some middle → middle.Valid ∧
        (middle.isEmpty = true ↔ a.isConnected b = true) ∧
        (∀ cut, (a.span b).Covers cut ↔ a.Covers cut ∨ middle.Covers cut ∨ b.Covers cut) ∧
        a.Apart middle ∧ middle.Apart b ∧ a.Apart b) := by
  refine ⟨⟨encloses_refl a, encloses_antisymm, encloses_trans⟩, ⟨encloses_both_iff hr, ?_,
    intersection_of_encloses hb, intersection_comm a b, intersection_eq_none_iff a b,
    intersection_eq_none_iff_forall ha hb⟩, (encloses_span_iff r a b).symm, overlaps_iff ha hb, ?_⟩
  · intro shared hshared
    exact ⟨ha.intersection hb hshared, encloses_intersection hshared⟩
  · intro hnonemptyA hnonemptyB
    have hproperA := ha.lt_of_not_isEmpty hnonemptyA
    have hproperB := hb.lt_of_not_isEmpty hnonemptyB
    refine ⟨?_, gap_comm hproperA hproperB, ?_⟩
    · rw [gap_eq_none_iff hproperA hproperB, overlaps_iff ha hb]
    · intro middle hgap
      have hseparates := separates_gap hproperA hproperB hgap
      exact ⟨hseparates.valid, hseparates.isEmpty_iff, hseparates.covers_span_iff,
        hseparates.apart_left, hseparates.apart_right, hseparates.apart⟩

/-- The second range comes first, and 3 up to 5 lie between the two. The empty range at 3 touches the
second one, which therefore encloses it, while the first one does not. -/
theorem enclosure_lattice_gap :
    let a : Range Int := ⟨.above 5, .aboveAll⟩
    let b : Range Int := ⟨.below 1, .below 3⟩
    let r : Range Int := ⟨.below 3, .below 3⟩
    let middle : Range Int := ⟨.below 3, .above 5⟩
    a.Valid ∧ b.Valid ∧ r.Valid ∧ ¬ a.isEmpty = true ∧ ¬ b.isEmpty = true ∧
      b.encloses r = true ∧ a.encloses r = false ∧
      (∀ inner : Range Int, inner.Valid → ¬ (a.encloses inner = true ∧ b.encloses inner = true)) ∧
      b.gap a = some middle ∧
      (∀ cut, (a.span b).Covers cut ↔ a.Covers cut ∨ middle.Covers cut ∨ b.Covers cut) ∧
      a.Apart middle ∧ middle.Apart b := by
  intro a b r middle
  have ha : a.Valid := by decide
  have hb : b.Valid := by decide
  have hr : r.Valid := by decide
  have hnonemptyA : ¬ a.isEmpty = true := by decide
  have hnonemptyB : ¬ b.isEmpty = true := by decide
  have hgap : a.gap b = some middle := by decide
  obtain ⟨-, ⟨-, -, -, -, -, hnothing⟩, -, -, hgaps⟩ := enclosure_lattice ha hb hr
  obtain ⟨-, hcomm, hmiddle⟩ := hgaps hnonemptyA hnonemptyB
  obtain ⟨-, -, hspan, hleft, hright, -⟩ := hmiddle middle hgap
  exact ⟨ha, hb, hr, hnonemptyA, hnonemptyB, by decide, by decide, hnothing.mp (by decide),
    hcomm ▸ hgap, hspan, hleft, hright⟩

end RangeAlgebra.Range
