import RangeAlgebra.Proofs.Coverage.Lattice
import RangeAlgebra.Proofs.Discrete.CanonicalCuts
import RangeAlgebra.Proofs.Discrete.Integers

/-!
The canonical form of ranges as a normal form. In a domain of all values of the type, it keeps the
values of a range, it is empty exactly for a range without values, and it tells two ranges with
values apart only by their values. A range with values then starts just below its least one and
ends just below the first value after it, if there is one, so two such ranges touch or overlap
unless some value lies between them.
-/

namespace RangeAlgebra

universe u

variable {α : Type u} {domain : DiscreteDomain α}

theorem Cut.canonical_canonical (cut : Cut α) :
    (cut.canonical domain).canonical domain = cut.canonical domain := by
  cases hlow : cut.leastValueAbove domain with
  | some low =>
      rw [canonical_eq_below hlow]
      rfl
  | none =>
      by_cases hcut : cut = .belowAll
      · subst hcut
        rw [canonical_belowAll hlow, canonical_belowAll hlow]
      · rw [canonical_eq_aboveAll hlow hcut]
        rfl

namespace Range

variable [Ord α] [DecidableEq α]

theorem Valid.canonical_canonical {range : Range α} (hvalid : range.Valid) :
    (range.canonical domain).canonical domain = range.canonical domain := by
  by_cases hbeyond : range.lower.canonical domain = .aboveAll
  · rw [canonical_eq_of_eq hvalid.2.1 hbeyond]
    exact canonical_eq_of_eq hvalid.2.1 hbeyond
  · have hlower : (range.lower.canonical domain).canonical domain ≠ .aboveAll := by
      rwa [Cut.canonical_canonical]
    rw [canonical_eq_of_ne hbeyond, canonical_eq_of_ne hlower, Cut.canonical_canonical,
      Cut.canonical_canonical]

/-- The value comes after all values of the first range and before all of the second one. -/
def Parts (value : α) (a b : Range α) : Prop :=
  (∀ first, a.contains first = true → compare first value = .lt) ∧
    ∀ last, b.contains last = true → compare value last = .lt

variable [Std.TransOrd α] [Std.LawfulEqOrd α] {range a b : Range α}

theorem Valid.contains_canonical (h : domain.StepsOver Set.univ)
    (hleast : domain.least?.isSome = true) (hvalid : range.Valid) (value : α) :
    (range.canonical domain).contains value = range.contains value := by
  rw [Bool.eq_iff_iff, contains_iff, contains_iff, hvalid.covers_canonical_iff h hleast]
  simp [Cut.endpoint?]

theorem Valid.isEmpty_canonical_iff (h : domain.StepsOver Set.univ)
    (hleast : domain.least?.isSome = true) (hvalid : range.Valid) :
    (range.canonical domain).isEmpty = true ↔ ∀ value, range.contains value = false := by
  constructor
  · intro hempty value
    rw [← hvalid.contains_canonical h hleast, ← Bool.not_eq_true, contains_iff]
    exact fun hvalue => not_isEmpty_of_covers hvalue hempty
  · intro hnone
    by_contra hnonempty
    -- What an inhabited range in canonical form covers first is the cut of a value.
    have hlower := covers_lower ((hvalid.canonical h hleast).lt_of_not_isEmpty hnonempty)
    obtain ⟨value, -, hvalue⟩ := (hvalid.covers_canonical_iff h hleast _).mp hlower
    rw [← contains_iff, hnone] at hvalue
    cases hvalue

omit [DecidableEq α] in
theorem lower_lt_upper_of_contains {value : α} (hvalue : range.contains value = true) :
    range.lower < range.upper := by
  obtain ⟨hlower, hupper⟩ := (contains_iff range value).mp hvalue
  exact Std.lt_of_le_of_lt hlower hupper

theorem Valid.encloses_canonical_iff (h : domain.StepsOver Set.univ)
    (hleast : domain.least?.isSome = true) (ha : a.Valid) (hb : b.Valid) {value : α}
    (hvalue : b.contains value = true) :
    (a.canonical domain).encloses (b.canonical domain) = true ↔
      ∀ value, b.contains value = true → a.contains value = true := by
  rw [← hb.contains_canonical h hleast] at hvalue
  rw [encloses_iff_forall_covers _ (lower_lt_upper_of_contains hvalue)]
  simp only [ha.covers_canonical_iff h hleast, hb.covers_canonical_iff h hleast, contains_iff]
  exact Cut.forall_endpoint?_iff _ _

/-- Ranges with values have the same canonical form if each has the values of the other. -/
theorem Valid.canonical_eq_iff (h : domain.StepsOver Set.univ)
    (hleast : domain.least?.isSome = true) (ha : a.Valid) (hb : b.Valid)
    (hvaluesA : ∃ value, a.contains value = true) (hvaluesB : ∃ value, b.contains value = true) :
    a.canonical domain = b.canonical domain ↔ ∀ value, a.contains value = b.contains value := by
  obtain ⟨first, hfirst⟩ := hvaluesA
  obtain ⟨last, hlast⟩ := hvaluesB
  constructor
  · intro hsame value
    rw [← ha.contains_canonical h hleast, hsame, hb.contains_canonical h hleast]
  · intro hsame
    apply encloses_antisymm
    · rw [ha.encloses_canonical_iff h hleast hb hlast]
      exact fun value hvalue => (hsame value).trans hvalue
    · rw [hb.encloses_canonical_iff h hleast ha hfirst]
      exact fun value hvalue => (hsame value).symm.trans hvalue

section Values

variable {value : α}

theorem canonical_of_contains (h : domain.StepsOver Set.univ)
    (hleast : domain.least?.isSome = true) (hvalue : range.contains value = true) :
    range.canonical domain = ⟨range.lower.canonical domain, range.upper.canonical domain⟩ := by
  apply canonical_eq_of_ne
  intro hbeyond
  have hlower := ((contains_iff range value).mp hvalue).1
  rw [← Cut.canonical_le_below_iff h hleast, hbeyond] at hlower
  exact Bool.false_ne_true hlower

/-- In canonical form a range with values starts just below the least of them. -/
theorem Valid.exists_lower_canonical (h : domain.StepsOver Set.univ)
    (hleast : domain.least?.isSome = true) (hvalid : range.Valid)
    (hvalue : range.contains value = true) :
    ∃ low, range.contains low = true ∧ (range.canonical domain).lower = .below low := by
  have hcanonical := hvalue
  rw [← hvalid.contains_canonical h hleast] at hcanonical
  have hcovers := covers_lower (lower_lt_upper_of_contains hcanonical)
  obtain ⟨low, hend, hlow⟩ := (hvalid.covers_canonical_iff h hleast _).mp hcovers
  rw [canonical_of_contains h hleast hvalue] at hend ⊢
  refine ⟨low, (contains_iff range low).mpr hlow, ?_⟩
  rcases Cut.canonical_cases hleast range.lower with ⟨start, hcut⟩ | hcut
  · rw [hcut] at hend
    cases hend
    exact hcut
  · rw [hcut] at hend
    cases hend

theorem Valid.upper_canonical_le_iff (h : domain.StepsOver Set.univ)
    (hleast : domain.least?.isSome = true) (hvalid : range.Valid)
    (hvalue : range.contains value = true) (bound : α) :
    (range.canonical domain).upper ≤ .below bound ↔
      ∀ other, range.contains other = true → compare other bound = .lt := by
  have hcovers (other : α) : (range.canonical domain).Covers (.below other) ↔
      range.contains other = true := by
    rw [← contains_iff, hvalid.contains_canonical h hleast]
  constructor
  · intro hupper other hother
    exact Std.lt_of_lt_of_le ((hcovers other).mpr hother).2 hupper
  · intro hbefore
    rw [← Std.not_lt]
    intro hbound
    obtain ⟨low, hlow, hlower⟩ := hvalid.exists_lower_canonical h hleast hvalue
    -- The bound comes after the least value, so it would be a value of the range itself.
    have hstart : (range.canonical domain).lower ≤ .below bound := by
      rw [hlower]
      exact Std.le_of_lt (hbefore low hlow)
    have hself : Cut.below bound < .below bound :=
      hbefore bound ((hcovers bound).mp ⟨hstart, hbound⟩)
    exact Std.lt_irrefl hself

theorem Valid.below_lt_lower_canonical_iff (h : domain.StepsOver Set.univ)
    (hleast : domain.least?.isSome = true) (hvalid : range.Valid)
    (hvalue : range.contains value = true) (bound : α) :
    .below bound < (range.canonical domain).lower ↔
      ∀ other, range.contains other = true → compare bound other = .lt := by
  constructor
  · intro hlower other hother
    rw [← hvalid.contains_canonical h hleast, contains_iff] at hother
    exact Std.lt_of_lt_of_le hlower hother.1
  · intro hafter
    obtain ⟨low, hlow, hlower⟩ := hvalid.exists_lower_canonical h hleast hvalue
    rw [hlower]
    exact hafter low hlow

end Values

/-- The value at the end of the first range, which is not in it, parts the two. -/
theorem Valid.exists_parts_iff (h : domain.StepsOver Set.univ)
    (hleast : domain.least?.isSome = true) (ha : a.Valid) (hb : b.Valid)
    (hvaluesA : ∃ value, a.contains value = true) (hvaluesB : ∃ value, b.contains value = true) :
    (∃ value, Parts value a b) ↔ (a.canonical domain).upper < (b.canonical domain).lower := by
  obtain ⟨first, hfirst⟩ := hvaluesA
  obtain ⟨last, hlast⟩ := hvaluesB
  constructor
  · rintro ⟨value, hbefore, hafter⟩
    rw [← ha.upper_canonical_le_iff h hleast hfirst] at hbefore
    rw [← hb.below_lt_lower_canonical_iff h hleast hlast] at hafter
    exact Std.lt_of_le_of_lt hbefore hafter
  · intro hapart
    have hform := canonical_of_contains h hleast hfirst
    rcases Cut.canonical_cases hleast a.upper with ⟨value, hcut⟩ | hcut
    · have hupper : (a.canonical domain).upper = .below value := by
        rw [hform, hcut]
      refine ⟨value, ?_, ?_⟩
      · rw [← ha.upper_canonical_le_iff h hleast hfirst]
        exact Std.le_of_eq hupper
      · rw [← hb.below_lt_lower_canonical_iff h hleast hlast, ← hupper]
        exact hapart
    · rw [hform, hcut] at hapart
      exact absurd hapart (Std.not_lt.mpr (Cut.le_aboveAll _))

theorem Valid.isConnected_canonical_iff (h : domain.StepsOver Set.univ)
    (hleast : domain.least?.isSome = true) (ha : a.Valid) (hb : b.Valid)
    (hvaluesA : ∃ value, a.contains value = true) (hvaluesB : ∃ value, b.contains value = true) :
    (a.canonical domain).isConnected (b.canonical domain) = true ↔
      ¬ ∃ value, Parts value a b ∨ Parts value b a := by
  rw [exists_or, ha.exists_parts_iff h hleast hb hvaluesA hvaluesB,
    hb.exists_parts_iff h hleast ha hvaluesB hvaluesA, not_or, Std.not_lt, Std.not_lt,
    isConnected_iff]
  exact and_comm

section Integers

variable {kind : IntegerKind}

/-- Among the integers of a kind, a range keeps its values in canonical form and nothing else of it
is left: two ranges with values share a form exactly if they share their values, and their forms
touch or overlap exactly if no integer has all values of one of them below it and all values of the
other one above. -/
theorem canonical_integers {range : Range (BoundedInt kind)} (hvalid : range.Valid) :
    (range.canonical (.integers kind)).Valid ∧
      (∀ value, (range.canonical (.integers kind)).contains value = range.contains value) ∧
      ((range.canonical (.integers kind)).isEmpty = true ↔
        ∀ value, range.contains value = false) ∧
      (range.canonical (.integers kind)).canonical (.integers kind) =
        range.canonical (.integers kind) ∧
      ∀ other : Range (BoundedInt kind), other.Valid →
        (∃ value, range.contains value = true) → (∃ value, other.contains value = true) →
        (range.canonical (.integers kind) = other.canonical (.integers kind) ↔
          ∀ value, range.contains value = other.contains value) ∧
        ((range.canonical (.integers kind)).isConnected (other.canonical (.integers kind)) = true ↔
          ¬ ∃ value : BoundedInt kind,
            ((∀ first, range.contains first = true → first.val < value.val) ∧
              ∀ last, other.contains last = true → value.val < last.val) ∨
            ((∀ first, other.contains first = true → first.val < value.val) ∧
              ∀ last, range.contains last = true → value.val < last.val)) := by
  have hsteps := DiscreteDomain.stepsOver_integers kind
  refine ⟨hvalid.canonical hsteps rfl, hvalid.contains_canonical hsteps rfl,
    hvalid.isEmpty_canonical_iff hsteps rfl, hvalid.canonical_canonical, ?_⟩
  intro other hother hvalues hothers
  constructor
  · exact hvalid.canonical_eq_iff hsteps rfl hother hvalues hothers
  · rw [hvalid.isConnected_canonical_iff hsteps rfl hother hvalues hothers]
    simp only [Parts, BoundedInt.compare_eq_lt_iff]

/-- Everything up to 5 becomes everything from the least integer to before 6, and what comes after 5
starts there, although the two ranges as given have different cuts at both ends. -/
theorem canonical_integers_adjacent :
    let five : BoundedInt .uint8 := ⟨5, by decide, by decide⟩
    let six : BoundedInt .uint8 := ⟨6, by decide, by decide⟩
    let range : Range (BoundedInt .uint8) := ⟨.belowAll, .above five⟩
    let other : Range (BoundedInt .uint8) := ⟨.above five, .above (.greatest .uint8)⟩
    range.canonical (.integers .uint8) = ⟨.below (.least .uint8), .below six⟩ ∧
      other.canonical (.integers .uint8) = ⟨.below six, .aboveAll⟩ ∧
      (∀ value, Range.contains ⟨.below six, .aboveAll⟩ value = other.contains value) ∧
      ¬ ∃ value : BoundedInt .uint8,
        ((∀ first, range.contains first = true → first.val < value.val) ∧
          ∀ last, other.contains last = true → value.val < last.val) ∨
        ((∀ first, other.contains first = true → first.val < value.val) ∧
          ∀ last, range.contains last = true → value.val < last.val) := by
  intro five six range other
  have hrange : range.Valid := by decide
  have hother : other.Valid := by decide
  have hform : other.canonical (.integers .uint8) = ⟨.below six, .aboveAll⟩ := by decide
  obtain ⟨-, -, -, -, hpair⟩ := canonical_integers hrange
  obtain ⟨-, hconnected⟩ := hpair other hother ⟨five, by decide⟩ ⟨six, by decide⟩
  refine ⟨by decide, hform, ?_, hconnected.mp (by decide)⟩
  rw [← hform]
  exact (canonical_integers hother).2.1

end Integers

end Range

end RangeAlgebra
