import RangeAlgebra.Discrete.Endpoints
import RangeAlgebra.Proofs.Discrete.Carrier

/-!
The values of one range. If the elements at its ends are stepped over and an infinite end has a
least or greatest value to begin or stop with, the domain finds the first and the last value of the
range and walks from either to the other through all values in between. A range between two
neighbouring values holds none, like a range beyond all values.
-/

namespace RangeAlgebra

universe u

variable {α : Type u} [Ord α]

/-- The first and the last of some values. -/
def firstAndLast? {α : Type u} (values : List α) : Option (α × α) :=
  values.head?.bind fun first => values.getLast?.map fun last => (first, last)

namespace Range

/-- The elements at the ends of the range are stepped over. -/
def EndsIn (range : Range α) (carrier : Set α) : Prop :=
  ∀ value, range.lower.endpoint? = some value ∨ range.upper.endpoint? = some value →
    value ∈ carrier

/-- A way through a range: its values in ascending order, from the first to the last that the domain
finds in it, each of them reached from its neighbours by a step. The distance of a value from the
first is the number of steps to it, as far as that fits. -/
structure Walk (domain : DiscreteDomain α) (carrier : Set α) (range : Range α) (values : List α) :
    Prop where
  enumerates : Enumerates values fun value => value ∈ carrier ∧ range.Covers (.below value)
  endpoints?_eq : range.endpoints? domain = firstAndLast? values
  steps : values.IsChain fun a b => domain.next a = some b ∧ domain.previous b = some a
  distance_eq : ∀ low, values.head? = some low → ∀ before value after,
    values = before ++ value :: after →
      domain.distance low value = min (before.length : Int) 9223372036854775807

end Range

namespace DiscreteDomain.StepsOver

variable [Std.TransOrd α] [Std.LawfulEqOrd α] {domain : DiscreteDomain α} {carrier : Set α}

theorem leastValueAbove_spec (h : domain.StepsOver carrier) {cut : Cut α} {low : α}
    (hend : ∀ value, cut.endpoint? = some value → value ∈ carrier)
    (hlow : cut.leastValueAbove domain = some low) :
    low ∈ carrier ∧ cut ≤ .below low ∧
      ∀ value ∈ carrier, cut ≤ .below value → Cut.below low ≤ .below value := by
  cases cut with
  | belowAll =>
      obtain ⟨hmem, hle⟩ := h.least low hlow
      exact ⟨hmem, Cut.belowAll_le _, fun value hvalue _ => hle value hvalue⟩
  | below bound =>
      cases hlow
      exact ⟨hend low rfl, Std.le_refl _, fun _ _ hle => hle⟩
  | above bound =>
      obtain ⟨hmem, hlt, hle⟩ := (h.next_eq_some_iff bound (hend bound rfl) low).mp hlow
      refine ⟨hmem, (Cut.above_le_below_iff bound low).mpr hlt, fun value hvalue hafter => ?_⟩
      exact hle value hvalue ((Cut.above_le_below_iff bound value).mp hafter)
  | aboveAll => cases hlow

theorem not_le_of_leastValueAbove_eq_none (h : domain.StepsOver carrier) {cut : Cut α}
    (hend : ∀ value, cut.endpoint? = some value → value ∈ carrier)
    (hleast : cut = .belowAll → domain.least?.isSome)
    (hnone : cut.leastValueAbove domain = none) :
    ∀ value ∈ carrier, ¬ cut ≤ .below value := by
  intro value hvalue hle
  cases cut with
  | belowAll =>
      have hsome := hleast rfl
      rw [show domain.least? = none from hnone] at hsome
      cases hsome
  | below bound => cases hnone
  | above bound =>
      obtain ⟨next, hnext⟩ := h.exists_next (hend bound rfl) hvalue
        ((Cut.above_le_below_iff bound value).mp hle)
      rw [show domain.next bound = none from hnone] at hnext
      cases hnext
  | aboveAll => cases hle

theorem greatestValueBelow_spec (h : domain.StepsOver carrier) {cut : Cut α} {high : α}
    (hend : ∀ value, cut.endpoint? = some value → value ∈ carrier)
    (hhigh : cut.greatestValueBelow domain = some high) :
    high ∈ carrier ∧ Cut.below high < cut ∧
      ∀ value ∈ carrier, Cut.below value < cut → Cut.below value ≤ .below high := by
  cases cut with
  | belowAll => cases hhigh
  | below bound => exact (h.previous_eq_some_iff bound (hend bound rfl) high).mp hhigh
  | above bound =>
      cases hhigh
      have hlt := (Cut.below_lt_above_iff high high).mpr (Std.le_refl _)
      exact ⟨hend high rfl, hlt, fun value _ => (Cut.below_lt_above_iff value high).mp⟩
  | aboveAll =>
      obtain ⟨hmem, hle⟩ := h.greatest high hhigh
      exact ⟨hmem, rfl, fun value hvalue _ => hle value hvalue⟩

theorem not_lt_of_greatestValueBelow_eq_none (h : domain.StepsOver carrier) {cut : Cut α}
    (hend : ∀ value, cut.endpoint? = some value → value ∈ carrier)
    (hgreatest : cut = .aboveAll → domain.greatest?.isSome)
    (hnone : cut.greatestValueBelow domain = none) :
    ∀ value ∈ carrier, ¬ Cut.below value < cut := by
  intro value hvalue hlt
  cases cut with
  | belowAll => cases hlt
  | below bound =>
      obtain ⟨previous, hprevious⟩ := h.exists_previous (hend bound rfl) hvalue hlt
      rw [show domain.previous bound = none from hnone] at hprevious
      cases hprevious
  | above bound => cases hnone
  | aboveAll =>
      have hsome := hgreatest rfl
      rw [show domain.greatest? = none from hnone] at hsome
      cases hsome

/-- The ends that the domain finds enclose the values of the range and no others. -/
theorem endpoints?_spec (h : domain.StepsOver carrier) {range : Range α}
    (hends : range.EndsIn carrier) {low high : α}
    (hendpoints : range.endpoints? domain = some (low, high)) :
    low ∈ carrier ∧ high ∈ carrier ∧ Cut.below low ≤ .below high ∧
      ∀ value, value ∈ segment carrier low high ↔
        value ∈ carrier ∧ range.Covers (.below value) := by
  simp only [Range.endpoints?, bind, Option.bind_eq_some_iff] at hendpoints
  obtain ⟨_, hlow, _, hhigh, hif⟩ := hendpoints
  obtain ⟨hle, hpair⟩ := Option.ite_none_right_eq_some.mp hif
  cases hpair
  obtain ⟨hlowMem, hlowLe, hleast⟩ :=
    h.leastValueAbove_spec (fun value hvalue => hends value (Or.inl hvalue)) hlow
  obtain ⟨hhighMem, hhighLt, hgreatest⟩ :=
    h.greatestValueBelow_spec (fun value hvalue => hends value (Or.inr hvalue)) hhigh
  refine ⟨hlowMem, hhighMem, hle, fun value => ?_⟩
  constructor
  · rintro ⟨hvalue, hge, hle⟩
    exact ⟨hvalue, Std.le_trans hlowLe hge, Std.lt_of_le_of_lt hle hhighLt⟩
  · rintro ⟨hvalue, hlower, hupper⟩
    exact ⟨hvalue, hleast value hvalue hlower, hgreatest value hvalue hupper⟩

/-- A range in which the domain finds no ends holds no value, if the domain has a value to begin or
stop with at an infinite end. One to stop with is not needed where no value lies above the start. -/
theorem not_covers_of_endpoints?_eq_none (h : domain.StepsOver carrier) {range : Range α}
    (hends : range.EndsIn carrier) (hleast : range.lower = .belowAll → domain.least?.isSome)
    (hgreatest : range.upper = .aboveAll →
      domain.greatest?.isSome ∨ ∀ value ∈ carrier, ¬ range.lower ≤ .below value)
    (hnone : range.endpoints? domain = none) :
    ∀ value ∈ carrier, ¬ range.Covers (.below value) := by
  rintro value hvalue ⟨hlower, hupper⟩
  have hlowerEnd : ∀ other, range.lower.endpoint? = some other → other ∈ carrier :=
    fun other hother => hends other (Or.inl hother)
  have hupperEnd : ∀ other, range.upper.endpoint? = some other → other ∈ carrier :=
    fun other hother => hends other (Or.inr hother)
  have hstop : range.upper = .aboveAll → domain.greatest?.isSome := fun hend =>
    (hgreatest hend).resolve_right fun hbeyond => hbeyond value hvalue hlower
  cases hlow : range.lower.leastValueAbove domain with
  | none => exact h.not_le_of_leastValueAbove_eq_none hlowerEnd hleast hlow value hvalue hlower
  | some low =>
      cases hhigh : range.upper.greatestValueBelow domain with
      | none =>
          exact h.not_lt_of_greatestValueBelow_eq_none hupperEnd hstop hhigh value hvalue hupper
      | some high =>
          have hge := (h.leastValueAbove_spec hlowerEnd hlow).2.2 value hvalue hlower
          have hle := (h.greatestValueBelow_spec hupperEnd hhigh).2.2 value hvalue hupper
          have hordered : (compare low high).isLE = true := Std.le_trans hge hle
          simp [Range.endpoints?, hlow, hhigh, hordered] at hnone

/-- Every range is walked through, under the same condition. -/
theorem exists_walk_range (h : domain.StepsOver carrier) {range : Range α}
    (hends : range.EndsIn carrier) (hleast : range.lower = .belowAll → domain.least?.isSome)
    (hgreatest : range.upper = .aboveAll →
      domain.greatest?.isSome ∨ ∀ value ∈ carrier, ¬ range.lower ≤ .below value) :
    ∃ values, range.Walk domain carrier values := by
  cases hendpoints : range.endpoints? domain with
  | none =>
      have hbeyond := h.not_covers_of_endpoints?_eq_none hends hleast hgreatest hendpoints
      have hvalues : Enumerates [] fun value => value ∈ carrier ∧ range.Covers (.below value) :=
        .nil fun value hvalue => hbeyond value hvalue.1 hvalue.2
      exact ⟨[], hvalues, hendpoints, List.isChain_nil, by simp⟩
  | some ends =>
      obtain ⟨low, high⟩ := ends
      obtain ⟨hlow, hhigh, hle, hiff⟩ := h.endpoints?_spec hends hendpoints
      obtain ⟨values, hsegment, hfirst, hlast, hsteps⟩ := h.exists_walk hlow hhigh hle
      refine ⟨values, hsegment.congr hiff, ?_, hsteps, ?_⟩
      · rw [hendpoints, firstAndLast?, hfirst, hlast]
        rfl
      · rintro first hhead before value after rfl
        rw [hfirst] at hhead
        cases hhead
        exact h.distance_segment hlow hsegment

end DiscreteDomain.StepsOver

end RangeAlgebra
