import RangeAlgebra.Proofs.Discrete.CanonicalCuts
import RangeAlgebra.Proofs.Discrete.Counting
import RangeAlgebra.Proofs.Discrete.Integers
import RangeAlgebra.Proofs.Discrete.Stepping
import RangeAlgebra.Proofs.Set.Reachable

/-!
The values of a view. A set has a view only if each of its ranges can be walked through, and since
the ranges ascend, the ways through them one after the other are all values of the set in ascending
order. Iteration in either direction, the size, the positions and the membership of values are
computed in different ways from the ranges, and all of them are those of this one list.
-/

namespace RangeAlgebra

universe u

variable {α : Type u} [Ord α]

namespace Range

variable [Std.TransOrd α] {domain : DiscreteDomain α} {carrier : Set α}

/-- Each way lies in its range, and the ranges ascend. -/
theorem IsCanonical.enumerates_flatten [Std.LawfulEqOrd α] {ranges : List (Range α)}
    {ways : List (List α)} (h : IsCanonical ranges)
    (hwalks : List.Forall₂ (Walk domain carrier) ranges ways) :
    Enumerates ways.flatten fun value => value ∈ carrier ∧ Covered ranges (.below value) := by
  induction hwalks with
  | nil => exact .nil fun value hvalue => not_covered_nil _ hvalue.2
  | cons hwalk hwalks ih =>
      rename_i range way ranges ways
      obtain ⟨-, hbefore, hrest⟩ := (isCanonical_cons range ranges).mp h
      rw [List.flatten_cons]
      refine (hwalk.enumerates.append (ih hrest) ?_).congr fun value => ?_
      · rintro a b ⟨-, ha⟩ ⟨-, other, hother, hb⟩
        exact Std.lt_trans ha.2 (Std.lt_of_lt_of_le (hbefore other hother) hb.1)
      · rw [covered_cons, and_or_left]

end Range

variable [DecidableEq α] {set : RangeSet α} {domain : DiscreteDomain α} {view : DiscreteView α}

namespace RangeSet

theorem asView_eq_ok_of_span_eq_error {error : Error α} (h : set.span = .error error) :
    set.asView domain = .ok ⟨set, domain⟩ := by
  rw [asView, h]

/-- What a view requires of the span of the set. -/
theorem asView_eq_ok_iff {span : Range α} (h : set.span = .ok span) :
    set.asView domain = .ok view ↔
      view = ⟨set, domain⟩ ∧ (span.canonical domain).hasLowerBound = true ∧
        ((span.canonical domain).hasUpperBound = true ∨ domain.greatest?.isSome = true) := by
  simp only [asView, h]
  cases (span.canonical domain).hasLowerBound <;> cases (span.canonical domain).hasUpperBound <;>
    cases domain.greatest? <;> simp [eq_comm]

variable [Std.TransOrd α] [Std.LawfulEqOrd α] {carrier : Set α}

/-- A domain with a least and a greatest value gives every set a view. -/
theorem WellFormed.asView_eq_ok (h : set.WellFormed) (hleast : domain.least?.isSome = true)
    (hgreatest : domain.greatest?.isSome = true) : set.asView domain = .ok ⟨set, domain⟩ := by
  rcases h.span_cases with ⟨-, -, hspan⟩ | ⟨span, -, hspan, hproper, -⟩
  · exact asView_eq_ok_of_span_eq_error hspan
  · have hvalid := Range.valid_of_lt hproper
    rw [asView_eq_ok_iff hspan]
    exact ⟨rfl, hvalid.hasLowerBound_canonical_iff.mpr fun _ => hleast, Or.inr hgreatest⟩

/-- The first range decides whether the least value of the domain is needed, the last one whether
its greatest value is, unless no value lies above the start of the first. -/
private theorem WellFormed.exists_walk (h : set.WellFormed) (hdomain : domain.StepsOver carrier)
    (hends : ∀ range ∈ set.ranges, range.EndsIn carrier) {first last : Range α}
    (hfirst : set.ranges.head? = some first) (hlast : set.ranges.getLast? = some last)
    (hlower : first.lower = .belowAll → domain.least?.isSome = true)
    (hupper : last.upper = .aboveAll → domain.greatest?.isSome = true ∨
      first.lower ≠ .belowAll ∧ first.lower.leastValueAbove domain = none) :
    ∀ range ∈ set.ranges, ∃ values, range.Walk domain carrier values := by
  intro range hrange
  have hstart := h.canonical.lower_head_le hfirst range hrange
  have hend := h.canonical.upper_le_getLast hlast range hrange
  refine hdomain.exists_walk_range (hends range hrange) ?_ ?_
  · intro hbelow
    rw [hbelow] at hstart
    exact hlower (Std.le_antisymm hstart (Cut.belowAll_le _))
  · intro habove
    rw [habove] at hend
    refine (hupper (Std.le_antisymm (Cut.le_aboveAll _) hend)).imp_right ?_
    rintro ⟨hne, hnone⟩ value hvalue hafter
    have hfirstEnd : ∀ other, first.lower.endpoint? = some other → other ∈ carrier :=
      fun other hother => hends first (List.mem_of_head? hfirst) other (Or.inl hother)
    exact hdomain.not_le_of_leastValueAbove_eq_none hfirstEnd (fun hbelow => absurd hbelow hne)
      hnone value hvalue (Std.le_trans hstart hafter)

/-- Every range of a set with a view can be walked through. -/
theorem WellFormed.exists_walks (h : set.WellFormed) (hdomain : domain.StepsOver carrier)
    (hends : ∀ range ∈ set.ranges, range.EndsIn carrier) (hview : set.asView domain = .ok view) :
    view = ⟨set, domain⟩ ∧ ∃ ways, List.Forall₂ (Range.Walk domain carrier) set.ranges ways := by
  rcases h.span_cases with
    ⟨hnil, -, hspan⟩ | ⟨span, -, hspan, hproper, first, last, hfirst, hlast, rfl⟩
  · rw [asView_eq_ok_of_span_eq_error hspan] at hview
    cases hview
    rw [hnil]
    exact ⟨rfl, [], .nil⟩
  · obtain ⟨hsame, hlower, hupper⟩ := (asView_eq_ok_iff hspan).mp hview
    have hvalid := Range.valid_of_lt hproper
    have hwalk := h.exists_walk hdomain hends hfirst hlast
      (hvalid.hasLowerBound_canonical_iff.mp hlower)
      (fun habove => hupper.symm.imp_right
        (Range.leastValueAbove_eq_none ⟨first.lower, last.upper⟩ habove))
    choose! ways hways using hwalk
    exact ⟨hsame, set.ranges.map ways,
      List.forall₂_map_right_iff.mpr (List.forall₂_same.mpr hways)⟩

/-- A set with a view has finitely many values in the domain. Iteration gives them in ascending
order, each once, and iteration against the order gives the same values from the greatest on; each
number of steps gives that many of them. The first and the last value, the size, whether there are
any values, which values are contained and at which position are what this list says, where numbers
above the greatest 32-bit one are not told apart. The integers of each kind are such a domain. -/
theorem asView_exact (h : set.Reachable) (hdomain : domain.StepsOver carrier)
    (hends : ∀ range ∈ set.ranges, range.EndsIn carrier) (hview : set.asView domain = .ok view) :
    (∃ values, Enumerates values (fun value => value ∈ carrier ∧ set.Covers (.below value)) ∧
      (∀ count, (view.cursor .ascending).take count = values.take count ∧
        (view.cursor .descending).take count = values.reverse.take count) ∧
      view.first? = values.head? ∧ view.last? = values.getLast? ∧
      view.size = min values.length 2147483647 ∧ (view.isEmpty = true ↔ values = []) ∧
      ∀ value ∈ carrier, (view.contains value = true ↔ value ∈ values) ∧
        (value ∈ values → view.indexOf value =
          some (min (values.countP fun other => compare other value = .lt) 2147483647)) ∧
        (value ∉ values → view.indexOf value = none)) ∧
      ∀ kind, (DiscreteDomain.integers kind).StepsOver Set.univ := by
  refine ⟨?_, DiscreteDomain.stepsOver_integers⟩
  have hform := h.wellFormed
  obtain ⟨rfl, ways, hwalks⟩ := hform.exists_walks hdomain hends hview
  have henumerates := hform.canonical.enumerates_flatten hwalks
  have hascending : (DiscreteView.cursor ⟨set, domain⟩ .ascending).Awaits ways.flatten :=
    DiscreteView.awaits_ascending hwalks
  have hdescending : (DiscreteView.cursor ⟨set, domain⟩ .descending).Awaits ways.flatten.reverse :=
    DiscreteView.awaits_descending hwalks
  have hsize : DiscreteView.size ⟨set, domain⟩ = min ways.flatten.length 2147483647 := by
    rw [DiscreteView.size, foldl_valueCount_eq hwalks, Nat.zero_add, DiscreteView.countCap]
  refine ⟨ways.flatten, henumerates, fun count => ⟨hascending.take_eq count,
    hdescending.take_eq count⟩, hascending.map_next?_eq, ?_, hsize, ?_, ?_⟩
  · rw [← List.head?_reverse]
    exact hdescending.map_next?_eq
  · rw [DiscreteView.isEmpty, decide_eq_true_eq, hsize, ← List.length_eq_zero_iff]
    omega
  · intro value hvalue
    refine ⟨?_, ?_, fun hnone => DiscreteView.indexFrom_eq_none hwalks hvalue hnone 0⟩
    · rw [henumerates.mem_iff, and_iff_right hvalue]
      exact Lists.contains_iff hform value
    · intro hmem
      obtain ⟨before, after, hsplit, hindex⟩ :=
        DiscreteView.indexFrom_eq_some hwalks hvalue hmem 0
      rw [hsplit] at henumerates ⊢
      rw [henumerates.countP_lt]
      rw [Nat.zero_add] at hindex
      exact hindex

/-- The set is unbounded at both ends, where the integers stop, and one of its ranges lies between
two neighbouring integers. -/
theorem asView_exact_gaps :
    let byte (value : Int) (h : -128 ≤ value ∧ value ≤ 127) : BoundedInt .int8 := ⟨value, h.1, h.2⟩
    let gaps : RangeSet (BoundedInt .int8) := RangeSet.complement <| .unionOf
      [⟨.below (byte (-126) (by decide)), .above (byte 1 (by decide))⟩,
        ⟨.below (byte 2 (by decide)), .above (byte 5 (by decide))⟩] 1
    let view : DiscreteView (BoundedInt .int8) := ⟨gaps, .integers .int8⟩
    let six := byte 6 (by decide)
    gaps.Reachable ∧ gaps.asView (.integers .int8) = .ok view ∧
      ∃ values, Enumerates values (fun value => value ∈ Set.univ ∧ gaps.Covers (.below value)) ∧
        values.length = 124 ∧ six ∈ values ∧
        (values.countP fun other => compare other six = .lt) = 2 ∧
        (view.cursor .ascending).take 3 = values.take 3 ∧ values.getLast? = view.last? := by
  intro byte gaps view six
  have hgaps : gaps.Reachable := RangeCollection.Reachable.complement (.unionOf (by decide) 1)
  have hends : ∀ range ∈ gaps.ranges, range.EndsIn Set.univ := fun _ _ _ _ => trivial
  have hview : gaps.asView (.integers .int8) = .ok view := hgaps.wellFormed.asView_eq_ok rfl rfl
  obtain ⟨⟨values, hvalues, htake, -, hlast, hsize, -, hquery⟩, -⟩ :=
    asView_exact hgaps (DiscreteDomain.stepsOver_integers .int8) hends hview
  obtain ⟨hcontains, hindex, -⟩ := hquery six trivial
  have hsix : six ∈ values := hcontains.mp (by decide +kernel)
  have hcount : view.size = 124 := by decide +kernel
  have hposition : view.indexOf six = some 2 := by decide +kernel
  rw [hsize] at hcount
  rw [hindex hsix, Option.some.injEq] at hposition
  exact ⟨hgaps, hview, values, hvalues, by omega, hsix, by omega, (htake 3).1, hlast.symm⟩

end RangeSet

end RangeAlgebra
