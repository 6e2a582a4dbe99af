import RangeAlgebra.Proofs.Discrete.Enumeration
import RangeAlgebra.Proofs.Set.Relations

/-!
The algebra of views. The operations are those of the sets behind the views, and as an element
enters a set only through the cut just below it, they give the values that they should. The
relations would tell sets apart by positions between neighbouring values, so they are asked of the
ranges in canonical form, which cover both cuts of each value and no position between values.
-/

namespace RangeAlgebra

universe u

variable {α : Type u} [Ord α] [DecidableEq α]

/-- Iteration gives the values with the property, in ascending order and each once. -/
def DiscreteView.Yields (view : DiscreteView α) (property : α → Prop) : Prop :=
  ∃ values, Enumerates values property ∧
    ∀ count, (view.cursor .ascending).take count = values.take count

namespace DiscreteView

theorem Yields.congr {view : DiscreteView α} {property other : α → Prop} (h : view.Yields property)
    (hiff : ∀ value, property value ↔ other value) : view.Yields other := by
  obtain ⟨values, hvalues, htake⟩ := h
  exact ⟨values, hvalues.congr hiff, htake⟩

variable [Std.TransOrd α] [Std.LawfulEqOrd α]

/-- The view of a set in a domain that steps over all values of the type, of which one is the
least. -/
structure WellFormed (view : DiscreteView α) : Prop where
  set : view.set.WellFormed
  domain : view.domain.StepsOver Set.univ
  least : view.domain.least?.isSome = true

theorem WellFormed.contains_iff {view : DiscreteView α} (h : view.WellFormed) (value : α) :
    view.contains value = true ↔ view.set.Covers (.below value) :=
  RangeSet.Lists.contains_iff h.set value

/-- The set that relations are decided on covers the cuts of the values of the view. -/
theorem WellFormed.canonicalSet_spec {view : DiscreteView α} (h : view.WellFormed) :
    view.canonicalSet.WellFormed ∧ ∀ cut, view.canonicalSet.Covers cut ↔
      ∃ value, cut.endpoint? = some value ∧ view.contains value = true := by
  have hvalid : ∀ range ∈ view.canonicalRanges, range.Valid := by
    intro range hrange
    obtain ⟨origin, horigin, rfl⟩ := List.mem_map.mp hrange
    exact (h.set.valid origin horigin).canonical h.domain h.least
  have hcanonical : ∀ range ∈ view.set.ranges, ∀ cut, (range.canonical view.domain).Covers cut ↔
      ∃ value, cut.endpoint? = some value ∧ range.Covers (.below value) :=
    fun range hrange => (h.set.valid range hrange).covers_canonical_iff h.domain h.least
  obtain ⟨hform, hcovers⟩ := RangeSet.unionOf_spec hvalid 0
  refine ⟨hform, fun cut => (hcovers cut).trans ?_⟩
  simp only [h.contains_iff]
  constructor
  · rintro ⟨_, hrange, hcut⟩
    obtain ⟨range, horigin, rfl⟩ := List.mem_map.mp hrange
    obtain ⟨value, hend, hvalue⟩ := (hcanonical range horigin cut).mp hcut
    exact ⟨value, hend, range, horigin, hvalue⟩
  · rintro ⟨value, hend, range, horigin, hvalue⟩
    exact ⟨_, List.mem_map_of_mem horigin,
      (hcanonical range horigin cut).mpr ⟨value, hend, hvalue⟩⟩

variable {a b : DiscreteView α}

theorem WellFormed.isSubset_iff (ha : a.WellFormed) (hb : b.WellFormed) :
    a.isSubset b = true ↔ ∀ value, a.contains value = true → b.contains value = true := by
  obtain ⟨hformA, hcoversA⟩ := ha.canonicalSet_spec
  obtain ⟨hformB, hcoversB⟩ := hb.canonicalSet_spec
  rw [isSubset, hformA.isSubset_iff hformB]
  simp only [hcoversA, hcoversB]
  exact Cut.forall_endpoint?_iff _ _

theorem WellFormed.overlaps_iff (ha : a.WellFormed) (hb : b.WellFormed) :
    a.overlaps b = true ↔ ∃ value, a.contains value = true ∧ b.contains value = true := by
  obtain ⟨hformA, hcoversA⟩ := ha.canonicalSet_spec
  obtain ⟨hformB, hcoversB⟩ := hb.canonicalSet_spec
  rw [overlaps, hformA.overlaps_iff hformB]
  simp only [hcoversA, hcoversB]
  constructor
  · rintro ⟨cut, ⟨value, hend, hvalue⟩, other, hendOther, hother⟩
    rw [hend, Option.some.injEq] at hendOther
    exact ⟨value, hvalue, hendOther ▸ hother⟩
  · rintro ⟨value, hvalue, hother⟩
    exact ⟨.below value, ⟨value, rfl, hvalue⟩, value, rfl, hother⟩

theorem WellFormed.isDisjoint_iff (ha : a.WellFormed) (hb : b.WellFormed) :
    a.isDisjoint b = true ↔ ¬ ∃ value, a.contains value = true ∧ b.contains value = true := by
  rw [isDisjoint, Bool.not_eq_true', ← Bool.not_eq_true, ha.overlaps_iff hb]

/-- The relations see nothing of a view but its values. -/
theorem WellFormed.relations_eq {a' b' : DiscreteView α} (ha : a.WellFormed) (hb : b.WellFormed)
    (ha' : a'.WellFormed) (hb' : b'.WellFormed)
    (hsameA : ∀ value, a'.contains value = a.contains value)
    (hsameB : ∀ value, b'.contains value = b.contains value) :
    a'.isSubset b' = a.isSubset b ∧ a'.overlaps b' = a.overlaps b ∧
      a'.isDisjoint b' = a.isDisjoint b := by
  refine ⟨?_, ?_, ?_⟩
  · rw [Bool.eq_iff_iff, ha'.isSubset_iff hb', ha.isSubset_iff hb]
    simp only [hsameA, hsameB]
  · rw [Bool.eq_iff_iff, ha'.overlaps_iff hb', ha.overlaps_iff hb]
    simp only [hsameA, hsameB]
  · rw [Bool.eq_iff_iff, ha'.isDisjoint_iff hb', ha.isDisjoint_iff hb]
    simp only [hsameA, hsameB]

section Integers

variable {kind : IntegerKind} {set : RangeSet (BoundedInt kind)}

theorem wellFormed_integers (h : set.WellFormed) :
    (⟨set, .integers kind⟩ : DiscreteView (BoundedInt kind)).WellFormed :=
  ⟨h, DiscreteDomain.stepsOver_integers kind, rfl⟩

/-- Iteration gives the integers that the set covers. -/
theorem yields_integers (h : set.WellFormed) :
    DiscreteView.Yields ⟨set, .integers kind⟩ fun value => set.Covers (.below value) := by
  have hdomain := DiscreteDomain.stepsOver_integers kind
  have hview : set.asView (.integers kind) = .ok ⟨set, .integers kind⟩ := h.asView_eq_ok rfl rfl
  obtain ⟨-, ways, hwalks⟩ := h.exists_walks hdomain (fun _ _ _ _ => trivial) hview
  have hascending : (DiscreteView.cursor ⟨set, .integers kind⟩ .ascending).Awaits ways.flatten :=
    awaits_ascending hwalks
  exact ⟨ways.flatten, (h.canonical.enumerates_flatten hwalks).congr fun value =>
    and_iff_right trivial, hascending.take_eq⟩

/-- Every set of integers has a view. -/
theorem exists_asView_integers (h : set.WellFormed) {property : BoundedInt kind → Prop}
    (hiff : ∀ value, set.Covers (.below value) ↔ property value) :
    ∃ view, set.asView (.integers kind) = .ok view ∧ view.Yields property :=
  ⟨_, h.asView_eq_ok rfl rfl, (yields_integers h).congr hiff⟩

theorem eq_of_asView_integers (h : set.WellFormed) {view : DiscreteView (BoundedInt kind)}
    (hview : set.asView (.integers kind) = .ok view) : view = ⟨set, .integers kind⟩ := by
  rw [h.asView_eq_ok rfl rfl] at hview
  cases hview
  rfl

/-- The operations on views of integers are those on the sets of these integers, and give views. The
relations are those between these sets too, so they do not depend on how the integers are enclosed
in ranges. -/
theorem algebra_valuewise {s t : RangeSet (BoundedInt kind)} (hs : s.Reachable) (ht : t.Reachable)
    {a b : DiscreteView (BoundedInt kind)} (ha : s.asView (.integers kind) = .ok a)
    (hb : t.asView (.integers kind) = .ok b) (label : Nat) :
    (a.Yields fun value => a.contains value = true) ∧
      (b.Yields fun value => b.contains value = true) ∧
      (∃ view, a.intersection b label = .ok view ∧
        view.Yields fun value => a.contains value = true ∧ b.contains value = true) ∧
      (∃ view, a.union b label = .ok view ∧
        view.Yields fun value => a.contains value = true ∨ b.contains value = true) ∧
      (∃ view, a.difference b label = .ok view ∧
        view.Yields fun value => a.contains value = true ∧ ¬ b.contains value = true) ∧
      (a.isSubset b = true ↔ ∀ value, a.contains value = true → b.contains value = true) ∧
      (a.overlaps b = true ↔ ∃ value, a.contains value = true ∧ b.contains value = true) ∧
      (a.isDisjoint b = true ↔ ¬ ∃ value, a.contains value = true ∧ b.contains value = true) ∧
      ∀ (s' t' : RangeSet (BoundedInt kind)) (a' b' : DiscreteView (BoundedInt kind)),
        s'.Reachable → t'.Reachable →
        s'.asView (.integers kind) = .ok a' → t'.asView (.integers kind) = .ok b' →
        (∀ value, a'.contains value = a.contains value) →
        (∀ value, b'.contains value = b.contains value) →
        a'.isSubset b' = a.isSubset b ∧ a'.overlaps b' = a.overlaps b ∧
          a'.isDisjoint b' = a.isDisjoint b := by
  have hformS := hs.wellFormed
  have hformT : (RangeCollection.ofSet t).WellFormed := ht.wellFormed
  obtain rfl := eq_of_asView_integers hformS ha
  obtain rfl := eq_of_asView_integers ht.wellFormed hb
  have hviewA := wellFormed_integers hformS
  have hviewB := wellFormed_integers ht.wellFormed
  have hcoversA := hviewA.contains_iff
  have hcoversB := hviewB.contains_iff
  refine ⟨(yields_integers hformS).congr fun value => (hcoversA value).symm,
    (yields_integers ht.wellFormed).congr fun value => (hcoversB value).symm, ?_, ?_, ?_,
    hviewA.isSubset_iff hviewB, hviewA.overlaps_iff hviewB, hviewA.isDisjoint_iff hviewB, ?_⟩
  · obtain ⟨hform, hcovers⟩ := RangeSet.intersection_spec hformS hformT label
    refine exists_asView_integers hform fun value => ?_
    rw [hcovers, hcoversA, hcoversB]
    exact Iff.rfl
  · obtain ⟨hform, hcovers⟩ := RangeSet.union_spec hformS hformT label
    refine exists_asView_integers hform fun value => ?_
    rw [hcovers, hcoversA, hcoversB]
    exact Iff.rfl
  · obtain ⟨hform, hcovers⟩ := RangeSet.difference_spec hformS hformT label
    refine exists_asView_integers hform fun value => ?_
    rw [hcovers, hcoversA, hcoversB]
    exact Iff.rfl
  · intro s' t' a' b' hs' ht' ha' hb' hsameA hsameB
    obtain rfl := eq_of_asView_integers hs'.wellFormed ha'
    obtain rfl := eq_of_asView_integers ht'.wellFormed hb'
    exact hviewA.relations_eq hviewB (wellFormed_integers hs'.wellFormed)
      (wellFormed_integers ht'.wellFormed) hsameA hsameB

/-- Two ways to enclose the integers from 1 to 4, of which one leaves a position out, and a set
whose ranges enclose no integer. -/
theorem algebra_valuewise_cuts :
    let byte (value : Int) (h : 0 ≤ value ∧ value ≤ 255) : BoundedInt .uint8 := ⟨value, h.1, h.2⟩
    let view (set : RangeSet (BoundedInt .uint8)) : DiscreteView (BoundedInt .uint8) :=
      ⟨set, .integers .uint8⟩
    let parts : RangeSet (BoundedInt .uint8) := .unionOf
      [⟨.below (byte 1 (by decide)), .above (byte 2 (by decide))⟩,
        ⟨.below (byte 3 (by decide)), .above (byte 4 (by decide))⟩] 1
    let whole : RangeSet (BoundedInt .uint8) :=
      .unionOf [⟨.above (byte 0 (by decide)), .below (byte 5 (by decide))⟩] 2
    let gaps : RangeSet (BoundedInt .uint8) := .unionOf
      [⟨.above (byte 4 (by decide)), .below (byte 5 (by decide))⟩,
        ⟨.above (byte 255 (by decide)), .aboveAll⟩] 3
    (parts == whole) = false ∧ (∀ value, whole.contains value = parts.contains value) ∧
      (∃ result, (view parts).union (view gaps) 4 = .ok result ∧ result.Yields fun value =>
        (view parts).contains value = true ∨ (view gaps).contains value = true) ∧
      (view parts).isSubset (view gaps) = false ∧ (view parts).isDisjoint (view gaps) = true ∧
      (view whole).isSubset (view .empty) = (view parts).isSubset (view gaps) ∧
      (view whole).isDisjoint (view .empty) = (view parts).isDisjoint (view gaps) := by
  intro byte view parts whole gaps
  have hparts : parts.Reachable := RangeCollection.Reachable.unionOf (by decide) 1
  have hwhole : whole.Reachable := RangeCollection.Reachable.unionOf (by decide) 2
  have hgaps : gaps.Reachable := RangeCollection.Reachable.unionOf (by decide) 3
  have hempty : (RangeSet.empty : RangeSet (BoundedInt .uint8)).Reachable := .empty
  have hview (set : RangeSet (BoundedInt .uint8)) (h : set.Reachable) :
      set.asView (.integers .uint8) = .ok (view set) := h.wellFormed.asView_eq_ok rfl rfl
  -- Inclusion both ways, which can be evaluated, says that two views have the same integers.
  have hsame {s t : RangeSet (BoundedInt .uint8)} (hs : s.Reachable) (ht : t.Reachable)
      (hforth : (view s).isSubset (view t) = true) (hback : (view t).isSubset (view s) = true) :
      ∀ value, (view t).contains value = (view s).contains value := by
    obtain ⟨-, -, -, -, -, hsubset, -⟩ := algebra_valuewise hs ht (hview s hs) (hview t ht) 0
    obtain ⟨-, -, -, -, -, hsuperset, -⟩ := algebra_valuewise ht hs (hview t ht) (hview s hs) 0
    intro value
    exact Bool.eq_iff_iff.mpr ⟨hsuperset.mp hback value, hsubset.mp hforth value⟩
  have hsameParts := hsame hparts hwhole (by decide +kernel) (by decide +kernel)
  have hsameGaps := hsame hgaps hempty (by decide +kernel) (by decide +kernel)
  obtain ⟨-, -, -, hunion, -, -, -, -, halike⟩ :=
    algebra_valuewise hparts hgaps (hview parts hparts) (hview gaps hgaps) 4
  obtain ⟨hsubset, -, hdisjoint⟩ := halike whole .empty (view whole) (view .empty) hwhole hempty
    (hview whole hwhole) (hview .empty hempty) hsameParts hsameGaps
  exact ⟨by decide +kernel, hsameParts, hunion, by decide +kernel, by decide +kernel, hsubset,
    hdisjoint⟩

end Integers

end DiscreteView

end RangeAlgebra
