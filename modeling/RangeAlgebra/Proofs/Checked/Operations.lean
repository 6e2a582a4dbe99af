import RangeAlgebra.Element.Order
import RangeAlgebra.Proofs.Checked.Algebra

/-!
What no operation ever finds. Whatever sets, indexes and builders have been made of valid ranges,
the operations on them written out in checked steps come to what the operations give. So no cuts are
ever inverted or infinite on the wrong side where a range is made of them, ranges are connected
where they are clipped to each other, positions and search results lie within the length,
subtractions stay above zero, and the keys of an index are looked for from a start to an end above
it. What is left out here takes none of these steps, as the complement of a set does.
-/

namespace RangeAlgebra

section Operations

variable {α : Type} [Ord α] [DecidableEq α]

/-- What sets and indexes answer alike, and their copies. -/
structure RangeCollection.Unbreached (collection : RangeCollection α) : Prop where
  ranges : collection.checkedRanges = .ok collection.ranges
  rangeContaining (value : α) :
    collection.checkedRangeContaining? value = .ok (collection.rangeContaining? value)
  intersects (range : Range α) (hvalid : range.Valid) :
    collection.checkedIntersects range = .ok (collection.intersects range)
  encloses (range : Range α) :
    collection.checkedEncloses range = .ok (collection.encloses range)
  enclosesAll (other : RangeCollection α) (hother : other.Reachable) :
    collection.checkedEnclosesAll other = .ok (collection.enclosesAll other)
  span : collection.checkedSpan = .ok collection.span
  complement : collection.checkedComplement = .ok collection.complement
  copyOf (label : Nat) :
    RangeSet.checkedCopyOf collection label = .ok (.copyOf collection label)

/-- The length, traversals from either end, restrictions and the algebra of a set. -/
structure RangeSet.Unbreached (set : RangeSet α) : Prop where
  rangeCount : set.reader.length = .ok set.rangeCount
  remaining {traversal : Traversal α} (h : Traversal.Through set traversal) :
    traversal.checkedRemaining = .ok traversal.remaining
  next {traversal : Traversal α} (h : Traversal.Through set traversal) :
    traversal.checkedNext = .ok traversal.next
  nextBack {traversal : Traversal α} (h : Traversal.Through set traversal) :
    traversal.checkedNextBack = .ok traversal.nextBack
  restrict (range : Range α) (label : Nat) :
    set.checkedRestrict range label = .ok (set.restrict range label)
  union (other : RangeCollection α) (hother : other.Reachable) (label : Nat) :
    set.checkedUnion other label = .ok (set.union other label)
  intersection (other : RangeCollection α) (hother : other.Reachable) (label : Nat) :
    set.checkedIntersection other label = .ok (set.intersection other label)
  difference (other : RangeCollection α) (hother : other.Reachable) (label : Nat) :
    set.checkedDifference other label = .ok (set.difference other label)
  overlaps (other : RangeSet α) (hother : other.Reachable) :
    set.checkedOverlaps other = .ok (set.overlaps other)

/-- Changes of an index by single ranges, by lists of them and by those of a collection. -/
structure RangeIndex.Unbreached (index : RangeIndex α) : Prop where
  add (range : Range α) (hvalid : range.Valid) : index.checkedAdd range = .ok (index.add range)
  remove (range : Range α) (hvalid : range.Valid) :
    index.checkedRemove range = .ok (index.remove range)
  addRanges (ranges : List (Range α)) (hvalid : ∀ range ∈ ranges, range.Valid) :
    index.checkedAddAll ranges = .ok (index.addAll ranges)
  removeRanges (ranges : List (Range α)) (hvalid : ∀ range ∈ ranges, range.Valid) :
    index.checkedRemoveAll ranges = .ok (index.removeAll ranges)
  addAll (other : RangeCollection α) (hother : other.Reachable) :
    other.checkedRanges >>= index.checkedAddAll = .ok (index.addAll other.ranges)
  removeAll (other : RangeCollection α) (hother : other.Reachable) :
    other.checkedRanges >>= index.checkedRemoveAll = .ok (index.removeAll other.ranges)

structure Builder.Unbreached (builder : Builder α) : Prop where
  addCollection (collection : RangeCollection α) (h : collection.Reachable) :
    builder.checkedAddCollection collection = .ok (builder.addCollection collection)
  build (label : Nat) : builder.checkedBuild label = .ok (builder.build label)

/-- Taking ranges together, under the promise that they do not overlap and without it. -/
structure Range.Unbreached (ranges : List (Range α)) : Prop where
  unionOf (label : Nat) : RangeSet.checkedUnionOf ranges label = .ok (.unionOf ranges label)
  copyOfRanges (label : Nat) :
    RangeSet.checkedCopyOfRanges ranges label = .ok (RangeSet.copyOfRanges ranges label)

variable [Std.TransOrd α] [Std.LawfulEqOrd α]

theorem RangeCollection.WellFormed.unbreached {collection : RangeCollection α}
    (h : collection.WellFormed) : collection.Unbreached where
  ranges := h.checkedRanges_eq
  rangeContaining := h.checkedRangeContaining?_eq
  intersects _ hvalid := h.checkedIntersects_eq hvalid
  encloses := h.checkedEncloses_eq
  enclosesAll _ hother := h.checkedEnclosesAll_eq hother.wellFormed
  span := h.checkedSpan_eq
  complement := collection.checkedComplement_eq
  copyOf := RangeSet.checkedCopyOf_eq h

theorem RangeSet.WellFormed.unbreached {set : RangeSet α} (h : set.WellFormed) :
    set.Unbreached where
  rangeCount := h.length_reader_eq
  remaining through := through.within.checkedRemaining_eq
  next through := through.within.checkedNext_eq h
  nextBack through := through.within.checkedNextBack_eq h
  restrict := RangeSet.Lists.checkedRestrict_eq h
  union _ hother := h.checkedUnion_eq hother.wellFormed
  intersection _ hother := h.checkedIntersection_eq hother.wellFormed
  difference _ hother := h.checkedDifference_eq hother.wellFormed
  overlaps _ hother := h.checkedOverlaps_eq hother.wellFormed

theorem RangeIndex.WellFormed.unbreached {index : RangeIndex α} (h : index.WellFormed) :
    index.Unbreached where
  add _ hvalid := h.checkedAdd_eq hvalid
  remove _ hvalid := h.checkedRemove_eq hvalid
  addRanges _ hvalid := h.checkedAddAll_eq hvalid
  removeRanges _ hvalid := h.checkedRemoveAll_eq hvalid
  addAll other hother := by
    rw [hother.wellFormed.checkedRanges_eq]
    exact h.checkedAddAll_eq hother.wellFormed.valid
  removeAll other hother := by
    rw [hother.wellFormed.checkedRanges_eq]
    exact h.checkedRemoveAll_eq hother.wellFormed.valid

theorem Builder.WellFormed.unbreached {builder : Builder α} (h : builder.WellFormed) :
    builder.Unbreached where
  addCollection _ hcollection := builder.checkedAddCollection_eq hcollection.wellFormed
  build := h.checkedBuild_eq

theorem Range.unbreached {ranges : List (Range α)} (hvalid : ∀ range ∈ ranges, range.Valid) :
    Range.Unbreached ranges where
  unionOf := RangeSet.checkedUnionOf_eq hvalid
  copyOfRanges := RangeSet.checkedCopyOfRanges_eq hvalid

end Operations

/-- The values of a set of integers as a view, and the canonical form of the view. -/
structure RangeSet.ViewUnbreached {kind : IntegerKind} (set : RangeSet (BoundedInt kind)) :
    Prop where
  asView : set.checkedAsView (.integers kind) = .ok (set.asView (.integers kind))
  canonicalSet : (DiscreteView.mk set (.integers kind)).checkedCanonicalSet =
    .ok (DiscreteView.mk set (.integers kind)).canonicalSet

theorem RangeSet.WellFormed.viewUnbreached {kind : IntegerKind}
    {set : RangeSet (BoundedInt kind)} (h : set.WellFormed) : set.ViewUnbreached where
  asView := h.checkedAsView_eq (DiscreteDomain.stepsOver_integers kind) rfl
  canonicalSet :=
    DiscreteView.checkedCanonicalSet_eq h (DiscreteDomain.stepsOver_integers kind) rfl

/-- Well-formedness is all that the steps rely on, and everything that can be made is well formed,
however views are nested in it. -/
theorem operations_unbreached (α : Type) [Ord α] [DecidableEq α] [Std.TransOrd α]
    [Std.LawfulEqOrd α] :
    (∀ collection : RangeCollection α, collection.Reachable → collection.Unbreached) ∧
      (∀ set : RangeSet α, set.Reachable → set.Unbreached) ∧
      (∀ index : RangeIndex α, index.Reachable → index.Unbreached) ∧
      (∀ builder : Builder α, builder.Reachable → builder.Unbreached) ∧
      (∀ ranges : List (Range α), (∀ range ∈ ranges, range.Valid) → Range.Unbreached ranges) ∧
      ∀ kind (set : RangeSet (BoundedInt kind)), set.Reachable → set.ViewUnbreached := by
  refine ⟨?_, ?_, ?_, ?_, ?_, ?_⟩
  · intro collection h
    exact h.wellFormed.unbreached
  · intro set h
    exact h.wellFormed.unbreached
  · intro index h
    exact h.wellFormed.unbreached
  · intro builder h
    exact h.wellFormed.unbreached
  · intro ranges hvalid
    exact Range.unbreached hvalid
  · intro kind set h
    exact h.wellFormed.viewUnbreached

/-- The complement of a restriction of the complement of a restriction. Its gaps are found around
the ranges of a window, which clips two stored gaps, and the first of these starts below all
elements. -/
theorem operations_unbreached_nested :
    let byte (value : Int) (h : -128 ≤ value ∧ value ≤ 127) : BoundedInt .int8 := ⟨value, h.1, h.2⟩
    let cut (value : Int) (h : -128 ≤ value ∧ value ≤ 127) : Cut (BoundedInt .int8) :=
      .below (byte value h)
    let parts : RangeSet (BoundedInt .int8) :=
      .unionOf [⟨cut 1 (by decide), cut 4 (by decide)⟩, ⟨cut 6 (by decide), .aboveAll⟩] 1
    let gaps := (parts.restrict ⟨cut 2 (by decide), cut 9 (by decide)⟩ 2).complement
    let view := (gaps.restrict ⟨.belowAll, cut 5 (by decide)⟩ 3).complement
    let index : RangeIndex (BoundedInt .int8) := gaps.ranges.foldl .add ∅
    let traversal := (Traversal.ofSet view).next.2.nextBack.2
    view.Reachable ∧
      RangeCollection.checkedRanges view =
        .ok [⟨cut 2 (by decide), cut 4 (by decide)⟩, ⟨cut 5 (by decide), .aboveAll⟩] ∧
      traversal.checkedRemaining = .ok 0 ∧
      view.checkedIntersection gaps 4 = .ok (view.intersection gaps 4) ∧
      index.checkedRemove ⟨cut 3 (by decide), cut 5 (by decide)⟩ =
        .ok (index.remove ⟨cut 3 (by decide), cut 5 (by decide)⟩) ∧
      view.checkedAsView (.integers .int8) = .ok (.ok ⟨view, .integers .int8⟩) := by
  intro byte cut parts gaps view index traversal
  obtain ⟨hcollections, hsets, hindexes, -, -, hviews⟩ :=
    operations_unbreached (BoundedInt .int8)
  have hparts : parts.Reachable := RangeCollection.Reachable.unionOf (by decide) 1
  have hgaps : gaps.Reachable := (hparts.restrict (by decide) 2).complement
  have hview : view.Reachable := (hgaps.restrict (by decide) 3).complement
  have hcalls : RangeIndex.Call.AllValid [.addRanges gaps.ranges] := by decide +kernel
  have hindex : index.Reachable := .run .empty hcalls rfl
  have hthrough : Traversal.Through view traversal := .nextBack (.next .start)
  have hranges : view.ranges =
      [⟨cut 2 (by decide), cut 4 (by decide)⟩, ⟨cut 5 (by decide), .aboveAll⟩] := by
    decide +kernel
  have hremaining : traversal.remaining = 0 := by decide +kernel
  refine ⟨hview, ?_, ?_, ?_, ?_, ?_⟩
  · rw [(hcollections view hview).ranges]
    exact congrArg Except.ok hranges
  · rw [(hsets view hview).remaining hthrough]
    exact congrArg Except.ok hremaining
  · exact (hsets view hview).intersection gaps hgaps 4
  · exact (hindexes index hindex).remove _ (by decide)
  · rw [(hviews .int8 view hview).asView, hview.wellFormed.asView_eq_ok rfl rfl]

end RangeAlgebra
