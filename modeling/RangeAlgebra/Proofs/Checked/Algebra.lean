import RangeAlgebra.Proofs.Checked.Index
import RangeAlgebra.Proofs.Checked.Sets
import RangeAlgebra.Proofs.Discrete.Enumeration
import RangeAlgebra.Proofs.Discrete.Integers
import RangeAlgebra.Proofs.Set.Reachable

/-!
The set algebra, building and views of values in checked steps. The operations take the ranges of
their operands, which are read off in checked steps, to an index and copy what it holds, so nothing
is relied on here that was not relied on by a reading or by a change of the index. A scan of sorted
ranges and the canonical form in a domain make ranges of their own.
-/

namespace RangeAlgebra

open Checked

variable {α : Type} [Ord α] [DecidableEq α]

namespace RangeCollection

def checkedRanges : RangeCollection α → Checked α (List (Range α))
  | .ofSet set => set.checkedRanges
  | .ofIndex index => return index.ranges

def checkedIntersects (collection : RangeCollection α) (range : Range α) : Checked α Bool :=
  match collection with
  | .ofSet set => set.checkedIntersects range
  | .ofIndex index => index.checkedIntersects range

def checkedEncloses (collection : RangeCollection α) (range : Range α) : Checked α Bool :=
  match collection with
  | .ofSet set => set.checkedEncloses range
  | .ofIndex index => return index.encloses range

def checkedRangeContaining? (collection : RangeCollection α) (value : α) :
    Checked α (Option (Range α)) :=
  match collection with
  | .ofSet set => set.checkedRangeContaining? value
  | .ofIndex index => return index.rangeContaining? value

def checkedSpan : RangeCollection α → Checked α (Except (Error α) (Range α))
  | .ofSet set => set.checkedSpan
  | .ofIndex index => index.checkedSpan

def checkedComplement : RangeCollection α → Checked α (RangeCollection α)
  | .ofSet set => return .ofSet set.complement
  | .ofIndex index => return .ofIndex (← index.checkedComplement)

def checkedEnclosesAll (collection other : RangeCollection α) : Checked α Bool := do
  (← other.checkedRanges).allM collection.checkedEncloses

variable [Std.TransOrd α] [Std.LawfulEqOrd α] {collection other : RangeCollection α}

theorem WellFormed.checkedRanges_eq (h : collection.WellFormed) :
    collection.checkedRanges = .ok collection.ranges := by
  cases collection with
  | ofSet set => exact RangeSet.Lists.checkedRanges_eq h
  | ofIndex index => rfl

theorem WellFormed.checkedIntersects_eq (h : collection.WellFormed) {range : Range α}
    (hvalid : range.Valid) :
    collection.checkedIntersects range = .ok (collection.intersects range) := by
  cases collection with
  | ofSet set => exact RangeSet.Lists.checkedIntersects_eq h hvalid
  | ofIndex index => exact RangeIndex.WellFormed.checkedIntersects_eq h hvalid

theorem WellFormed.checkedEncloses_eq (h : collection.WellFormed) (range : Range α) :
    collection.checkedEncloses range = .ok (collection.encloses range) := by
  cases collection with
  | ofSet set => exact RangeSet.Lists.checkedEncloses_eq h range
  | ofIndex index => rfl

theorem WellFormed.checkedRangeContaining?_eq (h : collection.WellFormed) (value : α) :
    collection.checkedRangeContaining? value = .ok (collection.rangeContaining? value) := by
  cases collection with
  | ofSet set => exact RangeSet.Lists.checkedRangeContaining?_eq h value
  | ofIndex index => rfl

theorem WellFormed.checkedSpan_eq (h : collection.WellFormed) :
    collection.checkedSpan = .ok collection.span := by
  cases collection with
  | ofSet set => exact RangeSet.Lists.checkedSpan_eq h
  | ofIndex index => exact RangeIndex.WellFormed.checkedSpan_eq h

theorem checkedComplement_eq (collection : RangeCollection α) :
    collection.checkedComplement = .ok collection.complement := by
  cases collection with
  | ofSet set => rfl
  | ofIndex index =>
      rw [checkedComplement, index.checkedComplement_eq]
      rfl

theorem WellFormed.checkedEnclosesAll_eq (h : collection.WellFormed) (hother : other.WellFormed) :
    collection.checkedEnclosesAll other = .ok (collection.enclosesAll other) := by
  rw [checkedEnclosesAll, hother.checkedRanges_eq]
  exact allM_eq fun range _ => h.checkedEncloses_eq range

end RangeCollection

namespace RangeSet

def checkedCopyOf (collection : RangeCollection α) (label : Nat := 0) :
    Checked α (RangeSet α) := do
  if collection.isEmpty then return .empty
  else if ← collection.checkedEncloses .all then return .all
  else
    match collection with
    | .ofSet set =>
      if set.isPartialView then return ofCanonical (← set.checkedRanges) label else return set
    | .ofIndex index => return ofCanonical index.ranges label

def checkedUnionOf (ranges : List (Range α)) (label : Nat := 0) : Checked α (RangeSet α) := do
  let index ← RangeIndex.checkedAddAll ∅ ranges
  checkedCopyOf index label

def checkedUnion (set : RangeSet α) (other : RangeCollection α) (label : Nat := 0) :
    Checked α (RangeSet α) := do
  let own ← set.checkedRanges
  let others ← other.checkedRanges
  checkedUnionOf (own ++ others) label

/-- What is left of the set without some ranges. -/
def checkedWithout (set : RangeSet α) (removed : List (Range α)) (label : Nat) :
    Checked α (RangeSet α) := do
  let copy ← RangeIndex.checkedAddAll ∅ (← set.checkedRanges)
  let rest ← copy.checkedRemoveAll removed
  checkedCopyOf rest label

def checkedIntersection (set : RangeSet α) (other : RangeCollection α) (label : Nat := 0) :
    Checked α (RangeSet α) := do
  let complement ← other.checkedComplement
  set.checkedWithout (← complement.checkedRanges) label

def checkedDifference (set : RangeSet α) (other : RangeCollection α) (label : Nat := 0) :
    Checked α (RangeSet α) := do
  set.checkedWithout (← other.checkedRanges) label

def checkedOverlaps (a b : RangeSet α) : Checked α Bool := do
  (← a.checkedRanges).anyM b.checkedIntersects

variable [Std.TransOrd α] [Std.LawfulEqOrd α] {set : RangeSet α} {other : RangeCollection α}

theorem checkedCopyOf_eq {collection : RangeCollection α} (h : collection.WellFormed)
    (label : Nat) : checkedCopyOf collection label = .ok (copyOf collection label) := by
  unfold checkedCopyOf copyOf
  rw [h.checkedEncloses_eq]
  split
  · rfl
  · rw [ok_bind]
    split
    · rfl
    · cases collection with
      | ofSet set =>
          have hset : set.WellFormed := h
          dsimp only
          rw [hset.checkedRanges_eq]
          split <;> rfl
      | ofIndex index => rfl

theorem checkedUnionOf_eq {ranges : List (Range α)} (hvalid : ∀ range ∈ ranges, range.Valid)
    (label : Nat) : checkedUnionOf ranges label = .ok (unionOf ranges label) := by
  have hindex : (RangeCollection.ofIndex (.ofRanges ranges)).WellFormed :=
    RangeIndex.wellFormed_ofRanges hvalid
  rw [checkedUnionOf, RangeIndex.wellFormed_empty.checkedAddAll_eq hvalid, ok_bind]
  exact checkedCopyOf_eq hindex label

theorem WellFormed.checkedUnion_eq (h : set.WellFormed) (hother : other.WellFormed)
    (label : Nat) : set.checkedUnion other label = .ok (set.union other label) := by
  have hvalid : ∀ range ∈ set.ranges ++ other.ranges, range.Valid := by
    intro range hrange
    rcases List.mem_append.mp hrange with hrange | hrange
    · exact h.valid range hrange
    · exact hother.valid range hrange
  rw [checkedUnion, h.checkedRanges_eq, ok_bind, hother.checkedRanges_eq, ok_bind]
  exact checkedUnionOf_eq hvalid label

theorem WellFormed.checkedWithout_eq (h : set.WellFormed) {removed : List (Range α)}
    (hvalid : ∀ range ∈ removed, range.Valid) (label : Nat) :
    set.checkedWithout removed label =
      .ok (copyOf ((RangeIndex.ofRanges set.ranges).removeAll removed) label) := by
  have hindex : (RangeIndex.ofRanges set.ranges).WellFormed :=
    RangeIndex.wellFormed_ofRanges h.valid
  have hrest : (RangeCollection.ofIndex
      ((RangeIndex.ofRanges set.ranges).removeAll removed)).WellFormed :=
    (hindex.removeAll hvalid).1
  have hcopy := RangeIndex.wellFormed_empty.checkedAddAll_eq h.valid
  have hremoved := hindex.checkedRemoveAll_eq hvalid
  rw [checkedWithout, h.checkedRanges_eq, ok_bind, hcopy, ok_bind]
  change (RangeIndex.ofRanges set.ranges).checkedRemoveAll removed >>= _ = _
  rw [hremoved, ok_bind]
  exact checkedCopyOf_eq hrest label

theorem WellFormed.checkedIntersection_eq (h : set.WellFormed) (hother : other.WellFormed)
    (label : Nat) : set.checkedIntersection other label = .ok (set.intersection other label) := by
  rw [checkedIntersection, other.checkedComplement_eq, ok_bind,
    hother.complement.checkedRanges_eq, ok_bind]
  exact h.checkedWithout_eq hother.complement.valid label

theorem WellFormed.checkedDifference_eq (h : set.WellFormed) (hother : other.WellFormed)
    (label : Nat) : set.checkedDifference other label = .ok (set.difference other label) := by
  rw [checkedDifference, hother.checkedRanges_eq, ok_bind]
  exact h.checkedWithout_eq hother.valid label

theorem WellFormed.checkedOverlaps_eq {a b : RangeSet α} (ha : a.WellFormed) (hb : b.WellFormed) :
    a.checkedOverlaps b = .ok (a.overlaps b) := by
  rw [checkedOverlaps, ha.checkedRanges_eq]
  exact anyM_eq fun range hrange => Lists.checkedIntersects_eq hb (ha.valid range hrange)

end RangeSet

namespace Builder

def checkedMergeFrom (current : Range α) :
    List (Range α) → Checked α (Except (Error α) (List (Range α)))
  | [] => return .ok [current]
  | range :: rest =>
    if current.isConnected range then do
      if ← current.checkedOverlaps range then return .error (.overlapping current range)
      else checkedMergeFrom (← current.checkedSpan range) rest
    else return (← checkedMergeFrom range rest).map (current :: ·)

def checkedMergeSorted : List (Range α) → Checked α (Except (Error α) (List (Range α)))
  | [] => return .ok []
  | range :: rest => checkedMergeFrom range rest

def checkedBuild (builder : Builder α) (label : Nat := 0) :
    Checked α (Except (Error α) (RangeSet α)) :=
  return (← checkedMergeSorted (Range.sort builder.added.toList)).map (RangeSet.ofCanonical · label)

def checkedAddCollection (builder : Builder α) (collection : RangeCollection α) :
    Checked α (Builder α × Option (Error α)) :=
  return builder.addAll (← collection.checkedRanges)

variable [Std.TransOrd α] [Std.LawfulEqOrd α]

/-- The span of two ranges that are valid is valid, whatever the ranges are that it is joined to. -/
theorem checkedMergeFrom_eq {current : Range α} {rest : List (Range α)} (hcurrent : current.Valid)
    (hrest : ∀ range ∈ rest, range.Valid) :
    checkedMergeFrom current rest = .ok (mergeFrom current rest) := by
  induction rest generalizing current with
  | nil => rfl
  | cons range rest ih =>
      have hrange := hrest range (by simp)
      have htail : ∀ other ∈ rest, other.Valid := fun other hother =>
        hrest other (List.mem_cons_of_mem range hother)
      rw [checkedMergeFrom, mergeFrom]
      split
      · rw [Range.checkedOverlaps_eq hcurrent hrange, ok_bind]
        split
        · rfl
        · rw [Range.checkedSpan_eq hcurrent hrange, ok_bind]
          exact ih (hcurrent.span hrange) htail
      · rw [ih hrange htail]
        rfl

theorem checkedMergeSorted_eq {ranges : List (Range α)} (hvalid : ∀ range ∈ ranges, range.Valid) :
    checkedMergeSorted ranges = .ok (mergeSorted ranges) := by
  cases ranges with
  | nil => rfl
  | cons range rest =>
      have hrange := hvalid range (by simp)
      exact checkedMergeFrom_eq hrange fun other hother =>
        hvalid other (List.mem_cons_of_mem range hother)

theorem WellFormed.checkedBuild_eq {builder : Builder α} (h : builder.WellFormed) (label : Nat) :
    builder.checkedBuild label = .ok (builder.build label) := by
  have hvalid : ∀ range ∈ Range.sort builder.added.toList, range.Valid := by
    intro range hrange
    exact Range.valid_of_lt (h.sort_isAscending.lower_lt_upper range hrange)
  rw [checkedBuild, checkedMergeSorted_eq hvalid]
  rfl

theorem checkedAddCollection_eq (builder : Builder α) {collection : RangeCollection α}
    (h : collection.WellFormed) :
    builder.checkedAddCollection collection = .ok (builder.addCollection collection) := by
  rw [checkedAddCollection, h.checkedRanges_eq]
  rfl

end Builder

def RangeSet.checkedCopyOfRanges (ranges : List (Range α)) (label : Nat := 0) :
    Checked α (Except (Error α) (RangeSet α)) :=
  match (∅ : Builder α).addAll ranges with
  | (builder, none) => builder.checkedBuild label
  | (_, some error) => return .error error

theorem RangeSet.checkedCopyOfRanges_eq [Std.TransOrd α] [Std.LawfulEqOrd α]
    {ranges : List (Range α)} (hvalid : ∀ range ∈ ranges, range.Valid) (label : Nat) :
    checkedCopyOfRanges ranges label = .ok (copyOfRanges ranges label) := by
  have hadded := Builder.wellFormed_empty.addAll hvalid
  unfold checkedCopyOfRanges copyOfRanges
  generalize (∅ : Builder α).addAll ranges = outcome at hadded ⊢
  obtain ⟨builder, refused⟩ := outcome
  cases refused with
  | none => exact hadded.checkedBuild_eq label
  | some error => rfl

section Views

def RangeSet.checkedAsView (set : RangeSet α) (domain : DiscreteDomain α) :
    Checked α (Except (Error α) (DiscreteView α)) := do
  match ← set.checkedSpan with
  | .error _ => return .ok ⟨set, domain⟩
  | .ok span =>
    let span ← span.checkedCanonical domain
    if !span.hasLowerBound then return .error .unboundedBelow
    else if !span.hasUpperBound && domain.greatest?.isNone then return .error .unboundedAbove
    else return .ok ⟨set, domain⟩

def DiscreteView.checkedCanonicalSet (view : DiscreteView α) : Checked α (RangeSet α) := do
  let ranges ← view.set.checkedRanges
  RangeSet.checkedUnionOf (← ranges.mapM (·.checkedCanonical view.domain))

variable [Std.TransOrd α] [Std.LawfulEqOrd α] {set : RangeSet α} {domain : DiscreteDomain α}

theorem RangeSet.WellFormed.valid_of_span_eq_ok (h : set.WellFormed) {span : Range α}
    (hspan : set.span = .ok span) : span.Valid := by
  rcases h.span_cases with ⟨-, -, herror⟩ | ⟨span, -, hok, hproper, -⟩
  · rw [herror] at hspan
    cases hspan
  · rw [hok] at hspan
    cases hspan
    exact Range.valid_of_lt hproper

theorem RangeSet.WellFormed.checkedAsView_eq (h : set.WellFormed)
    (hdomain : domain.StepsOver Set.univ) (hleast : domain.least?.isSome = true) :
    set.checkedAsView domain = .ok (set.asView domain) := by
  have hlists : set.Lists set.ranges := h
  rw [checkedAsView, hlists.checkedSpan_eq, ok_bind, asView]
  cases hspan : set.span with
  | error error => rfl
  | ok span =>
      have hcanonical := (h.valid_of_span_eq_ok hspan).canonical hdomain hleast
      dsimp only
      rw [Range.checkedCanonical_eq hcanonical, ok_bind]
      split
      · rfl
      · split <;> rfl

theorem DiscreteView.checkedCanonicalSet_eq {view : DiscreteView α} (h : view.set.WellFormed)
    (hdomain : view.domain.StepsOver Set.univ) (hleast : view.domain.least?.isSome = true) :
    view.checkedCanonicalSet = .ok view.canonicalSet := by
  have hvalid : ∀ range ∈ view.set.ranges, (range.canonical view.domain).Valid := by
    intro range hrange
    exact (h.valid range hrange).canonical hdomain hleast
  have hranges : view.set.ranges.mapM (·.checkedCanonical view.domain) =
      .ok view.canonicalRanges := by
    rw [mapM_eq_ok_iff, DiscreteView.canonicalRanges, List.forall₂_map_left_iff,
      List.forall₂_same]
    exact fun range hrange => Range.checkedCanonical_eq (hvalid range hrange)
  rw [checkedCanonicalSet, h.checkedRanges_eq, ok_bind, hranges, ok_bind]
  exact RangeSet.checkedUnionOf_eq (List.forall_mem_map.mpr hvalid) 0

end Views

end RangeAlgebra
