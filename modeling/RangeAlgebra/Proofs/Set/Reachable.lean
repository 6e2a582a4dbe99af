import RangeAlgebra.Proofs.Index.Runs
import RangeAlgebra.Proofs.Set.Building
import RangeAlgebra.Proofs.Set.Restriction

/-!
The sets that can be made. They are the results of the constructors on valid ranges and of the
operations on sets made before, in any nesting, where the other operand of an operation may also be
an index that runs of calls have led to. All of them are well formed, which is the one fact that
everything else about them starts from.
-/

namespace RangeAlgebra

universe u

variable {α : Type u} [Ord α] [DecidableEq α]

/-- The builders that additions of valid ranges lead to. A refused addition may have added the
ranges before the one that was refused. -/
inductive Builder.Reachable : Builder α → Prop
  | empty : Reachable ∅
  | add {builder : Builder α} {range : Range α} (h : Reachable builder) (hvalid : range.Valid) :
      Reachable (builder.add range).1
  | addAll {builder : Builder α} {ranges : List (Range α)} (h : Reachable builder)
      (hvalid : ∀ range ∈ ranges, range.Valid) : Reachable (builder.addAll ranges).1
  | addCollection {builder : Builder α} {collection : RangeCollection α} (h : Reachable builder)
      (hvalid : ∀ range ∈ collection.ranges, range.Valid) :
      Reachable (builder.addCollection collection).1
  | combine {builder other : Builder α} (h : Reachable builder) (hother : Reachable other) :
      Reachable (builder.combine other)

/-- The sets that the constructors and operations make, with any labels, and the indexes that
they may be given. -/
inductive RangeCollection.Reachable : RangeCollection α → Prop
  | index {index : RangeIndex α} (h : index.Reachable) : Reachable (.ofIndex index)
  | empty : Reachable (.ofSet .empty)
  | all : Reachable (.ofSet .all)
  | ofRange {range : Range α} (hvalid : range.Valid) (label : Nat) :
      Reachable (.ofSet (.ofRange range label))
  | copyOf {collection : RangeCollection α} (h : Reachable collection) (label : Nat) :
      Reachable (.ofSet (.copyOf collection label))
  | copyOfRanges {ranges : List (Range α)} {set : RangeSet α} {label : Nat}
      (hvalid : ∀ range ∈ ranges, range.Valid)
      (hcopy : RangeSet.copyOfRanges ranges label = .ok set) : Reachable (.ofSet set)
  | unionOf {ranges : List (Range α)} (hvalid : ∀ range ∈ ranges, range.Valid) (label : Nat) :
      Reachable (.ofSet (.unionOf ranges label))
  | build {builder : Builder α} {set : RangeSet α} {label : Nat} (h : builder.Reachable)
      (hbuild : builder.build label = .ok set) : Reachable (.ofSet set)
  | ofJson [JsonElement α] {json : Json} {set : RangeSet α} {label : Nat}
      (hread : RangeSet.ofJson json label = .ok set) : Reachable (.ofSet set)
  | complement {set : RangeSet α} (h : Reachable (.ofSet set)) : Reachable (.ofSet set.complement)
  | restrict {set : RangeSet α} {range : Range α} (h : Reachable (.ofSet set))
      (hvalid : range.Valid) (label : Nat) : Reachable (.ofSet (set.restrict range label))
  | union {set : RangeSet α} {other : RangeCollection α} (h : Reachable (.ofSet set))
      (hother : Reachable other) (label : Nat) : Reachable (.ofSet (set.union other label))
  | intersection {set : RangeSet α} {other : RangeCollection α} (h : Reachable (.ofSet set))
      (hother : Reachable other) (label : Nat) : Reachable (.ofSet (set.intersection other label))
  | difference {set : RangeSet α} {other : RangeCollection α} (h : Reachable (.ofSet set))
      (hother : Reachable other) (label : Nat) : Reachable (.ofSet (set.difference other label))

def RangeSet.Reachable (set : RangeSet α) : Prop :=
  RangeCollection.Reachable (.ofSet set)

variable [Std.TransOrd α] [Std.LawfulEqOrd α]

theorem Builder.Reachable.wellFormed {builder : Builder α} (h : builder.Reachable) :
    builder.WellFormed := by
  induction h with
  | empty => exact wellFormed_empty
  | add h hvalid ih => exact ih.add hvalid
  | addAll h hvalid ih => exact ih.addAll hvalid
  | addCollection h hvalid ih => exact ih.addAll hvalid
  | combine h hother ih ihOther => exact ih.combine ihOther

/-- One case for each way to make a set; every operand is well formed by induction. -/
theorem RangeCollection.Reachable.wellFormed {collection : RangeCollection α}
    (h : collection.Reachable) : collection.WellFormed := by
  induction h with
  | index h => exact h.wellFormed
  | empty => exact RangeSet.Lists.empty.wellFormed
  | all => exact RangeSet.Lists.all.wellFormed
  | ofRange hvalid label => exact (RangeSet.lists_ofRange hvalid label).wellFormed
  | copyOf h label ih => exact (RangeSet.lists_copyOf ih label).wellFormed
  | copyOfRanges hvalid hcopy => exact RangeSet.wellFormed_copyOfRanges hvalid hcopy
  | unionOf hvalid label => exact (RangeSet.unionOf_spec hvalid label).1
  | build h hbuild => exact (h.wellFormed.build_spec hbuild).1
  | ofJson hread => exact RangeSet.wellFormed_ofJson hread
  | complement h ih => exact (RangeSet.Lists.complement ih).wellFormed
  | restrict h hvalid label ih => exact (RangeSet.Lists.restrict ih hvalid label).wellFormed
  | union h hother label ih ihOther => exact (RangeSet.union_spec ih ihOther label).1
  | intersection h hother label ih ihOther =>
      exact (RangeSet.intersection_spec ih ihOther label).1
  | difference h hother label ih ihOther => exact (RangeSet.difference_spec ih ihOther label).1

namespace RangeSet

theorem Reachable.wellFormed {set : RangeSet α} (h : set.Reachable) : set.WellFormed :=
  RangeCollection.Reachable.wellFormed h

/-- The ranges of a set are read off by position without a miss. Each is valid and holds a
position, and each ends strictly before the next one starts. The set without ranges and the set
of the single range of all positions are their own cases, so that no list gives either. -/
theorem ranges_canonical {set : RangeSet α} (h : set.Reachable) :
    set.ranges.length = set.rangeCount ∧
      (∀ i, set.listing.get? i = set.ranges[i]?) ∧
      (∀ range ∈ set.ranges, range.Valid ∧ range.lower < range.upper) ∧
      (set.ranges.Pairwise fun a b => a.upper < b.lower) ∧
      (set = .empty ↔ set.ranges = []) ∧ (set = .all ↔ set.ranges = [.all]) ∧
      ∀ list, set = .listed list → list.listing.toList ≠ [] ∧ list.listing.toList ≠ [.all] := by
  have hlists : set.Lists set.ranges := h.wellFormed
  have hcanonical := hlists.canonical
  refine ⟨hlists.rangeCount_eq.symm, ?_, ?_, hcanonical.disconnected, hlists.eq_empty_iff,
    hlists.eq_all_iff, ?_⟩
  · intro i
    rw [hlists.listing_eq, Listing.get?_ofList]
  · intro range hrange
    have hproper := hcanonical.lower_lt_upper range hrange
    exact ⟨Range.valid_of_lt hproper, hproper⟩
  · rintro list rfl
    cases hlists with
    | listed hlist => exact ⟨hlist.listable.ne_nil, hlist.listable.ne_all⟩

/-- The complement of a restriction of the complement of a restriction, which reads its ranges
through a window over stored gaps. -/
theorem ranges_canonical_nested :
    let parts : RangeSet Int :=
      .unionOf [⟨.below 1, .below 4⟩, ⟨.above 6, .above 9⟩, ⟨.below 12, .aboveAll⟩] 1
    let gaps := (parts.restrict ⟨.below 2, .below 14⟩ 2).complement
    let view := (gaps.restrict ⟨.below 3, .above 8⟩ 3).complement
    view.Reachable ∧ view.ranges.length = view.rangeCount ∧
      (view.ranges.Pairwise fun a b => a.upper < b.lower) ∧ (view = .empty ↔ view.ranges = []) := by
  intro parts gaps view
  have hparts : parts.Reachable := RangeCollection.Reachable.unionOf (by decide) 1
  have hgaps : gaps.Reachable := (hparts.restrict (by decide) 2).complement
  have hview : view.Reachable := (hgaps.restrict (by decide) 3).complement
  obtain ⟨hcount, -, -, hdisconnected, hempty, -⟩ := ranges_canonical hview
  exact ⟨hview, hcount, hdisconnected, hempty⟩

end RangeSet

end RangeAlgebra
