import RangeAlgebra.Proofs.Index.Changes
import RangeAlgebra.Proofs.Listing.Gaps
import RangeAlgebra.Proofs.Listing.Lookup
import RangeAlgebra.Proofs.Listing.Window
import RangeAlgebra.RangeSet.Basic

/-!
Which sequence a set lists. A list is either direct, stored or a window over a stored sequence,
or the complement of a direct one; the complement of a complement is the list itself, so views do
not stack any higher. The relation says at once what the ranges are and that they are canonical,
and every query of a set is answered from them.
-/

namespace RangeAlgebra

universe u

variable {α : Type u} [Ord α]

namespace Range

/-- A canonical sequence that is neither without ranges nor the single range of all positions. -/
structure Listable (ranges : List (Range α)) : Prop where
  canonical : IsCanonical ranges
  ne_nil : ranges ≠ []
  ne_all : ranges ≠ [.all]

theorem isCanonical_all : IsCanonical [(all : Range α)] :=
  isCanonical_singleton rfl

variable [Std.TransOrd α] [Std.LawfulEqOrd α]

theorem covered_all_iff (cut : Cut α) : Covered [.all] cut ↔ cut ≠ .aboveAll := by
  rw [covered_cons, or_iff_left (not_covered_nil cut), covers_all_iff]

/-- Only the sequence of that single range covers all positions. -/
theorem IsCanonical.eq_all {ranges : List (Range α)} (h : IsCanonical ranges)
    (hcovered : ∀ cut, cut ≠ .aboveAll → Covered ranges cut) : ranges = [.all] := by
  apply h.eq_of_covered_iff isCanonical_all
  intro cut
  rw [covered_all_iff]
  exact ⟨fun hcut heq => not_covered_aboveAll ranges (heq ▸ hcut), hcovered cut⟩

variable [DecidableEq α]

omit [Std.TransOrd α] [Std.LawfulEqOrd α] in
theorem gapsFrom_nil : gapsFrom .belowAll [] = [(all : Range α)] := by
  simp [gapsFrom, all]

theorem gapsFrom_all : gapsFrom .belowAll [(all : Range α)] = [] := by
  rw [← gapsFrom_nil, isCanonical_nil.gaps_gaps]

theorem Listable.gaps {ranges : List (Range α)} (h : Listable ranges) :
    Listable (gapsFrom .belowAll ranges) := by
  have htwice := h.canonical.gaps_gaps
  refine ⟨h.canonical.gaps, ?_, ?_⟩
  · intro hnil
    rw [hnil, gapsFrom_nil] at htwice
    exact h.ne_all htwice.symm
  · intro hall
    rw [hall, gapsFrom_all] at htwice
    exact h.ne_nil htwice.symm

end Range

variable [DecidableEq α]

namespace RangeList

/-- A list that is not a complement: it stores its ranges, or shows what a restriction cuts out of
a stored sequence. -/
inductive Direct : RangeList α → List (Range α) → Prop
  | stored {label : Nat} {ranges : List (Range α)} (hranges : Range.IsCanonical ranges) :
      Direct (.stored label ranges.toArray) ranges
  | window {label storedLabel start count : Nat} {ranges : List (Range α)}
      {restriction : Range α} (hranges : Range.IsCanonical ranges)
      (hproper : restriction.lower < restriction.upper)
      (hstart : start = Range.endedBefore restriction ranges)
      (hstop : start + count = Range.startedBefore restriction ranges) :
      Direct (.window label (.stored storedLabel ranges.toArray) start count restriction)
        (Range.within restriction ranges)

/-- The list of a set and its ranges. -/
inductive Lists : RangeList α → List (Range α) → Prop
  | direct {list : RangeList α} {ranges : List (Range α)} (h : Direct list ranges)
      (hranges : Range.Listable ranges) : Lists list ranges
  | complement {list : RangeList α} {ranges : List (Range α)} (h : Direct list ranges)
      (hranges : Range.Listable ranges) :
      Lists (.complement list) (Range.gapsFrom .belowAll ranges)

variable [Std.TransOrd α] [Std.LawfulEqOrd α]

theorem Direct.listing_eq {list : RangeList α} {ranges : List (Range α)}
    (h : Direct list ranges) : list.listing = .ofList ranges := by
  cases h with
  | stored hranges => exact Listing.ofArray_eq _
  | window hranges hproper hstart hstop =>
      rw [listing, listing, Listing.ofArray_eq]
      exact Listing.window_ofList hranges hproper hstart hstop

theorem Lists.listing_eq {list : RangeList α} {ranges : List (Range α)}
    (h : Lists list ranges) : list.listing = .ofList ranges := by
  cases h with
  | direct h hranges => exact h.listing_eq
  | complement h hranges =>
      rw [listing, h.listing_eq]
      exact Listing.gaps_ofList hranges.canonical hranges.ne_nil

theorem Lists.listable {list : RangeList α} {ranges : List (Range α)} (h : Lists list ranges) :
    Range.Listable ranges := by
  cases h with
  | direct h hranges => exact hranges
  | complement h hranges => exact hranges.gaps

theorem Lists.flip {list : RangeList α} {ranges : List (Range α)} (h : Lists list ranges) :
    Lists list.flip (Range.gapsFrom .belowAll ranges) := by
  cases h with
  | direct h hranges =>
      cases h with
      | stored hstored => exact .complement (.stored hstored) hranges
      | window hstored hproper hstart hstop =>
          exact .complement (.window hstored hproper hstart hstop) hranges
  | complement h hranges =>
      rw [hranges.canonical.gaps_gaps]
      exact .direct h hranges

end RangeList

namespace RangeSet

/-- The sequence of canonical ranges that a set gives. -/
inductive Lists : RangeSet α → List (Range α) → Prop
  | empty : Lists .empty []
  | all : Lists .all [.all]
  | listed {list : RangeList α} {ranges : List (Range α)} (h : list.Lists ranges) :
      Lists (.listed list) ranges

/-- The set is in one of the forms of the relation, so its ranges are canonical. -/
def WellFormed (set : RangeSet α) : Prop :=
  set.Lists set.ranges

omit [Ord α] in
theorem eq_of_sameInstance {a b : RangeSet α} (h : a.sameInstance b = true) : a = b := by
  cases a <;> cases b <;> simp_all [sameInstance]

/-- Sets are equal when they give the same ranges; being the same instance is a shortcut. -/
theorem beq_iff (a b : RangeSet α) : (a == b) = true ↔ a.ranges = b.ranges := by
  change (a.sameInstance b || a.ranges == b.ranges) = true ↔ a.ranges = b.ranges
  rw [Bool.or_eq_true, beq_iff_eq, or_iff_right_iff_imp]
  intro hsame
  rw [eq_of_sameInstance hsame]

variable [Std.TransOrd α] [Std.LawfulEqOrd α] {set : RangeSet α} {ranges : List (Range α)}

theorem Lists.listing_eq (h : set.Lists ranges) : set.listing = .ofList ranges := by
  cases h with
  | empty => exact Listing.ofArray_eq #[]
  | all => exact Listing.ofArray_eq #[.all]
  | listed h => exact h.listing_eq

theorem Lists.ranges_eq (h : set.Lists ranges) : set.ranges = ranges := by
  rw [RangeSet.ranges, h.listing_eq, Listing.toList_ofList]

theorem Lists.wellFormed (h : set.Lists ranges) : set.WellFormed := by
  rw [WellFormed, h.ranges_eq]
  exact h

theorem Lists.rangeCount_eq (h : set.Lists ranges) : set.rangeCount = ranges.length := by
  rw [rangeCount, h.listing_eq, Listing.length_ofList]

theorem Lists.canonical (h : set.Lists ranges) : Range.IsCanonical ranges := by
  cases h with
  | empty => exact Range.isCanonical_nil
  | all => exact Range.isCanonical_all
  | listed h => exact h.listable.canonical

theorem WellFormed.canonical (h : set.WellFormed) : Range.IsCanonical set.ranges :=
  Lists.canonical h

theorem WellFormed.valid (h : set.WellFormed) : ∀ range ∈ set.ranges, range.Valid :=
  h.canonical.valid

theorem Lists.eq_empty_iff (h : set.Lists ranges) : set = .empty ↔ ranges = [] := by
  cases h with
  | empty => exact iff_of_true rfl rfl
  | all => exact iff_of_false (by simp) (by simp)
  | listed h => exact iff_of_false (by simp) h.listable.ne_nil

theorem Lists.isEmpty_iff (h : set.Lists ranges) : set.isEmpty = true ↔ ranges = [] := by
  rw [← h.eq_empty_iff]
  cases set <;> simp [isEmpty]

theorem Lists.eq_all_iff (h : set.Lists ranges) : set = .all ↔ ranges = [.all] := by
  cases h with
  | empty => exact iff_of_false (by simp) (by simp)
  | all => exact iff_of_true rfl rfl
  | listed h => exact iff_of_false (by simp) h.listable.ne_all

theorem Lists.complement (h : set.Lists ranges) :
    set.complement.Lists (Range.gapsFrom .belowAll ranges) := by
  cases h with
  | empty =>
      rw [Range.gapsFrom_nil]
      exact .all
  | all =>
      rw [Range.gapsFrom_all]
      exact .empty
  | listed h => exact .listed h.flip

theorem Lists.encloses_iff (h : set.Lists ranges) {inner : Range α} (hvalid : inner.Valid) :
    set.encloses inner = true ↔ ∃ range ∈ ranges, range.encloses inner = true := by
  cases h with
  | empty => simp [encloses]
  | all =>
      have hall : Range.all.encloses inner = true := (Range.encloses_iff _ _).mpr
        ⟨Cut.belowAll_le inner.lower, Cut.le_aboveAll inner.upper⟩
      simp [encloses, hall]
  | listed h =>
      rw [encloses, h.listing_eq]
      exact Listing.encloses_ofList h.listable.canonical hvalid.1

theorem Lists.intersects_iff (h : set.Lists ranges) {range : Range α} (hvalid : range.Valid) :
    set.intersects range = true ↔ ∃ other ∈ ranges, other.overlaps range = true := by
  cases h with
  | empty => simp [intersects]
  | all =>
      simp only [intersects, List.mem_singleton, exists_eq_left,
        Range.overlaps_iff Range.valid_all hvalid, Range.covers_all_iff, Bool.not_eq_true',
        ← Bool.not_eq_true]
      constructor
      · intro hnonempty
        have hcovers := Range.covers_lower (hvalid.lt_of_not_isEmpty hnonempty)
        exact ⟨range.lower, hvalid.2.1, hcovers⟩
      · rintro ⟨cut, -, hcut⟩
        exact Range.not_isEmpty_of_covers hcut
  | listed h =>
      rw [intersects, h.listing_eq]
      exact Listing.intersects_ofList h.listable.canonical hvalid

theorem Lists.span_eq_error (h : set.Lists []) : set.span = .error .emptySpan := by
  rw [span, h.listing_eq]
  rfl

theorem Lists.span_eq_ok (h : set.Lists ranges) {first last : Range α}
    (hfirst : ranges.head? = some first) (hlast : ranges.getLast? = some last) :
    set.span = .ok ⟨first.lower, last.upper⟩ := by
  rw [span, h.listing_eq, Listing.span?_ofList hfirst hlast]
  rfl

/-- A set without ranges has no span. That of any other set reaches from the start of the first
range to the end of the last one and holds a position. -/
theorem WellFormed.span_cases (h : set.WellFormed) :
    (set.ranges = [] ∧ set.isEmpty = true ∧ set.span = .error .emptySpan) ∨
      ∃ span, set.isEmpty = false ∧ set.span = .ok span ∧ span.lower < span.upper ∧
        ∃ first last, set.ranges.head? = some first ∧ set.ranges.getLast? = some last ∧
          span = ⟨first.lower, last.upper⟩ := by
  have hlists : set.Lists set.ranges := h
  by_cases hnil : set.ranges = []
  · have hempty := hlists.isEmpty_iff.mpr hnil
    rw [hnil] at hlists
    exact Or.inl ⟨hnil, hempty, hlists.span_eq_error⟩
  · have hempty := Bool.eq_false_iff.mpr fun hempty => hnil (hlists.isEmpty_iff.mp hempty)
    have hfirst := List.head?_eq_some_head hnil
    have hlast := List.getLast?_eq_some_getLast hnil
    have hmem := List.mem_of_head? hfirst
    have hproper := h.canonical.lower_lt_upper _ hmem
    have hend := h.canonical.upper_le_getLast hlast _ hmem
    exact Or.inr ⟨_, hempty, hlists.span_eq_ok hfirst hlast, Std.lt_of_lt_of_le hproper hend,
      _, _, hfirst, hlast, rfl⟩

theorem Lists.rangeContaining?_eq_some_iff (h : set.Lists ranges) (value : α) (range : Range α) :
    set.rangeContaining? value = some range ↔
      range ∈ ranges ∧ range.contains value = true := by
  cases h with
  | empty => simp [rangeContaining?]
  | all =>
      have hall : (Range.all : Range α).contains value = true := rfl
      simp only [rangeContaining?, Option.some.injEq, List.mem_singleton]
      constructor
      · rintro rfl
        exact ⟨rfl, hall⟩
      · rintro ⟨rfl, -⟩
        rfl
  | listed h =>
      rw [rangeContaining?, h.listing_eq]
      exact Listing.rangeContaining?_ofList h.listable.canonical value range

theorem Lists.contains_iff (h : set.Lists ranges) (value : α) :
    set.contains value = true ↔ Range.Covered ranges (.below value) := by
  rw [contains, Option.isSome_iff_exists]
  apply exists_congr
  intro range
  rw [h.rangeContaining?_eq_some_iff, Range.contains_iff]

theorem Lists.covers_iff (h : set.Lists ranges) (cut : Cut α) :
    set.Covers cut ↔ Range.Covered ranges cut := by
  rw [Covers, h.ranges_eq]
  exact Iff.rfl

omit [Std.TransOrd α] [Std.LawfulEqOrd α] in
/-- A set made of a canonical sequence gives that sequence. -/
theorem lists_ofCanonical (h : Range.IsCanonical ranges) (label : Nat) :
    (ofCanonical ranges label).Lists ranges := by
  rw [ofCanonical]
  by_cases hnil : ranges = []
  · subst hnil
    exact .empty
  · rw [if_neg (by simpa using hnil)]
    by_cases hall : ranges = [.all]
    · rw [if_pos hall, hall]
      exact .all
    · rw [if_neg hall]
      exact .listed (.direct (.stored h) ⟨h, hnil, hall⟩)

omit [Ord α] [Std.TransOrd α] [Std.LawfulEqOrd α] in
/-- A set made of a sequence stores it. -/
theorem isPartialView_ofCanonical (ranges : List (Range α)) (label : Nat) :
    (ofCanonical ranges label).isPartialView = false := by
  unfold ofCanonical
  split
  · rfl
  · split <;> rfl

theorem lists_ofRange {range : Range α} (hvalid : range.Valid) (label : Nat) :
    (ofRange range label).Lists (if range.isEmpty then [] else [range]) := by
  rw [ofRange]
  by_cases hempty : range.isEmpty = true
  · rw [if_pos hempty, if_pos hempty]
    exact .empty
  · have hcanonical := Range.isCanonical_singleton (hvalid.lt_of_not_isEmpty hempty)
    rw [if_neg hempty, if_neg hempty]
    by_cases hall : range = .all
    · subst hall
      rw [if_pos (by simp [Range.isAll])]
      exact .all
    · rw [if_neg (by simpa [Range.isAll] using hall)]
      exact .listed (.direct (.stored hcanonical) ⟨hcanonical, by simp, by simpa using hall⟩)

theorem covers_ofRange_iff {range : Range α} (hvalid : range.Valid) (label : Nat) (cut : Cut α) :
    (ofRange range label).Covers cut ↔ range.Covers cut := by
  rw [(lists_ofRange hvalid label).covers_iff]
  by_cases hempty : range.isEmpty = true
  · have hnone : ¬ range.Covers cut := fun hcut => Range.not_isEmpty_of_covers hcut hempty
    rw [if_pos hempty]
    exact iff_of_false (Range.not_covered_nil cut) hnone
  · rw [if_neg hempty, Range.covered_cons, or_iff_left (Range.not_covered_nil cut)]

/-- Sets that cover the same positions are equal. -/
theorem beq_of_covers_iff {a b : RangeSet α} (ha : a.WellFormed) (hb : b.WellFormed)
    (hcovers : ∀ cut, a.Covers cut ↔ b.Covers cut) : (a == b) = true := by
  rw [beq_iff]
  exact ha.canonical.eq_of_covered_iff hb.canonical hcovers

/-- Two ways of making a set give equal sets if the same positions are promised of both. -/
theorem beq_of_spec {a b : RangeSet α} {positions : Cut α → Prop}
    (ha : a.WellFormed ∧ ∀ cut, a.Covers cut ↔ positions cut)
    (hb : b.WellFormed ∧ ∀ cut, b.Covers cut ↔ positions cut) : (a == b) = true :=
  beq_of_covers_iff ha.1 hb.1 fun cut => (ha.2 cut).trans (hb.2 cut).symm

end RangeSet

end RangeAlgebra
