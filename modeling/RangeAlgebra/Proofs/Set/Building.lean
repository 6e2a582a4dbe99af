import Mathlib.Data.List.Forall2
import RangeAlgebra.Json.Codec
import RangeAlgebra.Proofs.Coverage.Order
import RangeAlgebra.Proofs.Set.Algebra

/-!
What a builder and a decoder make. The ranges of a builder are valid and not empty, whatever was
refused on the way. Sorted by their starts they are merged from the left: the span that is still
open starts before all ranges that are left, so a range that is not connected to it closes it for
good, and the sequence of closed spans is canonical. A decoder reads only valid ranges and hands
them to a builder.
-/

namespace RangeAlgebra

universe u

variable {α : Type u} [Ord α]

namespace Range

theorem lower_le_of_isLE [Std.TransOrd α] {a b : Range α} (h : (compare a b).isLE = true) :
    a.lower ≤ b.lower := by
  change ((compare a.lower b.lower).then (compare a.upper b.upper)).isLE = true at h
  change (compare a.lower b.lower).isLE = true
  cases hlower : compare a.lower b.lower <;> simp_all

theorem sort_perm (ranges : List (Range α)) : (sort ranges).Perm ranges :=
  List.mergeSort_perm ranges _

theorem mem_sort_iff (ranges : List (Range α)) (range : Range α) :
    range ∈ sort ranges ↔ range ∈ ranges :=
  (sort_perm ranges).mem_iff

theorem sort_sorted [Std.TransOrd α] (ranges : List (Range α)) :
    (sort ranges).Pairwise fun a b => (compare a b).isLE = true := by
  have htotal : ∀ a b : Range α, ((compare a b).isLE || (compare b a).isLE) = true := by
    intro a b
    rw [Std.OrientedOrd.eq_swap]
    cases compare b a <;> rfl
  exact List.pairwise_mergeSort (fun _ _ _ => Std.TransCmp.isLE_trans) htotal ranges

theorem sort_ascending [Std.TransOrd α] (ranges : List (Range α)) :
    (sort ranges).Pairwise fun a b => a.lower ≤ b.lower :=
  (sort_sorted ranges).imp lower_le_of_isLE

/-- There is only one way to sort ranges, for ranges that compare equal are equal. -/
theorem eq_sort_of_perm [Std.TransOrd α] [Std.LawfulEqOrd α] {sorted ranges : List (Range α)}
    (hperm : sorted.Perm ranges)
    (hsorted : sorted.Pairwise fun a b => (compare a b).isLE = true) : sorted = sort ranges := by
  apply List.Perm.eq_of_pairwise ?_ hsorted (sort_sorted ranges)
  · exact hperm.trans (sort_perm ranges).symm
  · intro a b _ _ hforth hback
    exact Std.LawfulEqOrd.eq_of_compare (Std.OrientedCmp.isLE_antisymm hforth hback)

/-- Ranges that hold a position each, in the order of their starts. -/
structure IsAscending (ranges : List (Range α)) : Prop where
  lower_lt_upper : ∀ range ∈ ranges, range.lower < range.upper
  ordered : ranges.Pairwise fun a b => a.lower ≤ b.lower

theorem isAscending_cons (range : Range α) (rest : List (Range α)) :
    IsAscending (range :: rest) ↔
      range.lower < range.upper ∧ (∀ other ∈ rest, range.lower ≤ other.lower) ∧
        IsAscending rest := by
  constructor
  · rintro ⟨hproper, hordered⟩
    obtain ⟨hfirst, hrest⟩ := List.pairwise_cons.mp hordered
    exact ⟨hproper range (by simp), hfirst, fun other hother => hproper other (by simp [hother]),
      hrest⟩
  · rintro ⟨hrange, hfirst, hrest⟩
    refine ⟨?_, List.pairwise_cons.mpr ⟨hfirst, hrest.ordered⟩⟩
    intro other hother
    rcases List.mem_cons.mp hother with rfl | hmember
    · exact hrange
    · exact hrest.lower_lt_upper other hmember

variable [Std.TransOrd α] [Std.LawfulEqOrd α]

theorem IsAscending.lower_le {range : Range α} {rest : List (Range α)}
    (h : IsAscending (range :: rest)) : ∀ other ∈ range :: rest, range.lower ≤ other.lower := by
  intro other hother
  rcases List.mem_cons.mp hother with rfl | hlater
  · exact Std.le_refl _
  · exact (List.pairwise_cons.mp h.ordered).1 other hlater

/-- Ranges stay ascending when the first two are joined: the span starts where the first one
does. -/
theorem IsAscending.span {current range : Range α} {rest : List (Range α)}
    (h : IsAscending (current :: range :: rest)) :
    IsAscending (current.span range :: rest) ∧ (current.span range).lower = current.lower := by
  obtain ⟨hcurrent, hfirst, htail⟩ := (isAscending_cons current (range :: rest)).mp h
  obtain ⟨hrange, -, hrest⟩ := (isAscending_cons range rest).mp htail
  have hstart := hfirst range (by simp)
  have hlower : (current.span range).lower = current.lower := by
    rw [lower_span]
    grind
  refine ⟨(isAscending_cons _ rest).mpr ⟨?_, ?_, hrest⟩, hlower⟩
  · rw [hlower, upper_span]
    grind
  · intro other hother
    rw [hlower]
    exact hfirst other (by simp [hother])

end Range

namespace Builder

/-- The ranges that a builder holds are neither inverted nor empty. -/
def WellFormed (builder : Builder α) : Prop :=
  ∀ range ∈ builder.added, range.lower < range.upper

theorem wellFormed_empty : (∅ : Builder α).WellFormed := by
  intro range hrange
  exact absurd hrange (Array.not_mem_empty range)

theorem WellFormed.combine {builder other : Builder α} (h : builder.WellFormed)
    (hother : other.WellFormed) : (builder.combine other).WellFormed := by
  intro range hrange
  rcases Array.mem_append.mp hrange with hmember | hmember
  · exact h range hmember
  · exact hother range hmember

variable [Std.TransOrd α] [Std.LawfulEqOrd α] [DecidableEq α]

/-- What the scan does with the next range. It is refused if it starts before the open span ends,
for the two then share its start. It is joined to the span if it starts right where that ends, and
closes the span if it starts later. -/
theorem mergeFrom_cons {current range : Range α} {rest : List (Range α)}
    (h : Range.IsAscending (current :: range :: rest)) :
    ((∃ cut, current.Covers cut ∧ range.Covers cut) ∧
        mergeFrom current (range :: rest) = .error (.overlapping current range)) ∨
      (current.upper = range.lower ∧ current.isConnected range = true ∧
        mergeFrom current (range :: rest) = mergeFrom (current.span range) rest) ∨
      (current.upper < range.lower ∧
        mergeFrom current (range :: rest) = (mergeFrom range rest).map (current :: ·)) := by
  obtain ⟨hcurrent, hfirst, htail⟩ := (Range.isAscending_cons current (range :: rest)).mp h
  have hrange := htail.lower_lt_upper range (by simp)
  have hstart := hfirst range (by simp)
  have hconnected : current.isConnected range = true ↔ range.lower ≤ current.upper := by
    rw [Range.isConnected_iff,
      and_iff_right (Std.le_trans hstart (Std.le_of_lt hrange))]
  have hoverlaps := Range.overlaps_iff (Range.valid_of_lt hcurrent) (Range.valid_of_lt hrange)
  rw [mergeFrom]
  rcases Std.lt_trichotomy range.lower current.upper with hbefore | htouch | hbeyond
  · left
    have hshared : ∃ cut, current.Covers cut ∧ range.Covers cut :=
      ⟨range.lower, ⟨hstart, hbefore⟩, Range.covers_lower hrange⟩
    rw [if_pos (hconnected.mpr (Std.le_of_lt hbefore)), if_pos (hoverlaps.mpr hshared)]
    exact ⟨hshared, rfl⟩
  · right; left
    have hapart := Range.apart_of_upper_le (Std.le_of_eq htouch.symm)
    have hnone := (Range.not_overlaps_iff (Range.valid_of_lt hcurrent)
      (Range.valid_of_lt hrange)).mpr hapart
    have htouching := hconnected.mpr (Std.le_of_eq htouch)
    rw [if_pos htouching, if_neg hnone]
    exact ⟨htouch.symm, htouching, rfl⟩
  · right; right
    rw [if_neg (mt hconnected.mp (Std.not_le.mpr hbeyond))]
    exact ⟨hbeyond, rfl⟩

/-- The invariant of the scan: what is merged starts with the open span, and nothing that is left
starts before it. -/
theorem mergeFrom_spec {current : Range α} {rest merged : List (Range α)}
    (h : Range.IsAscending (current :: rest)) (hmerge : mergeFrom current rest = .ok merged) :
    Range.IsCanonical merged ∧ (∀ range ∈ merged, current.lower ≤ range.lower) ∧
      ∀ cut, Range.Covered merged cut ↔ Range.Covered (current :: rest) cut := by
  induction rest generalizing current merged with
  | nil =>
      rw [mergeFrom] at hmerge
      cases hmerge
      have hproper := h.lower_lt_upper current (by simp)
      refine ⟨Range.isCanonical_singleton hproper, ?_, fun cut => Iff.rfl⟩
      intro range hrange
      rw [List.mem_singleton.mp hrange]
      exact Std.le_refl _
  | cons range rest ih =>
      rcases mergeFrom_cons h with ⟨-, hstep⟩ | ⟨-, hconnected, hstep⟩ | ⟨hgap, hstep⟩
      · rw [hstep] at hmerge
        cases hmerge
      · rw [hstep] at hmerge
        obtain ⟨hspan, hlower⟩ := h.span
        obtain ⟨hcanonical, hfrom, hcovered⟩ := ih hspan hmerge
        refine ⟨hcanonical, fun other hother => hlower ▸ hfrom other hother, ?_⟩
        intro cut
        rw [hcovered, Range.covered_cons, Range.covered_cons, Range.covered_cons,
          Range.covers_span_iff hconnected, or_assoc]
      · rw [hstep] at hmerge
        cases hclosed : mergeFrom range rest with
        | error error =>
            rw [hclosed] at hmerge
            cases hmerge
        | ok tail =>
            rw [hclosed] at hmerge
            cases hmerge
            obtain ⟨hcurrent, hfirst, htail⟩ :=
              (Range.isAscending_cons current (range :: rest)).mp h
            obtain ⟨hcanonical, hfrom, hcovered⟩ := ih htail hclosed
            refine ⟨?_, ?_, ?_⟩
            · rw [Range.isCanonical_cons]
              refine ⟨hcurrent, ?_, hcanonical⟩
              intro other hother
              exact Std.lt_of_lt_of_le hgap (hfrom other hother)
            · intro other hother
              rcases List.mem_cons.mp hother with rfl | hmember
              · exact Std.le_refl _
              · exact Std.le_trans (hfirst range (by simp)) (hfrom other hmember)
            · intro cut
              rw [Range.covered_cons, Range.covered_cons, hcovered]

theorem mergeSorted_spec {ranges merged : List (Range α)} (h : Range.IsAscending ranges)
    (hmerge : mergeSorted ranges = .ok merged) :
    Range.IsCanonical merged ∧
      ∀ cut, Range.Covered merged cut ↔ Range.Covered ranges cut := by
  cases ranges with
  | nil =>
      cases hmerge
      exact ⟨Range.isCanonical_nil, fun cut => Iff.rfl⟩
  | cons range rest =>
      obtain ⟨hcanonical, -, hcovered⟩ := mergeFrom_spec h hmerge
      exact ⟨hcanonical, hcovered⟩

theorem WellFormed.add {builder : Builder α} (h : builder.WellFormed) {range : Range α}
    (hvalid : range.Valid) : (builder.add range).1.WellFormed := by
  unfold Builder.add
  split
  · exact h
  · rename_i hempty
    intro other hother
    rcases Array.mem_push.mp hother with hmember | rfl
    · exact h other hmember
    · exact hvalid.lt_of_not_isEmpty hempty

/-- Also the ranges kept before a refused one are neither inverted nor empty. -/
theorem WellFormed.addAll {builder : Builder α} (h : builder.WellFormed)
    {ranges : List (Range α)} (hvalid : ∀ range ∈ ranges, range.Valid) :
    (builder.addAll ranges).1.WellFormed :=
  changeEach_keeps (fun range hrange _ hkept => hkept.add (hvalid range hrange)) h

omit [Std.LawfulEqOrd α] [DecidableEq α] in
theorem WellFormed.sort_isAscending {builder : Builder α} (h : builder.WellFormed) :
    Range.IsAscending (Range.sort builder.added.toList) := by
  refine ⟨?_, Range.sort_ascending _⟩
  intro range hrange
  rw [Range.mem_sort_iff, Array.mem_toList_iff] at hrange
  exact h range hrange

/-- What a builder makes covers the positions of its ranges. -/
theorem WellFormed.build_spec {builder : Builder α} (h : builder.WellFormed) {label : Nat}
    {set : RangeSet α} (hbuild : builder.build label = .ok set) :
    set.WellFormed ∧ ∀ cut, set.Covers cut ↔ Range.Covered builder.added.toList cut := by
  unfold Builder.build at hbuild
  cases hmerged : builder.merged with
  | error error =>
      rw [hmerged] at hbuild
      cases hbuild
  | ok merged =>
      rw [hmerged] at hbuild
      cases hbuild
      obtain ⟨hcanonical, hcovered⟩ := mergeSorted_spec h.sort_isAscending hmerged
      have hlists := RangeSet.lists_ofCanonical hcanonical label
      refine ⟨hlists.wellFormed, fun cut => ?_⟩
      rw [hlists.covers_iff, hcovered]
      simp only [Range.Covered, Range.mem_sort_iff]

end Builder

namespace RangeSet

variable [Std.TransOrd α] [Std.LawfulEqOrd α] [DecidableEq α]

theorem wellFormed_copyOfRanges {ranges : List (Range α)}
    (hvalid : ∀ range ∈ ranges, range.Valid) {label : Nat} {set : RangeSet α}
    (hcopy : copyOfRanges ranges label = .ok set) : set.WellFormed := by
  have hadded := Builder.wellFormed_empty.addAll hvalid
  unfold copyOfRanges at hcopy
  split at hcopy
  · rename_i builder hbuilder
    rw [hbuilder] at hadded
    exact (hadded.build_spec hcopy).1
  · cases hcopy

end RangeSet

section Decoding

theorem eq_ok_of_mapError {ε δ β : Type u} {f : ε → δ} {result : Except ε β} {value : β}
    (h : result.mapError f = .ok value) : result = .ok value := by
  cases result with
  | error error => cases h
  | ok found =>
      cases h
      rfl

/-- A list of items is read if each of them is. -/
theorem mapM_eq_ok_iff {ε β : Type u} {ι : Type} {read : ι → Except ε β} {items : List ι}
    {values : List β} : items.mapM read = .ok values ↔
      List.Forall₂ (fun value item => read item = .ok value) values items := by
  constructor
  · intro hvalues
    induction items generalizing values with
    | nil =>
        cases hvalues
        exact .nil
    | cons item rest ih =>
        rw [List.mapM_cons] at hvalues
        cases hfirst : read item with
        | error error =>
            rw [hfirst] at hvalues
            cases hvalues
        | ok first =>
            rw [hfirst] at hvalues
            cases hrest : rest.mapM read with
            | error error =>
                rw [hrest] at hvalues
                cases hvalues
            | ok others =>
                rw [hrest] at hvalues
                cases hvalues
                exact .cons hfirst (ih hrest)
  · intro hitems
    induction hitems with
    | nil => rfl
    | cons hitem hrest ih =>
        rw [List.mapM_cons, hitem, ih]
        rfl

variable [DecidableEq α]

variable [JsonElement α]

theorem Range.exists_ofCuts_of_ofJson {json : Json} {range : Range α}
    (hjson : Range.ofJson json = .ok range) :
    ∃ lower upper, cutsOfJson? json = some (lower, upper) ∧ ofCuts lower upper = .ok range := by
  unfold Range.ofJson at hjson
  split at hjson
  · cases hjson
  · rename_i lower upper hcuts
    exact ⟨lower, upper, hcuts, eq_ok_of_mapError hjson⟩

/-- What is read as a set is an array of ranges, which are copied into the set. -/
theorem RangeSet.exists_copyOfRanges_of_ofJson {json : Json} {label : Nat} {set : RangeSet α}
    (hread : RangeSet.ofJson json label = .ok set) :
    ∃ items ranges, json = .array items ∧
      List.Forall₂ (fun range item => Range.ofJson item = .ok range) ranges items ∧
      copyOfRanges ranges label = .ok set := by
  unfold RangeSet.ofJson at hread
  split at hread
  · rename_i items
    cases hranges : items.mapM (Range.ofJson : Json → Except (DecodeFailure α) (Range α)) with
    | error failure =>
        rw [hranges] at hread
        cases hread
    | ok ranges =>
        rw [hranges] at hread
        exact ⟨items, ranges, rfl, mapM_eq_ok_iff.mp hranges, eq_ok_of_mapError hread⟩
  · cases hread

variable [Std.TransOrd α]

theorem Range.valid_of_ofJson {json : Json} {range : Range α}
    (hjson : Range.ofJson json = .ok range) : range.Valid := by
  obtain ⟨lower, upper, -, hcuts⟩ := Range.exists_ofCuts_of_ofJson hjson
  exact ((Range.ofCuts_eq_ok_iff lower upper range).mp hcuts).2

variable [Std.LawfulEqOrd α]

theorem RangeSet.wellFormed_ofJson {json : Json} {label : Nat} {set : RangeSet α}
    (hread : RangeSet.ofJson json label = .ok set) : set.WellFormed := by
  obtain ⟨items, ranges, -, hitems, hcopy⟩ := RangeSet.exists_copyOfRanges_of_ofJson hread
  have hvalid : ∀ range ∈ ranges, range.Valid :=
    ((List.forall₂_and_left ranges items).mp <|
      hitems.imp fun _ _ hitem => ⟨Range.valid_of_ofJson hitem, hitem⟩).1
  exact wellFormed_copyOfRanges hvalid hcopy

end Decoding

end RangeAlgebra
