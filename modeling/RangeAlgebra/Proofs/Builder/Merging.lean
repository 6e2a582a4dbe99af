import Mathlib.Data.List.Chain
import Mathlib.Data.List.Perm.Subperm
import RangeAlgebra.Proofs.Set.Building

/-!
Which families of ranges a builder accepts. The scan compares a range with the open span alone. But
this span covers what a group of touching ranges covers, and what was closed before ends before the
span starts, so a range is refused exactly when it shares a position with some range before it. The
refusal names the span of such a group, all of whose ranges were given.
-/

namespace RangeAlgebra

universe u

variable {α : Type u} [Ord α]

section Results

variable {ε β γ : Type u}

private theorem exists_map_eq_ok_iff (f : β → γ) (result : Except ε β) :
    (∃ value, result.map f = .ok value) ↔ ∃ value, result = .ok value := by
  cases result with
  | error error => simp [Except.map]
  | ok value => simp [Except.map]

private theorem map_eq_error_iff (f : β → γ) (result : Except ε β) (error : ε) :
    result.map f = .error error ↔ result = .error error := by
  cases result with
  | error other => simp [Except.map]
  | ok value => simp [Except.map]

end Results

namespace Range

/-- The smallest range that encloses all ranges of a group. -/
def spanOf? : List (Range α) → Option (Range α)
  | [] => none
  | first :: rest => some (rest.foldl span first)

/-- A group of ranges that follow one another without a gap and without sharing a position, and what
they are merged to. -/
structure Merges (group : List (Range α)) (merged : Range α) : Prop where
  span_eq : spanOf? group = some merged
  touching : group.IsChain fun a b => a.upper = b.lower
  apart : group.Pairwise Apart
  upper_eq : ∀ last ∈ group.getLast?, last.upper = merged.upper
  covers_iff : ∀ cut, merged.Covers cut ↔ Covered group cut

theorem spanOf?_concat {group : List (Range α)} {merged : Range α}
    (h : spanOf? group = some merged) (range : Range α) :
    spanOf? (group ++ [range]) = some (merged.span range) := by
  cases group with
  | nil => cases h
  | cons first rest =>
      cases h
      rw [List.cons_append, spanOf?, List.foldl_append, List.foldl_cons, List.foldl_nil]

theorem merges_singleton (range : Range α) : Merges [range] range where
  span_eq := rfl
  touching := List.isChain_singleton range
  apart := List.pairwise_singleton Apart range
  upper_eq := by simp
  covers_iff := by simp

variable [Std.TransOrd α] [Std.LawfulEqOrd α]

/-- The span covers no more than the group does, so a range that starts where the span ends is apart
from the whole group. -/
theorem Merges.concat {group : List (Range α)} {merged range : Range α} (h : Merges group merged)
    (hrange : range.lower < range.upper) (hconnected : merged.isConnected range = true)
    (htouch : merged.upper = range.lower) : Merges (group ++ [range]) (merged.span range) where
  span_eq := spanOf?_concat h.span_eq range
  touching := by
    rw [List.isChain_append]
    refine ⟨h.touching, List.isChain_singleton range, ?_⟩
    intro last hlast next hnext
    obtain rfl : range = next := by simpa using hnext
    exact (h.upper_eq last hlast).trans htouch
  apart := by
    rw [List.pairwise_append]
    refine ⟨h.apart, List.pairwise_singleton Apart range, ?_⟩
    intro member hmember next hnext cut hcut
    rw [List.mem_singleton.mp hnext]
    have hspan := (h.covers_iff cut).mpr ⟨member, hmember, hcut⟩
    exact apart_of_upper_le (Std.le_of_eq htouch) cut hspan
  upper_eq := by
    intro last hlast
    rw [List.getLast?_concat] at hlast
    cases hlast
    rw [upper_span, htouch, Cut.max_eq_ite, if_neg (Std.not_le.mpr hrange)]
  covers_iff := by
    intro cut
    rw [covers_span_iff hconnected, h.covers_iff, covered_append, covered_cons,
      or_iff_left (not_covered_nil cut)]

end Range

namespace Builder

variable [Std.TransOrd α] [Std.LawfulEqOrd α] [DecidableEq α]

/-- The scan gets to the end exactly if no two ranges share a position. The span of touching ranges
is apart from a range that is left exactly if both of them are, so joining loses nothing. -/
theorem mergeFrom_eq_ok_iff {current : Range α} {rest : List (Range α)}
    (h : Range.IsAscending (current :: rest)) :
    (∃ merged, mergeFrom current rest = .ok merged) ↔ (current :: rest).Pairwise Range.Apart := by
  induction rest generalizing current with
  | nil => exact iff_of_true ⟨[current], rfl⟩ (List.pairwise_singleton Range.Apart current)
  | cons range rest ih =>
      obtain ⟨-, -, htail⟩ := (Range.isAscending_cons current (range :: rest)).mp h
      rcases mergeFrom_cons h with
        ⟨⟨cut, hcurrent, hrange⟩, hstep⟩ | ⟨htouch, hconnected, hstep⟩ | ⟨hgap, hstep⟩
      · rw [hstep]
        refine iff_of_false ?_ ?_
        · rintro ⟨merged, hmerged⟩
          cases hmerged
        · intro hpairs
          exact (List.pairwise_cons.mp hpairs).1 range (by simp) cut hcurrent hrange
      · -- The two ranges themselves are apart, and the others see no difference.
        have hapart := Range.apart_of_upper_le (Std.le_of_eq htouch)
        rw [hstep, ih h.span.1]
        simp only [List.pairwise_cons, List.forall_mem_cons, Range.apart_span_iff hconnected,
          forall₂_and, and_iff_right hapart, and_assoc]
      · -- Everything that is left starts beyond the span that is closed.
        have hapart : ∀ other ∈ range :: rest, current.Apart other := by
          intro other hother
          have hbeyond := Std.lt_of_lt_of_le hgap (htail.lower_le other hother)
          exact Range.apart_of_upper_le (Std.le_of_lt hbeyond)
        rw [hstep, exists_map_eq_ok_iff, List.pairwise_cons, and_iff_right hapart, ih htail]

/-- What the scan refuses is a range of the list that shares a position with the open span. The
induction is on the ranges that are left, for any group that the open span was made from. -/
theorem mergeFrom_error {group : List (Range α)} {current : Range α} {rest : List (Range α)}
    {error : Error α} (hgroup : Range.Merges group current)
    (h : Range.IsAscending (current :: rest)) (herror : mergeFrom current rest = .error error) :
    ∃ part merged added, error = .overlapping merged added ∧ Range.Merges part merged ∧
      (∃ cut, merged.Covers cut ∧ added.Covers cut) ∧
        (part ++ [added]).Sublist (group ++ rest) := by
  induction rest generalizing group current with
  | nil => cases herror
  | cons range rest ih =>
      obtain ⟨-, -, htail⟩ := (Range.isAscending_cons current (range :: rest)).mp h
      have hrange := htail.lower_lt_upper range (by simp)
      rcases mergeFrom_cons h with ⟨hshared, hstep⟩ | ⟨htouch, hconnected, hstep⟩ | ⟨-, hstep⟩
      · rw [hstep] at herror
        cases herror
        have hsublist : [range].Sublist (range :: rest) := by simp
        exact ⟨group, current, range, rfl, hgroup, hshared, hsublist.append_left group⟩
      · rw [hstep] at herror
        have hjoined := ih (hgroup.concat hrange hconnected htouch) h.span.1 herror
        rw [List.append_assoc] at hjoined
        exact hjoined
      · -- The open span is closed for good, so what is refused is refused with a later group.
        rw [hstep, map_eq_error_iff] at herror
        obtain ⟨part, merged, added, hcause, hmerges, hshared, hsublist⟩ :=
          ih (Range.merges_singleton range) htail herror
        exact ⟨part, merged, added, hcause, hmerges, hshared,
          hsublist.trans (List.sublist_append_right group (range :: rest))⟩

theorem mergeSorted_eq_ok_iff {ranges : List (Range α)} (h : Range.IsAscending ranges) :
    (∃ merged, mergeSorted ranges = .ok merged) ↔ ranges.Pairwise Range.Apart := by
  cases ranges with
  | nil => exact iff_of_true ⟨[], rfl⟩ List.Pairwise.nil
  | cons range rest => exact mergeFrom_eq_ok_iff h

theorem mergeSorted_error {ranges : List (Range α)} {error : Error α}
    (h : Range.IsAscending ranges) (herror : mergeSorted ranges = .error error) :
    ∃ part merged added, error = .overlapping merged added ∧ Range.Merges part merged ∧
      (∃ cut, merged.Covers cut ∧ added.Covers cut) ∧ (part ++ [added]).Sublist ranges := by
  cases ranges with
  | nil => cases herror
  | cons range rest => exact mergeFrom_error (Range.merges_singleton range) h herror

theorem WellFormed.build_eq_ok_iff {builder : Builder α} (h : builder.WellFormed) (label : Nat) :
    (∃ set, builder.build label = .ok set) ↔ builder.added.toList.Pairwise Range.Apart := by
  have hperm := Range.sort_perm builder.added.toList
  rw [build, exists_map_eq_ok_iff, merged, mergeSorted_eq_ok_iff h.sort_isAscending,
    hperm.pairwise_iff Range.Apart.symm]

theorem WellFormed.build_error {builder : Builder α} (h : builder.WellFormed) {label : Nat}
    {error : Error α} (herror : builder.build label = .error error) :
    ∃ part merged added, error = .overlapping merged added ∧ Range.Merges part merged ∧
      (∃ cut, merged.Covers cut ∧ added.Covers cut) ∧
        (part ++ [added]).Subperm builder.added.toList := by
  have hperm := Range.sort_perm builder.added.toList
  rw [build, map_eq_error_iff, merged] at herror
  obtain ⟨part, merged, added, hcause, hmerges, hshared, hsublist⟩ :=
    mergeSorted_error h.sort_isAscending herror
  exact ⟨part, merged, added, hcause, hmerges, hshared, hsublist.subperm.trans hperm.subperm⟩

theorem build_eq_of_perm {builder other : Builder α}
    (h : other.added.toList.Perm builder.added.toList) (label : Nat) :
    other.build label = builder.build label := by
  have hsort := Range.eq_sort_of_perm ((Range.sort_perm _).trans h) (Range.sort_sorted _)
  rw [build, build, merged, merged, hsort]

end Builder

end RangeAlgebra
