import Mathlib.Data.List.TakeWhile
import RangeAlgebra.Proofs.Builder.Calls

/-!
What comes of ranges that are given all at once. The first empty one is refused, whatever the others
are. If none is empty, a builder is made of all of them, which then decides whether any two overlap.
-/

namespace RangeAlgebra

universe u

variable {α : Type u} [DecidableEq α]

namespace Builder

theorem addAll_snd (builder : Builder α) (ranges : List (Range α)) :
    (builder.addAll ranges).2 = (ranges.find? (·.isEmpty)).map .emptyRange := by
  induction ranges generalizing builder with
  | nil => rfl
  | cons range rest ih =>
      rw [addAll_cons]
      by_cases hempty : range.isEmpty = true
      · simp [hempty]
      · simp [hempty, ih]

theorem addAll_empty (ranges : List (Range α)) :
    (∅ : Builder α).addAll ranges =
      (⟨(ranges.takeWhile fun range => !range.isEmpty).toArray⟩,
        (ranges.find? (·.isEmpty)).map .emptyRange) := by
  refine Prod.ext (eq_of_added_eq ?_) (addAll_snd ∅ ranges)
  rw [added_addAll]
  exact List.nil_append _

/-- A set that was built stores its ranges itself. -/
theorem isPartialView_of_build_eq_ok [Ord α] {builder : Builder α} {label : Nat} {set : RangeSet α}
    (h : builder.build label = .ok set) : set.isPartialView = false := by
  rw [build] at h
  cases hmerged : builder.merged with
  | error error =>
      rw [hmerged] at h
      cases h
  | ok ranges =>
      rw [hmerged] at h
      cases h
      exact RangeSet.isPartialView_ofCanonical ranges label

end Builder

namespace RangeSet

variable [Ord α] {ranges : List (Range α)}

theorem copyOfRanges_eq_emptyRange {range : Range α}
    (hfirst : ranges.find? (·.isEmpty) = some range) (label : Nat) :
    copyOfRanges ranges label = .error (.emptyRange range) := by
  rw [copyOfRanges, Builder.addAll_empty, hfirst]
  rfl

theorem copyOfRanges_eq_build (hnonempty : ∀ range ∈ ranges, ¬ range.isEmpty = true) (label : Nat) :
    copyOfRanges ranges label = Builder.build ⟨ranges.toArray⟩ label := by
  have hall : ranges.takeWhile (fun range => !range.isEmpty) = ranges := by
    rw [List.takeWhile_eq_self_iff]
    simpa using hnonempty
  rw [copyOfRanges, Builder.addAll_empty, List.find?_eq_none.mpr hnonempty, hall]
  rfl

variable [Std.TransOrd α] [Std.LawfulEqOrd α]

private theorem wellFormed_toArray (hvalid : ∀ range ∈ ranges, range.Valid)
    (hnonempty : ∀ range ∈ ranges, ¬ range.isEmpty = true) :
    (⟨ranges.toArray⟩ : Builder α).WellFormed := by
  intro range hrange
  have hmem : range ∈ ranges := List.mem_toArray.mp hrange
  exact (hvalid range hmem).lt_of_not_isEmpty (hnonempty range hmem)

/-- Ranges make a set exactly if none of them is empty and no two share a position. -/
theorem copyOfRanges_eq_ok_iff (hvalid : ∀ range ∈ ranges, range.Valid) (label : Nat) :
    (∃ set, copyOfRanges ranges label = .ok set) ↔
      (∀ range ∈ ranges, ¬ range.isEmpty = true) ∧ ranges.Pairwise Range.Apart := by
  cases hfirst : ranges.find? (·.isEmpty) with
  | some range =>
      rw [copyOfRanges_eq_emptyRange hfirst]
      refine iff_of_false (by simp) ?_
      rintro ⟨hnonempty, -⟩
      exact hnonempty range (List.mem_of_find?_eq_some hfirst)
        (List.find?_some hfirst)
  | none =>
      have hnonempty := List.find?_eq_none.mp hfirst
      rw [copyOfRanges_eq_build hnonempty, and_iff_right hnonempty]
      exact (wellFormed_toArray hvalid hnonempty).build_eq_ok_iff label

/-- The set is the union of the ranges, whatever order these are taken in. -/
theorem beq_unionOf_of_copyOfRanges_eq_ok (hvalid : ∀ range ∈ ranges, range.Valid) {label : Nat}
    {set : RangeSet α} (hcopy : copyOfRanges ranges label = .ok set) {others : List (Range α)}
    (hperm : others.Perm ranges) (unionLabel : Nat) :
    (set == .unionOf others unionLabel) = true := by
  obtain ⟨hnonempty, -⟩ := (copyOfRanges_eq_ok_iff hvalid label).mp ⟨set, hcopy⟩
  rw [copyOfRanges_eq_build hnonempty] at hcopy
  obtain ⟨hset, hcovers⟩ := (wellFormed_toArray hvalid hnonempty).build_spec hcopy
  have hothers : ∀ range ∈ others, range.Valid := fun range hrange =>
    hvalid range (hperm.mem_iff.mp hrange)
  obtain ⟨hunion, hunionCovers⟩ := unionOf_spec hothers unionLabel
  apply beq_of_covers_iff hset hunion
  intro cut
  rw [hcovers, hunionCovers]
  exact exists_congr fun range => and_congr_left' hperm.symm.mem_iff

/-- Ranges that are not empty are only refused for sharing a position. -/
theorem copyOfRanges_error (hvalid : ∀ range ∈ ranges, range.Valid)
    (hnonempty : ∀ range ∈ ranges, ¬ range.isEmpty = true) {label : Nat} {error : Error α}
    (herror : copyOfRanges ranges label = .error error) :
    ∃ group merged next, error = .overlapping merged next ∧ Range.Merges group merged ∧
      (∃ cut, merged.Covers cut ∧ next.Covers cut) ∧ (group ++ [next]).Subperm ranges := by
  rw [copyOfRanges_eq_build hnonempty] at herror
  exact (wellFormed_toArray hvalid hnonempty).build_error herror

/-- The ranges of a set make a set that stores them and is equal to it. -/
theorem WellFormed.exists_copyOfRanges {set : RangeSet α} (h : set.WellFormed) (label : Nat) :
    ∃ copy, copyOfRanges set.ranges label = .ok copy ∧ copy.WellFormed ∧ (copy == set) = true ∧
      copy.isPartialView = false := by
  have hnonempty := h.canonical.not_isEmpty
  have hapart : set.ranges.Pairwise Range.Apart :=
    h.canonical.disconnected.imp fun hlt => Range.apart_of_upper_le (Std.le_of_lt hlt)
  obtain ⟨copy, hcopy⟩ := (copyOfRanges_eq_ok_iff h.valid label).mpr ⟨hnonempty, hapart⟩
  have hbuild := hcopy
  rw [copyOfRanges_eq_build hnonempty] at hbuild
  obtain ⟨hform, hcovers⟩ := (wellFormed_toArray h.valid hnonempty).build_spec hbuild
  exact ⟨copy, hcopy, hform, beq_of_covers_iff hform h hcovers,
    Builder.isPartialView_of_build_eq_ok hbuild⟩

end RangeSet

end RangeAlgebra
