import RangeAlgebra.Proofs.Set.Reachable

/-!
The laws of the operations on the sets that can be made. Every law is about the positions that sets
cover. Two sets that cover the same positions are equal, so nothing else about the operands has a
part in the result: neither what their ranges are read through nor whether they are sets or indexes.
-/

namespace RangeAlgebra.RangeSet

universe u

variable {α : Type u} [Ord α] [Std.TransOrd α] [Std.LawfulEqOrd α] [DecidableEq α]

/-- Union, intersection and difference cover exactly the positions that they should and answer for
elements accordingly. Equal operands give equal results, whatever they are kept as. -/
theorem algebra_exact {a : RangeSet α} {b : RangeCollection α} (ha : a.Reachable)
    (hb : b.Reachable) (label : Nat) :
    (∀ cut, ((a.union b label).Covers cut ↔ a.Covers cut ∨ b.Covers cut) ∧
      ((a.intersection b label).Covers cut ↔ a.Covers cut ∧ b.Covers cut) ∧
      ((a.difference b label).Covers cut ↔ a.Covers cut ∧ ¬ b.Covers cut)) ∧
    (∀ value, (a.union b label).contains value = (a.contains value || b.contains value) ∧
      (a.intersection b label).contains value = (a.contains value && b.contains value) ∧
      (a.difference b label).contains value = (a.contains value && !b.contains value)) ∧
    ∀ (a' : RangeSet α) (b' : RangeCollection α) (label' : Nat), a'.Reachable → b'.Reachable →
      (a == a') = true → b.ranges = b'.ranges →
        (a.union b label == a'.union b' label') = true ∧
        (a.intersection b label == a'.intersection b' label') = true ∧
        (a.difference b label == a'.difference b' label') = true := by
  have hunion := union_spec ha.wellFormed hb.wellFormed label
  have hintersection := intersection_spec ha.wellFormed hb.wellFormed label
  have hdifference := difference_spec ha.wellFormed hb.wellFormed label
  refine ⟨fun cut => ⟨hunion.2 cut, hintersection.2 cut, hdifference.2 cut⟩, ?_, ?_⟩
  · intro value
    have hleft := Lists.contains_iff ha.wellFormed value
    have hright := hb.wellFormed.contains_iff value
    refine ⟨?_, ?_, ?_⟩
    · rw [Bool.eq_iff_iff, Bool.or_eq_true, hleft, hright, Lists.contains_iff hunion.1]
      exact hunion.2 _
    · rw [Bool.eq_iff_iff, Bool.and_eq_true, hleft, hright, Lists.contains_iff hintersection.1]
      exact hintersection.2 _
    · rw [Bool.eq_iff_iff, Bool.and_eq_true, Bool.not_eq_true', ← Bool.not_eq_true, hleft, hright,
        Lists.contains_iff hdifference.1]
      exact hdifference.2 _
  · intro a' b' label' ha' hb' hequal hranges
    rw [beq_iff] at hequal
    have hleft : ∀ cut, a.Covers cut ↔ a'.Covers cut := fun cut => by rw [Covers, hequal, Covers]
    have hright : ∀ cut, b.Covers cut ↔ b'.Covers cut := fun cut => by
      rw [RangeCollection.Covers, hranges, RangeCollection.Covers]
    have hunion' := union_spec ha'.wellFormed hb'.wellFormed label'
    have hintersection' := intersection_spec ha'.wellFormed hb'.wellFormed label'
    have hdifference' := difference_spec ha'.wellFormed hb'.wellFormed label'
    refine ⟨?_, ?_, ?_⟩
    · apply beq_of_covers_iff hunion.1 hunion'.1
      intro cut
      rw [hunion.2, hunion'.2, hleft, hright]
    · apply beq_of_covers_iff hintersection.1 hintersection'.1
      intro cut
      rw [hintersection.2, hintersection'.2, hleft, hright]
    · apply beq_of_covers_iff hdifference.1 hdifference'.1
      intro cut
      rw [hdifference.2, hdifference'.2, hleft, hright]

/-- The operands are a window over a stored list and an index, and the same two sets with the
window copied and the index turned into a list. -/
theorem algebra_exact_window :
    let parts : RangeSet Int := .unionOf [⟨.below 1, .below 4⟩, ⟨.above 6, .above 9⟩] 1
    let window := parts.restrict ⟨.below 2, .aboveAll⟩ 2
    let index : RangeCollection Int := .ofIndex (.ofRanges [⟨.above 3, .below 8⟩])
    let listed : RangeCollection Int := .ofSet (copyOf index 5)
    (∀ cut, (window.difference index 3).Covers cut ↔ window.Covers cut ∧ ¬ index.Covers cut) ∧
      (window.intersection index 3 == (copyOf window 4).intersection listed 6) = true := by
  intro parts window index listed
  have hparts : parts.Reachable := RangeCollection.Reachable.unionOf (by decide) 1
  have hwindow : window.Reachable := hparts.restrict (by decide) 2
  have hcalls : RangeIndex.Call.AllValid
      [RangeIndex.Call.addRanges [(⟨.above 3, .below 8⟩ : Range Int)]] := by decide
  have hindex : index.Reachable := .index (.run .empty hcalls rfl)
  obtain ⟨hcovers, -, hequal⟩ := algebra_exact hwindow hindex 3
  have hcopied : (window == copyOf window 4) = true := by
    rw [beq_iff, (lists_copyOf (RangeCollection.Reachable.wellFormed hwindow) 4).ranges_eq]
    rfl
  have hlisted : index.ranges = listed.ranges :=
    (lists_copyOf hindex.wellFormed 5).ranges_eq.symm
  exact ⟨fun cut => (hcovers cut).2.2,
    (hequal _ _ 6 (hwindow.copyOf 4) (hindex.copyOf 5) hcopied hlisted).2.1⟩

/-- The complement of a set reads, range by range, what an index of the ranges of the set has as its
complement. Of the two sets exactly one covers a position. -/
theorem complement_eq_index_complement {set : RangeSet α} (h : set.Reachable) :
    let materialised := (RangeIndex.ofRanges set.ranges).complement.ranges
    set.complement.ranges = materialised ∧
      set.complement.rangeCount = materialised.length ∧
      (∀ i, set.complement.listing.get? i = materialised[i]?) ∧
      ∀ cut, cut ≠ .aboveAll → (set.complement.Covers cut ↔ ¬ set.Covers cut) := by
  intro materialised
  have hcanonical := h.wellFormed.canonical
  have hindex := RangeIndex.wellFormed_ofRanges h.wellFormed.valid
  have hmaterialised : materialised = Range.gapsFrom .belowAll set.ranges :=
    calc
      materialised = Range.gapsFrom .belowAll (RangeIndex.ofRanges set.ranges).ranges :=
        hindex.ranges_complement
      _ = Range.gapsFrom .belowAll set.ranges := by
        rw [RangeIndex.ranges_ofRanges_of_isCanonical hcanonical]
  have hlists : set.complement.Lists materialised := hmaterialised ▸ Lists.complement h.wellFormed
  refine ⟨hlists.ranges_eq, hlists.rangeCount_eq, ?_, ?_⟩
  · intro i
    rw [hlists.listing_eq, Listing.get?_ofList]
  · intro cut hcut
    rw [hlists.covers_iff, hmaterialised, hcanonical.covered_gaps, and_iff_right hcut]
    exact Iff.rfl

/-- The set is a window over a stored complement, bounded on one side only. -/
theorem complement_eq_index_complement_window :
    let parts : RangeSet Int := .unionOf [⟨.below 1, .below 4⟩, ⟨.above 6, .above 9⟩] 1
    let window := parts.complement.restrict ⟨.belowAll, .below 8⟩ 2
    window.complement.ranges = (RangeIndex.ofRanges window.ranges).complement.ranges ∧
      (window.complement.Covers (.below 8) ↔ ¬ window.Covers (.below 8)) := by
  intro parts window
  have hparts : parts.Reachable := RangeCollection.Reachable.unionOf (by decide) 1
  have hwindow : window.Reachable := hparts.complement.restrict (by decide) 2
  obtain ⟨hranges, -, -, hcovers⟩ := complement_eq_index_complement hwindow
  exact ⟨hranges, hcovers (.below 8) (by decide)⟩

end RangeAlgebra.RangeSet
