import RangeAlgebra.Proofs.Set.Equality
import RangeAlgebra.Proofs.Set.Relations

/-!
Inclusion and overlap as laws of the algebra. The relations ask for each range of one operand
whether the other has a single range for it, and the algebra adds and removes ranges one after the
other. Both speak of the same positions, so a set is part of another one exactly if nothing of it
is left without that, if it is what both share and if joining it changes nothing.
-/

namespace RangeAlgebra

universe u

variable {α : Type u} [Ord α] [Std.TransOrd α] [Std.LawfulEqOrd α] [DecidableEq α]

/-- Collections of either kind give the same ranges exactly if they cover the same positions. -/
theorem RangeCollection.WellFormed.ranges_eq_iff_covers {a b : RangeCollection α}
    (ha : a.WellFormed) (hb : b.WellFormed) :
    a.ranges = b.ranges ↔ ∀ cut, a.Covers cut ↔ b.Covers cut := by
  constructor
  · intro hranges cut
    rw [Covers, hranges, Covers]
  · exact ha.canonical.eq_of_covered_iff hb.canonical

namespace RangeSet

theorem WellFormed.isEmpty_iff {set : RangeSet α} (h : set.WellFormed) :
    set.isEmpty = true ↔ ∀ cut, ¬ set.Covers cut := by
  rw [Lists.isEmpty_iff h]
  constructor
  · intro hnil cut
    rw [Covers, hnil]
    exact Range.not_covered_nil cut
  · intro hnone
    apply List.eq_nil_iff_forall_not_mem.mpr
    intro range hrange
    have hproper := h.canonical.lower_lt_upper range hrange
    exact hnone range.lower ⟨range, hrange, Range.covers_lower hproper⟩

section Operands

variable {set : RangeSet α} {other : RangeCollection α} (h : set.WellFormed)
  (hother : other.WellFormed) (label : Nat)

include h hother

theorem isEmpty_difference_iff :
    (set.difference other label).isEmpty = true ↔ other.enclosesAll set = true := by
  have hset : (RangeCollection.ofSet set).WellFormed := h
  obtain ⟨hform, hcovers⟩ := difference_spec h hother label
  rw [hform.isEmpty_iff, hother.enclosesAll_iff hset]
  apply forall_congr'
  intro cut
  rw [hcovers, not_and_not_right]
  exact Iff.rfl

/-- Two sets have nothing in common if the complement of one encloses the other. -/
theorem isEmpty_intersection_iff :
    (set.intersection other label).isEmpty = true ↔
      other.complement.enclosesAll set = true := by
  have hset : (RangeCollection.ofSet set).WellFormed := h
  obtain ⟨hform, hcovers⟩ := intersection_spec h hother label
  rw [hform.isEmpty_iff, hother.complement.enclosesAll_iff hset]
  apply forall_congr'
  intro cut
  rw [hcovers, not_and, hother.covers_complement]
  apply imp_congr_right
  intro hcut
  -- The position after all elements is in no set, so the complement has every other one.
  have hend : cut ≠ .aboveAll := fun heq => Range.not_covered_aboveAll set.ranges (heq ▸ hcut)
  exact (and_iff_right hend).symm

theorem intersection_beq_iff :
    (set.intersection other label == set) = true ↔ other.enclosesAll set = true := by
  have hset : (RangeCollection.ofSet set).WellFormed := h
  obtain ⟨hform, hcovers⟩ := intersection_spec h hother label
  rw [WellFormed.beq_iff_covers hform h, hother.enclosesAll_iff hset]
  apply forall_congr'
  intro cut
  rw [hcovers, and_iff_left_iff_imp]
  exact Iff.rfl

/-- Joining what is enclosed gives the ranges of the enclosing operand, be it a set or an index. -/
theorem ranges_union_eq_iff :
    (set.union other label).ranges = other.ranges ↔ other.enclosesAll set = true := by
  have hset : (RangeCollection.ofSet set).WellFormed := h
  obtain ⟨hform, hcovers⟩ := union_spec h hother label
  have hunion : (RangeCollection.ofSet (set.union other label)).WellFormed := hform
  refine (hunion.ranges_eq_iff_covers hother).trans ?_
  rw [hother.enclosesAll_iff hset]
  apply forall_congr'
  intro cut
  refine Iff.trans ?_ or_iff_right_iff_imp
  exact iff_congr (hcovers cut) Iff.rfl

theorem union_beq_iff :
    (set.union other label == set) = true ↔ set.enclosesAll other = true := by
  obtain ⟨hform, hcovers⟩ := union_spec h hother label
  rw [WellFormed.beq_iff_covers hform h, h.enclosesAll_iff hother]
  apply forall_congr'
  intro cut
  rw [hcovers, or_iff_left_iff_imp]

end Operands

/-- Overlap asks for a common position, and emptiness of what two sets share denies it. -/
theorem overlaps_eq_not_isEmpty_intersection {a b : RangeSet α} (ha : a.WellFormed)
    (hb : b.WellFormed) (label : Nat) : a.overlaps b = !(a.intersection b label).isEmpty := by
  have hcollection : (RangeCollection.ofSet b).WellFormed := hb
  obtain ⟨hform, hcovers⟩ := intersection_spec ha hcollection label
  rw [Bool.eq_iff_iff, ha.overlaps_iff hb, Bool.not_eq_true', ← Bool.not_eq_true,
    hform.isEmpty_iff, not_forall_not]
  apply exists_congr
  intro cut
  exact (hcovers cut).symm

theorem overlaps_comm {a b : RangeSet α} (ha : a.WellFormed) (hb : b.WellFormed) :
    a.overlaps b = b.overlaps a := by
  rw [Bool.eq_iff_iff, ha.overlaps_iff hb, hb.overlaps_iff ha]
  apply exists_congr
  intro cut
  exact and_comm

/-- For any sets and collections: inclusion is inclusion of positions, and it holds exactly if the
difference is empty, if the intersection is the part and if the union is the whole, whichever of
the operands an operation takes as a collection. Overlap is an intersection that is not empty, goes
both ways and is denied by disjointness, which is inclusion in the complement. -/
theorem relations_eq_algebra {a b : RangeSet α} {c d : RangeCollection α} (ha : a.Reachable)
    (hb : b.Reachable) (hc : c.Reachable) (hd : d.Reachable) (label : Nat) :
    (d.enclosesAll c = true ↔ ∀ cut, c.Covers cut → d.Covers cut) ∧
    ((c.enclosesAll a = true ↔ (a.difference c label).isEmpty = true) ∧
      (c.enclosesAll a = true ↔ (a.intersection c label == a) = true) ∧
      (c.enclosesAll a = true ↔ (a.union c label).ranges = c.ranges) ∧
      (c.complement.enclosesAll a = true ↔ (a.intersection c label).isEmpty = true)) ∧
    (a.enclosesAll c = RangeCollection.enclosesAll a c ∧
      (a.enclosesAll c = true ↔ (a.union c label == a) = true)) ∧
    (a.isSubset b = b.enclosesAll a ∧
      (a.isSubset b = true ↔ ∀ cut, a.Covers cut → b.Covers cut) ∧
      (a.isSubset b = true ↔ (a.difference b label).isEmpty = true) ∧
      (a.isSubset b = true ↔ (a.intersection b label == a) = true) ∧
      (a.isSubset b = true ↔ (a.union b label == b) = true)) ∧
    a.overlaps b = !(a.intersection b label).isEmpty ∧ a.overlaps b = b.overlaps a ∧
      a.isDisjoint b = !a.overlaps b ∧ a.isDisjoint b = b.complement.enclosesAll a := by
  have hset : (RangeCollection.ofSet b).WellFormed := hb.wellFormed
  have hoverlaps := overlaps_eq_not_isEmpty_intersection ha.wellFormed hb.wellFormed label
  refine ⟨hd.wellFormed.enclosesAll_iff hc.wellFormed, ⟨?_, ?_, ?_, ?_⟩, ⟨rfl, ?_⟩,
    ⟨rfl, ?_, ?_, ?_, ?_⟩, hoverlaps, overlaps_comm ha.wellFormed hb.wellFormed, rfl, ?_⟩
  · exact (isEmpty_difference_iff ha.wellFormed hc.wellFormed label).symm
  · exact (intersection_beq_iff ha.wellFormed hc.wellFormed label).symm
  · exact (ranges_union_eq_iff ha.wellFormed hc.wellFormed label).symm
  · exact (isEmpty_intersection_iff ha.wellFormed hc.wellFormed label).symm
  · exact (union_beq_iff ha.wellFormed hc.wellFormed label).symm
  · exact ha.wellFormed.isSubset_iff hb.wellFormed
  · exact (isEmpty_difference_iff ha.wellFormed hset label).symm
  · exact (intersection_beq_iff ha.wellFormed hset label).symm
  · rw [beq_iff]
    exact (ranges_union_eq_iff ha.wellFormed hset label).symm
  · rw [isDisjoint, hoverlaps, Bool.not_not, Bool.eq_iff_iff]
    exact isEmpty_intersection_iff ha.wellFormed hset label

/-- A window lies in an index of one range around it and shares nothing with the complement of the
set that it was cut from. -/
theorem relations_eq_algebra_window :
    let parts : RangeSet Int := .unionOf [⟨.below 1, .below 4⟩, ⟨.above 6, .above 9⟩] 1
    let window := parts.restrict ⟨.below 2, .below 8⟩ 2
    let whole : RangeCollection Int := .ofIndex (.ofRanges [⟨.below 0, .below 20⟩])
    (RangeCollection.enclosesAll whole window = true ↔
        ∀ cut, RangeCollection.Covers window cut → whole.Covers cut) ∧
      window.overlaps parts.complement = !(window.intersection parts.complement 3).isEmpty ∧
      window.isDisjoint parts.complement = parts.complement.complement.enclosesAll window := by
  intro parts window whole
  have hparts : parts.Reachable := RangeCollection.Reachable.unionOf (by decide) 1
  have hwindow : window.Reachable := hparts.restrict (by decide) 2
  have hcalls : RangeIndex.Call.AllValid
      [RangeIndex.Call.addRanges [(⟨.below 0, .below 20⟩ : Range Int)]] := by decide
  have hwhole : whole.Reachable := .index (.run .empty hcalls rfl)
  obtain ⟨hencloses, -, -, -, hoverlaps, -, -, hdisjoint⟩ :=
    relations_eq_algebra hwindow hparts.complement hwindow hwhole 3
  exact ⟨hencloses, hoverlaps, hdisjoint⟩

end RangeSet

end RangeAlgebra
