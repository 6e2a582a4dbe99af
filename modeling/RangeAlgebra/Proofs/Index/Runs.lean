import Mathlib.Data.List.Induction
import RangeAlgebra.Proofs.Index.Queries
import RangeAlgebra.RangeSet.Collection

/-!
Runs of calls on an index. A call that takes several ranges changes the index by one range after
the other, so a run of any calls is a run of single edits. Only the last edit whose range covers
a position matters for it: the position is in the index if that edit is an addition, and a
position that no edit covers stays what it was. An index may also be replaced by its complement
between two runs.
-/

namespace RangeAlgebra.RangeIndex

universe u

variable {α : Type u}

/-- The change of an index by one range. -/
inductive Edit (α : Type u) where
  | add (range : Range α)
  | remove (range : Range α)

/-- The calls that change an index. The last two take the ranges of any collection, and go
through the interface that indexes share with sets. -/
inductive Call (α : Type u) where
  | add (range : Range α)
  | remove (range : Range α)
  | addRanges (ranges : List (Range α))
  | removeRanges (ranges : List (Range α))
  | addAll (other : RangeCollection α)
  | removeAll (other : RangeCollection α)

def Edit.range : Edit α → Range α
  | .add range | .remove range => range

variable [Ord α]

/-- The last edit whose range covers the position. -/
def Edit.lastAt? (edits : List (Edit α)) (cut : Cut α) : Option (Edit α) :=
  (edits.filter fun edit => edit.range.Covers cut).getLast?

variable [DecidableEq α]

def Edit.apply (index : RangeIndex α) : Edit α → RangeIndex α
  | .add range => index.add range
  | .remove range => index.remove range

namespace Call

/-- The edits that a call amounts to, in order. -/
def edits : Call α → List (Edit α)
  | .add range => [.add range]
  | .remove range => [.remove range]
  | .addRanges ranges => ranges.map .add
  | .removeRanges ranges => ranges.map .remove
  | .addAll other => other.ranges.map .add
  | .removeAll other => other.ranges.map .remove

/-- What a change through the shared interface has made of the index, unless it was refused. -/
def changed (index : RangeIndex α) :
    RangeCollection α × Option (Error α) → Except (Error α) (RangeIndex α)
  | (collection, none) => .ok (collection.asIndex?.getD index)
  | (_, some error) => .error error

def run (index : RangeIndex α) : Call α → Except (Error α) (RangeIndex α)
  | .add range => .ok (index.add range)
  | .remove range => .ok (index.remove range)
  | .addRanges ranges => .ok (index.addAll ranges)
  | .removeRanges ranges => .ok (index.removeAll ranges)
  | .addAll other => changed index ((RangeCollection.ofIndex index).addAll other)
  | .removeAll other => changed index ((RangeCollection.ofIndex index).removeAll other)

def runAll (start : RangeIndex α) (calls : List (Call α)) : Except (Error α) (RangeIndex α) :=
  calls.foldlM run start

/-- No range that the calls are given is inverted. -/
def AllValid (calls : List (Call α)) : Prop :=
  ∀ edit ∈ calls.flatMap edits, edit.range.Valid

instance (calls : List (Call α)) : Decidable (AllValid calls) :=
  inferInstanceAs (Decidable (∀ _ ∈ _, _))

/-- No call is refused, and each does what its edits do. -/
theorem run_eq (index : RangeIndex α) (call : Call α) :
    call.run index = .ok (call.edits.foldl Edit.apply index) := by
  cases call with
  | add range => rfl
  | remove range => rfl
  | addRanges ranges =>
      simp only [run, edits, List.foldl_map]
      rfl
  | removeRanges ranges =>
      simp only [run, edits, List.foldl_map]
      rfl
  | addAll other =>
      simp only [run, edits, List.foldl_map, RangeCollection.addAll_ofIndex]
      rfl
  | removeAll other =>
      simp only [run, edits, List.foldl_map, RangeCollection.removeAll_ofIndex]
      rfl

theorem runAll_eq (start : RangeIndex α) (calls : List (Call α)) :
    runAll start calls = .ok ((calls.flatMap edits).foldl Edit.apply start) := by
  induction calls generalizing start with
  | nil => rfl
  | cons call rest ih =>
      rw [runAll, List.foldlM_cons, run_eq, List.flatMap_cons, List.foldl_append]
      exact ih _

end Call

/-- The indexes that runs of calls lead to, from the empty one on, with complements in between. -/
inductive Reachable : RangeIndex α → Prop
  | empty : Reachable ∅
  | run {start index : RangeIndex α} {calls : List (Call α)} (hstart : Reachable start)
      (hvalid : Call.AllValid calls) (hrun : Call.runAll start calls = .ok index) :
      Reachable index
  | complement {index : RangeIndex α} (h : Reachable index) : Reachable index.complement

omit [DecidableEq α] in
theorem Edit.lastAt?_append_singleton (edits : List (Edit α)) (edit : Edit α) (cut : Cut α) :
    lastAt? (edits ++ [edit]) cut =
      if edit.range.Covers cut then some edit else lastAt? edits cut := by
  simp only [lastAt?, List.filter_append, List.filter_cons, List.filter_nil, decide_eq_true_eq]
  split
  · exact List.getLast?_concat
  · rw [List.append_nil]

variable [Std.TransOrd α] [Std.LawfulEqOrd α]

theorem WellFormed.apply {index : RangeIndex α} (h : index.WellFormed) {edit : Edit α}
    (hvalid : edit.range.Valid) : (edit.apply index).WellFormed := by
  cases edit with
  | add range => exact h.add hvalid
  | remove range => exact h.remove hvalid

/-- One edit decides the positions of its range and leaves the others alone. -/
theorem WellFormed.covers_apply {index : RangeIndex α} (h : index.WellFormed) {edit : Edit α}
    (hvalid : edit.range.Valid) (cut : Cut α) :
    (edit.apply index).Covers cut ↔
      if edit.range.Covers cut then ∃ range, edit = .add range else index.Covers cut := by
  cases edit with
  | add range =>
      have hadd := h.covers_add hvalid cut
      by_cases hcovers : range.Covers cut
      · simpa [Edit.apply, Edit.range, hcovers] using hadd
      · simpa [Edit.apply, Edit.range, hcovers] using hadd
  | remove range =>
      have hremove := h.covers_remove hvalid cut
      by_cases hcovers : range.Covers cut
      · simpa [Edit.apply, Edit.range, hcovers] using hremove
      · simpa [Edit.apply, Edit.range, hcovers] using hremove

theorem WellFormed.foldl_apply {start : RangeIndex α} (h : start.WellFormed)
    {edits : List (Edit α)} (hvalid : ∀ edit ∈ edits, edit.range.Valid) :
    (edits.foldl Edit.apply start).WellFormed := by
  induction edits generalizing start with
  | nil => exact h
  | cons edit rest ih =>
      have hedit := h.apply (hvalid edit (by simp))
      exact ih hedit fun other hother => hvalid other (by simp [hother])

/-- The induction is on the run from its end, where the edit that decides a position stands. -/
theorem WellFormed.covers_foldl_apply {start : RangeIndex α} (h : start.WellFormed)
    {edits : List (Edit α)} (hvalid : ∀ edit ∈ edits, edit.range.Valid) (cut : Cut α) :
    (edits.foldl Edit.apply start).Covers cut ↔
      (∃ range, Edit.lastAt? edits cut = some (.add range)) ∨
        Edit.lastAt? edits cut = none ∧ start.Covers cut := by
  induction edits using List.reverseRecOn with
  | nil => simp [Edit.lastAt?]
  | append_singleton edits edit ih =>
      have hbefore : ∀ other ∈ edits, other.range.Valid := fun other hother =>
        hvalid other (by simp [hother])
      have hindex := h.foldl_apply hbefore
      rw [List.foldl_append, List.foldl_cons, List.foldl_nil,
        hindex.covers_apply (hvalid edit (by simp)), Edit.lastAt?_append_singleton]
      by_cases hcovers : edit.range.Covers cut
      · simp [hcovers]
      · simpa [hcovers] using ih hbefore

theorem Reachable.wellFormed {index : RangeIndex α} (h : index.Reachable) :
    index.WellFormed := by
  induction h with
  | empty => exact wellFormed_empty
  | run hstart hvalid hrun ih =>
      rw [Call.runAll_eq] at hrun
      cases hrun
      exact ih.foldl_apply hvalid
  | complement h ih => exact ih.complement

omit [DecidableEq α] in
theorem WellFormed.valid {index : RangeIndex α} (h : index.WellFormed) :
    ∀ range ∈ index.ranges, range.Valid :=
  h.canonical.valid

/-- Every run from a reachable index comes to an end, in an index whose ranges are canonical and
filed under their lower cuts. A position is in it if the last edit that covers the position is
an addition, or if no edit covers it and it was in the index before. The complement is as well
formed and covers all other positions, so that a run can go on from it. -/
theorem runAll_covers_iff_lastAt {start : RangeIndex α} (hstart : start.Reachable)
    {calls : List (Call α)} (hvalid : Call.AllValid calls) :
    ∃ index, Call.runAll start calls = .ok index ∧
      (index.WellFormed ∧ ∀ range ∈ index.ranges, range.Valid) ∧
      (∀ cut, index.Covers cut ↔
        (∃ range, Edit.lastAt? (calls.flatMap Call.edits) cut = some (.add range)) ∨
          Edit.lastAt? (calls.flatMap Call.edits) cut = none ∧ start.Covers cut) ∧
      (start = ∅ → ∀ cut, index.Covers cut ↔
        ∃ range, Edit.lastAt? (calls.flatMap Call.edits) cut = some (.add range)) ∧
      (∀ value, index.contains value = true ↔ index.Covers (.below value)) ∧
      index.complement.Reachable ∧
      (index.complement.WellFormed ∧ ∀ range ∈ index.complement.ranges, range.Valid) ∧
      ∀ cut, cut ≠ .aboveAll → (index.complement.Covers cut ↔ ¬ index.Covers cut) := by
  have hrun := Call.runAll_eq start calls
  have hindex := hstart.wellFormed.foldl_apply hvalid
  have hcovers := hstart.wellFormed.covers_foldl_apply hvalid
  refine ⟨_, hrun, ⟨hindex, hindex.valid⟩, hcovers, ?_, hindex.contains_iff,
    (hstart.run hvalid hrun).complement, ⟨hindex.complement, hindex.complement.valid⟩, ?_⟩
  · rintro rfl cut
    rw [hcovers, or_iff_left]
    exact fun h => not_covers_empty cut h.2
  · intro cut hcut
    rw [hindex.covers_complement, and_iff_right hcut]

/-- A run that goes on from a complement: two additions touch, a removal splits what they made,
and an empty range changes nothing. -/
theorem runAll_covers_iff_lastAt_complement :
    let start : RangeIndex Int := (ofRanges [⟨.below 1, .below 9⟩]).complement
    let calls : List (Call Int) :=
      [.addRanges [⟨.below 2, .below 4⟩, ⟨.below 4, .above 6⟩, ⟨.above 5, .above 5⟩],
        .remove ⟨.above 2, .below 3⟩, .addAll (.ofSet (.ofRange ⟨.below 9, .above 9⟩)),
        .removeAll (.ofIndex (ofRanges [⟨.above 20, .aboveAll⟩]))]
    ∃ index, Call.runAll start calls = .ok index ∧ index.WellFormed ∧
      index.Covers (.below 4) ∧ ¬ index.Covers (.above 2) ∧ index.contains 0 = true := by
  intro start calls
  have hfirst : Call.AllValid [Call.addRanges [(⟨.below 1, .below 9⟩ : Range Int)]] := by decide
  have hstart : start.Reachable := (Reachable.run .empty hfirst rfl).complement
  have hvalid : Call.AllValid calls := by decide
  obtain ⟨index, hrun, ⟨hindex, -⟩, hcovers, -, hcontains, -⟩ :=
    runAll_covers_iff_lastAt hstart hvalid
  refine ⟨index, hrun, hindex, (hcovers _).mpr (Or.inl ⟨_, rfl⟩), ?_, ?_⟩
  · intro hcut
    rcases (hcovers _).mp hcut with ⟨range, hlast⟩ | ⟨hlast, -⟩
    · cases hlast
    · cases hlast
  · refine (hcontains 0).mpr ((hcovers _).mpr (Or.inr ⟨rfl, ?_⟩))
    exact ⟨⟨.belowAll, .below 1⟩, by decide, by decide⟩

end RangeAlgebra.RangeIndex
