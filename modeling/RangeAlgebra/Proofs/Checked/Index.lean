import RangeAlgebra.Proofs.Checked.Steps
import RangeAlgebra.Proofs.Index.Changes

/-!
The operations of an index in checked steps. An addition makes the range that it files from the cuts
it has joined, a removal makes what sticks out of the removed range on either side, and both erase
the keys in between. A stored range that sticks out on both sides is met twice by a removal, which
files what is left above twice; the second time it takes its own place.
-/

namespace RangeAlgebra

open Checked

variable {α : Type} [Ord α] [DecidableEq α]

namespace Range

def checkedGapsFrom (lower : Cut α) : List (Range α) → Checked α (List (Range α))
  | [] => if lower = .aboveAll then return [] else return [← checkedOfCuts lower .aboveAll]
  | range :: rest =>
    if lower < range.lower then do
      let gap ← checkedOfCuts lower range.lower
      return gap :: (← checkedGapsFrom range.upper rest)
    else checkedGapsFrom range.upper rest

/-- What a stored range has above a removed one. -/
def checkedAbove (range stored : Range α) : Checked α (List (Range α)) :=
  if range.hasUpperBound && range.upper < stored.upper then
    return [← checkedOfCuts range.upper stored.upper]
  else return []

/-- What a stored range that starts before a removed one has on either side of it. -/
def checkedAround (range stored : Range α) : Checked α (List (Range α)) :=
  if range.lower < stored.upper then do
    let above ← range.checkedAbove stored
    let below ← checkedOfCuts stored.lower range.lower
    return above ++ [below]
  else return []

variable [Std.TransOrd α] [Std.LawfulEqOrd α]

theorem checkedGapsFrom_eq (lower : Cut α) (ranges : List (Range α)) :
    checkedGapsFrom lower ranges = .ok (gapsFrom lower ranges) := by
  induction ranges generalizing lower with
  | nil =>
      unfold checkedGapsFrom gapsFrom
      split
      · rfl
      · rename_i hend
        have hlast := Cut.le_aboveAll lower
        have hvalid : (Range.mk lower .aboveAll).Valid := valid_of_lt (by grind)
        rw [checkedOfCuts_eq hvalid]
        rfl
  | cons range rest ih =>
      unfold checkedGapsFrom gapsFrom
      split
      · rename_i hgap
        have hvalid : (Range.mk lower range.lower).Valid := valid_of_lt hgap
        rw [checkedOfCuts_eq hvalid, ih]
        rfl
      · exact ih range.upper

theorem checkedAbove_eq {range : Range α} (hvalid : range.Valid) (stored : Range α) :
    range.checkedAbove stored =
      .ok (if range.upper < stored.upper then [⟨range.upper, stored.upper⟩] else []) := by
  unfold checkedAbove
  by_cases hbeyond : range.upper < stored.upper
  · have hbound : range.hasUpperBound = true := by
      rw [hvalid.hasUpperBound_iff]
      intro hend
      rw [hend] at hbeyond
      exact Std.not_lt.mpr (Cut.le_aboveAll stored.upper) hbeyond
    have hrest : (Range.mk range.upper stored.upper).Valid := valid_of_lt hbeyond
    rw [if_pos (by simp [hbound, hbeyond]), if_pos hbeyond, checkedOfCuts_eq hrest]
    rfl
  · rw [if_neg (by simp [hbeyond]), if_neg hbeyond]
    rfl

end Range

namespace RangeIndex

def checkedIntersects (index : RangeIndex α) (range : Range α) : Checked α Bool := do
  let overlaps (found? : Option (Range α)) : Checked α Bool :=
    found?.elim (return false) (·.checkedOverlaps range)
  if ← overlaps (index.byLowerCut.from? range.lower) then return true
  else overlaps (index.byLowerCut.before? range.lower)

def checkedSpan (index : RangeIndex α) : Checked α (Except (Error α) (Range α)) :=
  match index.byLowerCut.first?, index.byLowerCut.last? with
  | some first, some last => return .ok (← first.checkedSpan last)
  | _, _ => return .error .emptySpan

def checkedComplement (index : RangeIndex α) : Checked α (RangeIndex α) :=
  return (← Range.checkedGapsFrom .belowAll index.ranges).foldl file ∅

/-- Looks for the keys from the start of the range on and below its end. -/
def checkedEraseWithin (index : RangeIndex α) (range : Range α) : Checked α (RangeIndex α) := do
  require (range.lower ≤ range.upper) (.keys range.lower range.upper)
  return index.eraseWithin range

def checkedAdd (index : RangeIndex α) (range : Range α) : Checked α (RangeIndex α) :=
  if range.isEmpty then return index
  else do
    let joined := range.absorb (index.byLowerCut.before? range.lower)
    let joined := joined.absorb (index.byLowerCut.upTo? joined.upper)
    let rest ← index.checkedEraseWithin joined
    return rest.file (← Range.checkedOfCuts joined.lower joined.upper)

def checkedRemove (index : RangeIndex α) (range : Range α) : Checked α (RangeIndex α) :=
  if range.isEmpty then return index
  else do
    let around ← (index.byLowerCut.before? range.lower).elim (return []) range.checkedAround
    let above ← (index.byLowerCut.upTo? range.upper).elim (return []) range.checkedAbove
    let rest ← index.checkedEraseWithin range
    return (around ++ above).foldl file rest

def checkedAddAll (index : RangeIndex α) (ranges : List (Range α)) : Checked α (RangeIndex α) :=
  ranges.foldlM checkedAdd index

def checkedRemoveAll (index : RangeIndex α) (ranges : List (Range α)) :
    Checked α (RangeIndex α) :=
  ranges.foldlM checkedRemove index

variable [Std.TransOrd α] [Std.LawfulEqOrd α] {index : RangeIndex α}

theorem checkedComplement_eq (index : RangeIndex α) :
    index.checkedComplement = .ok index.complement := by
  rw [checkedComplement, Range.checkedGapsFrom_eq]
  rfl

theorem WellFormed.checkedIntersects_eq (h : index.WellFormed) {range : Range α}
    (hvalid : range.Valid) : index.checkedIntersects range = .ok (index.intersects range) := by
  have hoverlaps : ∀ found? : Option (Range α), (∀ stored, found? = some stored → stored.Valid) →
      (found?.elim (return false) (·.checkedOverlaps range) : Checked α Bool) =
        .ok (found?.any (·.overlaps range)) := by
    intro found? hfound
    cases found? with
    | none => rfl
    | some stored => exact Range.checkedOverlaps_eq (hfound stored rfl) hvalid
  have hfirst : ∀ stored, index.byLowerCut.from? range.lower = some stored → stored.Valid := by
    intro stored hstored
    rw [h.filed.from?_eq] at hstored
    exact h.canonical.valid stored (h.canonical.firstStarting?_spec hstored).1
  have hlast : ∀ stored, index.byLowerCut.before? range.lower = some stored → stored.Valid := by
    intro stored hstored
    rw [h.filed.before?_eq] at hstored
    exact h.canonical.valid stored (h.canonical.lastStarting?_spec hstored).1
  unfold checkedIntersects RangeIndex.intersects
  simp only [hoverlaps _ hfirst, hoverlaps _ hlast, ok_bind]
  split
  · rename_i hfound
    rw [hfound]
    rfl
  · rename_i hfound
    rw [Bool.not_eq_true] at hfound
    rw [hfound]
    rfl

theorem WellFormed.checkedSpan_eq (h : index.WellFormed) :
    index.checkedSpan = .ok index.span := by
  unfold checkedSpan RangeIndex.span
  cases hfirst : index.byLowerCut.first? with
  | none => rfl
  | some first =>
      cases hlast : index.byLowerCut.last? with
      | none => rfl
      | some last =>
          have hfirstValid := h.canonical.valid first (List.mem_of_head? hfirst)
          have hlastValid := h.canonical.valid last (List.mem_of_getLast? hlast)
          simp only [Range.checkedSpan_eq hfirstValid hlastValid, ok_bind]
          rfl

omit [DecidableEq α] [Std.TransOrd α] [Std.LawfulEqOrd α] in
theorem checkedEraseWithin_eq (index : RangeIndex α) {range : Range α}
    (hordered : range.lower ≤ range.upper) :
    index.checkedEraseWithin range = .ok (index.eraseWithin range) := by
  rw [checkedEraseWithin, require_of hordered]
  rfl

theorem WellFormed.checkedAdd_eq (h : index.WellFormed) {range : Range α} (hvalid : range.Valid) :
    index.checkedAdd range = .ok (index.add range) := by
  unfold checkedAdd RangeIndex.add
  split
  · rfl
  · rename_i hnonempty
    have hproper := hvalid.lt_of_not_isEmpty hnonempty
    have hjoins := Range.joins_absorb h.canonical hproper
    rw [← h.filed.before?_eq] at hjoins
    simp only [← h.filed.upTo?_eq] at hjoins
    dsimp only
    generalize Range.absorb _ (index.byLowerCut.upTo? _) = joined at hjoins ⊢
    have hjoined : joined.lower < joined.upper :=
      Std.lt_of_le_of_lt hjoins.lower_le (Std.lt_of_lt_of_le hproper hjoins.le_upper)
    rw [checkedEraseWithin_eq index (Std.le_of_lt hjoined), ok_bind,
      Range.checkedOfCuts_eq (Range.valid_of_lt hjoined)]
    rfl

theorem checkedAbove_elim (found? : Option (Range α)) {range : Range α} (hvalid : range.Valid) :
    (found?.elim (return []) range.checkedAbove : Checked α (List (Range α))) =
      .ok ((found?.filter (range.upper < ·.upper)).map
        fun stored => ⟨range.upper, stored.upper⟩).toList := by
  cases found? with
  | none => rfl
  | some stored =>
      rw [Option.elim_some, Range.checkedAbove_eq hvalid]
      by_cases hbeyond : range.upper < stored.upper
      · simp [Option.filter, hbeyond]
      · simp [Option.filter, hbeyond]

/-- A stored range that sticks out on both sides is the one that reaches beyond the end, so what it
has there is filed twice. -/
theorem WellFormed.checkedRemove_eq (h : index.WellFormed) {range : Range α}
    (hvalid : range.Valid) : index.checkedRemove range = .ok (index.remove range) := by
  unfold checkedRemove RangeIndex.remove
  split
  · rfl
  · rename_i hnonempty
    have hproper := hvalid.lt_of_not_isEmpty hnonempty
    have hrest := checkedEraseWithin_eq index hvalid.1
    rw [checkedAbove_elim _ hvalid, hrest]
    cases hbelow : (index.byLowerCut.before? range.lower).filter (range.lower < ·.upper) with
    | none =>
        have haround : ((index.byLowerCut.before? range.lower).elim (return [])
            range.checkedAround : Checked α (List (Range α))) = .ok [] := by
          cases hbefore : index.byLowerCut.before? range.lower with
          | none => rfl
          | some stored =>
              have hends : ¬ range.lower < stored.upper := by
                rw [hbefore] at hbelow
                simpa using hbelow
              rw [Option.elim_some, Range.checkedAround, if_neg hends]
              rfl
        rw [haround]
        rfl
    | some stored =>
        have hbefore := (Option.filter_eq_some_iff.mp hbelow).1
        rw [h.filed.before?_eq, h.canonical.filter_split_eq_some_iff] at hbelow
        obtain ⟨hmember, hstart, hreach⟩ := hbelow
        have hfirst : (Range.mk stored.lower range.lower).Valid := Range.valid_of_lt hstart
        have haround : range.checkedAround stored = .ok ((if range.upper < stored.upper then
            [⟨range.upper, stored.upper⟩] else []) ++ [⟨stored.lower, range.lower⟩]) := by
          rw [Range.checkedAround, if_pos hreach, Range.checkedAbove_eq hvalid, ok_bind,
            Range.checkedOfCuts_eq hfirst]
          rfl
        rw [hbefore, Option.elim_some, haround]
        by_cases hbeyond : range.upper < stored.upper
        · have hcovers : stored.Covers range.upper :=
            ⟨Std.le_of_lt (Std.lt_trans hstart hproper), hbeyond⟩
          have habove := (h.canonical.filter_covering_eq_some_iff range.upper stored).mpr
            ⟨hmember, hcovers⟩
          rw [← h.filed.upTo?_eq] at habove
          rw [if_pos hbeyond, habove]
          exact congrArg Except.ok ((h.filed.eraseWithin range).file_twice _ _)
        · rw [if_neg hbeyond]
          rfl

theorem WellFormed.checkedAddAll_eq (h : index.WellFormed) {ranges : List (Range α)}
    (hvalid : ∀ range ∈ ranges, range.Valid) :
    index.checkedAddAll ranges = .ok (index.addAll ranges) := by
  apply foldlM_eq _ h
  intro range hrange index h
  exact ⟨h.checkedAdd_eq (hvalid range hrange), h.add (hvalid range hrange)⟩

theorem WellFormed.checkedRemoveAll_eq (h : index.WellFormed) {ranges : List (Range α)}
    (hvalid : ∀ range ∈ ranges, range.Valid) :
    index.checkedRemoveAll ranges = .ok (index.removeAll ranges) := by
  apply foldlM_eq _ h
  intro range hrange index h
  exact ⟨h.checkedRemove_eq (hvalid range hrange), h.remove (hvalid range hrange)⟩

end RangeIndex

end RangeAlgebra
