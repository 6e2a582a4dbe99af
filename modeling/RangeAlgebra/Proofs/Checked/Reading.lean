import RangeAlgebra.Proofs.Checked.Search
import RangeAlgebra.Proofs.Set.Lists

/-!
Reading ranges in checked steps. A stored sequence is read at positions below its size, a window
reads the sequence under it and clips the ends of its stretch, and a gap lies between two ranges
that are read. The reader of a list gives the ranges that the list lists: what a window or a
complement relies on is what its form says of the sequence under it.
-/

namespace RangeAlgebra

/-- The length may have to be worked out from ranges, so it takes steps as well. -/
structure Reader (α : Type) where
  length : Checked α Nat
  get : Nat → Checked α (Range α)

/-- Whether there is a gap before the first and after the last of some ranges, and how many gaps
there are in all. -/
structure GapShape where
  leading : Bool
  trailing : Bool
  count : Nat

namespace Reader

open Checked

variable {α : Type}

def ofArray (ranges : Array (Range α)) : Reader α where
  length := .ok ranges.size
  get i := (ranges[i]?).elim (.error (.position i ranges.size)) .ok

def gapShape (reader : Reader α) : Checked α GapShape := do
  let length ← reader.length
  let first ← reader.get 0
  require (1 ≤ length) (.underflow length 1)
  let last ← reader.get (length - 1)
  let leading := first.hasLowerBound
  let trailing := last.hasUpperBound
  return ⟨leading, trailing, length - 1 + leading.toNat + trailing.toNat⟩

def gapLower (reader : Reader α) (shape : GapShape) (i : Nat) : Checked α (Cut α) :=
  if !shape.leading then return (← reader.get i).upper
  else if i = 0 then return .belowAll
  else do
    require (1 ≤ i) (.underflow i 1)
    return (← reader.get (i - 1)).upper

def gapUpper (reader : Reader α) (shape : GapShape) (i : Nat) : Checked α (Cut α) := do
  let next := i + (!shape.leading).toNat
  if shape.trailing then
    require (1 ≤ shape.count) (.underflow shape.count 1)
    if i = shape.count - 1 then return .aboveAll else return (← reader.get next).lower
  else return (← reader.get next).lower

variable [Ord α] [DecidableEq α]

def window (reader : Reader α) (start count : Nat) (restriction : Range α) : Reader α where
  length := .ok count
  get i := do
    require (i < count) (.position i count)
    let range ← reader.get (start + i)
    if i = 0 then range.checkedClip restriction
    else
      require (1 ≤ count) (.underflow count 1)
      if i = count - 1 then range.checkedClip restriction else return range

def gaps (reader : Reader α) : Reader α where
  length := return (← reader.gapShape).count
  get i := do
    let shape ← reader.gapShape
    require (i < shape.count) (.position i shape.count)
    let lower ← reader.gapLower shape i
    let upper ← reader.gapUpper shape i
    Range.checkedOfCuts lower upper

omit [Ord α] [DecidableEq α]

/-- The reader gives the ranges and stops at no position below their number. -/
structure Reads (reader : Reader α) (ranges : List (Range α)) : Prop where
  length_eq : reader.length = .ok ranges.length
  get_eq : ∀ {i : Nat} {range : Range α}, ranges[i]? = some range → reader.get i = .ok range

theorem reads_ofArray (ranges : List (Range α)) : (ofArray ranges.toArray).Reads ranges := by
  refine ⟨rfl, ?_⟩
  intro i range hrange
  simp [ofArray, hrange]

variable {reader : Reader α} {ranges shown : List (Range α)}

theorem Reads.gapShape_eq (h : reader.Reads ranges) {first last : Range α}
    (hfirst : ranges.head? = some first) (hlast : ranges.getLast? = some last) :
    reader.gapShape = .ok ⟨first.hasLowerBound, last.hasUpperBound,
      ranges.length - 1 + first.hasLowerBound.toNat + last.hasUpperBound.toNat⟩ := by
  have hpositive : 1 ≤ ranges.length := List.length_pos_of_mem (List.mem_of_head? hfirst)
  rw [List.head?_eq_getElem?] at hfirst
  rw [List.getLast?_eq_getElem?] at hlast
  simp [gapShape, h.length_eq, h.get_eq hfirst, h.get_eq hlast, hpositive]

variable [Ord α] [DecidableEq α] [Std.TransOrd α] [Std.LawfulEqOrd α]

theorem Reads.window (h : reader.Reads ranges) (hvalid : ∀ range ∈ ranges, range.Valid)
    {restriction : Range α} (hrestriction : restriction.Valid) {start count : Nat}
    (hwindow : (Listing.ofList ranges).window start count restriction = .ofList shown) :
    (reader.window start count restriction).Reads shown := by
  have hcount : count = shown.length := congrArg Listing.length hwindow
  refine ⟨congrArg Except.ok hcount, ?_⟩
  intro i range hrange
  have hi : i < count := hcount ▸ (List.getElem?_eq_some_iff.mp hrange).1
  have hlisted : ((Listing.ofList ranges).window start count restriction).get? i = some range := by
    rw [hwindow]
    exact hrange
  simp only [Listing.window, if_pos hi, Listing.get?_ofList] at hlisted
  obtain ⟨stored, hstored, hclipped⟩ := Option.bind_eq_some_iff.mp hlisted
  have hstoredValid := hvalid stored (List.mem_of_getElem? hstored)
  simp only [Reader.window, require_of hi, ok_bind, h.get_eq hstored]
  by_cases hend : i = 0 ∨ i + 1 = count
  · rw [if_pos hend] at hclipped
    rw [Range.checkedClip_eq hstoredValid hrestriction hclipped]
    by_cases hfirst : i = 0
    · rw [if_pos hfirst]
    · rw [if_neg hfirst, require_of (by omega), ok_bind, if_pos (by omega)]
  · rw [if_neg hend] at hclipped
    rw [if_neg (by omega), require_of (by omega), ok_bind, if_neg (by omega)]
    cases hclipped
    rfl

omit [Ord α] [DecidableEq α] [Std.TransOrd α] [Std.LawfulEqOrd α] in
theorem Reads.gapLower_eq (h : reader.Reads ranges) {shape : GapShape} {i : Nat} {lower : Cut α}
    (hlower : (if shape.leading && i = 0 then some .belowAll
      else (ranges[i - shape.leading.toNat]?).map (·.upper)) = some lower) :
    reader.gapLower shape i = .ok lower := by
  unfold gapLower
  cases hleading : shape.leading with
  | false =>
      obtain ⟨range, hrange, rfl⟩ : ∃ range, ranges[i]? = some range ∧ range.upper = lower := by
        simpa [hleading] using hlower
      simp [h.get_eq hrange]
  | true =>
      by_cases hfirst : i = 0
      · simpa [hleading, hfirst] using hlower
      · obtain ⟨range, hrange, rfl⟩ :
            ∃ range, ranges[i - 1]? = some range ∧ range.upper = lower := by
          simpa [hleading, hfirst] using hlower
        have hpositive : 1 ≤ i := Nat.one_le_iff_ne_zero.mpr hfirst
        simp [hfirst, hpositive, h.get_eq hrange]

omit [Ord α] [DecidableEq α] [Std.TransOrd α] [Std.LawfulEqOrd α] in
theorem Reads.gapUpper_eq (h : reader.Reads ranges) {shape : GapShape} {i : Nat} {upper : Cut α}
    (hi : i < shape.count)
    (hupper : (if shape.trailing && i + 1 = shape.count then some .aboveAll
      else (ranges[i + (!shape.leading).toNat]?).map (·.lower)) = some upper) :
    reader.gapUpper shape i = .ok upper := by
  have hpositive : 1 ≤ shape.count := Nat.one_le_of_lt hi
  unfold gapUpper
  cases htrailing : shape.trailing with
  | false =>
      obtain ⟨range, hrange, rfl⟩ :
          ∃ range, ranges[i + (!shape.leading).toNat]? = some range ∧ range.lower = upper := by
        simpa [htrailing] using hupper
      simp [h.get_eq hrange]
  | true =>
      by_cases hlast : i + 1 = shape.count
      · have hposition : i = shape.count - 1 := by omega
        rw [htrailing] at hupper
        simp [hlast] at hupper
        simp [hpositive, ← hposition, hupper]
      · have hposition : ¬ i = shape.count - 1 := by omega
        obtain ⟨range, hrange, rfl⟩ :
            ∃ range, ranges[i + (!shape.leading).toNat]? = some range ∧ range.lower = upper := by
          simpa [htrailing, hlast] using hupper
        simp [hpositive, hposition, h.get_eq hrange]

omit [Std.LawfulEqOrd α] in
/-- A gap is read between two ranges, or at an end of the sequence. -/
theorem Reads.gaps (h : reader.Reads ranges) (hne : ranges ≠ [])
    (hgaps : (Listing.ofList ranges).gaps = .ofList shown) : reader.gaps.Reads shown := by
  have hfirst := List.head?_eq_some_head hne
  have hlast := List.getLast?_eq_some_getLast hne
  have hshape := h.gapShape_eq hfirst hlast
  generalize ranges.head hne = first at hfirst hshape
  generalize ranges.getLast hne = last at hlast hshape
  have hlisted : (Listing.ofList ranges).gaps.length =
      ranges.length - 1 + first.hasLowerBound.toNat + last.hasUpperBound.toNat := by
    simp [Listing.gaps, Listing.first?_ofList, Listing.last?_ofList, hfirst, hlast]
  have hcount : (Listing.ofList ranges).gaps.length = shown.length :=
    congrArg Listing.length hgaps
  refine ⟨?_, ?_⟩
  · simp only [Reader.gaps, hshape, ok_bind, ← hcount, hlisted]
    rfl
  · intro i range hrange
    have hi : i < (Listing.ofList ranges).gaps.length :=
      hcount ▸ (List.getElem?_eq_some_iff.mp hrange).1
    have hget : (Listing.ofList ranges).gaps.get? i = some range := by
      rw [hgaps]
      exact hrange
    obtain ⟨lower, upper, hlower, hupper, hcuts⟩ := Listing.exists_cuts_of_get?_gaps hget
    obtain ⟨rfl, hvalid⟩ := (Range.toOption_ofCuts_eq_some_iff lower upper range).mp hcuts
    rw [hlisted] at hi hupper
    simp only [Listing.first?_ofList, Listing.last?_ofList, hfirst, hlast, Option.any_some,
      Listing.get?_ofList] at hlower hupper
    simp only [Reader.gaps, hshape, ok_bind, require_of hi]
    rw [h.gapLower_eq hlower, ok_bind, h.gapUpper_eq hi hupper, ok_bind]
    exact Range.checkedOfCuts_eq hvalid

end Reader

variable {α : Type} [Ord α] [DecidableEq α]

def RangeList.reader : RangeList α → Reader α
  | .stored _ ranges => .ofArray ranges
  | .window _ parent start count restriction => parent.reader.window start count restriction
  | .complement source => source.reader.gaps

/-- The set of all positions gives its range wherever it is read. -/
def RangeSet.reader : RangeSet α → Reader α
  | .empty => ⟨.ok 0, fun i => .error (.position i 0)⟩
  | .all => ⟨.ok 1, fun _ => .ok .all⟩
  | .listed list => list.reader

variable [Std.TransOrd α] [Std.LawfulEqOrd α]

namespace RangeList

theorem Direct.reads {list : RangeList α} {ranges : List (Range α)} (h : list.Direct ranges) :
    list.reader.Reads ranges := by
  cases h with
  | stored hranges => exact Reader.reads_ofArray ranges
  | @window label storedLabel start count stored restriction hranges hproper hstart hstop =>
      have hwindow := Listing.window_ofList hranges hproper hstart hstop
      have hrestriction := Range.valid_of_lt hproper
      exact (Reader.reads_ofArray stored).window hranges.valid hrestriction hwindow

theorem Lists.reads {list : RangeList α} {ranges : List (Range α)} (h : list.Lists ranges) :
    list.reader.Reads ranges := by
  cases h with
  | direct h hranges => exact h.reads
  | complement h hranges =>
      exact h.reads.gaps hranges.ne_nil (Listing.gaps_ofList hranges.canonical hranges.ne_nil)

end RangeList

theorem RangeSet.Lists.reads {set : RangeSet α} {ranges : List (Range α)} (h : set.Lists ranges) :
    set.reader.Reads ranges := by
  cases h with
  | empty => exact ⟨rfl, fun hrange => by cases hrange⟩
  | all =>
      refine ⟨rfl, ?_⟩
      intro i range hrange
      have hsame := List.mem_of_getElem? hrange
      rw [List.mem_singleton] at hsame
      rw [hsame]
      rfl
  | listed h => exact h.reads

end RangeAlgebra
