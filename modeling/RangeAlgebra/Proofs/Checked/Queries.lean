import RangeAlgebra.Proofs.Checked.Reading

/-!
Queries in checked steps. Each searches the ranges of a reader and reads the range at the position
that the search answers with, so what has to be known is how that position lies to the length: the
answers for a key that does not occur are one below the first position and the length itself.
-/

namespace RangeAlgebra

namespace Reader

open Checked

variable {α : Type} [Ord α] [DecidableEq α]

def search (reader : Reader α) (key : Cut α) (cutOf : Range α → Cut α)
    (present : Search.Present) (absent : Search.Absent) : Checked α Int := do
  let length ← reader.length
  Search.checkedLocate length present absent fun i => do
    let range ← reader.get i
    return compare key (cutOf range)

/-- The last range that starts no later than the key. -/
def lastUpTo? (reader : Reader α) (key : Cut α) : Checked α (Option (Range α)) := do
  let found ← reader.search key Range.lower .any .nextLower
  if found = -1 then return none
  else
    let length ← reader.length
    let index ← position found length
    return some (← reader.get index)

def encloses (reader : Reader α) (range : Range α) : Checked α Bool :=
  return (← reader.lastUpTo? range.lower).any (·.encloses range)

def rangeContaining? (reader : Reader α) (value : α) : Checked α (Option (Range α)) :=
  return (← reader.lastUpTo? (.below value)).filter (·.contains value)

def overlapsAt (reader : Reader α) (found : Int) (range : Range α) : Checked α Bool :=
  if found < 0 then return false
  else do
    let length ← reader.length
    let index ← position found length
    if index < length then (← reader.get index).checkedOverlaps range else return false

def intersects (reader : Reader α) (range : Range α) : Checked α Bool := do
  let ceiling ← reader.search range.lower Range.lower .any .nextHigher
  if ← reader.overlapsAt ceiling range then return true
  else reader.overlapsAt (ceiling - 1) range

def span (reader : Reader α) : Checked α (Range α) := do
  let first ← reader.get 0
  let length ← reader.length
  require (1 ≤ length) (.underflow length 1)
  let last ← reader.get (length - 1)
  Range.checkedOfCuts first.lower last.upper

def slice (reader : Reader α) (start count : Nat) : Checked α (List (Range α)) :=
  (List.range' start count).mapM reader.get

variable {reader : Reader α} {ranges : List (Range α)}

omit [DecidableEq α] in
theorem Reads.search_eq (h : reader.Reads ranges) (key : Cut α) (cutOf : Range α → Cut α)
    (present : Search.Present) (absent : Search.Absent) :
    reader.search key cutOf present absent =
      .ok ((Listing.ofList ranges).search key cutOf present absent) := by
  simp only [search, h.length_eq, ok_bind]
  apply Search.checkedLocate_eq
  intro i hi
  have hrange := List.getElem?_eq_getElem hi
  simp [h.get_eq hrange, hrange]

omit [Ord α] [DecidableEq α] in
theorem Reads.slice_eq (h : reader.Reads ranges) {start count : Nat}
    (hwithin : start + count ≤ ranges.length) :
    reader.slice start count = .ok ((ranges.drop start).take count) := by
  induction count generalizing start with
  | zero => rfl
  | succ count ih =>
      have hstart : start < ranges.length := by omega
      have hrange := List.getElem?_eq_getElem hstart
      have hrest : reader.slice (start + 1) count = .ok ((ranges.drop (start + 1)).take count) :=
        ih (by omega)
      rw [slice] at hrest
      rw [slice, List.range'_succ, List.mapM_cons, h.get_eq hrange, hrest,
        List.drop_eq_getElem_cons hstart, List.take_succ_cons]
      rfl

variable [Std.TransOrd α] [Std.LawfulEqOrd α]

/-- Ranges that are there have a first and a last one, and what lies between their ends is a
range. -/
theorem Reads.exists_span (h : reader.Reads ranges) (hcanonical : Range.IsCanonical ranges)
    (hne : ranges ≠ []) :
    ∃ span, reader.span = .ok span ∧ (Listing.ofList ranges).span? = some span := by
  have hfirst := List.head?_eq_some_head hne
  have hlast := List.getLast?_eq_some_getLast hne
  refine ⟨_, ?_, Listing.span?_ofList hfirst hlast⟩
  have hpositive : 1 ≤ ranges.length := List.length_pos_iff.mpr hne
  have hspan := hcanonical.valid_span hfirst hlast
  rw [List.head?_eq_getElem?] at hfirst
  rw [List.getLast?_eq_getElem?] at hlast
  simp only [span, h.length_eq, h.get_eq hfirst, h.get_eq hlast, ok_bind, require_of hpositive]
  exact Range.checkedOfCuts_eq hspan

omit [DecidableEq α] in
/-- The search answers with the position of a range or with the one below the first. -/
theorem Reads.lastUpTo?_eq (h : reader.Reads ranges) (hcanonical : Range.IsCanonical ranges)
    (key : Cut α) :
    reader.lastUpTo? key =
      .ok ((Listing.ofList ranges).at?
        ((Listing.ofList ranges).search key Range.lower .any .nextLower)) := by
  have hlength : ranges.countP (·.lower ≤ key) ≤ ranges.length := List.countP_le_length
  rw [lastUpTo?, h.search_eq, ok_bind, Listing.search_any_nextLower hcanonical.ascending]
  generalize ranges.countP (·.lower ≤ key) = count at hlength ⊢
  cases count with
  | zero => rfl
  | succ count =>
      have hfound : ((count + 1 : Nat) : Int) - 1 = (count : Nat) := by omega
      have hsome : ¬ ((count : Nat) : Int) = -1 := by omega
      have hnonneg : ¬ ((count : Nat) : Int) < 0 := by omega
      have hrange := List.getElem?_eq_getElem (Nat.lt_of_succ_le hlength)
      rw [hfound, if_neg hsome, h.length_eq, ok_bind, position_natCast (Nat.le_of_succ_le hlength),
        ok_bind, h.get_eq hrange, ok_bind, Listing.at?, if_neg hnonneg, Int.toNat_natCast,
        Listing.get?_ofList, hrange]
      rfl

omit [DecidableEq α] in
theorem Reads.encloses_eq (h : reader.Reads ranges) (hcanonical : Range.IsCanonical ranges)
    (range : Range α) :
    reader.encloses range = .ok ((Listing.ofList ranges).encloses range) := by
  rw [encloses, h.lastUpTo?_eq hcanonical]
  rfl

omit [DecidableEq α] in
theorem Reads.rangeContaining?_eq (h : reader.Reads ranges)
    (hcanonical : Range.IsCanonical ranges) (value : α) :
    reader.rangeContaining? value = .ok ((Listing.ofList ranges).rangeContaining? value) := by
  rw [rangeContaining?, h.lastUpTo?_eq hcanonical]
  rfl

/-- No range is read at the length itself, nor below the first position. -/
theorem Reads.overlapsAt_eq (h : reader.Reads ranges) (hvalid : ∀ range ∈ ranges, range.Valid)
    {range : Range α} (hrange : range.Valid) {found : Int} (hfound : found ≤ ranges.length) :
    reader.overlapsAt found range =
      .ok (((Listing.ofList ranges).at? found).any (·.overlaps range)) := by
  unfold overlapsAt Listing.at?
  by_cases hbelow : found < 0
  · rw [if_pos hbelow, if_pos hbelow]
    rfl
  · obtain ⟨index, rfl⟩ := Int.eq_ofNat_of_zero_le (Int.not_lt.mp hbelow)
    have hindex : index ≤ ranges.length := by omega
    rw [if_neg hbelow, if_neg hbelow, h.length_eq, ok_bind, position_natCast hindex, ok_bind,
      Int.toNat_natCast, Listing.get?_ofList]
    by_cases hlt : index < ranges.length
    · have hstored := List.getElem?_eq_getElem hlt
      rw [if_pos hlt, h.get_eq hstored, ok_bind, hstored]
      exact Range.checkedOverlaps_eq (hvalid _ (List.getElem_mem hlt)) hrange
    · rw [if_neg hlt, List.getElem?_eq_none (Nat.not_lt.mp hlt)]
      rfl

theorem Reads.intersects_eq (h : reader.Reads ranges) (hcanonical : Range.IsCanonical ranges)
    {range : Range α} (hrange : range.Valid) :
    reader.intersects range = .ok ((Listing.ofList ranges).intersects range) := by
  have hlength : ranges.countP (·.lower < range.lower) ≤ ranges.length := List.countP_le_length
  rw [intersects, h.search_eq, ok_bind, Listing.intersects]
  simp only [Listing.search_any_nextHigher hcanonical.ascending]
  rw [h.overlapsAt_eq hcanonical.valid hrange (by omega), ok_bind,
    h.overlapsAt_eq hcanonical.valid hrange (by omega)]
  split
  · rename_i hfirst
    rw [hfirst]
    rfl
  · rename_i hfirst
    rw [Bool.not_eq_true] at hfirst
    rw [hfirst]
    rfl

end Reader

namespace RangeList

open Checked

variable {α : Type} [Ord α] [DecidableEq α]

/-- The first range that ends after the restriction starts. -/
def checkedStart (list : RangeList α) (range : Range α) : Checked α Nat :=
  if range.hasLowerBound then do
    let found ← list.reader.search range.lower Range.upper .firstAfter .nextHigher
    let length ← list.reader.length
    position found length
  else return 0

/-- The first range that does not start before the restriction ends. -/
def checkedStop (list : RangeList α) (range : Range α) : Checked α Nat :=
  if range.hasUpperBound then do
    let found ← list.reader.search range.upper Range.lower .first .nextHigher
    let length ← list.reader.length
    position found length
  else list.reader.length

def checkedRestrict? (list : RangeList α) (range : Range α) (label : Nat) :
    Checked α (Option (RangeList α)) :=
  if range.isEmpty then return none
  else do
    let start ← list.checkedStart range
    let stop ← list.checkedStop range
    let count := stop - start
    if count = 0 then return none
    else if list.isPartialView then
      let stored ← list.reader.slice start count
      return some (.window label (.stored label stored.toArray) 0 count range)
    else return some (.window label list start count range)

variable [Std.TransOrd α] [Std.LawfulEqOrd α] {list : RangeList α} {ranges : List (Range α)}

theorem Lists.checkedStart_eq (h : list.Lists ranges) (range : Range α) :
    list.checkedStart range =
      .ok (if range.hasLowerBound then
        (list.listing.search range.lower Range.upper .firstAfter .nextHigher).toNat else 0) := by
  have hlength : ranges.countP (·.upper ≤ range.lower) ≤ ranges.length := List.countP_le_length
  unfold checkedStart
  rw [h.reads.search_eq, h.listing_eq,
    Listing.search_firstAfter h.listable.canonical.ascending_upper]
  split
  · rw [ok_bind, h.reads.length_eq, ok_bind, position_natCast hlength]
    rfl
  · rfl

theorem Lists.checkedStop_eq (h : list.Lists ranges) (range : Range α) :
    list.checkedStop range =
      .ok (if range.hasUpperBound then
        (list.listing.search range.upper Range.lower .first .nextHigher).toNat
        else list.listing.length) := by
  have hlength : ranges.countP (·.lower < range.upper) ≤ ranges.length := List.countP_le_length
  unfold checkedStop
  rw [h.reads.search_eq, h.listing_eq, Listing.search_first h.listable.canonical.ascending]
  split
  · rw [ok_bind, h.reads.length_eq, ok_bind, position_natCast hlength]
    rfl
  · rw [h.reads.length_eq]
    rfl

/-- The ranges of the stretch are all there to be stored. -/
theorem Lists.checkedRestrict?_eq (h : list.Lists ranges) (range : Range α) (label : Nat) :
    list.checkedRestrict? range label = .ok (list.restrict? range label) := by
  have hstop : (if range.hasUpperBound then
      (list.listing.search range.upper Range.lower .first .nextHigher).toNat
      else list.listing.length) ≤ ranges.length := by
    have hlength : ranges.countP (·.lower < range.upper) ≤ ranges.length := List.countP_le_length
    rw [h.listing_eq, Listing.search_first h.listable.canonical.ascending]
    split
    · exact hlength
    · exact Nat.le_refl ranges.length
  unfold checkedRestrict? RangeList.restrict?
  rw [h.checkedStart_eq, ok_bind, h.checkedStop_eq, ok_bind]
  dsimp only
  generalize (if range.hasLowerBound then _ else 0) = start
  generalize (if range.hasUpperBound then _ else list.listing.length) = stop at hstop ⊢
  split
  · rfl
  · split
    · rfl
    · split
      · rw [h.reads.slice_eq (by omega), ok_bind, h.listing_eq, Listing.slice_ofList]
        rfl
      · rfl

end RangeList

end RangeAlgebra
