import RangeAlgebra.Proofs.Listing

/-!
What a window lists. Only the first and the last range of its stretch are clipped when they are
read. That is enough: between them every range lies inside the restriction, because its neighbour
on either side still reaches into it, so the window lists what the restriction cuts out of the
whole sequence.
-/

namespace RangeAlgebra.Listing

universe u

variable {α : Type u} [Ord α] [Std.TransOrd α] [Std.LawfulEqOrd α]

/-- The range at a position of the stretch, with only the ends of the stretch clipped. -/
private theorem clip_at_position {ranges : List (Range α)} (h : Range.IsCanonical ranges)
    {restriction : Range α} {start count : Nat}
    (hstart : start = Range.endedBefore restriction ranges)
    (hstop : start + count = Range.startedBefore restriction ranges) {i : Nat} (hi : i < count)
    (hlength : start + i < ranges.length) :
    (if i = 0 ∨ i + 1 = count then ranges[start + i].intersection restriction
      else some ranges[start + i]) = some (Range.clip restriction ranges[start + i]) := by
  have hended := h.lt_endedBefore_iff restriction (start + i) hlength
  have hstarted := h.lt_startedBefore_iff restriction (start + i) hlength
  rw [← hstart] at hended
  rw [← hstop] at hstarted
  have hreach : restriction.lower < ranges[start + i].upper := by grind
  have hbegin : ranges[start + i].lower < restriction.upper := by grind
  by_cases hend : i = 0 ∨ i + 1 = count
  · rw [if_pos hend]
    apply Range.intersection_eq_clip
    grind
  · have hpairs := List.pairwise_iff_getElem.mp h.disconnected
    have hlower : restriction.lower < ranges[start + i].lower := by
      have hbefore := h.lt_endedBefore_iff restriction (start + i - 1) (by omega)
      have hgap := hpairs (start + i - 1) (start + i) (by omega) hlength (by omega)
      rw [← hstart] at hbefore
      grind
    have hupper : ranges[start + i].upper < restriction.upper := by
      have hnext : start + i + 1 < ranges.length := by
        have hle : Range.startedBefore restriction ranges ≤ ranges.length :=
          List.countP_le_length
        omega
      have hafter := h.lt_startedBefore_iff restriction (start + i + 1) hnext
      have hgap := hpairs (start + i) (start + i + 1) hlength hnext (by omega)
      rw [← hstop] at hafter
      grind
    rw [if_neg hend, Range.clip_eq_self (Std.le_of_lt hlower) (Std.le_of_lt hupper)]

variable [DecidableEq α]

theorem window_ofList {ranges : List (Range α)} (h : Range.IsCanonical ranges)
    {restriction : Range α} (hproper : restriction.lower < restriction.upper)
    {start count : Nat} (hstart : start = Range.endedBefore restriction ranges)
    (hstop : start + count = Range.startedBefore restriction ranges) :
    (ofList ranges).window start count restriction =
      ofList (Range.within restriction ranges) := by
  have hle : Range.startedBefore restriction ranges ≤ ranges.length := List.countP_le_length
  have hwithin : Range.within restriction ranges =
      ((ranges.drop start).take count).map (Range.clip restriction) := by
    rw [h.within_eq_map_clip hproper, ← hstart, ← hstop, Nat.add_sub_cancel_left]
  rw [hwithin]
  apply eq_ofList
  · simp only [window, List.length_map, List.length_take, List.length_drop]
    omega
  · intro i
    by_cases hi : i < count
    · have hlength : start + i < ranges.length := by omega
      have hget : (ofList ranges).get? (start + i) = some ranges[start + i] :=
        List.getElem?_eq_getElem hlength
      have hclip := clip_at_position h hstart hstop hi hlength
      rw [List.getElem?_map, List.getElem?_take_of_lt hi, List.getElem?_drop,
        List.getElem?_eq_getElem hlength]
      simp only [window, if_pos hi, hget]
      exact hclip
    · simp only [window, if_neg hi]
      rw [eq_comm, List.getElem?_eq_none_iff, List.length_map, List.length_take]
      omega

end RangeAlgebra.Listing
