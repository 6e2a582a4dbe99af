import RangeAlgebra.Proofs.Set.Reachable
import RangeAlgebra.RangeSet.Traversal

/-!
Reading a set from both ends. A traversal keeps only two positions, and what it is known by is the
stretch of the set's sequence between them: a step at the front takes the first range of the
stretch, a step at the back the last one, and the number left is its length. So whatever the order
of the steps, the ranges read at the front, the stretch that is left and the ranges read at the
back, the last of these first, make up the sequence.
-/

namespace RangeAlgebra

universe u

variable {α : Type u}

namespace Traversal

/-- What a traversal can be asked for. -/
inductive Call where
  | next
  | nextBack
  | remaining
deriving DecidableEq, Repr

/-- The answer to a call. -/
inductive Event (α : Type u) where
  | next (given : Option (Range α))
  | nextBack (given : Option (Range α))
  | remaining (count : Nat)
deriving DecidableEq, Repr

/-- The range that was read at the front. -/
def Event.front? : Event α → Option (Range α)
  | .next given => given
  | .nextBack _ | .remaining _ => none

/-- The range that was read at the back. -/
def Event.back? : Event α → Option (Range α)
  | .nextBack given => given
  | .next _ | .remaining _ => none

/-- What a call gives when no range is left. -/
def Call.spent : Call → Event α
  | .next => .next none
  | .nextBack => .nextBack none
  | .remaining => .remaining 0

variable [Ord α] [DecidableEq α]

def run (traversal : Traversal α) : Call → Event α × Traversal α
  | .next => (.next traversal.next.1, traversal.next.2)
  | .nextBack => (.nextBack traversal.nextBack.1, traversal.nextBack.2)
  | .remaining => (.remaining traversal.sizeHint.1, traversal)

/-- The answers to a word of calls, and the traversal after them. -/
def runAll (traversal : Traversal α) : List Call → List (Event α) × Traversal α
  | [] => ([], traversal)
  | call :: rest =>
    let (event, after) := traversal.run call
    let (events, last) := after.runAll rest
    (event :: events, last)

/-- The stretch of the set's sequence between the two positions. -/
structure Awaits (traversal : Traversal α) (left : List (Range α)) : Prop where
  wellFormed : traversal.set.WellFormed
  split : ∃ before after, traversal.set.ranges = before ++ (left ++ after) ∧
    traversal.front = before.length ∧ traversal.back = before.length + left.length

variable {traversal : Traversal α} {left : List (Range α)}

theorem Awaits.remaining_eq (h : traversal.Awaits left) : traversal.remaining = left.length := by
  obtain ⟨before, after, -, hfront, hback⟩ := h.split
  rw [remaining, hfront, hback, Nat.add_sub_cancel_left]

theorem Awaits.eq_of_nil (h : traversal.Awaits []) :
    traversal.next = (none, traversal) ∧ traversal.nextBack = (none, traversal) := by
  obtain ⟨before, after, -, hfront, hback⟩ := h.split
  have hspent : ¬ traversal.front < traversal.back := by
    simp [hfront, hback]
  exact ⟨if_neg hspent, if_neg hspent⟩

variable [Std.TransOrd α] [Std.LawfulEqOrd α]

theorem awaits_ofSet {set : RangeSet α} (h : set.WellFormed) : (ofSet set).Awaits set.ranges where
  wellFormed := h
  split := by
    refine ⟨[], [], by simp [ofSet], rfl, ?_⟩
    change set.rangeCount = _
    simp [RangeSet.Lists.rangeCount_eq h]

/-- A position of the stretch is read without a miss. -/
theorem get?_eq (h : traversal.set.WellFormed) {before after : List (Range α)} {range : Range α}
    (hranges : traversal.set.ranges = before ++ range :: after) :
    traversal.set.listing.get? before.length = some range := by
  rw [RangeSet.Lists.listing_eq h, Listing.get?_ofList, hranges]
  simp

theorem Awaits.next_spec {range : Range α} (h : traversal.Awaits (range :: left)) :
    traversal.next.1 = some range ∧ traversal.next.2.Awaits left := by
  obtain ⟨before, after, hranges, hfront, hback⟩ := h.split
  have hlt : traversal.front < traversal.back := by
    simp [hfront, hback]
  have hread := get?_eq h.wellFormed hranges
  rw [← hfront] at hread
  rw [Traversal.next, if_pos hlt]
  refine ⟨hread, h.wellFormed, before ++ [range], after, ?_, ?_, ?_⟩
  · simp [hranges]
  · simp [hfront]
  · simp [hback]
    omega

theorem Awaits.nextBack_spec {range : Range α} (h : traversal.Awaits (left ++ [range])) :
    traversal.nextBack.1 = some range ∧ traversal.nextBack.2.Awaits left := by
  obtain ⟨before, after, hranges, hfront, hback⟩ := h.split
  have hlt : traversal.front < traversal.back := by
    simp [hfront, hback]
  have hlast : traversal.back - 1 = (before ++ left).length := by
    simp [hback]
  have hsplit : traversal.set.ranges = before ++ left ++ range :: after := by
    simp [hranges]
  have hread := get?_eq h.wellFormed hsplit
  rw [← hlast] at hread
  rw [nextBack, if_pos hlt]
  refine ⟨hread, h.wellFormed, before, range :: after, ?_, hfront, ?_⟩
  · simp [hranges]
  · simp [hlast]

/-- Each call takes at most one range off the stretch, at its own end. -/
theorem Awaits.run_spec (h : traversal.Awaits left) (call : Call) :
    ∃ rest, (traversal.run call).2.Awaits rest ∧
      left = (traversal.run call).1.front?.toList ++ rest ++
        (traversal.run call).1.back?.toList := by
  cases call with
  | next =>
      cases left with
      | nil =>
          obtain ⟨hnext, -⟩ := h.eq_of_nil
          refine ⟨[], ?_, ?_⟩
          · rwa [run, hnext]
          · simp [run, hnext, Event.front?, Event.back?]
      | cons range rest =>
          obtain ⟨hgiven, hrest⟩ := h.next_spec
          exact ⟨rest, hrest, by simp [run, hgiven, Event.front?, Event.back?]⟩
  | nextBack =>
      rcases List.eq_nil_or_concat' left with rfl | ⟨rest, range, rfl⟩
      · obtain ⟨-, hback⟩ := h.eq_of_nil
        refine ⟨[], ?_, ?_⟩
        · rwa [run, hback]
        · simp [run, hback, Event.front?, Event.back?]
      · obtain ⟨hgiven, hrest⟩ := h.nextBack_spec
        exact ⟨rest, hrest, by simp [run, hgiven, Event.front?, Event.back?]⟩
  | remaining => exact ⟨left, h, by simp [run, Event.front?, Event.back?]⟩

/-- By induction on the word. What is read at the back comes off the stretch from its end, so a
later range stands before an earlier one. -/
theorem Awaits.runAll_spec (h : traversal.Awaits left) (calls : List Call) :
    ∃ rest, (traversal.runAll calls).2.Awaits rest ∧
      left = (traversal.runAll calls).1.filterMap Event.front? ++ rest ++
        ((traversal.runAll calls).1.filterMap Event.back?).reverse := by
  induction calls generalizing traversal left with
  | nil => exact ⟨left, h, by simp [runAll]⟩
  | cons call calls ih =>
      obtain ⟨between, hbetween, rfl⟩ := h.run_spec call
      obtain ⟨rest, hrest, rfl⟩ := ih hbetween
      refine ⟨rest, hrest, ?_⟩
      simp only [runAll, List.filterMap_eq_flatMap_toList, List.flatMap_cons, List.reverse_append]
      cases (traversal.run call).1.back? <;> simp

omit [Std.TransOrd α] [Std.LawfulEqOrd α] in
/-- Once the two ends have met, every call finds nothing and changes nothing. -/
theorem Awaits.runAll_of_nil (h : traversal.Awaits []) (calls : List Call) :
    traversal.runAll calls = (calls.map Call.spent, traversal) := by
  have hcall (call : Call) : traversal.run call = (call.spent, traversal) := by
    obtain ⟨hnext, hback⟩ := h.eq_of_nil
    have hcount := h.remaining_eq
    cases call <;> simp [run, sizeHint, Call.spent, hnext, hback, hcount]
  induction calls with
  | nil => rfl
  | cons call calls ih => simp [runAll, hcall, ih]

theorem Awaits.next_eq_none_iff (h : traversal.Awaits left) :
    traversal.next.1 = none ↔ left = [] := by
  cases left with
  | nil => simp [h.eq_of_nil.1]
  | cons range rest => simp [h.next_spec.1]

theorem Awaits.nextBack_eq_none_iff (h : traversal.Awaits left) :
    traversal.nextBack.1 = none ↔ left = [] := by
  rcases List.eq_nil_or_concat' left with rfl | ⟨rest, range, rfl⟩
  · simp [h.eq_of_nil.2]
  · simp [h.nextBack_spec.1]

theorem Awaits.descending_eq (h : traversal.Awaits left) :
    traversal.descending = left.reverse := by
  induction left using List.reverseRecOn generalizing traversal with
  | nil =>
      rw [descending]
      split
      · rfl
      · rename_i range after hsome
        rw [h.eq_of_nil.2] at hsome
        cases hsome
  | append_singleton rest range ih =>
      obtain ⟨hgiven, hrest⟩ := h.nextBack_spec
      rw [descending]
      split
      · rename_i hnone
        simp [hnone] at hgiven
      · rename_i given after hsome
        rw [hsome] at hgiven hrest
        cases hgiven
        rw [ih hrest]
        simp

end Traversal

namespace RangeSet

variable [Ord α] [DecidableEq α] [Std.TransOrd α] [Std.LawfulEqOrd α]

/-- Whatever a traversal has been asked for, it has read a first part of the ranges at the front and
a last part at the back, so far without meeting itself. It knows how many are left, refuses to read
exactly when none is, and stays there. -/
theorem traversal_exact {set : RangeSet α} (h : set.Reachable) :
    set.ranges.length = set.rangeCount ∧
      (∀ calls : List Traversal.Call,
        let outcome := (Traversal.ofSet set).runAll calls
        let fronts := outcome.1.filterMap Traversal.Event.front?
        let backs := outcome.1.filterMap Traversal.Event.back?
        fronts.length + backs.length ≤ set.rangeCount ∧
          fronts = set.ranges.take fronts.length ∧
          backs = set.ranges.reverse.take backs.length ∧
          outcome.2.sizeHint = (set.rangeCount - fronts.length - backs.length,
            some (set.rangeCount - fronts.length - backs.length)) ∧
          (outcome.2.next.1 = none ↔ fronts.length + backs.length = set.rangeCount) ∧
          (outcome.2.nextBack.1 = none ↔ fronts.length + backs.length = set.rangeCount) ∧
          (fronts.length + backs.length = set.rangeCount → ∀ more : List Traversal.Call,
            outcome.2.runAll more = (more.map Traversal.Call.spent, outcome.2))) ∧
      set.descendingRanges = set.ranges.reverse := by
  have hcount : set.rangeCount = set.ranges.length := Lists.rangeCount_eq h.wellFormed
  have hstart := Traversal.awaits_ofSet h.wellFormed
  refine ⟨hcount.symm, ?_, hstart.descending_eq⟩
  intro calls outcome fronts backs
  obtain ⟨left, hleft, hsplit⟩ := hstart.runAll_spec calls
  have hranges : set.ranges = fronts ++ left ++ backs.reverse := hsplit
  have hlength : set.rangeCount = fronts.length + left.length + backs.length := by
    rw [hcount, hranges, List.length_append, List.length_append, List.length_reverse]
  have hleft_length : left.length = set.rangeCount - fronts.length - backs.length := by
    omega
  have hmet : left = [] ↔ fronts.length + backs.length = set.rangeCount := by
    rw [← List.length_eq_zero_iff]
    omega
  refine ⟨by omega, ?_, ?_, ?_, hleft.next_eq_none_iff.trans hmet,
    hleft.nextBack_eq_none_iff.trans hmet, ?_⟩
  · rw [hranges, List.append_assoc, List.take_left]
  · rw [hranges, List.reverse_append, List.reverse_reverse, List.take_left]
  · rw [Traversal.sizeHint, ← hleft_length]
    exact congrArg (fun count => (count, some count)) hleft.remaining_eq
  · intro hspent
    obtain rfl := hmet.mpr hspent
    exact hleft.runAll_of_nil

/-- Three gaps of stored ranges, read alternately until the two ends meet. -/
theorem traversal_exact_gaps :
    let gaps : RangeSet Int :=
      (unionOf [⟨.below 1, .below 4⟩, ⟨.above 6, .above 9⟩, ⟨.below 12, .aboveAll⟩] 1).complement
    let outcome := (Traversal.ofSet gaps).runAll [.nextBack, .remaining, .next, .nextBack]
    gaps.Reachable ∧
      outcome.1 = [.nextBack (some ⟨.above 9, .below 12⟩), .remaining 2,
        .next (some ⟨.belowAll, .below 1⟩), .nextBack (some ⟨.below 4, .above 6⟩)] ∧
      (∀ more : List Traversal.Call,
        outcome.2.runAll more = (more.map Traversal.Call.spent, outcome.2)) ∧
      gaps.descendingRanges =
        [⟨.above 9, .below 12⟩, ⟨.below 4, .above 6⟩, ⟨.belowAll, .below 1⟩] := by
  intro gaps outcome
  have hgaps : gaps.Reachable :=
    (RangeCollection.Reachable.unionOf (by decide) 1).complement
  have hranges : gaps.ranges.reverse =
      [⟨.above 9, .below 12⟩, ⟨.below 4, .above 6⟩, ⟨.belowAll, .below 1⟩] := by decide
  obtain ⟨-, hcalls, hdescending⟩ := traversal_exact hgaps
  obtain ⟨-, -, -, -, -, -, hspent⟩ := hcalls [.nextBack, .remaining, .next, .nextBack]
  exact ⟨hgaps, by decide, hspent (by decide), hdescending.trans hranges⟩

end RangeSet

end RangeAlgebra
