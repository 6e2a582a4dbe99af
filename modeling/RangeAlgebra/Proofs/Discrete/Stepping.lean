import Mathlib.Data.List.Chain
import RangeAlgebra.Discrete.Cursor
import RangeAlgebra.Proofs.Discrete.Walk

/-!
What a cursor gives. At any time it has the rest of one way to go and a way through each range
ahead, and the values on these ways are what it still gives. Each step gives the first of them and
leaves the others, so any number of steps gives that many of them from the front, and the two
directions give the same values in opposite orders.
-/

namespace RangeAlgebra

universe u

variable {α : Type u}

theorem firstAndLast?_cons (first : α) (rest : List α) :
    firstAndLast? (first :: rest) =
      some (first, (first :: rest).getLast (List.cons_ne_nil first rest)) := by
  rw [firstAndLast?, List.head?_cons, List.getLast?_eq_some_getLast (List.cons_ne_nil first rest)]
  rfl

theorem firstAndLast?_reverse (values : List α) :
    firstAndLast? values.reverse = (firstAndLast? values).map Prod.swap := by
  rw [firstAndLast?, firstAndLast?, List.head?_reverse, List.getLast?_reverse]
  cases values.head? with
  | none => cases values.getLast? <;> rfl
  | some first => cases values.getLast? <;> rfl

/-- Values that are different and follow one another by the steps of a direction. -/
structure Direction.Way (direction : Direction) (domain : DiscreteDomain α) (values : List α) :
    Prop where
  nodup : values.Nodup
  steps : values.IsChain fun a b => direction.step domain a = some b

variable [Ord α]

/-- The way through a range in a direction. -/
structure Direction.Crosses (direction : Direction) (domain : DiscreteDomain α) (range : Range α)
    (values : List α) : Prop where
  way : direction.Way domain values
  entry?_eq : direction.entry? domain range = firstAndLast? values

section Walk

variable [Std.TransOrd α] {domain : DiscreteDomain α} {carrier : Set α} {range : Range α}
  {values : List α}

theorem Range.Walk.crosses_ascending (h : range.Walk domain carrier values) :
    Direction.ascending.Crosses domain range values where
  way := ⟨h.enumerates.nodup, h.steps.imp fun _ _ hstep => hstep.1⟩
  entry?_eq := h.endpoints?_eq

theorem Range.Walk.crosses_descending (h : range.Walk domain carrier values) :
    Direction.descending.Crosses domain range values.reverse where
  way := by
    refine ⟨List.nodup_reverse.mpr h.enumerates.nodup, List.isChain_reverse.mpr ?_⟩
    exact h.steps.imp fun _ _ hstep => hstep.2
  entry?_eq := by
    rw [firstAndLast?_reverse, ← h.endpoints?_eq]
    rfl

end Walk

variable [DecidableEq α]

namespace ValueCursor

/-- The values that a cursor has still to give: the rest of the way that it is on, and the ways
through the ranges ahead. -/
def Awaits (cursor : ValueCursor α) (values : List α) : Prop :=
  ∃ rest ways, cursor.current = firstAndLast? rest ∧ cursor.direction.Way cursor.domain rest ∧
    List.Forall₂ (cursor.direction.Crosses cursor.domain) cursor.ahead ways ∧
    values = rest ++ ways.flatten

/-- Having given the first value of a way, a cursor stands before the rest of it. -/
theorem awaits_give {cursor : ValueCursor α} {value last : α} {rest : List α}
    {ahead : List (Range α)} {ways : List (List α)}
    (hway : cursor.direction.Way cursor.domain (value :: rest))
    (hends : firstAndLast? (value :: rest) = some (value, last))
    (hahead : List.Forall₂ (cursor.direction.Crosses cursor.domain) ahead ways) :
    (cursor.give value last ahead).2.Awaits (rest ++ ways.flatten) := by
  refine ⟨rest, ways, ?_, ?_, hahead, rfl⟩
  · change (if value = last then none
      else (cursor.direction.step cursor.domain value).map fun next => (next, last)) = _
    rw [firstAndLast?_cons] at hends
    cases rest with
    | nil =>
        cases hends
        exact if_pos rfl
    | cons next rest =>
        have hlast : (next :: rest).getLast (List.cons_ne_nil next rest) = last := by
          simpa using hends
        have hmem : last ∈ next :: rest := hlast ▸ List.getLast_mem _
        have hne : value ≠ last := fun heq => (List.nodup_cons.mp hway.nodup).1 (heq ▸ hmem)
        rw [if_neg hne, (List.isChain_cons_cons.mp hway.steps).1, firstAndLast?_cons, hlast]
        rfl
  · exact ⟨(List.nodup_cons.mp hway.nodup).2, hway.steps.tail⟩

/-- Ranges without values are passed over. -/
theorem enter?_spec {cursor : ValueCursor α} {ranges : List (Range α)} {ways : List (List α)}
    (h : List.Forall₂ (cursor.direction.Crosses cursor.domain) ranges ways) :
    (ways.flatten = [] → cursor.enter? ranges = none) ∧
      ∀ value values, ways.flatten = value :: values →
        ∃ next, cursor.enter? ranges = some (value, next) ∧ next.Awaits values := by
  induction h with
  | nil => exact ⟨fun _ => rfl, by simp⟩
  | cons hcrosses hrest ih =>
      rename_i range way ranges ways
      cases way with
      | nil =>
          rw [enter?, hcrosses.entry?_eq]
          exact ih
      | cons first rest =>
          refine ⟨by simp, fun value values hvalues => ?_⟩
          cases hvalues
          have hends := firstAndLast?_cons first rest
          rw [enter?, hcrosses.entry?_eq, hends]
          exact ⟨_, rfl, awaits_give hcrosses.way hends hrest⟩

/-- One step gives the first of the values that are left. -/
theorem Awaits.next?_spec {cursor : ValueCursor α} {values : List α} (h : cursor.Awaits values) :
    (values = [] → cursor.next? = none) ∧
      ∀ value rest, values = value :: rest →
        ∃ next, cursor.next? = some (value, next) ∧ next.Awaits rest := by
  obtain ⟨current, ways, hcurrent, hway, hahead, rfl⟩ := h
  cases current with
  | nil =>
      rw [next?, hcurrent]
      exact enter?_spec hahead
  | cons first current =>
      refine ⟨by simp, fun value rest hvalues => ?_⟩
      cases hvalues
      have hends := firstAndLast?_cons first current
      rw [next?, hcurrent, hends]
      exact ⟨_, rfl, awaits_give hway hends hahead⟩

/-- Any number of steps gives that many values from the front. -/
theorem Awaits.take_eq {cursor : ValueCursor α} {values : List α} (h : cursor.Awaits values)
    (count : Nat) : cursor.take count = values.take count := by
  induction count generalizing cursor values with
  | zero => rfl
  | succ count ih =>
      rw [take]
      cases values with
      | nil =>
          rw [h.next?_spec.1 rfl]
          rfl
      | cons value rest =>
          obtain ⟨next, hnext, hrest⟩ := h.next?_spec.2 value rest rfl
          rw [hnext, List.take_succ_cons, ← ih hrest]

theorem Awaits.map_next?_eq {cursor : ValueCursor α} {values : List α} (h : cursor.Awaits values) :
    cursor.next?.map Prod.fst = values.head? := by
  cases values with
  | nil =>
      rw [h.next?_spec.1 rfl]
      rfl
  | cons value rest =>
      obtain ⟨next, hnext, -⟩ := h.next?_spec.2 value rest rfl
      rw [hnext]
      rfl

end ValueCursor

namespace DiscreteView

variable [Std.TransOrd α] {view : DiscreteView α} {carrier : Set α} {ways : List (List α)}

theorem awaits_ascending (h : List.Forall₂ (Range.Walk view.domain carrier) view.set.ranges ways) :
    (view.cursor .ascending).Awaits ways.flatten := by
  refine ⟨[], ways, rfl, ⟨List.nodup_nil, List.isChain_nil⟩, ?_, rfl⟩
  exact h.imp fun _ _ => Range.Walk.crosses_ascending

/-- Against the order the ranges are entered from their last values. -/
theorem awaits_descending
    (h : List.Forall₂ (Range.Walk view.domain carrier) view.set.ranges ways) :
    (view.cursor .descending).Awaits ways.flatten.reverse := by
  refine ⟨[], (ways.map List.reverse).reverse, rfl, ⟨List.nodup_nil, List.isChain_nil⟩, ?_, ?_⟩
  · refine List.forall₂_reverse_iff.mpr (List.forall₂_map_right_iff.mpr ?_)
    exact h.imp fun _ _ => Range.Walk.crosses_descending
  · rw [List.reverse_flatten]
    rfl

end DiscreteView

end RangeAlgebra
