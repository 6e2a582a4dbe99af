import RangeAlgebra.Discrete.Endpoints
import RangeAlgebra.Proofs.Coverage.Shared

/-!
Steps that rely on something. A range is made of two cuts that are not inverted and stand on their
own sides, ranges are clipped to each other only if they are connected, positions lie within their
sequence, and natural numbers are not subtracted below zero. The operations never test this before
such a step. Here each step does, and stops with what it found instead, so an operation that is
written out in these steps and gives a value has relied on nothing that did not hold.
-/

namespace RangeAlgebra

/-- What a step has found instead of what it relies on. -/
inductive Breach (α : Type) where
  /-- The cuts are inverted or infinite on the wrong side. -/
  | cuts (lower upper : Cut α)
  /-- There is a gap between the ranges. -/
  | disconnected (a b : Range α)
  | position (index length : Nat)
  | underflow (minuend subtrahend : Nat)
  /-- The result of a search is below zero or beyond the length of what was searched. -/
  | result (found : Int) (length : Nat)
  /-- A stretch of keys starts above its end. -/
  | keys (lower upper : Cut α)

abbrev Checked (α β : Type) : Type :=
  Except (Breach α) β

namespace Checked

variable {α β γ : Type}

def require (condition : Prop) [Decidable condition] (breach : Breach α) : Checked α Unit :=
  if condition then .ok () else .error breach

@[simp]
theorem ok_bind (value : β) (next : β → Checked α γ) :
    ((.ok value : Checked α β) >>= next) = next value :=
  rfl

@[simp]
theorem pure_eq_ok (value : β) : (pure value : Checked α β) = .ok value :=
  rfl

@[simp]
theorem require_of {condition : Prop} [Decidable condition] (h : condition)
    (breach : Breach α) : require condition breach = .ok () :=
  if_pos h

/-- The result of a search as a position. -/
def position (found : Int) (length : Nat) : Checked α Nat := do
  require (0 ≤ found ∧ found ≤ length) (.result found length)
  return found.toNat

theorem position_natCast {found length : Nat} (h : found ≤ length) :
    (position found length : Checked α Nat) = .ok found := by
  have hwithin : 0 ≤ (found : Int) ∧ (found : Int) ≤ length := by omega
  simp [position, hwithin]

section Lists

variable {items : List β}

/-- The steps of a run rely on a property of the state that each of them keeps. -/
theorem foldlM_eq {step : γ → β → Checked α γ} {next : γ → β → γ} {kept : γ → Prop}
    (hstep : ∀ item ∈ items, ∀ state, kept state →
      step state item = .ok (next state item) ∧ kept (next state item))
    {start : γ} (hstart : kept start) : items.foldlM step start = .ok (items.foldl next start) := by
  induction items generalizing start with
  | nil => rfl
  | cons item rest ih =>
      obtain ⟨hitem, hkept⟩ := hstep item (by simp) start hstart
      have hrest := ih (fun other hother => hstep other (List.mem_cons_of_mem item hother)) hkept
      rw [List.foldlM_cons, hitem, ok_bind, hrest, List.foldl_cons]

variable {test : β → Checked α Bool} {holds : β → Bool}

theorem allM_eq (h : ∀ item ∈ items, test item = .ok (holds item)) :
    items.allM test = .ok (items.all holds) := by
  induction items with
  | nil => rfl
  | cons item rest ih =>
      have hitem := h item (by simp)
      have hrest := ih fun other hother => h other (List.mem_cons_of_mem item hother)
      rw [List.allM_cons, hitem, ok_bind, List.all_cons]
      cases holds item with
      | true => exact hrest
      | false => rfl

theorem anyM_eq (h : ∀ item ∈ items, test item = .ok (holds item)) :
    items.anyM test = .ok (items.any holds) := by
  induction items with
  | nil => rfl
  | cons item rest ih =>
      have hitem := h item (by simp)
      have hrest := ih fun other hother => h other (List.mem_cons_of_mem item hother)
      rw [List.anyM_cons, hitem, ok_bind, List.any_cons]
      cases holds item with
      | true => rfl
      | false => exact hrest

end Lists

end Checked

namespace Range

open Checked

variable {α : Type} [Ord α] [DecidableEq α]

def checkedOfCuts (lower upper : Cut α) : Checked α (Range α) := do
  require (Range.mk lower upper).Valid (.cuts lower upper)
  return ⟨lower, upper⟩

/-- What two connected ranges share. It is made of their cuts only if neither encloses the
other. -/
def checkedClip (a b : Range α) : Checked α (Range α) := do
  require (a.isConnected b = true) (.disconnected a b)
  if a.encloses b then return b
  else if b.encloses a then return a
  else checkedOfCuts (max a.lower b.lower) (min a.upper b.upper)

def checkedOverlaps (a b : Range α) : Checked α Bool :=
  if a.isConnected b then do
    let shared ← a.checkedClip b
    return !shared.isEmpty
  else return false

def checkedSpan (a b : Range α) : Checked α (Range α) :=
  checkedOfCuts (min a.lower b.lower) (max a.upper b.upper)

def checkedCanonical (range : Range α) (domain : DiscreteDomain α) : Checked α (Range α) :=
  let lower := range.lower.canonical domain
  let upper := range.upper.canonical domain
  if lower = range.lower ∧ upper = range.upper then return range
  else if lower = .aboveAll then checkedOfCuts range.lower range.lower
  else checkedOfCuts lower upper

theorem checkedOfCuts_eq {range : Range α} (h : range.Valid) :
    checkedOfCuts range.lower range.upper = .ok range := by
  simp [checkedOfCuts, h]

variable [Std.TransOrd α] [Std.LawfulEqOrd α] {a b : Range α}

theorem checkedClip_eq (ha : a.Valid) (hb : b.Valid) {shared : Range α}
    (h : a.intersection b = some shared) : a.checkedClip b = .ok shared := by
  obtain ⟨hconnected, hlower, hupper⟩ := (intersection_eq_some_iff a b shared).mp h
  have hshared := checkedOfCuts_eq (ha.intersection hb h)
  rw [hlower, hupper] at hshared
  unfold checkedClip
  rw [require_of hconnected, ok_bind]
  by_cases houter : a.encloses b = true
  · have hsame : b = shared := by
      rw [encloses_iff] at houter
      apply Range.ext <;> grind
    rw [if_pos houter, hsame]
    rfl
  · rw [if_neg houter]
    by_cases hinner : b.encloses a = true
    · have hsame : a = shared := by
        rw [encloses_iff] at hinner
        apply Range.ext <;> grind
      rw [if_pos hinner, hsame]
      rfl
    · rw [if_neg hinner, hshared]

theorem checkedOverlaps_eq (ha : a.Valid) (hb : b.Valid) :
    a.checkedOverlaps b = .ok (a.overlaps b) := by
  unfold checkedOverlaps overlaps
  cases hshared : a.intersection b with
  | none =>
      have hapart := (intersection_eq_none_iff a b).mp hshared
      rw [if_neg hapart]
      rfl
  | some shared =>
      have hconnected := ((intersection_eq_some_iff a b shared).mp hshared).1
      rw [if_pos hconnected, checkedClip_eq ha hb hshared]
      rfl

theorem checkedSpan_eq (ha : a.Valid) (hb : b.Valid) : a.checkedSpan b = .ok (a.span b) :=
  checkedOfCuts_eq (ha.span hb)

omit [Std.TransOrd α] [Std.LawfulEqOrd α] in
/-- The canonical form is made of cuts only where it differs from the range. -/
theorem checkedCanonical_eq {range : Range α} {domain : DiscreteDomain α}
    (h : (range.canonical domain).Valid) :
    range.checkedCanonical domain = .ok (range.canonical domain) := by
  have hcreated := checkedOfCuts_eq h
  unfold checkedCanonical
  unfold canonical at hcreated ⊢
  simp only at hcreated ⊢
  split
  · rfl
  · rename_i hchanged
    rw [if_neg hchanged] at hcreated
    split
    · rename_i hend
      rwa [if_pos hend] at hcreated
    · rename_i hend
      rwa [if_neg hend] at hcreated

end Range

end RangeAlgebra
