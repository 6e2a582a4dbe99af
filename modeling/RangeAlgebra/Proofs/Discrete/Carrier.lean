import Mathlib.Data.Set.Card
import RangeAlgebra.Discrete.Domain
import RangeAlgebra.Proofs.Coverage

/-!
The values that a discrete domain steps over. They are a part of the type, and between any two of
them lie finitely many, so the values between two can be listed in ascending order. In such a list
each value is the next one of the value before it, and its position is its distance from the first.
-/

namespace RangeAlgebra

universe u

variable {α : Type u} [Ord α]

/-- The values with a property in ascending order, each of them once. -/
structure Enumerates (values : List α) (property : α → Prop) : Prop where
  ascending : values.Pairwise fun a b => compare a b = .lt
  mem_iff : ∀ value, value ∈ values ↔ property value

namespace Enumerates

variable {values : List α} {property : α → Prop}

theorem congr {other : α → Prop} (h : Enumerates values property)
    (hiff : ∀ value, property value ↔ other value) : Enumerates values other :=
  ⟨h.ascending, fun value => (h.mem_iff value).trans (hiff value)⟩

theorem nil (h : ∀ value, ¬ property value) : Enumerates [] property :=
  ⟨List.Pairwise.nil, fun value => iff_of_false List.not_mem_nil (h value)⟩

/-- Two enumerations follow one another if all values of the first come before those of the
second. -/
theorem append {others : List α} {other : α → Prop} (h : Enumerates values property)
    (hother : Enumerates others other)
    (hbefore : ∀ a b, property a → other b → Cut.below a < .below b) :
    Enumerates (values ++ others) fun value => property value ∨ other value where
  ascending := by
    rw [List.pairwise_append]
    refine ⟨h.ascending, hother.ascending, ?_⟩
    intro a ha b hb
    exact hbefore a b ((h.mem_iff a).mp ha) ((hother.mem_iff b).mp hb)
  mem_iff := by
    intro value
    rw [List.mem_append, h.mem_iff, hother.mem_iff]

theorem filter (h : Enumerates values property) (test : α → Bool) :
    Enumerates (values.filter test) fun value => property value ∧ test value = true where
  ascending := h.ascending.filter test
  mem_iff := by
    intro value
    rw [List.mem_filter, h.mem_iff]

theorem first_lt {first : α} {rest : List α} (h : Enumerates (first :: rest) property)
    {value : α} (hvalue : value ∈ rest) : Cut.below first < .below value :=
  (List.pairwise_cons.mp h.ascending).1 value hvalue

variable [Std.TransOrd α]

theorem nodup (h : Enumerates values property) : values.Nodup := by
  refine h.ascending.imp ?_
  intro a b hab heq
  have hlt : Cut.below a < .below b := hab
  rw [heq] at hlt
  exact Std.lt_irrefl hlt

/-- A property has at most one enumeration. -/
theorem eq {others : List α} (h : Enumerates values property)
    (hother : Enumerates others property) : values = others := by
  apply List.Perm.eq_of_pairwise ?_ h.ascending hother.ascending
  · apply (List.perm_ext_iff_of_nodup h.nodup hother.nodup).mpr
    intro value
    rw [h.mem_iff, hother.mem_iff]
  · intro a b _ _ hlt hgt
    have hafter : Cut.below b < .below a := hgt
    exact absurd hlt (Std.not_lt.mpr (Std.le_of_lt hafter))

theorem ncard_eq (h : Enumerates values property) :
    {value | property value}.ncard = values.length := by
  classical
  have hset : {value | property value} = (values.toFinset : Set α) := by
    ext value
    simp [h.mem_iff value]
  rw [hset, Set.ncard_coe_finset, List.toFinset_card_of_nodup h.nodup]

variable [Std.LawfulEqOrd α]

/-- Around a value stand the values below it and those above it. -/
theorem split {before after : List α} {value : α}
    (h : Enumerates (before ++ value :: after) property) :
    (Enumerates before fun other => property other ∧ Cut.below other < .below value) ∧
      Enumerates after fun other => property other ∧ Cut.below value < .below other := by
  obtain ⟨hbefore, hrest, hacross⟩ := List.pairwise_append.mp h.ascending
  obtain ⟨hlater, hafter⟩ := List.pairwise_cons.mp hrest
  have hlt : ∀ other ∈ before, Cut.below other < .below value := fun other hother =>
    hacross other hother value List.mem_cons_self
  have hgt : ∀ other ∈ after, Cut.below value < .below other := hlater
  refine ⟨⟨hbefore, ?_⟩, ⟨hafter, ?_⟩⟩
  all_goals
    intro other
    rw [← h.mem_iff, List.mem_append, List.mem_cons]
    grind

/-- The rest of an enumeration enumerates what comes after the first value. -/
theorem of_cons {first : α} {rest : List α} (h : Enumerates (first :: rest) property) :
    Enumerates rest fun value => property value ∧ Cut.below first < .below value := by
  have hsplit : Enumerates ([] ++ first :: rest) property := h
  exact hsplit.split.2

/-- Before a value stand those that are below it. -/
theorem countP_lt {before after : List α} {value : α}
    (h : Enumerates (before ++ value :: after) property) :
    (before ++ value :: after).countP (fun other => compare other value = .lt) = before.length := by
  obtain ⟨hbefore, hafter⟩ := h.split
  rw [List.countP_append, List.countP_eq_length.mpr, List.countP_eq_zero.mpr, Nat.add_zero]
  · intro other hother
    rw [decide_eq_true_eq]
    intro hlt
    rcases List.mem_cons.mp hother with rfl | hlater
    · exact absurd hlt (Std.lt_irrefl (a := Cut.below other))
    · exact Std.lt_irrefl (Std.lt_trans ((hafter.mem_iff other).mp hlater).2 hlt)
  · intro other hother
    rw [decide_eq_true_eq]
    exact ((hbefore.mem_iff other).mp hother).2

/-- The least value stands first. -/
theorem head?_eq (h : Enumerates values property) {least : α} (hleast : property least)
    (hle : ∀ value, property value → Cut.below least ≤ .below value) :
    values.head? = some least := by
  obtain ⟨before, after, rfl⟩ := List.append_of_mem ((h.mem_iff least).mpr hleast)
  cases before with
  | nil => rfl
  | cons first before =>
      obtain ⟨hfirst, hlt⟩ := (h.split.1.mem_iff first).mp List.mem_cons_self
      exact absurd hlt (Std.not_lt.mpr (hle first hfirst))

/-- The greatest value stands last. -/
theorem getLast?_eq (h : Enumerates values property) {greatest : α} (hgreatest : property greatest)
    (hle : ∀ value, property value → Cut.below value ≤ .below greatest) :
    values.getLast? = some greatest := by
  obtain ⟨before, after, rfl⟩ := List.append_of_mem ((h.mem_iff greatest).mpr hgreatest)
  cases after with
  | nil => exact List.getLast?_concat
  | cons other after =>
      obtain ⟨hother, hlt⟩ := (h.split.2.mem_iff other).mp List.mem_cons_self
      exact absurd hlt (Std.not_lt.mpr (hle other hother))

end Enumerates

/-- Finitely many values can be listed in ascending order. -/
theorem exists_enumerates [Std.TransOrd α] [Std.LawfulEqOrd α] {values : Set α}
    (h : values.Finite) : ∃ listed, Enumerates listed (· ∈ values) := by
  let le (a b : α) : Bool := (compare a b).isLE
  have htotal (a b : α) : (le a b || le b a) = true := by
    change ((compare a b).isLE || (compare b a).isLE) = true
    rw [Std.OrientedOrd.eq_swap]
    cases compare b a <;> rfl
  let listed := h.toFinset.toList.mergeSort le
  have hperm : listed.Perm h.toFinset.toList := List.mergeSort_perm _ le
  have hsorted : listed.Pairwise fun a b => (compare a b).isLE = true :=
    List.pairwise_mergeSort (fun _ _ _ => Std.TransCmp.isLE_trans) htotal _
  have hnodup : listed.Nodup := hperm.nodup_iff.mpr h.toFinset.nodup_toList
  refine ⟨listed, ⟨hsorted.imp₂ ?_ hnodup, ?_⟩⟩
  · intro a b hle hne
    exact Std.lt_of_le_of_ne (a := Cut.below a) (b := .below b) hle (by simpa using hne)
  · intro value
    rw [hperm.mem_iff, Finset.mem_toList, Set.Finite.mem_toFinset]

namespace DiscreteDomain

/-- The values of the carrier from `first` on and below `last`. -/
def stretch (carrier : Set α) (first last : α) : Set α :=
  {value ∈ carrier | (compare first value).isLE ∧ compare value last = .lt}

/-- The number of steps from one value of the carrier to another, negative when they go down. -/
noncomputable def steps (carrier : Set α) (first last : α) : Int :=
  (stretch carrier first last).ncard - (stretch carrier last first).ncard

/-- The domain steps over the carrier: to the least value above and to the greatest value below,
where there are any. It counts steps within the bounds of a 64-bit integer. A least or greatest
value that it has is one of the carrier. -/
structure StepsOver (domain : DiscreteDomain α) (carrier : Set α) : Prop where
  next_eq_some_iff : ∀ value ∈ carrier, ∀ next, domain.next value = some next ↔
    next ∈ carrier ∧ compare value next = .lt ∧
      ∀ other ∈ carrier, compare value other = .lt → (compare next other).isLE
  previous_eq_some_iff : ∀ value ∈ carrier, ∀ previous, domain.previous value = some previous ↔
    previous ∈ carrier ∧ compare previous value = .lt ∧
      ∀ other ∈ carrier, compare other value = .lt → (compare other previous).isLE
  distance_eq : ∀ first ∈ carrier, ∀ last ∈ carrier, domain.distance first last =
    max (-9223372036854775808) (min (steps carrier first last) 9223372036854775807)
  least : ∀ value, domain.least? = some value →
    value ∈ carrier ∧ ∀ other ∈ carrier, (compare value other).isLE
  greatest : ∀ value, domain.greatest? = some value →
    value ∈ carrier ∧ ∀ other ∈ carrier, (compare other value).isLE
  finite : ∀ first ∈ carrier, ∀ last ∈ carrier, (stretch carrier first last).Finite

/-- The values of the carrier from `first` to `last`, both included. -/
def segment (carrier : Set α) (first last : α) : Set α :=
  {value ∈ carrier | Cut.below first ≤ .below value ∧ Cut.below value ≤ .below last}

namespace StepsOver

variable [Std.TransOrd α] [Std.LawfulEqOrd α] {domain : DiscreteDomain α} {carrier : Set α}

theorem exists_segment (h : domain.StepsOver carrier) {first last : α} (hfirst : first ∈ carrier)
    (hlast : last ∈ carrier) : ∃ values, Enumerates values (· ∈ segment carrier first last) := by
  have hfinite := (h.finite first hfirst last hlast).union (Set.finite_singleton last)
  refine exists_enumerates (hfinite.subset ?_)
  rintro value ⟨hvalue, hle, hge⟩
  by_cases heq : value = last
  · exact Or.inr heq
  · have hlt : Cut.below value < .below last := by grind
    exact Or.inl ⟨hvalue, hle, hlt⟩

/-- No value of the carrier lies between the first two of a segment. -/
private theorem second_le_of_lt {first second last : α} {rest : List α}
    (hvalues : Enumerates (first :: second :: rest) (· ∈ segment carrier first last)) :
    ∀ value ∈ carrier, Cut.below first < .below value → Cut.below second ≤ .below value := by
  intro value hvalue hafter
  obtain ⟨⟨-, -, hsecond⟩, -⟩ := (hvalues.of_cons.mem_iff second).mp List.mem_cons_self
  by_cases hle : Cut.below value ≤ .below last
  · have hmem : value ∈ second :: rest :=
      (hvalues.of_cons.mem_iff value).mpr ⟨⟨hvalue, Std.le_of_lt hafter, hle⟩, hafter⟩
    rcases List.mem_cons.mp hmem with heq | hlater
    · rw [heq]
      exact Std.le_refl _
    · exact Std.le_of_lt (hvalues.of_cons.first_lt hlater)
  · exact Std.le_of_lt (Std.lt_of_le_of_lt hsecond (Std.not_le.mp hle))

/-- In the list of a segment each step leads from a value to the one after it, and a step back leads
from there to the value. The induction is on the list, whose rest is the segment that begins with
the second value. -/
theorem isChain_segment (h : domain.StepsOver carrier) {first last : α} {rest : List α}
    (hvalues : Enumerates (first :: rest) (· ∈ segment carrier first last)) :
    (first :: rest).IsChain fun a b => domain.next a = some b ∧ domain.previous b = some a := by
  induction rest generalizing first with
  | nil => exact List.isChain_singleton first
  | cons second rest ih =>
      obtain ⟨hfirst, -, -⟩ := (hvalues.mem_iff first).mp List.mem_cons_self
      obtain ⟨⟨hsecond, -, -⟩, hlt⟩ := (hvalues.of_cons.mem_iff second).mp List.mem_cons_self
      have hle := second_le_of_lt hvalues
      have hnext : domain.next first = some second :=
        (h.next_eq_some_iff first hfirst second).mpr ⟨hsecond, hlt, hle⟩
      have hprevious : domain.previous second = some first := by
        refine (h.previous_eq_some_iff second hsecond first).mpr ⟨hfirst, hlt, ?_⟩
        intro other hother hbefore
        have hbefore' : Cut.below other < .below second := hbefore
        exact Std.not_lt.mp fun hafter => Std.not_le.mpr hbefore' (hle other hother hafter)
      have hrest : Enumerates (second :: rest) (· ∈ segment carrier second last) := by
        refine hvalues.of_cons.congr fun value => ?_
        constructor
        · rintro ⟨⟨hvalue, -, hupper⟩, hafter⟩
          exact ⟨hvalue, hle value hvalue hafter, hupper⟩
        · rintro ⟨hvalue, hlower, hupper⟩
          have hafter := Std.lt_of_lt_of_le hlt hlower
          exact ⟨⟨hvalue, Std.le_of_lt hafter, hupper⟩, hafter⟩
      exact List.isChain_cons_cons.mpr ⟨⟨hnext, hprevious⟩, ih hrest⟩

/-- The list of a segment, which begins and ends where the segment does and is walked by steps in
either direction. -/
theorem exists_walk (h : domain.StepsOver carrier) {first last : α} (hfirst : first ∈ carrier)
    (hlast : last ∈ carrier) (hle : Cut.below first ≤ .below last) :
    ∃ values, Enumerates values (· ∈ segment carrier first last) ∧
      values.head? = some first ∧ values.getLast? = some last ∧
      values.IsChain fun a b => domain.next a = some b ∧ domain.previous b = some a := by
  obtain ⟨values, hvalues⟩ := h.exists_segment hfirst hlast
  have hhead := hvalues.head?_eq ⟨hfirst, Std.le_refl _, hle⟩ fun value hvalue => hvalue.2.1
  have hend := hvalues.getLast?_eq ⟨hlast, hle, Std.le_refl _⟩ fun value hvalue => hvalue.2.2
  obtain ⟨rest, rfl⟩ := List.head?_eq_some_iff.mp hhead
  exact ⟨first :: rest, hvalues, hhead, hend, h.isChain_segment hvalues⟩

/-- A value with a value of the carrier above it has a next one. -/
theorem exists_next (h : domain.StepsOver carrier) {value other : α} (hvalue : value ∈ carrier)
    (hother : other ∈ carrier) (hlt : Cut.below value < .below other) :
    ∃ next, domain.next value = some next := by
  obtain ⟨values, -, hfirst, hlast, hsteps⟩ := h.exists_walk hvalue hother (Std.le_of_lt hlt)
  obtain ⟨rest, rfl⟩ := List.head?_eq_some_iff.mp hfirst
  cases rest with
  | nil =>
      cases hlast
      exact absurd hlt Std.lt_irrefl
  | cons next rest => exact ⟨next, (List.isChain_cons_cons.mp hsteps).1.1⟩

theorem exists_previous (h : domain.StepsOver carrier) {value other : α} (hvalue : value ∈ carrier)
    (hother : other ∈ carrier) (hlt : Cut.below other < .below value) :
    ∃ previous, domain.previous value = some previous := by
  obtain ⟨values, -, hfirst, hlast, hsteps⟩ := h.exists_walk hother hvalue (Std.le_of_lt hlt)
  -- Read from its end the list is walked by steps back.
  have hback := List.isChain_reverse.mpr hsteps
  rw [← List.head?_reverse] at hlast
  rw [← List.getLast?_reverse] at hfirst
  obtain ⟨rest, hreverse⟩ := List.head?_eq_some_iff.mp hlast
  rw [hreverse] at hback hfirst
  cases rest with
  | nil =>
      cases hfirst
      exact absurd hlt Std.lt_irrefl
  | cons previous rest => exact ⟨previous, (List.isChain_cons_cons.mp hback).1.2⟩

/-- The distance from the first value of a segment to another one is the number of values before
that, as far as it fits. -/
theorem distance_segment (h : domain.StepsOver carrier) {first last value : α}
    {before after : List α} (hfirst : first ∈ carrier)
    (hvalues : Enumerates (before ++ value :: after) (· ∈ segment carrier first last)) :
    domain.distance first value = min (before.length : Int) 9223372036854775807 := by
  obtain ⟨hvalue, hlower, hupper⟩ := (hvalues.mem_iff value).mp (by simp)
  have hup : (stretch carrier first value).ncard = before.length := by
    rw [← hvalues.split.1.ncard_eq]
    congr 1
    ext other
    constructor
    · rintro ⟨hother, hle, hlt⟩
      have hlt' : Cut.below other < .below value := hlt
      exact ⟨⟨hother, hle, Std.le_of_lt (Std.lt_of_lt_of_le hlt' hupper)⟩, hlt⟩
    · rintro ⟨⟨hother, hle, -⟩, hlt⟩
      exact ⟨hother, hle, hlt⟩
  have hdown : stretch carrier value first = ∅ := by
    rw [Set.eq_empty_iff_forall_notMem]
    rintro other ⟨-, hle, hlt⟩
    have hle' : Cut.below value ≤ .below other := hle
    have hlt' : Cut.below other < .below first := hlt
    exact Std.lt_irrefl (Std.lt_of_lt_of_le hlt' (Std.le_trans hlower hle'))
  rw [h.distance_eq first hfirst value hvalue, steps, hup, hdown, Set.ncard_empty]
  omega

end StepsOver

end DiscreteDomain

end RangeAlgebra
