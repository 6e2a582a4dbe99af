import Mathlib.Logic.Function.Basic

/-!
Written forms whose end can be told. A form is legible before certain texts if what was written and
what stands after it are determined by the two of them together. A form that is legible before
anything can be repeated any number of times up to a closing character that begins none of its
texts. Numbers do not tell their own end, but they are legible before a character that is no part of
them.
-/

namespace RangeAlgebra.Text

universe u v

variable {β : Type u} {γ : Type v} {follows : List Char → Prop} {form : β → List Char}

/-- Where a text goes on after the form in one of the given ways, the form can be read off its
front. -/
def Legible (follows : List Char → Prop) (form : β → List Char) : Prop :=
  ∀ ⦃a b : β⦄ ⦃rest other : List Char⦄, follows rest → follows other →
    form a ++ rest = form b ++ other → a = b ∧ rest = other

/-- The form can be read off the front of any text. -/
def SelfDelimiting (form : β → List Char) : Prop :=
  Legible (fun _ => True) form

/-- The text begins with one of the characters. -/
def StartsWith (stops : List Char) (text : List Char) : Prop :=
  ∃ stop ∈ stops, ∃ tail, text = stop :: tail

theorem startsWith_cons {stops tail : List Char} {c : Char} :
    StartsWith stops (c :: tail) ↔ c ∈ stops := by
  constructor
  · rintro ⟨stop, hstop, after, heq⟩
    rw [(List.cons.inj heq).1]
    exact hstop
  · exact fun hstop => ⟨c, hstop, tail, rfl⟩

theorem Legible.comap (h : Legible follows form) {part : γ → β}
    (hpart : Function.Injective part) : Legible follows fun c => form (part c) := by
  intro a b rest other hrest hother heq
  obtain ⟨hparts, hafter⟩ := h hrest hother heq
  exact ⟨hpart hparts, hafter⟩

theorem SelfDelimiting.legible (h : SelfDelimiting form) : Legible follows form := by
  intro a b rest other _ _ heq
  exact h trivial trivial heq

theorem SelfDelimiting.injective (h : SelfDelimiting form) : Function.Injective form := by
  intro a b heq
  exact (h trivial trivial (congrArg (· ++ []) heq)).1

theorem SelfDelimiting.append_left (lead : List Char) (h : SelfDelimiting form) :
    SelfDelimiting fun a => lead ++ form a := by
  intro a b rest other _ _ heq
  simp only [List.append_assoc] at heq
  exact h trivial trivial (List.append_cancel_left heq)

section Stops

variable {stops : List Char}

/-- If the texts of two forms are cut off at different places, the longer one holds a stop. -/
private theorem eq_of_append_eq_append {first second more rest other : List Char}
    (hfirst : ∀ c ∈ first, c ∉ stops) (hother : StartsWith stops other)
    (hlonger : first = second ++ more) (hafter : other = more ++ rest) :
    first = second ∧ rest = other := by
  cases more with
  | nil => exact ⟨by simpa using hlonger, hafter.symm⟩
  | cons c tail =>
      obtain ⟨stop, hstop, after, rfl⟩ := hother
      have hchar : stop = c := (List.cons.inj hafter).1
      have hinside : c ∈ first := by
        rw [hlonger]
        simp
      exact absurd (hchar ▸ hstop) (hfirst c hinside)

/-- Without a stop in it, the form ends where the first one follows. -/
theorem legible_of_disjoint (hinjective : Function.Injective form)
    (hdisjoint : ∀ a, ∀ c ∈ form a, c ∉ stops) : Legible (StartsWith stops) form := by
  intro a b rest other hrest hother heq
  have hforms : form a = form b ∧ rest = other := by
    rcases List.append_eq_append_iff.mp heq with ⟨more, hlonger, hafter⟩ | ⟨more, hlonger, hafter⟩
    · obtain ⟨hform, hrests⟩ := eq_of_append_eq_append (hdisjoint b) hrest hlonger hafter
      exact ⟨hform.symm, hrests.symm⟩
    · exact eq_of_append_eq_append (hdisjoint a) hother hlonger hafter
  exact ⟨hinjective hforms.1, hforms.2⟩

end Stops

/-- At each place of a sequence either the closing character stands or one that begins an item, so
the items are read one after the other until it comes. -/
theorem SelfDelimiting.closed {close : Char} (h : SelfDelimiting form)
    (hopen : ∀ a, ∃ first tail, form a = first :: tail ∧ first ≠ close) :
    SelfDelimiting fun items : List β => items.flatMap form ++ [close] := by
  have hapart (item : β) (after rest : List Char) : close :: rest ≠ form item ++ after := by
    obtain ⟨first, tail, hform, hfirst⟩ := hopen item
    rw [hform]
    intro heq
    exact hfirst (List.cons.inj heq).1.symm
  intro items
  induction items with
  | nil =>
      intro others rest other _ _ heq
      cases others with
      | nil => exact ⟨rfl, (List.cons.inj heq).2⟩
      | cons item others =>
          simp only [List.flatMap_cons, List.append_assoc] at heq
          exact absurd heq (hapart item _ rest)
  | cons item items ih =>
      intro others rest other _ _ heq
      cases others with
      | nil =>
          simp only [List.flatMap_cons, List.append_assoc] at heq
          exact absurd heq.symm (hapart item _ other)
      | cons next others =>
          simp only [List.flatMap_cons, List.append_assoc] at heq
          obtain ⟨hitem, hafter⟩ := h trivial trivial heq
          simp only [← List.append_assoc] at hafter
          obtain ⟨hitems, hrest⟩ := ih trivial trivial hafter
          exact ⟨congrArg₂ List.cons hitem hitems, hrest⟩

section Digits

variable {base : Nat}

/-- The numbers below 16 have different digits. -/
theorem digitChar_injective {m n : Nat} (hm : m < 16) (hn : n < 16)
    (h : m.digitChar = n.digitChar) : m = n := by
  have hall : ∀ i < 16, ∀ j < 16, Nat.digitChar i = Nat.digitChar j → i = j := by decide
  exact hall m hm n hn h

theorem exists_digitChar_of_mem_toDigits (hbase : 1 < base) {n : Nat} {c : Char}
    (hc : c ∈ Nat.toDigits base n) : ∃ digit < base, c = digit.digitChar := by
  induction n using Nat.strongRecOn with
  | ind n ih =>
      rw [Nat.toDigits_eq_if hbase] at hc
      split at hc
      case isTrue hsmall => exact ⟨n, hsmall, List.mem_singleton.mp hc⟩
      case isFalse hlarge =>
          rcases List.mem_append.mp hc with hfront | hlast
          · exact ih (n / base) (Nat.div_lt_self (by omega) hbase) hfront
          · exact ⟨n % base, Nat.mod_lt n (by omega), List.mem_singleton.mp hlast⟩

theorem toDigits_injective (hbase : 1 < base) (hdigits : base ≤ 16) :
    Function.Injective (Nat.toDigits base) := by
  have hmod (k : Nat) : k % base < 16 := Nat.lt_of_lt_of_le (Nat.mod_lt k (by omega)) hdigits
  intro m
  induction m using Nat.strongRecOn with
  | ind m ih =>
      intro n heq
      have hlength (k : Nat) : (Nat.toDigits base k).length ≤ 1 ↔ k < base := by
        rw [Nat.length_toDigits_le_iff hbase Nat.one_pos, Nat.pow_one]
      have hsame : m < base ↔ n < base := by
        rw [← hlength m, ← hlength n, heq]
      by_cases hm : m < base
      · have hn := hsame.mp hm
        rw [Nat.toDigits_of_lt_base hm, Nat.toDigits_of_lt_base hn] at heq
        exact digitChar_injective (by omega) (by omega) (List.cons.inj heq).1
      · have hn := mt hsame.mpr hm
        rw [Nat.toDigits_of_base_le hbase (Nat.not_lt.mp hm),
          Nat.toDigits_of_base_le hbase (Nat.not_lt.mp hn)] at heq
        obtain ⟨hfront, hlast⟩ := List.append_inj' heq rfl
        have hquotient := ih (m / base) (Nat.div_lt_self (by omega) hbase) hfront
        have hremainder := digitChar_injective (hmod m) (hmod n) (List.cons.inj hlast).1
        rw [← Nat.div_add_mod m base, hquotient, hremainder, Nat.div_add_mod]

end Digits

section Integers

theorem toList_toString_of_nonneg {a : Int} (h : 0 ≤ a) :
    (toString a).toList = Nat.toDigits 10 a.toNat := by
  rw [Int.toString_eq_repr, Int.repr_eq_if, if_pos h, Nat.toList_repr]

theorem toList_toString_of_neg {a : Int} (h : a < 0) :
    (toString a).toList = '-' :: Nat.toDigits 10 (-a).toNat := by
  rw [Int.toString_eq_repr, Int.repr_eq_if, if_neg (by omega), String.toList_append,
    Nat.toList_repr]
  rfl

theorem isDigit_or_eq_of_mem_toString {a : Int} {c : Char} (hc : c ∈ (toString a).toList) :
    c.isDigit = true ∨ c = '-' := by
  rcases Int.lt_or_le a 0 with ha | ha
  · rw [toList_toString_of_neg ha] at hc
    rcases List.mem_cons.mp hc with hsign | hdigit
    · exact Or.inr hsign
    · exact Or.inl (Nat.isDigit_of_mem_toDigits (by decide) (by decide) hdigit)
  · rw [toList_toString_of_nonneg ha] at hc
    exact Or.inl (Nat.isDigit_of_mem_toDigits (by decide) (by decide) hc)

/-- No digit is a sign. -/
private theorem toDigits_ne_negative (m n : Nat) :
    Nat.toDigits 10 m ≠ '-' :: Nat.toDigits 10 n := by
  intro heq
  have hsign : '-' ∈ Nat.toDigits 10 m := by
    rw [heq]
    exact List.mem_cons_self
  exact absurd (Nat.isDigit_of_mem_toDigits (by decide) (by decide) hsign) (by decide)

theorem toList_toString_injective : Function.Injective fun a : Int => (toString a).toList := by
  have hdigits := toDigits_injective (by decide : 1 < 10) (by decide)
  intro a b heq
  change (toString a).toList = (toString b).toList at heq
  rcases Int.lt_or_le a 0 with ha | ha <;> rcases Int.lt_or_le b 0 with hb | hb
  · rw [toList_toString_of_neg ha, toList_toString_of_neg hb] at heq
    have hsize := hdigits (List.cons.inj heq).2
    omega
  · rw [toList_toString_of_neg ha, toList_toString_of_nonneg hb] at heq
    exact absurd heq.symm (toDigits_ne_negative _ _)
  · rw [toList_toString_of_nonneg ha, toList_toString_of_neg hb] at heq
    exact absurd heq (toDigits_ne_negative _ _)
  · rw [toList_toString_of_nonneg ha, toList_toString_of_nonneg hb] at heq
    have hsize := hdigits heq
    omega

end Integers

end RangeAlgebra.Text
