import Mathlib.Data.List.Forall2
import RangeAlgebra.Proofs.Text.Legible
import RangeAlgebra.Text.Quoted

/-!
What quoting does to a text. Each character is written in a way that tells where it ends, and none
begins with a quote, so the text is closed by the first quote that no backslash escapes. Quotes,
backslashes and control characters never stand for themselves.
-/

namespace RangeAlgebra.Text

/-- The control characters are those before the blank and those from delete to the end of their
second group. -/
def IsControl (c : Char) : Prop :=
  c.toNat < 0x20 ∨ (0x7f ≤ c.toNat ∧ c.toNat < 0xa0)

/-- The characters that are written by a letter, with the letter. -/
def escapeLetters : List (Char × Char) :=
  [('"', '"'), ('\\', '\\'), ('\n', 'n'), ('\r', 'r'), ('\t', 't'), ('\x00', '0')]

/-- The ways to write a character between quotes. A number stands between braces. -/
inductive Escaped : Char → List Char → Prop
  | letter {c letter : Char} (hletter : (c, letter) ∈ escapeLetters) : Escaped c ['\\', letter]
  | number (c : Char) :
      Escaped c ('\\' :: 'u' :: '\x7b' :: (Nat.toDigits 16 c.toNat ++ ['\x7d']))
  | itself {c : Char} (hquote : c ≠ '"') (hbackslash : c ≠ '\\') (hcontrol : ¬ IsControl c) :
      Escaped c [c]

/-- Each character of the text is written in one of the ways for it, and a quote stands on either
side. -/
def Quotes (text quoted : String) : Prop :=
  ∃ pieces, List.Forall₂ Escaped text.toList pieces ∧
    quoted.toList = '"' :: (pieces.flatten ++ ['"'])

theorem isInvisible_of_isControl {c : Char} (h : IsControl c) : isInvisible c = true := by
  rw [isInvisible, invisibleCodePoints, CodePoints.contains, CodePoints.contains]
  rcases h with hfirst | ⟨hlower, hupper⟩
  · rw [if_pos (by omega)]
    exact decide_eq_true (Nat.zero_le _)
  · rw [if_neg (by omega), if_pos (by omega)]
    exact decide_eq_true hlower

theorem toList_byNumber (c : Char) :
    (byNumber c).toList = '\\' :: 'u' :: '\x7b' :: (Nat.toDigits 16 c.toNat ++ ['\x7d']) := by
  simp [byNumber]

/-- A character that is not written by a letter or by its number is none of those that have to
be. -/
theorem escaped_escape (c : Char) : Escaped c (escape c).toList := by
  unfold escape
  split
  case h_1 | h_2 | h_3 | h_4 | h_5 | h_6 => exact .letter (by decide)
  case h_7 hquote hbackslash _ _ _ _ =>
      split
      case isTrue =>
          rw [toList_byNumber]
          exact .number c
      case isFalse hseen =>
          rw [Char.toString_eq_singleton, String.toList_singleton]
          refine .itself hquote hbackslash ?_
          intro hcontrol
          simp [isInvisible_of_isControl hcontrol] at hseen

namespace Escaped

variable {a b : Char} {first second rest other : List Char}

/-- Quotes stand behind a backslash only. -/
theorem head_ne_quote (h : Escaped a first) : ∃ c tail, first = c :: tail ∧ c ≠ '"' := by
  cases h with
  | letter hletter => exact ⟨'\\', _, rfl, by decide⟩
  | number => exact ⟨'\\', _, rfl, by decide⟩
  | itself hquote => exact ⟨a, _, rfl, hquote⟩

/-- A letter stands for one character. -/
theorem eq_of_letter {letter : Char} (ha : (a, letter) ∈ escapeLetters)
    (hb : (b, letter) ∈ escapeLetters) : a = b := by
  have hall : ∀ p ∈ escapeLetters, ∀ q ∈ escapeLetters, p.2 = q.2 → p.1 = q.1 := by decide
  exact hall _ ha _ hb rfl

/-- The letter that announces a number stands for no character itself. -/
theorem letter_ne_number {letter : Char} (h : (a, letter) ∈ escapeLetters) :
    '\\' :: letter :: rest ≠ '\\' :: 'u' :: other := by
  have hall : ∀ p ∈ escapeLetters, p.2 ≠ 'u' := by decide
  intro heq
  exact hall _ h (List.cons.inj (List.cons.inj heq).2).1

theorem backslash_ne_itself (h : a ≠ '\\') : '\\' :: rest ≠ a :: other := by
  intro heq
  exact h (List.cons.inj heq).1.symm

/-- The digits of a number end at the brace, and two characters have different numbers. -/
theorem eq_of_number
    (h : Nat.toDigits 16 a.toNat ++ '\x7d' :: rest = Nat.toDigits 16 b.toNat ++ '\x7d' :: other) :
    a = b ∧ rest = other := by
  have hlegible : Legible (StartsWith ['\x7d']) (Nat.toDigits 16) := by
    apply legible_of_disjoint (toDigits_injective (by decide) (by decide))
    intro n c hc hstop
    obtain ⟨digit, hdigit, rfl⟩ := exists_digitChar_of_mem_toDigits (by decide) hc
    have hall : ∀ digit < 16, Nat.digitChar digit ∉ ['\x7d'] := by decide
    exact hall digit hdigit hstop
  have hbrace (tail : List Char) : StartsWith ['\x7d'] ('\x7d' :: tail) :=
    startsWith_cons.mpr (List.mem_singleton_self _)
  obtain ⟨hnumber, hafter⟩ := hlegible (hbrace rest) (hbrace other) h
  exact ⟨Char.toNat_inj.mp hnumber, (List.cons.inj hafter).2⟩

/-- One case for each two ways of writing. What follows a backslash tells the way. -/
theorem eq_of_append_eq (ha : Escaped a first) (hb : Escaped b second)
    (h : first ++ rest = second ++ other) : a = b ∧ rest = other := by
  cases ha with
  | letter hletter =>
      cases hb with
      | letter hother =>
          obtain ⟨hsame, hrest⟩ := List.cons.inj (List.cons.inj h).2
          subst hsame
          exact ⟨eq_of_letter hletter hother, hrest⟩
      | number => exact absurd h (letter_ne_number hletter)
      | itself _ hbackslash => exact absurd h (backslash_ne_itself hbackslash)
  | number =>
      cases hb with
      | letter hother => exact absurd h.symm (letter_ne_number hother)
      | number =>
          simp only [List.cons_append, List.cons.injEq, true_and, List.append_assoc,
            List.nil_append] at h
          exact eq_of_number h
      | itself _ hbackslash => exact absurd h (backslash_ne_itself hbackslash)
  | itself _ hbackslash =>
      cases hb with
      | letter => exact absurd h.symm (backslash_ne_itself hbackslash)
      | number => exact absurd h.symm (backslash_ne_itself hbackslash)
      | itself => exact List.cons.inj h

end Escaped

theorem toList_quote (text : String) :
    (quote text).toList = '"' :: (text.toList.flatMap (fun c => (escape c).toList) ++ ['"']) := by
  simp [quote, List.flatMap_map]

theorem quotes_quote (text : String) : Quotes text (quote text) := by
  refine ⟨text.toList.map fun c => (escape c).toList, ?_, ?_⟩
  · rw [List.forall₂_map_right_iff, List.forall₂_same]
    exact fun c _ => escaped_escape c
  · rw [toList_quote, List.flatMap_def]

theorem selfDelimiting_quote : SelfDelimiting fun text : String => (quote text).toList := by
  have hescape : SelfDelimiting fun c => (escape c).toList := by
    intro a b rest other _ _ heq
    exact (escaped_escape a).eq_of_append_eq (escaped_escape b) heq
  have hchars := hescape.closed fun c => (escaped_escape c).head_ne_quote
  have htexts : SelfDelimiting fun text : String =>
      '"' :: (text.toList.flatMap (fun c => (escape c).toList) ++ ['"']) :=
    (hchars.append_left ['"']).comap fun _ _ => String.toList_injective
  simpa only [toList_quote] using htexts

end RangeAlgebra.Text
