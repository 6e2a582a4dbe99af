import Mathlib.Algebra.Group.Nat.Defs
import RangeAlgebra.Element.Integer
import RangeAlgebra.Search

/-!
Where a search looks. Whatever the comparisons answer, each of them at least halves the window, and
the window that an occurrence leaves to the second search is no larger than half of the one that it
was met in. So both searches together stay within one budget of halvings, and a position is only
compared while it lies in the window. The result is then a position of the window, one next to it,
or an inverted place of insertion, so it is a signed word if the length is. Nothing here asks for a
sorted sequence.
-/

namespace RangeAlgebra.Search

variable {β γ : Type}

namespace Probed

/-- The probes lie from `low` up to `high`, the latter excluded, and there are no more of them than
`budget`. -/
structure Within (probed : Probed β) (low high budget : Nat) : Prop where
  bounds : ∀ i ∈ probed.probes, low ≤ i ∧ i < high
  length_le : probed.probes.length ≤ budget

variable {probed : Probed β} {low high budget : Nat}

theorem within_nil (result : β) (low high budget : Nat) :
    (⟨result, []⟩ : Probed β).Within low high budget :=
  ⟨by simp, Nat.zero_le budget⟩

/-- A probe leaves the rest of the budget to the smaller window. -/
theorem Within.after (h : probed.Within low high budget) {position outerLow outerHigh : Nat}
    (hlow : outerLow ≤ low) (hhigh : high ≤ outerHigh) (hposition : outerLow ≤ position)
    (hbefore : position < outerHigh) :
    (probed.after position).Within outerLow outerHigh (budget + 1) where
  bounds := by
    intro i hi
    rcases List.mem_cons.mp hi with rfl | hlater
    · exact ⟨hposition, hbefore⟩
    · obtain ⟨hge, hlt⟩ := h.bounds i hlater
      exact ⟨Nat.le_trans hlow hge, Nat.lt_of_lt_of_le hlt hhigh⟩
  length_le := Nat.succ_le_succ h.length_le

theorem Within.map (h : probed.Within low high budget) (f : β → γ) :
    (probed.map f).Within low high budget :=
  ⟨h.bounds, h.length_le⟩

theorem Within.mono (h : probed.Within low high budget) {outerLow outerHigh : Nat}
    (hlow : outerLow ≤ low) (hhigh : high ≤ outerHigh) : probed.Within outerLow outerHigh budget :=
  ⟨fun i hi => ⟨Nat.le_trans hlow (h.bounds i hi).1, Nat.lt_of_lt_of_le (h.bounds i hi).2 hhigh⟩,
    h.length_le⟩

end Probed

/-- Half of a window that fits into a number of halvings fits into one less. -/
private theorem half_lt {window half budget : Nat} (hwindow : window < 2 ^ (budget + 1))
    (hhalf : half ≤ window / 2) : half < 2 ^ budget := by
  rw [Nat.pow_succ] at hwindow
  omega

/-- A window with a position to compare fits into no budget of zero. -/
private theorem exists_budget {window budget : Nat} (hpositive : 0 < window)
    (hwindow : window < 2 ^ budget) : ∃ rest, budget = rest + 1 := by
  cases budget with
  | zero => omega
  | succ rest => exact ⟨rest, rfl⟩

variable (compareAt : Nat → Ordering)

theorem lastPresent_within (lower upper budget : Nat) (hwindow : upper - lower < 2 ^ budget) :
    (lastPresent compareAt lower upper).Within lower (upper + 1) budget := by
  fun_induction lastPresent compareAt lower upper generalizing budget with
  | case1 lower upper hlt middle hcompare ih =>
      obtain ⟨rest, rfl⟩ := exists_budget (by omega) hwindow
      have hrest := ih rest (half_lt hwindow (by omega))
      exact hrest.after (Nat.le_refl _) (by omega) (by omega) (by omega)
  | case2 lower upper hlt middle hcompare ih =>
      obtain ⟨rest, rfl⟩ := exists_budget (by omega) hwindow
      have hrest := ih rest (half_lt hwindow (by omega))
      exact hrest.after (by omega) (Nat.le_refl _) (by omega) (by omega)
  | case3 lower upper hlt middle hcompare ih =>
      obtain ⟨rest, rfl⟩ := exists_budget (by omega) hwindow
      have hrest := ih rest (half_lt hwindow (by omega))
      exact hrest.after (by omega) (Nat.le_refl _) (by omega) (by omega)
  | case4 lower upper hge =>
      exact Probed.within_nil lower lower (upper + 1) budget

theorem firstPresent_within (lower upper budget : Nat) (hwindow : upper - lower < 2 ^ budget) :
    (firstPresent compareAt lower upper).Within lower upper budget := by
  fun_induction firstPresent compareAt lower upper generalizing budget with
  | case1 lower upper hlt middle hcompare ih =>
      obtain ⟨rest, rfl⟩ := exists_budget (by omega) hwindow
      have hrest := ih rest (half_lt hwindow (by omega))
      exact hrest.after (by omega) (Nat.le_refl _) (by omega) (by omega)
  | case2 lower upper hlt middle hcompare ih =>
      obtain ⟨rest, rfl⟩ := exists_budget (by omega) hwindow
      have hrest := ih rest (half_lt hwindow (by omega))
      exact hrest.after (Nat.le_refl _) (by omega) (by omega) (by omega)
  | case3 lower upper hlt middle hcompare ih =>
      obtain ⟨rest, rfl⟩ := exists_budget (by omega) hwindow
      have hrest := ih rest (half_lt hwindow (by omega))
      exact hrest.after (Nat.le_refl _) (by omega) (by omega) (by omega)
  | case4 lower upper hge =>
      exact Probed.within_nil lower lower upper budget

/-- The positions on either side of an occurrence are left to the second search. -/
theorem Present.resolve_within (present : Present) (lower found upper budget : Nat)
    (hlower : lower ≤ found) (hupper : found ≤ upper) (hbelow : found - lower < 2 ^ budget)
    (habove : upper - found < 2 ^ budget) :
    (present.resolve compareAt lower found upper).Within lower (upper + 1) budget := by
  have hlast : (lastPresent compareAt found upper).Within lower (upper + 1) budget :=
    (lastPresent_within compareAt found upper budget habove).mono hlower (Nat.le_refl _)
  have hfirst : (firstPresent compareAt lower found).Within lower (upper + 1) budget :=
    (firstPresent_within compareAt lower found budget hbelow).mono (Nat.le_refl _) (by omega)
  cases present with
  | any => exact Probed.within_nil _ lower (upper + 1) budget
  | last => exact hlast.map _
  | first => exact hfirst.map _
  | firstAfter => exact hlast.map fun position => (position : Int) + 1
  | lastBefore => exact hfirst.map fun position => (position : Int) - 1

theorem locateWithin_within (present : Present) (absent : Absent) (lower upper budget : Nat)
    (hwindow : upper - lower < 2 ^ budget) :
    (locateWithin compareAt present absent lower upper).Within lower upper budget := by
  fun_induction locateWithin compareAt present absent lower upper generalizing budget with
  | case1 lower upper hlt middle hcompare ih =>
      obtain ⟨rest, rfl⟩ := exists_budget (by omega) hwindow
      have hrest := ih rest (half_lt hwindow (by omega))
      exact hrest.after (Nat.le_refl _) (by omega) (by omega) (by omega)
  | case2 lower upper hlt middle hcompare ih =>
      obtain ⟨rest, rfl⟩ := exists_budget (by omega) hwindow
      have hrest := ih rest (half_lt hwindow (by omega))
      exact hrest.after (by omega) (Nat.le_refl _) (by omega) (by omega)
  | case3 lower upper hlt middle hcompare =>
      obtain ⟨rest, rfl⟩ := exists_budget (by omega) hwindow
      -- The larger of the two sides of the occurrence is half of the window.
      have hrest := present.resolve_within compareAt lower middle (upper - 1) rest (by omega)
        (by omega) (half_lt hwindow (by omega)) (half_lt hwindow (by omega))
      exact hrest.after (Nat.le_refl _) (by omega) (by omega) (by omega)
  | case4 lower upper hge =>
      exact Probed.within_nil _ lower upper budget

/-- A search compares at positions of the sequence only. -/
theorem lt_of_mem_locate_probes (length : Nat) (present : Present) (absent : Absent) :
    ∀ i ∈ (locate length present absent compareAt).probes, i < length := by
  intro i hi
  have hwindow : length - 0 < 2 ^ (length.log2 + 1) := Nat.lt_log2_self
  exact ((locateWithin_within compareAt present absent 0 length _ hwindow).bounds i hi).2

/-- A sequence without positions needs no comparison, and any other one as many as its length has
binary digits. -/
theorem length_locate_probes_le (length : Nat) (present : Present) (absent : Absent) :
    (locate length present absent compareAt).probes.length ≤
      if length = 0 then 0 else length.log2 + 1 := by
  refine (locateWithin_within compareAt present absent 0 length _ ?_).length_le
  by_cases hzero : length = 0
  · rw [if_pos hzero, hzero]
    exact Nat.zero_lt_one
  · rw [if_neg hzero]
    exact Nat.lt_log2_self

theorem lastPresent_result_bounds (lower upper : Nat) (h : lower ≤ upper) :
    lower ≤ (lastPresent compareAt lower upper).result ∧
      (lastPresent compareAt lower upper).result ≤ upper := by
  fun_induction lastPresent compareAt lower upper with
  | case1 lower upper hlt middle hcompare ih =>
      obtain ⟨hge, hle⟩ := ih (by omega)
      exact ⟨hge, Nat.le_trans hle (by omega)⟩
  | case2 lower upper hlt middle hcompare ih =>
      obtain ⟨hge, hle⟩ := ih (by omega)
      exact ⟨Nat.le_trans (by omega) hge, hle⟩
  | case3 lower upper hlt middle hcompare ih =>
      obtain ⟨hge, hle⟩ := ih (by omega)
      exact ⟨Nat.le_trans (by omega) hge, hle⟩
  | case4 lower upper hge =>
      exact ⟨Nat.le_refl lower, h⟩

theorem firstPresent_result_bounds (lower upper : Nat) (h : lower ≤ upper) :
    lower ≤ (firstPresent compareAt lower upper).result ∧
      (firstPresent compareAt lower upper).result ≤ upper := by
  fun_induction firstPresent compareAt lower upper with
  | case1 lower upper hlt middle hcompare ih =>
      obtain ⟨hge, hle⟩ := ih (by omega)
      exact ⟨Nat.le_trans (by omega) hge, hle⟩
  | case2 lower upper hlt middle hcompare ih =>
      obtain ⟨hge, hle⟩ := ih (by omega)
      exact ⟨hge, Nat.le_trans hle (by omega)⟩
  | case3 lower upper hlt middle hcompare ih =>
      obtain ⟨hge, hle⟩ := ih (by omega)
      exact ⟨hge, Nat.le_trans hle (by omega)⟩
  | case4 lower upper hge =>
      exact ⟨Nat.le_refl lower, h⟩

theorem Present.resolve_result_bounds (present : Present) (lower found upper : Nat)
    (hlower : lower ≤ found) (hupper : found ≤ upper) :
    (lower : Int) - 1 ≤ (present.resolve compareAt lower found upper).result ∧
      (present.resolve compareAt lower found upper).result ≤ upper + 1 := by
  have hlast := lastPresent_result_bounds compareAt found upper hupper
  have hfirst := firstPresent_result_bounds compareAt lower found hlower
  cases present <;> simp only [resolve, Probed.map, Int.ofNat_eq_natCast] <;> omega

theorem Absent.resolve_bounds (absent : Absent) {higher length : Nat} (h : higher ≤ length) :
    -(length : Int) - 1 ≤ absent.resolve higher ∧ absent.resolve higher ≤ length := by
  cases absent <;> simp only [resolve] <;> omega

theorem locateWithin_result_bounds (present : Present) (absent : Absent) {length : Nat}
    (lower upper : Nat) (hlower : lower ≤ length) (hupper : upper ≤ length) :
    -(length : Int) - 1 ≤ (locateWithin compareAt present absent lower upper).result ∧
      (locateWithin compareAt present absent lower upper).result ≤ length := by
  fun_induction locateWithin compareAt present absent lower upper with
  | case1 lower upper hlt middle hcompare ih =>
      exact ih hlower (by omega)
  | case2 lower upper hlt middle hcompare ih =>
      exact ih (by omega) hupper
  | case3 lower upper hlt middle hcompare =>
      obtain ⟨hge, hle⟩ := present.resolve_result_bounds compareAt lower middle (upper - 1)
        (by omega) (by omega)
      exact ⟨Int.le_trans (by omega) hge, Int.le_trans hle (by omega)⟩
  | case4 lower upper hge =>
      exact absent.resolve_bounds hlower

/-- A signed word holds the result of a search if it holds the length. -/
theorem locate_result_word {length : Nat} (hword : (length : Int) ≤ IntegerKind.intWord.maximum)
    (present : Present) (absent : Absent) :
    IntegerKind.intWord.minimum ≤ (locate length present absent compareAt).result ∧
      (locate length present absent compareAt).result ≤ IntegerKind.intWord.maximum := by
  obtain ⟨hge, hle⟩ := locateWithin_result_bounds compareAt present absent 0 length
    (Nat.zero_le length) (Nat.le_refl length)
  simp only [IntegerKind.minimum, IntegerKind.maximum] at hword ⊢
  exact ⟨Int.le_trans (by omega) hge, Int.le_trans hle hword⟩

end RangeAlgebra.Search
