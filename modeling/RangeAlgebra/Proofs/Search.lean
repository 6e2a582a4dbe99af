import RangeAlgebra.Search

/-!
What a search finds in a sorted sequence. Two numbers describe the comparisons with the key: how
many elements come before it and how many are equal to it. The answer of every policy is said in
these two numbers, so callers do not look at the positions that the search happens to compare.
-/

namespace RangeAlgebra.Search

/-- The comparisons of a sorted sequence: greater at the first `before` positions, equal at the
next `equal` ones and less from there on. -/
structure Sorted (compareAt : Nat → Ordering) (length before equal : Nat) : Prop where
  le_length : before + equal ≤ length
  gt_iff : ∀ i < length, compareAt i = .gt ↔ i < before
  eq_iff : ∀ i < length, compareAt i = .eq ↔ before ≤ i ∧ i < before + equal

/-- What a policy for a key that occurs promises about the result. -/
def Present.Answers (present : Present) (before equal : Nat) (result : Int) : Prop :=
  match present with
  | .any => before ≤ result ∧ result < before + equal
  | .last => result = before + equal - 1
  | .first => result = before
  | .firstAfter => result = before + equal
  | .lastBefore => result = before - 1

variable {compareAt : Nat → Ordering} {length before equal : Nat}

theorem Sorted.lt_iff (h : Sorted compareAt length before equal) (i : Nat) (hi : i < length) :
    compareAt i = .lt ↔ before + equal ≤ i := by
  have hgt := h.gt_iff i hi
  have heq := h.eq_iff i hi
  cases hcompare : compareAt i <;> simp [hcompare] at hgt heq ⊢ <;> omega

/-- The window always holds the last occurrence. -/
theorem Sorted.lastPresent_result (h : Sorted compareAt length before equal)
    (lower upper : Nat) (hfirst : before ≤ lower) (hlower : lower < before + equal)
    (hlast : before + equal ≤ upper + 1) (hupper : upper < length) :
    (lastPresent compareAt lower upper).result = before + equal - 1 := by
  induction lower, upper using lastPresent.induct compareAt with
  | case1 lower upper hlt middle hcompare ih =>
      have hmiddle : middle < length := by omega
      have hafter := (h.lt_iff middle hmiddle).mp hcompare
      rw [lastPresent, if_pos hlt]
      simp only [middle] at hcompare
      simp only [hcompare]
      exact ih hfirst hlower (by omega) (by omega)
  | case2 lower upper hlt middle hcompare ih =>
      have hmiddle : middle < length := by omega
      have hat := (h.eq_iff middle hmiddle).mp hcompare
      rw [lastPresent, if_pos hlt]
      simp only [middle] at hcompare
      simp only [hcompare]
      exact ih hat.1 hat.2 hlast hupper
  | case3 lower upper hlt middle hcompare ih =>
      have hmiddle : middle < length := by omega
      have hbefore := (h.gt_iff middle hmiddle).mp hcompare
      omega
  | case4 lower upper hge =>
      rw [lastPresent, if_neg hge]
      simp only
      omega

/-- The window always holds the first occurrence. -/
theorem Sorted.firstPresent_result (h : Sorted compareAt length before equal)
    (lower upper : Nat) (hlower : lower ≤ before) (hfirst : before ≤ upper)
    (hlast : upper < before + equal) :
    (firstPresent compareAt lower upper).result = before := by
  have hlength := h.le_length
  induction lower, upper using firstPresent.induct compareAt with
  | case1 lower upper hlt middle hcompare ih =>
      have hbefore := (h.gt_iff middle (by omega)).mp hcompare
      rw [firstPresent, if_pos hlt]
      simp only [middle] at hcompare
      simp only [hcompare]
      exact ih (by omega) hfirst hlast
  | case2 lower upper hlt middle hcompare ih =>
      have hat := (h.eq_iff middle (by omega)).mp hcompare
      rw [firstPresent, if_pos hlt]
      simp only [middle] at hcompare
      simp only [hcompare]
      exact ih hlower hat.1 hat.2
  | case3 lower upper hlt middle hcompare ih =>
      have hafter := (h.lt_iff middle (by omega)).mp hcompare
      omega
  | case4 lower upper hge =>
      rw [firstPresent, if_neg hge]
      simp only
      omega

theorem Sorted.resolve_answers (h : Sorted compareAt length before equal) (present : Present)
    (lower found upper : Nat) (hlower : lower ≤ before) (hfirst : before ≤ found)
    (hfound : found < before + equal) (hlast : before + equal ≤ upper + 1)
    (hupper : upper < length) :
    present.Answers before equal (present.resolve compareAt lower found upper).result := by
  have hlastPresent := h.lastPresent_result found upper hfirst hfound hlast hupper
  have hfirstPresent := h.firstPresent_result lower found hlower hfirst hfound
  cases present with
  | any =>
      simp only [Present.Answers, Present.resolve]
      omega
  | last =>
      simp only [Present.Answers, Present.resolve, Probed.map, hlastPresent, Int.ofNat_eq_natCast]
      omega
  | first =>
      simp only [Present.Answers, Present.resolve, Probed.map, hfirstPresent,
        Int.ofNat_eq_natCast]
  | firstAfter =>
      simp only [Present.Answers, Present.resolve, Probed.map, hlastPresent]
      omega
  | lastBefore =>
      simp only [Present.Answers, Present.resolve, Probed.map, hfirstPresent]

/-- Nothing outside the window is equal to the key, so the window closes on the place of
insertion if the key does not occur and meets an occurrence if it does. -/
theorem Sorted.locateWithin_result (h : Sorted compareAt length before equal)
    (present : Present) (absent : Absent) (lower upper : Nat) (hlower : lower ≤ before)
    (hlast : before + equal ≤ upper) (hupper : upper ≤ length) :
    (equal = 0 →
        (locateWithin compareAt present absent lower upper).result = absent.resolve before) ∧
      (0 < equal →
        present.Answers before equal
          (locateWithin compareAt present absent lower upper).result) := by
  induction lower, upper using locateWithin.induct compareAt with
  | case1 lower upper hlt middle hcompare ih =>
      have hafter := (h.lt_iff middle (by omega)).mp hcompare
      rw [locateWithin, if_pos hlt]
      simp only [middle] at hcompare
      simp only [hcompare]
      exact ih hlower hafter (by omega)
  | case2 lower upper hlt middle hcompare ih =>
      have hbefore := (h.gt_iff middle (by omega)).mp hcompare
      rw [locateWithin, if_pos hlt]
      simp only [middle] at hcompare
      simp only [hcompare]
      exact ih (by omega) hlast hupper
  | case3 lower upper hlt middle hcompare =>
      have hat := (h.eq_iff middle (by omega)).mp hcompare
      rw [locateWithin, if_pos hlt]
      simp only [middle] at hcompare
      simp only [hcompare]
      refine ⟨fun hzero => by omega, fun _ => ?_⟩
      exact h.resolve_answers present lower middle (upper - 1) hlower hat.1 hat.2 (by omega)
        (by omega)
  | case4 lower upper hge =>
      have hclosed : lower = before := by omega
      rw [locateWithin, if_neg hge, hclosed]
      exact ⟨fun _ => rfl, fun hpositive => by omega⟩

theorem Sorted.locate_absent (h : Sorted compareAt length before 0) (present : Present)
    (absent : Absent) :
    (locate length present absent compareAt).result = absent.resolve before :=
  (h.locateWithin_result present absent 0 length (Nat.zero_le _) h.le_length
    (Nat.le_refl _)).1 rfl

theorem Sorted.locate_present (h : Sorted compareAt length before equal) (hequal : 0 < equal)
    (present : Present) (absent : Absent) :
    present.Answers before equal (locate length present absent compareAt).result :=
  (h.locateWithin_result present absent 0 length (Nat.zero_le _) h.le_length
    (Nat.le_refl _)).2 hequal

end RangeAlgebra.Search
