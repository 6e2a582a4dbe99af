import RangeAlgebra.Element.Integer
import RangeAlgebra.Proofs.Listing
import RangeAlgebra.Proofs.Search
import RangeAlgebra.Proofs.Search.Probes

/-!
A search against a scan. A scan looks at every comparison and counts those that are greater and
those that are equal, and the two counts decide what each policy asks for. The comparisons of a key
with the elements of a sorted sequence come greater first, then equal, then less, so the search
answers what the scan does, however often the key occurs. As positions are answered by signed words,
a sequence may be as long as the greatest of these.
-/

namespace RangeAlgebra.Search

/-- What a policy for a key that does not occur promises about the result. -/
def Absent.Answers (absent : Absent) (before : Nat) (result : Int) : Prop :=
  match absent with
  | .nextLower => result = before - 1
  | .nextHigher => result = before
  | .invertedInsertion => result = -before - 1

/-- The comparisons are greater first, then equal, then less. -/
def Descending (answers : List Ordering) : Prop :=
  answers.Pairwise fun earlier later => earlier = .gt ∨ earlier = later ∨ later = .lt

/-- The result that the policies ask for after a scan of all comparisons. -/
def Scanned (present : Present) (absent : Absent) (answers : List Ordering) (result : Int) : Prop :=
  let greater := answers.count .gt
  let equal := answers.count .eq
  if equal = 0 then absent.Answers greater result else present.Answers greater equal result

theorem countP_ne_lt (answers : List Ordering) :
    answers.countP (· != .lt) = answers.count .gt + answers.count .eq := by
  induction answers with
  | nil => rfl
  | cons answer rest ih =>
      rw [List.countP_cons, List.count_cons, List.count_cons, ih]
      cases answer <;> simp <;> omega

variable {compareAt : Nat → Ordering} {answers : List Ordering} {present : Present}
  {absent : Absent} {result : Int}

/-- The two counts of the scan are the two numbers that describe the sequence for the search. -/
theorem Descending.sorted (h : Descending answers)
    (hcompare : ∀ i (hi : i < answers.length), compareAt i = answers[i]) :
    Sorted compareAt answers.length (answers.count .gt) (answers.count .eq) := by
  have hgreater : answers.Pairwise fun a b => (b == .gt) = true → (a == .gt) = true := by
    refine h.imp ?_
    rintro a b (rfl | rfl | rfl) <;> simp
  have hnotLess : answers.Pairwise fun a b => (b != .lt) = true → (a != .lt) = true := by
    refine h.imp ?_
    rintro a b (rfl | rfl | rfl) <;> simp
  have hcount := countP_ne_lt answers
  have hlength : answers.countP (· != .lt) ≤ answers.length := List.countP_le_length
  refine ⟨by omega, ?_, ?_⟩
  · intro i hi
    rw [List.count, ← getElem_iff_lt_countP hgreater i hi, hcompare i hi, beq_iff_eq]
  · intro i hi
    have hbefore := getElem_iff_lt_countP hgreater i hi
    have hupTo := getElem_iff_lt_countP hnotLess i hi
    rw [hcount] at hupTo
    rw [hcompare i hi, ← hupTo, ← Nat.not_lt, List.count, ← hbefore]
    cases answers[i] <;> simp

/-- The search finds what the scan does. -/
theorem Descending.scanned (h : Descending answers) {length : Nat} (hlength : length = answers.length)
    (hcompare : ∀ i (hi : i < answers.length), compareAt i = answers[i]) (present : Present)
    (absent : Absent) :
    Scanned present absent answers (locate length present absent compareAt).result := by
  subst hlength
  have hsorted := h.sorted hcompare
  unfold Scanned
  by_cases hnone : answers.count .eq = 0
  · rw [hnone] at hsorted
    rw [if_pos hnone, hsorted.locate_absent present absent]
    cases absent <;> rfl
  · rw [if_neg hnone]
    exact hsorted.locate_present (Nat.pos_of_ne_zero hnone) present absent

/-- In a sequence that ascends by its keys, the comparisons with a key descend. -/
theorem descending_compare {ε κ : Type} [Ord κ] [Std.TransOrd κ] {items : List ε} {keyOf : ε → κ}
    (hsorted : items.Pairwise fun a b => (compare (keyOf a) (keyOf b)).isLE = true) (key : κ) :
    Descending (items.map fun item => compare key (keyOf item)) := by
  rw [Descending, List.pairwise_map]
  refine hsorted.imp ?_
  intro a b hle
  cases hkey : compare key (keyOf a) with
  | gt => exact Or.inl rfl
  | lt => exact Or.inr (Or.inr (Std.TransCmp.lt_of_lt_of_isLE hkey hle))
  | eq =>
      have hupTo : (compare key (keyOf b)).isLE = true :=
        Std.TransCmp.isLE_trans (by simp [hkey]) hle
      cases hother : compare key (keyOf b) with
      | lt => exact Or.inr (Or.inr rfl)
      | eq => exact Or.inr (Or.inl rfl)
      | gt =>
          rw [hother] at hupTo
          cases hupTo

/-- For every policy the result of a search is the one that a scan of all comparisons finds, if they
are greater first, then equal, then less, as those with a key are in a sequence that is sorted by
its keys. It is a signed word if the length is. -/
theorem search_eq_scan (present : Present) (absent : Absent) :
    (∀ (length : Nat) (compareAt : Nat → Ordering), (length : Int) ≤ IntegerKind.intWord.maximum →
        Descending ((List.range length).map compareAt) →
        let result := (locate length present absent compareAt).result
        Scanned present absent ((List.range length).map compareAt) result ∧
          IntegerKind.intWord.minimum ≤ result ∧ result ≤ IntegerKind.intWord.maximum) ∧
      ∀ (ε κ : Type) [Ord κ] [Std.TransOrd κ] (items : Array ε) (keyOf : ε → κ) (key : κ),
        (items.size : Int) ≤ IntegerKind.intWord.maximum →
        (items.toList.Pairwise fun a b => (compare (keyOf a) (keyOf b)).isLE = true) →
        let result := (locateKey items keyOf key present absent).result
        Scanned present absent (items.toList.map fun item => compare key (keyOf item)) result ∧
          IntegerKind.intWord.minimum ≤ result ∧ result ≤ IntegerKind.intWord.maximum := by
  constructor
  · intro length compareAt hword hdescending result
    have hscanned : Scanned present absent ((List.range length).map compareAt) result :=
      hdescending.scanned (by simp) (by simp) present absent
    exact ⟨hscanned, locate_result_word compareAt hword present absent⟩
  · intro ε κ _ _ items keyOf key hword hsorted result
    have hscanned : Scanned present absent
        (items.toList.map fun item => compare key (keyOf item)) result := by
      refine (descending_compare hsorted key).scanned (by simp) ?_ present absent
      intro i hi
      have hsize : i < items.size := by simpa using hi
      simp [hsize]
    exact ⟨hscanned, locate_result_word _ hword present absent⟩

/-- The key 3 occurs three times among the items, and 5 would stand before the last one. -/
theorem search_eq_scan_repeated :
    let items : Array Int := #[1, 3, 3, 3, 7]
    let split (i : Nat) : Ordering := if i < 4 then .gt else .lt
    (items.toList.Pairwise fun a b => (compare a b).isLE = true) ∧
      (locateKey items id 3 .first .nextLower).result = 1 ∧
      (locateKey items id 3 .firstAfter .nextLower).result = 4 ∧
      (locateKey items id 5 .any .nextLower).result = 3 ∧
      Descending ((List.range 5).map split) ∧
      (locate 5 .any .invertedInsertion split).result = -5 := by
  intro items split
  have hword : ((5 : Nat) : Int) ≤ IntegerKind.intWord.maximum := by decide
  have hsorted : items.toList.Pairwise fun a b => (compare a b).isLE = true := by decide
  have hsplit : Descending ((List.range 5).map split) := by unfold Descending; decide
  have hfirst := ((search_eq_scan .first .nextLower).2 Int Int items id 3 hword hsorted).1
  have hafter := ((search_eq_scan .firstAfter .nextLower).2 Int Int items id 3 hword hsorted).1
  have hlower := ((search_eq_scan .any .nextLower).2 Int Int items id 5 hword hsorted).1
  have hinverted := ((search_eq_scan .any .invertedInsertion).1 5 split hword hsplit).1
  exact ⟨hsorted, hfirst, hafter, hlower, hsplit, hinverted⟩

end RangeAlgebra.Search
