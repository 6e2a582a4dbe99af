import RangeAlgebra.Proofs.Coverage
import RangeAlgebra.RangeIndex

/-!
Canonical sequences of ranges: ascending, none of them empty and no two of them connected. Such a
sequence is known by the positions it covers, so two ways of computing a set agree as soon as they
cover the same positions and both keep to the canonical form. The gaps of a canonical sequence
and what a range cuts out of it are canonical again.
-/

namespace RangeAlgebra.Range

universe u

variable {α : Type u} [Ord α]

/-- Some range of the sequence covers the position. -/
def Covered (ranges : List (Range α)) (cut : Cut α) : Prop :=
  ∃ range ∈ ranges, range.Covers cut

/-- Every range holds a position and ends strictly before the next one starts. -/
structure IsCanonical (ranges : List (Range α)) : Prop where
  lower_lt_upper : ∀ range ∈ ranges, range.lower < range.upper
  disconnected : ranges.Pairwise fun a b => a.upper < b.lower

@[simp]
theorem not_covered_nil (cut : Cut α) : ¬ Covered [] cut := by
  simp [Covered]

@[simp]
theorem covered_cons (range : Range α) (rest : List (Range α)) (cut : Cut α) :
    Covered (range :: rest) cut ↔ range.Covers cut ∨ Covered rest cut := by
  simp [Covered]

@[simp]
theorem covered_append (first second : List (Range α)) (cut : Cut α) :
    Covered (first ++ second) cut ↔ Covered first cut ∨ Covered second cut := by
  simp only [Covered, List.mem_append, or_and_right, exists_or]

theorem isCanonical_nil : IsCanonical ([] : List (Range α)) :=
  ⟨by simp, List.Pairwise.nil⟩

theorem isCanonical_cons (range : Range α) (rest : List (Range α)) :
    IsCanonical (range :: rest) ↔
      range.lower < range.upper ∧ (∀ other ∈ rest, range.upper < other.lower) ∧
        IsCanonical rest := by
  constructor
  · intro h
    have hpairs := List.pairwise_cons.mp h.disconnected
    exact ⟨h.lower_lt_upper range (by simp), hpairs.1,
      fun other hother => h.lower_lt_upper other (by simp [hother]), hpairs.2⟩
  · rintro ⟨hrange, hbefore, hrest⟩
    refine ⟨?_, List.pairwise_cons.mpr ⟨hbefore, hrest.disconnected⟩⟩
    intro other hother
    rcases List.mem_cons.mp hother with rfl | hmember
    · exact hrange
    · exact hrest.lower_lt_upper other hmember

theorem isCanonical_singleton {range : Range α} (h : range.lower < range.upper) :
    IsCanonical [range] := by
  simp [isCanonical_cons, h, isCanonical_nil]

/-- Ranges in the order of their starts are canonical if each holds a position and ends before
any other that starts later. -/
theorem isCanonical_of_ascending {ranges : List (Range α)}
    (hsorted : ranges.Pairwise fun a b => a.lower < b.lower)
    (hproper : ∀ range ∈ ranges, range.lower < range.upper)
    (hapart : ∀ a ∈ ranges, ∀ b ∈ ranges, a.lower < b.lower → a.upper < b.lower) :
    IsCanonical ranges :=
  ⟨hproper, List.Pairwise.imp_of_mem (fun ha hb hab => hapart _ ha _ hb hab) hsorted⟩

variable [Std.TransOrd α] [Std.LawfulEqOrd α]

theorem IsCanonical.valid {ranges : List (Range α)} (h : IsCanonical ranges) :
    ∀ range ∈ ranges, range.Valid :=
  fun range hrange => valid_of_lt (h.lower_lt_upper range hrange)

theorem IsCanonical.not_isEmpty [DecidableEq α] {ranges : List (Range α)} (h : IsCanonical ranges) :
    ∀ range ∈ ranges, ¬ range.isEmpty = true :=
  fun range hrange => not_isEmpty_of_covers (covers_lower (h.lower_lt_upper range hrange))

/-- The ranges start in strictly ascending order. -/
theorem IsCanonical.ascending {ranges : List (Range α)} (h : IsCanonical ranges) :
    ranges.Pairwise fun a b => a.lower < b.lower := by
  refine List.Pairwise.imp_of_mem ?_ h.disconnected
  intro a b ha _ hab
  exact Std.lt_trans (h.lower_lt_upper a ha) hab

theorem IsCanonical.lower_head_le {ranges : List (Range α)} (h : IsCanonical ranges)
    {first : Range α} (hfirst : ranges.head? = some first) :
    ∀ range ∈ ranges, first.lower ≤ range.lower := by
  obtain ⟨rest, rfl⟩ := List.head?_eq_some_iff.mp hfirst
  intro range hrange
  rcases List.mem_cons.mp hrange with rfl | hlater
  · exact Std.le_refl _
  · exact Std.le_of_lt ((List.pairwise_cons.mp h.ascending).1 range hlater)

theorem IsCanonical.upper_le_getLast {ranges : List (Range α)} (h : IsCanonical ranges)
    {last : Range α} (hlast : ranges.getLast? = some last) :
    ∀ range ∈ ranges, range.upper ≤ last.upper := by
  obtain ⟨earlier, rfl⟩ := List.getLast?_eq_some_iff.mp hlast
  have hproper := h.lower_lt_upper last (by simp)
  intro range hrange
  rcases List.mem_append.mp hrange with hearlier | hsame
  · have hbefore := (List.pairwise_append.mp h.disconnected).2.2 range hearlier last (by simp)
    exact Std.le_of_lt (Std.lt_trans hbefore hproper)
  · rw [List.mem_singleton.mp hsame]
    exact Std.le_refl _

/-- What lies between the ends of a canonical sequence is a range. -/
theorem IsCanonical.valid_span {ranges : List (Range α)} (h : IsCanonical ranges)
    {first last : Range α} (hfirst : ranges.head? = some first)
    (hlast : ranges.getLast? = some last) : (⟨first.lower, last.upper⟩ : Range α).Valid := by
  have hmem := List.mem_of_head? hfirst
  have hproper := h.lower_lt_upper first hmem
  exact valid_of_lt (Std.lt_of_lt_of_le hproper (h.upper_le_getLast hlast first hmem))

/-- Of two ranges the one that starts first ends before the other starts. -/
theorem IsCanonical.upper_lt {ranges : List (Range α)} (h : IsCanonical ranges) :
    ∀ a ∈ ranges, ∀ b ∈ ranges, a.lower < b.lower → a.upper < b.lower := by
  induction ranges with
  | nil => simp
  | cons range rest ih =>
      obtain ⟨hrange, hbefore, hrest⟩ := (isCanonical_cons range rest).mp h
      have ih := ih hrest
      have hproper := hrest.lower_lt_upper
      intro a ha b hb hab
      rcases List.mem_cons.mp ha with rfl | ha <;> rcases List.mem_cons.mp hb with rfl | hb
      · grind
      · exact hbefore b hb
      · grind
      · exact ih a ha b hb hab

/-- Ranges with the same start are the same range. -/
theorem IsCanonical.eq_of_lower_eq {ranges : List (Range α)} (h : IsCanonical ranges) :
    ∀ a ∈ ranges, ∀ b ∈ ranges, a.lower = b.lower → a = b := by
  induction ranges with
  | nil => simp
  | cons range rest ih =>
      obtain ⟨hrange, hbefore, hrest⟩ := (isCanonical_cons range rest).mp h
      have ih := ih hrest
      intro a ha b hb hab
      rcases List.mem_cons.mp ha with rfl | ha <;> rcases List.mem_cons.mp hb with rfl | hb
      · rfl
      · grind
      · grind
      · exact ih a ha b hb hab

theorem not_covered_aboveAll (ranges : List (Range α)) : ¬ Covered ranges .aboveAll := by
  rintro ⟨range, -, hcovers⟩
  exact not_covers_aboveAll range hcovers

/-- Nothing before the first range is covered. -/
private theorem IsCanonical.lower_le_of_covered {range : Range α} {rest : List (Range α)}
    (h : IsCanonical (range :: rest)) {cut : Cut α} (hcut : Covered (range :: rest) cut) :
    range.lower ≤ cut := by
  obtain ⟨hrange, hbefore, -⟩ := (isCanonical_cons range rest).mp h
  rcases (covered_cons range rest cut).mp hcut with hcovers | ⟨other, hother, hcovers⟩
  · exact hcovers.1
  · have hlt := hbefore other hother
    grind

/-- If the first ranges of two canonical sequences start together and the sequences cover the
same positions, the first one does not end later. -/
private theorem IsCanonical.first_upper_le {a b : Range α} {as bs : List (Range α)}
    (hb : IsCanonical (b :: bs)) (hlower : a.lower = b.lower)
    (hcovered : ∀ cut, Covered (a :: as) cut → Covered (b :: bs) cut) : a.upper ≤ b.upper := by
  obtain ⟨-, hbefore, -⟩ := (isCanonical_cons b bs).mp hb
  have hproper := hb.lower_lt_upper b (by simp)
  rw [← Std.not_lt]
  intro hlt
  -- Otherwise the end of `b` is a position of `a` that comes before the rest of the second.
  have hcut : Covered (a :: as) b.upper := ⟨a, by simp, by grind⟩
  rcases (covered_cons b bs _).mp (hcovered _ hcut) with hcovers | ⟨other, hother, hcovers⟩
  · grind
  · have hlater := hbefore other hother
    grind

private theorem IsCanonical.covered_rest_iff {range : Range α} {rest : List (Range α)}
    (h : IsCanonical (range :: rest)) (cut : Cut α) :
    Covered rest cut ↔ Covered (range :: rest) cut ∧ ¬ range.Covers cut := by
  obtain ⟨-, hbefore, -⟩ := (isCanonical_cons range rest).mp h
  have hdisjoint : Covered rest cut → ¬ range.Covers cut := by
    rintro ⟨other, hother, hcovers⟩
    have hlt := hbefore other hother
    grind
  rw [covered_cons]
  grind

/-- The canonical form is unique: sequences that cover the same positions are the same. -/
theorem IsCanonical.eq_of_covered_iff {as bs : List (Range α)}
    (ha : IsCanonical as) (hb : IsCanonical bs)
    (hcovered : ∀ cut, Covered as cut ↔ Covered bs cut) : as = bs := by
  induction as generalizing bs with
  | nil =>
      cases bs with
      | nil => rfl
      | cons b bs =>
          have hproper := hb.lower_lt_upper b (by simp)
          have hcut : Covered (b :: bs) b.lower := ⟨b, by simp, covers_lower hproper⟩
          exact absurd ((hcovered _).mpr hcut) (not_covered_nil _)
  | cons a as ih =>
      have hproper := ha.lower_lt_upper a (by simp)
      have hcut : Covered (a :: as) a.lower := ⟨a, by simp, covers_lower hproper⟩
      cases bs with
      | nil => exact absurd ((hcovered _).mp hcut) (not_covered_nil _)
      | cons b bs =>
          have hproper' := hb.lower_lt_upper b (by simp)
          have hcut' : Covered (b :: bs) b.lower := ⟨b, by simp, covers_lower hproper'⟩
          have hlower : a.lower = b.lower := by
            have hle := ha.lower_le_of_covered ((hcovered _).mpr hcut')
            have hge := hb.lower_le_of_covered ((hcovered _).mp hcut)
            grind
          have hupper : a.upper = b.upper := by
            have hle := hb.first_upper_le hlower fun cut => (hcovered cut).mp
            have hge := ha.first_upper_le hlower.symm fun cut => (hcovered cut).mpr
            grind
          have hfirst : a = b := by
            cases a
            cases b
            simp_all
          subst hfirst
          have hrest : as = bs := by
            apply ih ((isCanonical_cons a as).mp ha).2.2 ((isCanonical_cons a bs).mp hb).2.2
            intro cut
            rw [ha.covered_rest_iff, hb.covered_rest_iff, hcovered]
          rw [hrest]

end RangeAlgebra.Range
