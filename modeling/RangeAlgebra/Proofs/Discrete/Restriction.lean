import RangeAlgebra.Proofs.Discrete.Algebra

/-!
Parts of a view of integers. A part is the view of the set restricted to a range, so it has the
integers of the view that lie in the range, and in their order. Whatever is asked for, the values
up to one, from one on or between two, is a filter of the values of the view, and a part is a view
again from which parts can be taken. The number of values below one of them is its position.
-/

namespace RangeAlgebra

universe u

namespace BoundType

variable {α : Type u}

theorem lowerCut_ne_aboveAll (type : BoundType) (value : α) : type.lowerCut value ≠ .aboveAll := by
  cases type <;> simp [lowerCut]

theorem upperCut_ne_belowAll (type : BoundType) (value : α) : type.upperCut value ≠ .belowAll := by
  cases type <;> simp [upperCut]

end BoundType

namespace DiscreteView

/-- The values of a view in ascending order: they are those that it contains, iteration gives them,
their number is the size and the number of values below one of them is its position, where numbers
above the cap are not told apart. -/
structure Gives {α : Type u} [Ord α] [DecidableEq α] (view : DiscreteView α) (values : List α) :
    Prop where
  enumerates : Enumerates values fun value => view.contains value = true
  take_eq : ∀ count, (view.cursor .ascending).take count = values.take count
  size_eq : view.size = min values.length countCap
  indexOf_eq : ∀ value ∈ values, view.indexOf value =
    some (min (values.countP fun other => compare other value = .lt) countCap)

end DiscreteView

section Integers

variable {kind : IntegerKind}

namespace BoundedInt

/-- `value` is below `last`, or equal to it if that is `inclusive`. -/
def isUpTo (last : BoundedInt kind) (inclusive : Bool) (value : BoundedInt kind) : Bool :=
  if inclusive then value.val ≤ last.val else value.val < last.val

/-- `value` is above `first`, or equal to it if that is `inclusive`. -/
def isFrom (first : BoundedInt kind) (inclusive : Bool) (value : BoundedInt kind) : Bool :=
  if inclusive then first.val ≤ value.val else first.val < value.val

@[simp]
theorem isUpTo_true_iff (last value : BoundedInt kind) :
    last.isUpTo true value = true ↔ value.val ≤ last.val :=
  decide_eq_true_iff

@[simp]
theorem isUpTo_false_iff (last value : BoundedInt kind) :
    last.isUpTo false value = true ↔ value.val < last.val :=
  decide_eq_true_iff

@[simp]
theorem isFrom_true_iff (first value : BoundedInt kind) :
    first.isFrom true value = true ↔ first.val ≤ value.val :=
  decide_eq_true_iff

@[simp]
theorem isFrom_false_iff (first value : BoundedInt kind) :
    first.isFrom false value = true ↔ first.val < value.val :=
  decide_eq_true_iff

theorem lowerCut_le_below_iff (first value : BoundedInt kind) (inclusive : Bool) :
    (BoundType.ofInclusive inclusive).lowerCut first ≤ .below value ↔
      first.isFrom inclusive value = true := by
  cases inclusive with
  | false =>
      rw [isFrom_false_iff]
      exact (Cut.above_le_below_iff first value).trans (compare_eq_lt_iff first value)
  | true =>
      rw [isFrom_true_iff]
      exact isLE_compare_iff first value

theorem below_lt_upperCut_iff (last value : BoundedInt kind) (inclusive : Bool) :
    .below value < (BoundType.ofInclusive inclusive).upperCut last ↔
      last.isUpTo inclusive value = true := by
  cases inclusive with
  | false =>
      rw [isUpTo_false_iff]
      exact compare_eq_lt_iff value last
  | true =>
      rw [isUpTo_true_iff]
      exact (Cut.below_lt_above_iff value last).trans (isLE_compare_iff value last)

/-- The cuts that close in on two values are inverted only if the values are, or if they are equal
and both left out. -/
theorem lowerCut_le_upperCut {first last : BoundedInt kind} (hle : first.val ≤ last.val)
    {firstInclusive lastInclusive : Bool}
    (hopen : ¬ (first = last ∧ firstInclusive = false ∧ lastInclusive = false)) :
    (BoundType.ofInclusive firstInclusive).lowerCut first ≤
      (BoundType.ofInclusive lastInclusive).upperCut last := by
  have hbelow : Cut.below first ≤ .below last := (isLE_compare_iff first last).mpr hle
  cases firstInclusive with
  | true =>
      cases lastInclusive with
      | true => exact (Cut.below_le_above_iff first last).mpr hbelow
      | false => exact hbelow
  | false =>
      cases lastInclusive with
      | true => exact (isLE_compare_iff first last).mpr hle
      | false =>
          have hne : first.val ≠ last.val := fun heq => hopen ⟨val_injective heq, rfl, rfl⟩
          apply (Cut.above_le_below_iff first last).mpr
          exact (compare_eq_lt_iff first last).mpr (by omega)

end BoundedInt

namespace DiscreteView

/-- The view of a set of integers that can be made. -/
def OfIntegers (view : DiscreteView (BoundedInt kind)) : Prop :=
  view.set.Reachable ∧ view.set.asView (.integers kind) = .ok view

variable {view : DiscreteView (BoundedInt kind)} {values : List (BoundedInt kind)}

theorem OfIntegers.domain_eq (h : view.OfIntegers) : view.domain = .integers kind :=
  congrArg DiscreteView.domain (eq_of_asView_integers h.1.wellFormed h.2)

theorem exists_gives {set : RangeSet (BoundedInt kind)} (h : set.WellFormed) :
    ∃ values, DiscreteView.Gives ⟨set, .integers kind⟩ values := by
  have hdomain := DiscreteDomain.stepsOver_integers kind
  have hview : set.asView (.integers kind) = .ok ⟨set, .integers kind⟩ := h.asView_eq_ok rfl rfl
  obtain ⟨-, ways, hwalks⟩ := h.exists_walks hdomain (fun _ _ _ _ => trivial) hview
  have henumerates := h.canonical.enumerates_flatten hwalks
  have hascending : (DiscreteView.cursor ⟨set, .integers kind⟩ .ascending).Awaits ways.flatten :=
    awaits_ascending hwalks
  refine ⟨ways.flatten, henumerates.congr fun value => ?_, hascending.take_eq, ?_, ?_⟩
  · exact (and_iff_right trivial).trans (RangeSet.Lists.contains_iff h value).symm
  · rw [size, foldl_valueCount_eq hwalks, Nat.zero_add]
  · intro value hvalue
    obtain ⟨before, after, hsplit, hindex⟩ := indexFrom_eq_some hwalks trivial hvalue 0
    rw [hsplit] at henumerates ⊢
    rw [henumerates.countP_lt]
    rw [Nat.zero_add] at hindex
    exact hindex

/-- A set that covers the values of the view that pass a test has a view of these values. -/
theorem Gives.exists_asView (h : view.Gives values) (hview : view.set.WellFormed)
    {part : RangeSet (BoundedInt kind)} (hpart : part.Reachable) {test : BoundedInt kind → Bool}
    (hcovers : ∀ value, part.Covers (.below value) ↔
      view.set.Covers (.below value) ∧ test value = true) :
    ∃ result, part.asView (.integers kind) = .ok result ∧ result.OfIntegers ∧
      result.Gives (values.filter test) := by
  have hform := hpart.wellFormed
  have hasView : part.asView (.integers kind) = .ok ⟨part, .integers kind⟩ :=
    hform.asView_eq_ok rfl rfl
  obtain ⟨found, hfound⟩ := exists_gives hform
  have hsame : found = values.filter test := by
    apply hfound.enumerates.eq
    refine (h.enumerates.filter test).congr fun value => ?_
    have hcontains : view.contains value = true ↔ view.set.Covers (.below value) :=
      RangeSet.Lists.contains_iff hview value
    have hresult : part.contains value = true ↔ part.Covers (.below value) :=
      RangeSet.Lists.contains_iff hform value
    rw [hcontains, ← hcovers, ← hresult]
    exact Iff.rfl
  exact ⟨⟨part, .integers kind⟩, hasView, ⟨hpart, hasView⟩, hsame ▸ hfound⟩

/-- The part of a view in a range has the values of the view that are in the range. -/
theorem OfIntegers.exists_restrict (h : view.OfIntegers) (hgives : view.Gives values)
    {range : Range (BoundedInt kind)} (hvalid : range.Valid) (label : Nat)
    {test : BoundedInt kind → Bool}
    (htest : ∀ value, range.Covers (.below value) ↔ test value = true) :
    ∃ part, view.restrict range label = .ok part ∧ part.OfIntegers ∧
      part.Gives (values.filter test) := by
  have hform := h.1.wellFormed
  have hlists := RangeSet.Lists.restrict hform hvalid label
  rw [restrict, h.domain_eq]
  refine hgives.exists_asView hform (h.1.restrict hvalid label) fun value => ?_
  rw [hlists.covers_iff, hform.canonical.covered_within hvalid, htest]
  exact Iff.rfl

theorem subSet_eq_error (view : DiscreteView (BoundedInt kind)) (label : Nat)
    {first last : BoundedInt kind} (firstInclusive lastInclusive : Bool)
    (hlt : last.val < first.val) :
    view.subSet first firstInclusive last lastInclusive label = .error .invertedSelection := by
  have hgt : compare first last = .gt :=
    Std.OrientedCmp.gt_of_lt ((BoundedInt.compare_eq_lt_iff last first).mpr hlt)
  rw [subSet, hgt]
  rfl

section Parts

variable (h : view.OfIntegers) (hgives : view.Gives values) (label : Nat)

include h hgives

theorem OfIntegers.exists_headSet (last : BoundedInt kind) (inclusive : Bool) :
    ∃ head, view.headSet last inclusive label = .ok head ∧ head.OfIntegers ∧
      head.Gives (values.filter (last.isUpTo inclusive)) := by
  have hvalid : (Range.upTo last (.ofInclusive inclusive)).Valid :=
    ⟨Cut.belowAll_le _, by simp [Range.upTo], BoundType.upperCut_ne_belowAll _ last⟩
  refine h.exists_restrict hgives hvalid label fun value => ?_
  rw [Range.upTo, Range.covers_iff, BoundedInt.below_lt_upperCut_iff]
  exact and_iff_right (Cut.belowAll_le _)

theorem OfIntegers.exists_tailSet (first : BoundedInt kind) (inclusive : Bool) :
    ∃ tail, view.tailSet first inclusive label = .ok tail ∧ tail.OfIntegers ∧
      tail.Gives (values.filter (first.isFrom inclusive)) := by
  have hvalid : (Range.downTo first (.ofInclusive inclusive)).Valid :=
    ⟨Cut.le_aboveAll _, BoundType.lowerCut_ne_aboveAll _ first, by simp [Range.downTo]⟩
  refine h.exists_restrict hgives hvalid label fun value => ?_
  rw [Range.downTo, Range.covers_iff, BoundedInt.lowerCut_le_below_iff]
  exact and_iff_left rfl

/-- Between two values that are not inverted there is always a part. Two equal values that are both
left out name no range, and then it is the part without values. -/
theorem OfIntegers.exists_subSet {first last : BoundedInt kind} (hle : first.val ≤ last.val)
    (firstInclusive lastInclusive : Bool) :
    ∃ part, view.subSet first firstInclusive last lastInclusive label = .ok part ∧
      part.OfIntegers ∧
      part.Gives (values.filter fun value =>
        first.isFrom firstInclusive value && last.isUpTo lastInclusive value) := by
  have hnotInverted : ¬ (compare first last).isGT = true := by
    rw [← BoundedInt.isLE_compare_iff] at hle
    cases hcompare : compare first last <;> simp_all
  rw [subSet, if_neg hnotInverted]
  by_cases hopen : first = last ∧ firstInclusive = false ∧ lastInclusive = false
  · rw [if_pos (by simp [hopen]), h.domain_eq]
    obtain ⟨rfl, rfl, rfl⟩ := hopen
    refine hgives.exists_asView h.1.wellFormed .empty fun value => ?_
    rw [RangeSet.Lists.empty.covers_iff]
    refine iff_of_false (Range.not_covered_nil _) ?_
    rw [Bool.and_eq_true, BoundedInt.isFrom_false_iff, BoundedInt.isUpTo_false_iff]
    omega
  · have hcuts := BoundedInt.lowerCut_le_upperCut hle hopen
    have hvalid : (⟨(BoundType.ofInclusive firstInclusive).lowerCut first,
        (BoundType.ofInclusive lastInclusive).upperCut last⟩ : Range (BoundedInt kind)).Valid :=
      ⟨hcuts, BoundType.lowerCut_ne_aboveAll _ first, BoundType.upperCut_ne_belowAll _ last⟩
    rw [if_neg (by simpa [and_assoc] using hopen), Range.between, if_neg (Std.not_lt.mpr hcuts)]
    refine h.exists_restrict hgives hvalid label fun value => ?_
    rw [Range.covers_iff, BoundedInt.lowerCut_le_below_iff, BoundedInt.below_lt_upperCut_iff,
      Bool.and_eq_true]

end Parts

/-- The values below one and those from it on are all values of the view. -/
theorem Gives.filter_append_filter (hgives : view.Gives values) (value : BoundedInt kind) :
    values.filter (value.isUpTo false) ++ values.filter (value.isFrom true) = values := by
  have hparts := (hgives.enumerates.filter (value.isUpTo false)).append
    (hgives.enumerates.filter (value.isFrom true)) ?_
  · refine (hparts.congr fun other => ?_).eq hgives.enumerates
    rw [← and_or_left, and_iff_left_iff_imp]
    intro _
    rw [BoundedInt.isUpTo_false_iff, BoundedInt.isFrom_true_iff]
    omega
  · rintro a b ⟨-, ha⟩ ⟨-, hb⟩
    rw [BoundedInt.isUpTo_false_iff] at ha
    rw [BoundedInt.isFrom_true_iff] at hb
    exact (BoundedInt.compare_eq_lt_iff a b).mpr (by omega)

/-- The position of a value is the number of values in the part below it. -/
theorem Gives.indexOf_eq_size (hgives : view.Gives values) {value : BoundedInt kind}
    {head : DiscreteView (BoundedInt kind)}
    (hhead : head.Gives (values.filter (value.isUpTo false)))
    (hvalue : view.contains value = true) : view.indexOf value = some head.size := by
  have hcount : (values.countP fun other => compare other value = .lt) =
      values.countP (value.isUpTo false) := by
    apply List.countP_congr
    intro other _
    rw [decide_eq_true_eq, BoundedInt.compare_eq_lt_iff, BoundedInt.isUpTo_false_iff]
  rw [hgives.indexOf_eq value ((hgives.enumerates.mem_iff value).mpr hvalue), hhead.size_eq, hcount,
    List.countP_eq_length_filter]

/-- The view of a set of integers gives its values in ascending order. The values up to one or from
one on always have a view, and those between two have one exactly if these are not inverted. Each
gives just the values of the first view that lie there, and is itself the view of a set that can be
made. So the values below one and those from it on, one after the other, are all values, and there
are as many values below one of them as its position says. -/
theorem parts_exact {set : RangeSet (BoundedInt kind)} (h : set.Reachable)
    {view : DiscreteView (BoundedInt kind)} (hview : set.asView (.integers kind) = .ok view) :
    ∃ values, view.Gives values ∧
      (∀ last inclusive label, ∃ head, view.headSet last inclusive label = .ok head ∧
        head.OfIntegers ∧ head.Gives (values.filter (last.isUpTo inclusive))) ∧
      (∀ first inclusive label, ∃ tail, view.tailSet first inclusive label = .ok tail ∧
        tail.OfIntegers ∧ tail.Gives (values.filter (first.isFrom inclusive))) ∧
      (∀ first firstInclusive last lastInclusive label,
        (first.val ≤ last.val →
          ∃ part, view.subSet first firstInclusive last lastInclusive label = .ok part ∧
            part.OfIntegers ∧ part.Gives (values.filter fun value =>
              first.isFrom firstInclusive value && last.isUpTo lastInclusive value)) ∧
        (view.subSet first firstInclusive last lastInclusive label = .error .invertedSelection ↔
          last.val < first.val)) ∧
      ∀ value label tailLabel, ∃ head, view.headSet value false label = .ok head ∧
        (∃ tail low high, view.tailSet value true tailLabel = .ok tail ∧
          head.Gives low ∧ tail.Gives high ∧ low ++ high = values) ∧
        (view.contains value = true → view.indexOf value = some head.size) := by
  have hform := h.wellFormed
  have hsame := eq_of_asView_integers hform hview
  have hintegers : view.OfIntegers := by
    subst hsame
    exact ⟨h, hview⟩
  obtain ⟨values, hgives⟩ : ∃ values, view.Gives values := hsame ▸ exists_gives hform
  refine ⟨values, hgives, fun last inclusive label => hintegers.exists_headSet hgives label last
    inclusive, fun first inclusive label => hintegers.exists_tailSet hgives label first inclusive,
    fun first firstInclusive last lastInclusive label => ⟨fun hle =>
      hintegers.exists_subSet hgives label hle firstInclusive lastInclusive, ?_⟩, ?_⟩
  · refine ⟨fun herror => Int.not_le.mp fun hle => ?_,
      subSet_eq_error view label firstInclusive lastInclusive⟩
    obtain ⟨part, hpart, -⟩ := hintegers.exists_subSet hgives label hle firstInclusive lastInclusive
    rw [hpart] at herror
    cases herror
  · intro value label tailLabel
    obtain ⟨head, hhead, -, hlow⟩ := hintegers.exists_headSet hgives label value false
    obtain ⟨tail, htail, -, hhigh⟩ := hintegers.exists_tailSet hgives tailLabel value true
    refine ⟨head, hhead, ⟨tail, _, _, htail, hlow, hhigh, hgives.filter_append_filter value⟩, ?_⟩
    exact hgives.indexOf_eq_size hlow

/-- The set is a window over gaps, of which one lies between two neighbouring integers and the last
one has no end. The part between 6 and 6 leaves one of them out. -/
theorem parts_exact_window :
    let byte (value : Int) (h : -128 ≤ value ∧ value ≤ 127) : BoundedInt .int8 := ⟨value, h.1, h.2⟩
    let gaps : RangeSet (BoundedInt .int8) := RangeSet.complement <| .unionOf
      [⟨.below (byte (-126) (by decide)), .above (byte 1 (by decide))⟩,
        ⟨.below (byte 2 (by decide)), .above (byte 5 (by decide))⟩] 1
    let window := gaps.restrict ⟨.below (byte (-127) (by decide)), .aboveAll⟩ 2
    let view : DiscreteView (BoundedInt .int8) := ⟨window, .integers .int8⟩
    let six := byte 6 (by decide)
    let seven := byte 7 (by decide)
    window.Reachable ∧ window.asView (.integers .int8) = .ok view ∧ ∃ values, view.Gives values ∧
      (∃ head, view.headSet six true 3 = .ok head ∧ head.Gives (values.filter (six.isUpTo true))) ∧
      (∃ part, view.subSet six false six true 4 = .ok part ∧ part.Gives []) ∧
      view.subSet seven true six true 5 = .error .invertedSelection ∧
      ∃ head, view.headSet seven false 6 = .ok head ∧ view.indexOf seven = some head.size := by
  intro byte gaps window view six seven
  have hgaps : gaps.Reachable := RangeCollection.Reachable.complement (.unionOf (by decide) 1)
  have hwindow : window.Reachable := hgaps.restrict (by decide) 2
  have hview : window.asView (.integers .int8) = .ok view := hwindow.wellFormed.asView_eq_ok rfl rfl
  obtain ⟨values, hgives, hheads, -, hparts, hpositions⟩ := parts_exact hwindow hview
  obtain ⟨head, hhead, -, hvalues⟩ := hheads six true 3
  obtain ⟨part, hpart, -, hnone⟩ := (hparts six false six true 4).1 (Int.le_refl _)
  obtain ⟨below, hbelow, -, hposition⟩ := hpositions seven 6 7
  have hempty : values.filter (fun value => six.isFrom false value && six.isUpTo true value) = [] := by
    rw [List.filter_eq_nil_iff]
    intro value _
    rw [Bool.and_eq_true, BoundedInt.isFrom_false_iff, BoundedInt.isUpTo_true_iff]
    omega
  exact ⟨hwindow, hview, values, hgives, ⟨head, hhead, hvalues⟩, ⟨part, hpart, hempty ▸ hnone⟩,
    (hparts seven true six true 5).2.mpr (by decide), below, hbelow, hposition (by decide +kernel)⟩

end DiscreteView

end Integers

end RangeAlgebra
