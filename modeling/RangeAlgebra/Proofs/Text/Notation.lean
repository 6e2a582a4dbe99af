import RangeAlgebra.Element.Order
import RangeAlgebra.Proofs.Set.Lists
import RangeAlgebra.Proofs.Text.Quoting

/-!
Ranges and sets can be told from their notation. It is enough that the elements end where the dots
in the middle of a range or a bracket at its end follow, and that none of them is taken for an
infinite end. Integers and quoted texts are such elements, and the plain form of a text is not. A
range then ends with its second bracket, whatever comes after it, so a list of ranges can be read
one range after the other.
-/

namespace RangeAlgebra

universe u

open Text (Legible SelfDelimiting StartsWith)

/-- What stands at one end of a range, apart from the bracket. -/
inductive RangeEnd (α : Type u) where
  | minusInfinity
  | finite (value : α)
  | plusInfinity

variable {α : Type u} {element : α → String}

namespace Cut

def rangeEnd : Cut α → RangeEnd α
  | .belowAll => .minusInfinity
  | .below value | .above value => .finite value
  | .aboveAll => .plusInfinity

def lowerBracket : Cut α → Char
  | .below _ => '['
  | .belowAll | .above _ | .aboveAll => '('

def upperBracket : Cut α → Char
  | .above _ => ']'
  | .belowAll | .below _ | .aboveAll => ')'

/-- An infinite end has one bracket, and the two cuts at an element have different ones. -/
theorem eq_of_lowerBracket {a b : Cut α} (hend : a.rangeEnd = b.rangeEnd)
    (hbracket : a.lowerBracket = b.lowerBracket) : a = b := by
  cases a <;> cases b <;> simp_all [rangeEnd, lowerBracket]

theorem eq_of_upperBracket {a b : Cut α} (hend : a.rangeEnd = b.rangeEnd)
    (hbracket : a.upperBracket = b.upperBracket) : a = b := by
  cases a <;> cases b <;> simp_all [rangeEnd, upperBracket]

end Cut

namespace RangeEnd

def text (element : α → String) : RangeEnd α → List Char
  | .minusInfinity => ['-', '∞']
  | .finite value => (element value).toList
  | .plusInfinity => ['+', '∞']

/-- What follows an element in the notation of a range. -/
def stops : List Char :=
  ['.', ')', ']']

end RangeEnd

theorem Cut.toList_lowerText (cut : Cut α) :
    (cut.lowerText element).toList = cut.lowerBracket :: cut.rangeEnd.text element := by
  cases cut with
  | belowAll => exact String.toList_ofList
  | below value => exact String.toList_append
  | above value => exact String.toList_append
  | aboveAll => exact String.toList_ofList

theorem Cut.toList_upperText (cut : Cut α) :
    (cut.upperText element).toList = cut.rangeEnd.text element ++ [cut.upperBracket] := by
  cases cut with
  | belowAll => exact String.toList_ofList
  | below value => exact String.toList_append
  | above value => exact String.toList_append
  | aboveAll => exact String.toList_ofList

theorem Range.toList_text (range : Range α) :
    (range.text element).toList = (range.lower.lowerText element).toList ++
      '.' :: '.' :: (range.upper.upperText element).toList := by
  simp [Range.text]

/-- The elements can be told from what stands after them in a range and from its infinite ends. -/
structure LegibleElements (element : α → String) : Prop where
  legible : Legible (StartsWith RangeEnd.stops) fun value => (element value).toList
  finite (value : α) {rest : List Char} (hrest : StartsWith RangeEnd.stops rest) {sign : Char}
    (hsign : sign ∈ ['-', '+']) (other : List Char) :
    (element value).toList ++ rest ≠ sign :: '∞' :: other

namespace LegibleElements

theorem rangeEnd (h : LegibleElements element) :
    Legible (StartsWith RangeEnd.stops) (RangeEnd.text element) := by
  intro a b rest other hrest hother heq
  cases a with
  | minusInfinity =>
      cases b with
      | minusInfinity => exact ⟨rfl, List.append_cancel_left heq⟩
      | finite value => exact absurd heq.symm (h.finite value hother (by decide) rest)
      | plusInfinity => exact absurd (List.cons.inj heq).1 (by decide)
  | finite value =>
      cases b with
      | minusInfinity => exact absurd heq (h.finite value hrest (by decide) other)
      | finite next =>
          obtain ⟨hvalue, hafter⟩ := h.legible hrest hother heq
          exact ⟨congrArg RangeEnd.finite hvalue, hafter⟩
      | plusInfinity => exact absurd heq (h.finite value hrest (by decide) other)
  | plusInfinity =>
      cases b with
      | minusInfinity => exact absurd (List.cons.inj heq).1 (by decide)
      | finite value => exact absurd heq.symm (h.finite value hother (by decide) rest)
      | plusInfinity => exact ⟨rfl, List.append_cancel_left heq⟩

theorem lowerText (h : LegibleElements element) :
    Legible (StartsWith RangeEnd.stops) fun cut : Cut α => (cut.lowerText element).toList := by
  intro a b rest other hrest hother heq
  simp only [Cut.toList_lowerText] at heq
  obtain ⟨hbracket, hends⟩ := List.cons.inj heq
  obtain ⟨hend, hafter⟩ := h.rangeEnd hrest hother hends
  exact ⟨Cut.eq_of_lowerBracket hend hbracket, hafter⟩

theorem upperText (h : LegibleElements element) :
    SelfDelimiting fun cut : Cut α => (cut.upperText element).toList := by
  have hbracket (cut : Cut α) (rest : List Char) :
      StartsWith RangeEnd.stops (cut.upperBracket :: rest) := by
    rw [Text.startsWith_cons]
    cases cut <;> simp [Cut.upperBracket, RangeEnd.stops]
  intro a b rest other _ _ heq
  simp only [Cut.toList_upperText, List.append_assoc] at heq
  obtain ⟨hend, hafter⟩ := h.rangeEnd (hbracket a rest) (hbracket b other) heq
  obtain ⟨hbrackets, hrest⟩ := List.cons.inj hafter
  exact ⟨Cut.eq_of_upperBracket hend hbrackets, hrest⟩

/-- The dots end the lower end, and the second bracket ends the range. -/
theorem text (h : LegibleElements element) :
    SelfDelimiting fun range : Range α => (range.text element).toList := by
  have hdots (rest : List Char) : StartsWith RangeEnd.stops ('.' :: rest) :=
    Text.startsWith_cons.mpr (by decide)
  intro a b rest other _ _ heq
  simp only [Range.toList_text, List.append_assoc, List.cons_append] at heq
  obtain ⟨hlower, hafter⟩ := h.lowerText (hdots _) (hdots _) heq
  simp only [List.cons.injEq, true_and] at hafter
  obtain ⟨hupper, hrest⟩ := h.upperText trivial trivial hafter
  exact ⟨Range.ext hlower hupper, hrest⟩

theorem text_injective (h : LegibleElements element) :
    Function.Injective (Range.text element) := by
  intro a b heq
  exact h.text.injective (congrArg String.toList heq)

end LegibleElements

/-- A sequence with separators is its first item and then, for each later one, the separator and
the item. -/
theorem Text.intercalate_cons (separator first : List Char) (rest : List (List Char)) :
    separator.intercalate (first :: rest) = first ++ rest.flatMap (separator ++ ·) := by
  induction rest generalizing first with
  | nil => simp
  | cons next rest ih =>
      rw [List.intercalate_cons_cons, ih, List.flatMap_cons]
      simp only [List.append_assoc]

theorem Range.toList_listText_nil :
    (listText element []).toList = ['[', ']'] := by
  simp [listText]

theorem Range.toList_listText_cons (range : Range α) (rest : List (Range α)) :
    (listText element (range :: rest)).toList = '[' :: ((range.text element).toList ++
      (rest.flatMap (fun next => ',' :: ' ' :: (next.text element).toList) ++ [']'])) := by
  simp [listText, Text.intercalate_cons, List.flatMap_map]

/-- The text of a range begins with its lower bracket. -/
theorem Range.head_text (element : α → String) (range : Range α) :
    ∃ tail, (range.text element).toList = range.lower.lowerBracket :: tail := by
  rw [Range.toList_text, Cut.toList_lowerText]
  exact ⟨_, rfl⟩

/-- What is left behind a range of a list is closed, or a comma leads to the next range. -/
theorem LegibleElements.listText_injective (h : LegibleElements element) :
    Function.Injective (Range.listText element) := by
  have hrest : SelfDelimiting fun ranges : List (Range α) =>
      ranges.flatMap (fun next => ',' :: ' ' :: (next.text element).toList) ++ [']'] :=
    (h.text.append_left [',', ' ']).closed fun next => ⟨',', _, rfl, by decide⟩
  have hfirst (range : Range α) (tail : List Char) :
      [']'] ≠ (range.text element).toList ++ tail := by
    obtain ⟨after, htext⟩ := range.head_text element
    rw [htext]
    intro heq
    have hbracket := (List.cons.inj heq).1
    cases hlower : range.lower <;> simp [hlower, Cut.lowerBracket] at hbracket
  intro as bs heq
  have hchars := congrArg String.toList heq
  cases as with
  | nil =>
      cases bs with
      | nil => rfl
      | cons b bs =>
          rw [Range.toList_listText_nil, Range.toList_listText_cons] at hchars
          exact absurd (List.cons.inj hchars).2 (hfirst b _)
  | cons a as =>
      cases bs with
      | nil =>
          rw [Range.toList_listText_nil, Range.toList_listText_cons] at hchars
          exact absurd (List.cons.inj hchars).2.symm (hfirst a _)
      | cons b bs =>
          rw [Range.toList_listText_cons, Range.toList_listText_cons] at hchars
          obtain ⟨hrange, hafter⟩ := h.text trivial trivial (List.cons.inj hchars).2
          rw [hrange, hrest.injective hafter]

/-- Elements are legible if neither what may follow them nor the sign of infinity occurs in them. -/
theorem legibleElements_of_disjoint (hinjective : Function.Injective element)
    (hdisjoint : ∀ value, ∀ c ∈ (element value).toList, c ∉ RangeEnd.stops ∧ c ≠ '∞') :
    LegibleElements element where
  legible := by
    apply Text.legible_of_disjoint
    · exact fun _ _ heq => hinjective (String.toList_injective heq)
    · exact fun value c hc => (hdisjoint value c hc).1
  finite := by
    intro value rest hrest sign hsign other heq
    rcases List.append_eq_cons_iff.mp heq with ⟨-, hsigned⟩ | ⟨tail, htext, hafter⟩
    · rw [hsigned, Text.startsWith_cons] at hrest
      have hall : ∀ sign ∈ ['-', '+'], sign ∉ RangeEnd.stops := by simp [RangeEnd.stops]
      exact hall sign hsign hrest
    · rcases List.append_eq_cons_iff.mp hafter.symm with ⟨-, hinfinite⟩ | ⟨more, rfl, -⟩
      · rw [hinfinite, Text.startsWith_cons] at hrest
        simp [RangeEnd.stops] at hrest
      · have hinside : '∞' ∈ (element value).toList := by
          rw [htext]
          simp
        exact (hdisjoint value _ hinside).2 rfl

theorem legibleElements_integers (kind : IntegerKind) :
    LegibleElements fun value : BoundedInt kind => toString value.val := by
  apply legibleElements_of_disjoint
  · intro a b heq
    exact BoundedInt.val_injective (Text.toList_toString_injective (congrArg String.toList heq))
  · intro value c hc
    have hstops : ∀ stop ∈ RangeEnd.stops, ¬ (stop.isDigit = true ∨ stop = '-') := by
      simp [RangeEnd.stops]
    have hchar := Text.isDigit_or_eq_of_mem_toString hc
    constructor
    · exact fun hstop => hstops c hstop hchar
    · rintro rfl
      simp at hchar

theorem legibleElements_quote : LegibleElements Text.quote where
  legible := Text.selfDelimiting_quote.legible
  finite := by
    intro value rest _ sign hsign other heq
    rw [Text.toList_quote] at heq
    have hquote : '"' ∈ ['-', '+'] := (List.cons.inj heq).1 ▸ hsign
    exact absurd hquote (by decide)

theorem legibleElements_quoted (type : ElementType) :
    LegibleElements (Textual.quoted : type.Carrier → String) := by
  cases type with
  | integer kind => exact legibleElements_integers kind
  | text => exact legibleElements_quote

section Sets

variable [Ord α] [DecidableEq α]

/-- The notation of a set is that of its canonical ranges, which are all that sets are compared
by. -/
theorem LegibleElements.listText_eq_iff (h : LegibleElements element) (a b : RangeSet α) :
    Range.listText element a.ranges = Range.listText element b.ranges ↔ (a == b) = true := by
  rw [RangeSet.beq_iff]
  exact h.listText_injective.eq_iff

end Sets

/-- Equal notations stand for equal ranges and equal sets, be the ranges valid or not and whatever
the sets read their ranges through. In the quoted form this holds of every type of elements, and a
text is written there between quotes with its own quotes, its backslashes and its control characters
escaped. In the plain form it holds of integers. -/
theorem notation_identifies (type : ElementType) (kind : IntegerKind) :
    (∀ a b : Range type.Carrier, a.quoted = b.quoted ↔ a = b) ∧
      (∀ a b : RangeSet type.Carrier, a.quoted = b.quoted ↔ (a == b) = true) ∧
      (∀ text : String, Text.Quotes text (Textual.quoted text)) ∧
      (∀ a b : Range (BoundedInt kind), a.plain = b.plain ↔ a = b) ∧
      ∀ a b : RangeSet (BoundedInt kind), a.plain = b.plain ↔ (a == b) = true := by
  have hquoted := legibleElements_quoted type
  have hplain := legibleElements_integers kind
  refine ⟨?_, hquoted.listText_eq_iff, Text.quotes_quote, ?_, hplain.listText_eq_iff⟩
  · exact fun a b => hquoted.text_injective.eq_iff
  · exact fun a b => hplain.text_injective.eq_iff

/-- In plain form the dots of a text can be taken for those of the range. -/
example : (⟨.below "a", .above "b..c"⟩ : Range String).plain =
    (⟨.below "a..b", .above "c"⟩ : Range String).plain := by
  decide

end RangeAlgebra
