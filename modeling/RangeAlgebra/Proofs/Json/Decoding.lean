import RangeAlgebra.Element.Order
import RangeAlgebra.Proofs.Builder.Copying
import RangeAlgebra.Proofs.Json.Format

/-!
Which JSON is read as a set, and why other JSON is not. The items of an array are read one after the
other, so the first that denotes no range decides. The ranges of an array without such an item are
copied into a set, which refuses the first empty one, and ranges that overlap if none is empty.
-/

namespace RangeAlgebra

universe u

section Reading

variable {ε β : Type u} {ι : Type} {read : ι → Except ε β}

/-- The first item that is not read decides. -/
private theorem mapM_eq_error {good rest : List ι} {item : ι} {values : List β} {error : ε}
    (hgood : List.Forall₂ (fun value item => read item = .ok value) values good)
    (hitem : read item = .error error) :
    (good ++ item :: rest).mapM read = .error error := by
  rw [List.mapM_append, mapM_eq_ok_iff.mpr hgood, List.mapM_cons, hitem]
  rfl

/-- Items either all stand for something, or there is a first one that does not. -/
private theorem exists_first_not (denotes : β → ι → Prop) (items : List ι) :
    (∃ values, List.Forall₂ denotes values items) ∨
      ∃ values good item rest, items = good ++ item :: rest ∧ List.Forall₂ denotes values good ∧
        ∀ value, ¬ denotes value item := by
  induction items with
  | nil => exact Or.inl ⟨[], .nil⟩
  | cons item rest ih =>
      by_cases hitem : ∃ value, denotes value item
      · obtain ⟨value, hvalue⟩ := hitem
        rcases ih with ⟨values, hvalues⟩ | ⟨values, good, next, after, rfl, hgood, hnone⟩
        · exact Or.inl ⟨value :: values, .cons hvalue hvalues⟩
        · exact Or.inr ⟨value :: values, item :: good, next, after, rfl, .cons hvalue hgood, hnone⟩
      · exact Or.inr ⟨[], [], item, rest, rfl, .nil, not_exists.mp hitem⟩

end Reading

namespace RangeSet

variable {α : Type u} [Ord α] [JsonElement α]

/-- JSON is a list of ranges, no array, or an array with a first item that is no range. -/
theorem listWritten_or_not (json : Json) :
    (∃ ranges : List (Range α), Range.ListWritten ranges json) ∨ (∀ items, json ≠ .array items) ∨
      ∃ (ranges : List (Range α)) (item : Json), Range.FollowedBy ranges item json ∧
        ∀ range : Range α, ¬ range.Written item := by
  by_cases harray : ∃ items, json = .array items
  · obtain ⟨items, rfl⟩ := harray
    rcases exists_first_not (Range.Written : Range α → Json → Prop) items with
      ⟨ranges, hitems⟩ | ⟨ranges, good, item, rest, rfl, hgood, hnone⟩
    · exact Or.inl ⟨ranges, items, rfl, hitems⟩
    · exact Or.inr (Or.inr ⟨ranges, item, ⟨good, rest, rfl, hgood⟩, hnone⟩)
  · exact Or.inr (Or.inl (not_exists.mp harray))

variable [DecidableEq α]

theorem ofJson_eq_malformed {json : Json} (h : ∀ items, json ≠ .array items) (label : Nat) :
    (ofJson json label : Except (DecodeFailure α) (RangeSet α)) = .error .malformed := by
  cases json with
  | array items => exact absurd rfl (h items)
  | null | bool | integer | decimal | string | object => rfl

variable [Std.TransOrd α] [LawfulJsonElement α]

/-- An array of ranges is read as their copy in a set. -/
theorem ofJson_eq_copyOfRanges {json : Json} {ranges : List (Range α)}
    (h : Range.ListWritten ranges json) (label : Nat) :
    ofJson json label = (copyOfRanges ranges label).mapError .refused := by
  obtain ⟨items, rfl, hitems⟩ := h
  have hread : items.mapM Range.ofJson = .ok ranges :=
    mapM_eq_ok_iff.mpr (hitems.imp fun range item => (Range.ofJson_eq_ok_iff item range).mpr)
  rw [ofJson, hread]
  rfl

theorem copyOfRanges_eq_ok_of_ofJson {json : Json} {ranges : List (Range α)}
    (h : Range.ListWritten ranges json) {label : Nat} {set : RangeSet α}
    (hread : ofJson json label = .ok set) : copyOfRanges ranges label = .ok set := by
  rw [ofJson_eq_copyOfRanges h] at hread
  exact eq_ok_of_mapError hread

theorem ofJson_eq_ok_iff (json : Json) (label : Nat) (set : RangeSet α) :
    ofJson json label = .ok set ↔
      ∃ ranges, Range.ListWritten ranges json ∧ copyOfRanges ranges label = .ok set := by
  constructor
  · intro h
    obtain ⟨items, ranges, rfl, hread, hcopy⟩ := exists_copyOfRanges_of_ofJson h
    have hitems := hread.imp fun range item => (Range.ofJson_eq_ok_iff item range).mp
    exact ⟨ranges, ⟨items, rfl, hitems⟩, hcopy⟩
  · rintro ⟨ranges, hlist, hcopy⟩
    rw [ofJson_eq_copyOfRanges hlist, hcopy]
    rfl

/-- The first item that is not read as a range decides. -/
theorem ofJson_eq_error {json item : Json} {ranges : List (Range α)}
    (h : Range.FollowedBy ranges item json) {failure : DecodeFailure α}
    (hitem : (Range.ofJson item : Except (DecodeFailure α) (Range α)) = .error failure)
    (label : Nat) :
    (ofJson json label : Except (DecodeFailure α) (RangeSet α)) = .error failure := by
  obtain ⟨items, rest, rfl, hitems⟩ := h
  have hread : (items ++ item :: rest).mapM Range.ofJson = .error failure :=
    mapM_eq_error (hitems.imp fun range item => (Range.ofJson_eq_ok_iff item range).mpr) hitem
  rw [ofJson, hread]
  rfl

/-- What is refused of a list of ranges is refused of the JSON that denotes it. -/
theorem ofJson_eq_refused {json : Json} {ranges : List (Range α)}
    (h : Range.ListWritten ranges json) {label : Nat} {error : Error α}
    (herror : copyOfRanges ranges label = .error error) :
    ofJson json label = .error (.refused error) := by
  rw [ofJson_eq_copyOfRanges h, herror]
  rfl

variable [Std.LawfulEqOrd α]

omit [LawfulJsonElement α] in
theorem WellFormed.listWritten_toJson {set : RangeSet α} (h : set.WellFormed) :
    Range.ListWritten set.ranges set.toJson := by
  have hitems : List.Forall₂ Range.Written set.ranges (set.ranges.map Range.toJson) :=
    List.forall₂_map_right_iff.mpr
      (List.forall₂_same.mpr fun range hrange => Range.written_toJson (h.valid range hrange))
  exact ⟨_, rfl, hitems⟩

theorem exists_ofJson_eq_ok_iff (json : Json) (label : Nat) :
    (∃ set : RangeSet α, ofJson json label = .ok set) ↔
      ∃ ranges : List (Range α), Range.ListWritten ranges json ∧
        (∀ range ∈ ranges, ¬ range.isEmpty = true) ∧ ranges.Pairwise Range.Apart := by
  constructor
  · rintro ⟨set, hread⟩
    obtain ⟨ranges, hlist, hcopy⟩ := (ofJson_eq_ok_iff json label set).mp hread
    exact ⟨ranges, hlist, (copyOfRanges_eq_ok_iff hlist.valid label).mp ⟨set, hcopy⟩⟩
  · rintro ⟨ranges, hlist, hranges⟩
    obtain ⟨set, hcopy⟩ := (copyOfRanges_eq_ok_iff hlist.valid label).mpr hranges
    exact ⟨set, (ofJson_eq_ok_iff json label set).mpr ⟨ranges, hlist, hcopy⟩⟩

/-- Overlapping ranges are found when none of the ranges is empty. -/
theorem ofJson_eq_overlapping {json : Json} {ranges : List (Range α)}
    (h : Range.ListWritten ranges json) (hnonempty : ∀ range ∈ ranges, ¬ range.isEmpty = true)
    (hclash : ¬ ranges.Pairwise Range.Apart) (label : Nat) :
    ∃ group merged next, ofJson json label = .error (.refused (.overlapping merged next)) ∧
      Range.Merges group merged ∧ (group ++ [next]).Subperm ranges ∧
      ∃ cut, merged.Covers cut ∧ next.Covers cut := by
  cases hcopy : copyOfRanges ranges label with
  | ok set => exact absurd ((copyOfRanges_eq_ok_iff h.valid label).mp ⟨set, hcopy⟩).2 hclash
  | error error =>
      obtain ⟨group, merged, next, rfl, hmerges, hshared, hadded⟩ :=
        copyOfRanges_error h.valid hnonempty hcopy
      exact ⟨group, merged, next, ofJson_eq_refused h hcopy, hmerges, hadded, hshared⟩

/-- What a set is written to is read as a set that stores its ranges and is equal to it. -/
theorem WellFormed.exists_ofJson_toJson {set : RangeSet α} (h : set.WellFormed) (label : Nat) :
    ∃ read : RangeSet α, ofJson set.toJson label = .ok read ∧ read.WellFormed ∧
      (read == set) = true ∧ read.isPartialView = false := by
  obtain ⟨copy, hcopy, hcopied⟩ := h.exists_copyOfRanges label
  have hread := (ofJson_eq_ok_iff _ label copy).mpr ⟨set.ranges, h.listWritten_toJson, hcopy⟩
  exact ⟨copy, hread, hcopied⟩

/-- JSON is read as a set exactly if it is an array of ranges of which none is empty and no two
share a position. The set is the union of the ranges, whatever their order, and is read again from
what it is written to. Other JSON is no array, or has a first item that is not written as a range
or whose cuts name none, which alone decides, or is refused for its first empty range. Only if
there is none, it is refused for a range that overlaps the span of others. -/
theorem ofJson_classified (type : ElementType) (json : Json) (label : Nat) :
    let read : Except (DecodeFailure type.Carrier) (RangeSet type.Carrier) := ofJson json label
    ((∃ set, read = .ok set) ↔ ∃ ranges : List (Range type.Carrier), Range.ListWritten ranges json ∧
        (∀ range ∈ ranges, ¬ range.isEmpty = true) ∧ ranges.Pairwise Range.Apart) ∧
      ((∃ ranges : List (Range type.Carrier), Range.ListWritten ranges json) ∨
        (∀ items, json ≠ .array items) ∨
        ∃ (ranges : List (Range type.Carrier)) (item : Json), Range.FollowedBy ranges item json ∧
          ∀ range : Range type.Carrier, ¬ range.Written item) ∧
      ((∀ items, json ≠ .array items) → read = .error .malformed) ∧
      (∀ (ranges : List (Range type.Carrier)) (item : Json), Range.FollowedBy ranges item json →
        ((∀ lower upper : Cut type.Carrier, ¬ Range.CutsWritten lower upper item) →
          read = .error .malformed) ∧
        ∀ lower upper : Cut type.Carrier, Range.CutsWritten lower upper item →
          (upper < lower → read = .error (.refused .invertedCuts)) ∧
          (lower ≤ upper → lower = .aboveAll ∨ upper = .belowAll →
            read = .error (.refused .infiniteCuts)) ∧
          ∀ error, Range.ofCuts lower upper = .error error →
            read = .error (.refused error) ∧ error.kind = .illegalArgument) ∧
      ∀ ranges : List (Range type.Carrier), Range.ListWritten ranges json →
        (∀ range, ranges.find? (·.isEmpty) = some range →
          read = .error (.refused (.emptyRange range))) ∧
        ((∀ range ∈ ranges, ¬ range.isEmpty = true) → ¬ ranges.Pairwise Range.Apart →
          ∃ group merged next, read = .error (.refused (.overlapping merged next)) ∧
            Range.Merges group merged ∧ (group ++ [next]).Subperm ranges ∧
            ∃ cut, merged.Covers cut ∧ next.Covers cut) ∧
        ∀ set, read = .ok set →
          (∀ others, others.Perm ranges → ∀ unionLabel,
            (set == .unionOf others unionLabel) = true) ∧
          ∀ readLabel, ∃ again : RangeSet type.Carrier,
            ofJson set.toJson readLabel = .ok again ∧ (again == set) = true := by
  intro read
  refine ⟨exists_ofJson_eq_ok_iff json label, listWritten_or_not json,
    fun harray => ofJson_eq_malformed harray label, ?_, ?_⟩
  · intro ranges item hitem
    refine ⟨fun hnone => ofJson_eq_error hitem (Range.ofJson_eq_malformed hnone) label, ?_⟩
    intro lower upper hcuts
    have hrefused : ∀ error, Range.ofCuts lower upper = .error error →
        read = .error (.refused error) := by
      intro error herror
      have hread := Range.ofJson_eq_ofCuts hcuts
      rw [herror] at hread
      exact ofJson_eq_error hitem hread label
    refine ⟨?_, ?_, ?_⟩
    · intro hinverted
      exact hrefused _ (Range.ofCuts_eq_invertedCuts hinverted)
    · intro hle hinfinite
      exact hrefused _ (Range.ofCuts_eq_infiniteCuts hle hinfinite)
    · intro error herror
      exact ⟨hrefused error herror, Range.kind_of_ofCuts_eq_error herror⟩
  · intro ranges hlist
    refine ⟨fun range hfirst => ofJson_eq_refused hlist (copyOfRanges_eq_emptyRange hfirst label),
      fun hnonempty hclash => ofJson_eq_overlapping hlist hnonempty hclash label, ?_⟩
    intro set hread
    have hcopy := copyOfRanges_eq_ok_of_ofJson hlist hread
    refine ⟨fun others => beq_unionOf_of_copyOfRanges_eq_ok hlist.valid hcopy, ?_⟩
    intro readLabel
    obtain ⟨again, hagain, -, hequal, -⟩ :=
      (wellFormed_copyOfRanges hlist.valid hcopy).exists_ofJson_toJson readLabel
    exact ⟨again, hagain, hequal⟩

/-- One range has a field of no meaning, one is written as an array, one is empty, one ends with a
number that is no 8-bit integer, one repeats a field, and one is written from above all values. -/
theorem ofJson_classified_bytes :
    let byte (value : Int) (h : -128 ≤ value ∧ value ≤ 127) : BoundedInt .int8 := ⟨value, h.1, h.2⟩
    let low : Json := .object [("unit", .null), ("lower", .string "BelowAll"),
      ("upper", .object [("BelowValue", .integer 5)])]
    let high : Json := .array [.object [("AboveValue", .integer 5)], .object [("AboveAll", .null)]]
    let none : Json := .array [.object [("BelowValue", .integer 7)],
      .object [("BelowValue", .integer 7)]]
    let wide : Json := .array [.object [("BelowValue", .integer 0)],
      .object [("BelowValue", .integer 128)]]
    let twice : Json := .object [("lower", .string "BelowAll"),
      ("lower", .object [("BelowValue", .integer 5)]), ("upper", .string "AboveAll")]
    let beyond : Json := .array [.string "AboveAll", .string "AboveAll"]
    let read (items : List Json) : Except (DecodeFailure (BoundedInt .int8))
      (RangeSet (BoundedInt .int8)) := ofJson (.array items) 1
    (∃ set, read [high, low] = .ok set) ∧ read [none, low, wide] = .error .malformed ∧
      read [high, twice, low] = .error .malformed ∧
      read [low, none, beyond, wide] = .error (.refused .infiniteCuts) ∧
      read [low, low, none] =
        .error (.refused (.emptyRange ⟨.below (byte 7 (by decide)), .below (byte 7 (by decide))⟩)) ∧
      ∃ merged next, read [low, low] = .error (.refused (.overlapping merged next)) := by
  intro byte low high none wide twice beyond read
  let five := byte 5 (by decide)
  let seven := byte 7 (by decide)
  have hlow : Range.Written ⟨.belowAll, .below five⟩ low :=
    ⟨.object ⟨[_], [_], rfl, by simp⟩ ⟨[_, _], [], rfl, by simp⟩ .belowAll (.below five),
      by decide⟩
  have hhigh : Range.Written ⟨.above five, .aboveAll⟩ high :=
    ⟨.array (.above five) .aboveAllField, by decide⟩
  have hnone : Range.Written ⟨.below seven, .below seven⟩ none :=
    ⟨.array (.below seven) (.below seven), by decide⟩
  have hwide : ∀ lower upper : Cut (BoundedInt .int8), ¬ Range.CutsWritten lower upper wide := by
    intro lower upper hcuts
    rw [← Range.cutsOfJson?_eq_some_iff] at hcuts
    cases hcuts
  have htwice : ∀ lower upper : Cut (BoundedInt .int8), ¬ Range.CutsWritten lower upper twice := by
    intro lower upper hcuts
    rw [← Range.cutsOfJson?_eq_some_iff] at hcuts
    cases hcuts
  obtain ⟨haccepted, -⟩ := ofJson_classified (.integer .int8) (.array [high, low]) 1
  obtain ⟨-, -, -, hfirst, -⟩ := ofJson_classified (.integer .int8) (.array [none, low, wide]) 1
  obtain ⟨-, -, -, hrepeated, -⟩ := ofJson_classified (.integer .int8) (.array [high, twice, low]) 1
  obtain ⟨-, -, -, hinfinite, -⟩ :=
    ofJson_classified (.integer .int8) (.array [low, none, beyond, wide]) 1
  obtain ⟨-, -, -, -, hempty⟩ := ofJson_classified (.integer .int8) (.array [low, low, none]) 1
  obtain ⟨-, -, -, -, hclash⟩ := ofJson_classified (.integer .int8) (.array [low, low]) 1
  refine ⟨?_, ?_, ?_, ?_, ?_, ?_⟩
  · have hapart := Range.apart_of_upper_le (a := ⟨.belowAll, .below five⟩)
      (b := ⟨.above five, .aboveAll⟩) (by decide)
    exact haccepted.mpr ⟨_, ⟨_, rfl, .cons hhigh (.cons hlow .nil)⟩, by decide,
      List.pairwise_pair.mpr hapart.symm⟩
  · exact (hfirst _ wide ⟨_, _, rfl, .cons hnone (.cons hlow .nil)⟩).1 hwide
  · exact (hrepeated _ twice ⟨_, _, rfl, .cons hhigh .nil⟩).1 htwice
  · exact ((hinfinite _ beyond ⟨_, _, rfl, .cons hlow (.cons hnone .nil)⟩).2 .aboveAll .aboveAll
      (.array .aboveAll .aboveAll)).2.1 rfl (Or.inl rfl)
  · exact (hempty _ ⟨_, rfl, .cons hlow (.cons hlow (.cons hnone .nil))⟩).1 _ rfl
  · obtain ⟨-, merged, next, hread, -⟩ :=
      (hclash _ ⟨_, rfl, .cons hlow (.cons hlow .nil)⟩).2.1 (by decide) fun hapart =>
        List.pairwise_pair.mp hapart .belowAll (by decide) (by decide)
    exact ⟨merged, next, hread⟩

end RangeSet

end RangeAlgebra
