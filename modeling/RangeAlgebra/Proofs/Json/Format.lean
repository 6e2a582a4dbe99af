import RangeAlgebra.Element.Dynamic
import RangeAlgebra.Proofs.Discrete.Integers
import RangeAlgebra.Proofs.Set.Building

/-!
The forms in which cuts and ranges stand in JSON. Each form is a case of a relation between a value
and the JSON that denotes it, and reading finds a value exactly where one is denoted. An object of
several fields denotes nothing if it repeats one that has a meaning. What is written is one of these
forms, so it is read back as the value it was written from.
-/

namespace RangeAlgebra

universe u

/-- JSON denotes an element only if it is what the element is encoded to. -/
class LawfulJsonElement (α : Type u) [JsonElement α] : Prop where
  decode?_eq_some_iff (json : Json) (value : α) :
    JsonElement.decode? json = some value ↔ json = JsonElement.encode value

instance : LawfulJsonElement String where
  decode?_eq_some_iff json value := by
    change (match json with | .string text => some text | _ => none) = some value ↔
      json = .string value
    cases json <;> simp

instance {kind : IntegerKind} : LawfulJsonElement (BoundedInt kind) where
  decode?_eq_some_iff json value := by
    change (match json with | .integer val => BoundedInt.ofInt? kind val | _ => none) = some value ↔
      json = .integer value.val
    cases json with
    | integer val =>
        rw [Json.integer.injEq, eq_comm (a := val)]
        exact BoundedInt.ofInt?_eq_some_iff val value
    | null | bool | decimal | string | array | object => simp

instance : (type : ElementType) → LawfulJsonElement type.Carrier
  | .integer kind => inferInstanceAs (LawfulJsonElement (BoundedInt kind))
  | .text => inferInstanceAs (LawfulJsonElement String)

variable {α : Type u}

namespace Range

variable [Ord α] [DecidableEq α]

theorem ofCuts_eq_invertedCuts {lower upper : Cut α} (h : upper < lower) :
    ofCuts lower upper = .error .invertedCuts :=
  if_pos h

theorem kind_of_ofCuts_eq_error {lower upper : Cut α} {error : Error α}
    (h : ofCuts lower upper = .error error) : error.kind = .illegalArgument := by
  unfold ofCuts at h
  split at h
  · cases h
    rfl
  · split at h
    · cases h
      rfl
    · cases h

variable [Std.TransOrd α]

theorem ofCuts_eq_infiniteCuts {lower upper : Cut α} (hle : lower ≤ upper)
    (h : lower = .aboveAll ∨ upper = .belowAll) : ofCuts lower upper = .error .infiniteCuts := by
  rw [ofCuts, if_neg (Std.not_lt.mpr hle), if_pos h]

end Range

namespace Json

/-- The value stands in the only field of that name. -/
def HasField (fields : List (String × Json)) (name : String) (value : Json) : Prop :=
  ∃ before after, fields = before ++ (name, value) :: after ∧
    ∀ field ∈ before ++ after, field.1 ≠ name

private theorem field?_eq_some_iff_filter (fields : List (String × Json)) (name : String)
    (value : Json) : field? fields name = some value ↔
      fields.filter (fun field => field.1 == name) = [(name, value)] := by
  unfold field?
  split
  · rename_i other found hfound
    have hmem : (other, found) ∈ fields.filter fun field => field.1 == name := by
      rw [hfound]
      exact List.mem_singleton_self _
    have hname : other = name := beq_iff_eq.mp (List.mem_filter.mp hmem).2
    rw [hfound, hname]
    simp
  · rename_i hnone
    exact iff_of_false (by simp) fun hfound => hnone name value hfound

/-- What is looked up is what stands between fields of other names. -/
theorem field?_eq_some_iff (fields : List (String × Json)) (name : String) (value : Json) :
    field? fields name = some value ↔ HasField fields name value := by
  rw [field?_eq_some_iff_filter, List.filter_eq_cons_iff]
  constructor
  · rintro ⟨before, after, rfl, hbefore, -, hafter⟩
    refine ⟨before, after, rfl, ?_⟩
    intro field hfield
    rcases List.mem_append.mp hfield with hmem | hmem
    · simpa using hbefore field hmem
    · simpa using List.filter_eq_nil_iff.mp hafter field hmem
  · rintro ⟨before, after, rfl, hothers⟩
    refine ⟨before, after, rfl, ?_, beq_self_eq_true name, ?_⟩
    · intro field hmem
      simpa using hothers field (List.mem_append_left after hmem)
    · rw [List.filter_eq_nil_iff]
      intro field hmem
      simpa using hothers field (List.mem_append_right before hmem)

end Json

variable [JsonElement α]

/-- The JSON that denotes a cut. The infinite ones may be written in two ways. -/
inductive Cut.Written : Cut α → Json → Prop
  | belowAll : Written .belowAll (.string "BelowAll")
  | belowAllField : Written .belowAll (.object [("BelowAll", .null)])
  | below (value : α) : Written (.below value) (.object [("BelowValue", JsonElement.encode value)])
  | above (value : α) : Written (.above value) (.object [("AboveValue", JsonElement.encode value)])
  | aboveAll : Written .aboveAll (.string "AboveAll")
  | aboveAllField : Written .aboveAll (.object [("AboveAll", .null)])

namespace Range

/-- The JSON that denotes two cuts: an array of both, or an object with both among its fields, each
of them once. -/
inductive CutsWritten (lower upper : Cut α) : Json → Prop
  | array {first second : Json} (hlower : lower.Written first) (hupper : upper.Written second) :
      CutsWritten lower upper (.array [first, second])
  | object {fields : List (String × Json)} {first second : Json}
      (hfirst : Json.HasField fields "lower" first) (hsecond : Json.HasField fields "upper" second)
      (hlower : lower.Written first) (hupper : upper.Written second) :
      CutsWritten lower upper (.object fields)

/-- The JSON that denotes a range. -/
def Written [Ord α] (range : Range α) (json : Json) : Prop :=
  CutsWritten range.lower range.upper json ∧ range.Valid

/-- The JSON that denotes a list of ranges. -/
def ListWritten [Ord α] (ranges : List (Range α)) (json : Json) : Prop :=
  ∃ items, json = .array items ∧ List.Forall₂ Written ranges items

/-- The JSON is an array in which `item` stands after the items of a list of ranges. -/
def FollowedBy [Ord α] (ranges : List (Range α)) (item json : Json) : Prop :=
  ∃ items rest, json = .array (items ++ item :: rest) ∧ List.Forall₂ Written ranges items

end Range

theorem Cut.written_toJson (cut : Cut α) : cut.Written cut.toJson := by
  cases cut with
  | belowAll => exact .belowAll
  | below value => exact .below value
  | above value => exact .above value
  | aboveAll => exact .aboveAll

theorem Range.ListWritten.valid [Ord α] {ranges : List (Range α)} {json : Json}
    (h : Range.ListWritten ranges json) : ∀ range ∈ ranges, range.Valid := by
  obtain ⟨items, -, hitems⟩ := h
  exact ((List.forall₂_and_left ranges items).mp <|
    hitems.imp fun _ _ hitem => ⟨hitem.2, hitem.1⟩).1

theorem Range.written_toJson [Ord α] {range : Range α} (hvalid : range.Valid) :
    range.Written range.toJson := by
  have hlower : Json.HasField [("lower", range.lower.toJson), ("upper", range.upper.toJson)]
      "lower" range.lower.toJson := ⟨[], [_], rfl, by simp⟩
  have hupper : Json.HasField [("lower", range.lower.toJson), ("upper", range.upper.toJson)]
      "upper" range.upper.toJson := ⟨[_], [], rfl, by simp⟩
  exact ⟨.object hlower hupper range.lower.written_toJson range.upper.written_toJson, hvalid⟩

variable [LawfulJsonElement α]

/-- One case for each form that is read. -/
theorem Cut.ofJson?_eq_some_iff (json : Json) (cut : Cut α) :
    Cut.ofJson? json = some cut ↔ cut.Written json := by
  constructor
  · intro h
    unfold Cut.ofJson? at h
    split at h
    · cases h
      exact .belowAll
    · cases h
      exact .belowAllField
    · cases h
      exact .aboveAll
    · cases h
      exact .aboveAllField
    · obtain ⟨value, hvalue, rfl⟩ := Option.map_eq_some_iff.mp h
      rw [(LawfulJsonElement.decode?_eq_some_iff _ value).mp hvalue]
      exact .below value
    · obtain ⟨value, hvalue, rfl⟩ := Option.map_eq_some_iff.mp h
      rw [(LawfulJsonElement.decode?_eq_some_iff _ value).mp hvalue]
      exact .above value
    · cases h
  · have hdecode (value : α) : JsonElement.decode? (JsonElement.encode value) = some value :=
      (LawfulJsonElement.decode?_eq_some_iff _ value).mpr rfl
    intro h
    cases h with
    | belowAll | belowAllField | aboveAll | aboveAllField => rfl
    | below value => simp [Cut.ofJson?, hdecode]
    | above value => simp [Cut.ofJson?, hdecode]

theorem Cut.ofJson_eq_ok_iff (json : Json) (cut : Cut α) :
    Cut.ofJson json = .ok cut ↔ cut.Written json := by
  rw [← Cut.ofJson?_eq_some_iff, Cut.ofJson]
  cases (Cut.ofJson? json : Option (Cut α)) <;> simp

namespace Range

theorem cutsOfJson?_eq_some_iff (json : Json) (lower upper : Cut α) :
    cutsOfJson? json = some (lower, upper) ↔ CutsWritten lower upper json := by
  constructor
  · intro h
    unfold cutsOfJson? at h
    split at h
    · rename_i first second
      simp only [bind, Option.bind_eq_some_iff, pure, Option.some.injEq, Prod.mk.injEq] at h
      obtain ⟨_, hlower, _, hupper, rfl, rfl⟩ := h
      exact .array ((Cut.ofJson?_eq_some_iff first _).mp hlower)
        ((Cut.ofJson?_eq_some_iff second _).mp hupper)
    · simp only [bind, Option.bind_eq_some_iff, pure, Option.some.injEq, Prod.mk.injEq] at h
      obtain ⟨_, ⟨first, hfirst, hlower⟩, _, ⟨second, hsecond, hupper⟩, rfl, rfl⟩ := h
      rw [Json.field?_eq_some_iff] at hfirst hsecond
      exact .object hfirst hsecond ((Cut.ofJson?_eq_some_iff first _).mp hlower)
        ((Cut.ofJson?_eq_some_iff second _).mp hupper)
    · cases h
  · intro h
    cases h with
    | array hlower hupper =>
        rw [← Cut.ofJson?_eq_some_iff] at hlower hupper
        simp [cutsOfJson?, hlower, hupper]
    | object hfirst hsecond hlower hupper =>
        rw [← Json.field?_eq_some_iff] at hfirst hsecond
        rw [← Cut.ofJson?_eq_some_iff] at hlower hupper
        simp [cutsOfJson?, hfirst, hsecond, hlower, hupper]

variable [Ord α] [DecidableEq α]

theorem ofJson_eq_malformed {json : Json}
    (h : ∀ lower upper : Cut α, ¬ CutsWritten lower upper json) :
    (ofJson json : Except (DecodeFailure α) (Range α)) = .error .malformed := by
  rw [ofJson]
  cases hcuts : (cutsOfJson? json : Option (Cut α × Cut α)) with
  | none => rfl
  | some cuts => exact absurd ((cutsOfJson?_eq_some_iff json cuts.1 cuts.2).mp hcuts) (h _ _)

/-- JSON of two cuts is read as the range between them, if they name one. -/
theorem ofJson_eq_ofCuts {json : Json} {lower upper : Cut α} (h : CutsWritten lower upper json) :
    ofJson json = (ofCuts lower upper).mapError .refused := by
  rw [ofJson, (cutsOfJson?_eq_some_iff json lower upper).mpr h]

theorem ofJson_eq_ok_iff [Std.TransOrd α] (json : Json) (range : Range α) :
    ofJson json = .ok range ↔ range.Written json := by
  constructor
  · intro h
    obtain ⟨lower, upper, hcuts, hrange⟩ := exists_ofCuts_of_ofJson h
    obtain ⟨rfl, hvalid⟩ := (ofCuts_eq_ok_iff lower upper range).mp hrange
    exact ⟨(cutsOfJson?_eq_some_iff json lower upper).mp hcuts, hvalid⟩
  · rintro ⟨hcuts, hvalid⟩
    rw [ofJson_eq_ofCuts hcuts, (ofCuts_eq_ok_iff _ _ range).mpr ⟨rfl, hvalid⟩]
    rfl

end Range

end RangeAlgebra
