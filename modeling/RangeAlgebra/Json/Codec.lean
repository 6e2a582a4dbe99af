import RangeAlgebra.Builder
import RangeAlgebra.Element.Integer

/-!
JSON, and what of the library is written in it. A cut is the name of an infinite cut or an object
of one field, named for the side, with the element. A range has its two cuts as fields, and a set
is the list of its canonical ranges, whatever they are read through. Reading checks what it reads:
ranges as they come, and once all are read, that none is empty and no two overlap.
-/

namespace RangeAlgebra

universe u

/-- JSON values. Integers are kept apart from other numbers, since only they denote elements. -/
inductive Json where
  | null
  | bool (value : Bool)
  | integer (value : Int)
  /-- The number `mantissa / 10 ^ places`, written with a fraction. -/
  | decimal (mantissa : Int) (places : Nat)
  | string (value : String)
  | array (items : List Json)
  /-- The fields are kept in order, and a name may be repeated. -/
  | object (fields : List (String × Json))
deriving Inhabited

/-- The value of the only field of that name. There is none if the name is missing or repeated. -/
def Json.field? (fields : List (String × Json)) (name : String) : Option Json :=
  match fields.filter fun field => field.1 == name with
  | [(_, value)] => some value
  | _ => none

class JsonElement (α : Type u) where
  encode : α → Json
  decode? : Json → Option α

instance : JsonElement String where
  encode := .string
  decode?
    | .string value => some value
    | _ => none

instance {kind : IntegerKind} : JsonElement (BoundedInt kind) where
  encode a := .integer a.val
  decode?
    | .integer value => BoundedInt.ofInt? kind value
    | _ => none

/-- Why JSON was not read: it is not of the expected form, or what it denotes was refused. -/
inductive DecodeFailure (α : Type u) where
  | malformed
  | refused (error : Error α)
deriving DecidableEq

variable {α : Type u} [JsonElement α]

namespace Cut

def toJson : Cut α → Json
  | .belowAll => .string "BelowAll"
  | .below value => .object [("BelowValue", JsonElement.encode value)]
  | .above value => .object [("AboveValue", JsonElement.encode value)]
  | .aboveAll => .string "AboveAll"

/-- An infinite cut may also be written as an object whose only field is its name, holding
`null`. -/
def ofJson? : Json → Option (Cut α)
  | .string "BelowAll" | .object [("BelowAll", .null)] => some .belowAll
  | .string "AboveAll" | .object [("AboveAll", .null)] => some .aboveAll
  | .object [("BelowValue", value)] => (JsonElement.decode? value).map .below
  | .object [("AboveValue", value)] => (JsonElement.decode? value).map .above
  | _ => none

def ofJson (json : Json) : Except (DecodeFailure α) (Cut α) :=
  (ofJson? json).elim (.error .malformed) .ok

end Cut

namespace Range

def toJson (range : Range α) : Json :=
  .object [("lower", range.lower.toJson), ("upper", range.upper.toJson)]

/-- The two cuts of a range, written as fields among any others or as an array of two. Neither of
the two fields may be repeated. -/
def cutsOfJson? : Json → Option (Cut α × Cut α)
  | .array [lower, upper] => do return (← Cut.ofJson? lower, ← Cut.ofJson? upper)
  | .object fields => do
    let lower ← (Json.field? fields "lower").bind Cut.ofJson?
    let upper ← (Json.field? fields "upper").bind Cut.ofJson?
    return (lower, upper)
  | _ => none

variable [Ord α] [DecidableEq α]

def ofJson (json : Json) : Except (DecodeFailure α) (Range α) :=
  match cutsOfJson? json with
  | none => .error .malformed
  | some (lower, upper) => (Range.ofCuts lower upper).mapError .refused

end Range

namespace RangeSet

variable [Ord α] [DecidableEq α]

def toJson (set : RangeSet α) : Json :=
  .array (set.ranges.map Range.toJson)

/-- The first faulty range decides. Empty and overlapping ranges are found only when all ranges
have been read. -/
def ofJson (json : Json) (label : Nat := 0) : Except (DecodeFailure α) (RangeSet α) :=
  match json with
  | .array items => do
    let ranges ← items.mapM Range.ofJson
    (copyOfRanges ranges label).mapError .refused
  | _ => .error .malformed

end RangeSet

end RangeAlgebra
