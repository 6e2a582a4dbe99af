import RangeAlgebra.Discrete.View
import RangeAlgebra.Json.Codec

/-!
The element types that ranges are made over when the type is only known at run time: the integer
kinds and text. A value can be handed over together with its type, and then it is an element of
a view only if the type is the view's own.
-/

namespace RangeAlgebra

inductive ElementType where
  | integer (kind : IntegerKind)
  | text
deriving DecidableEq, Repr

namespace ElementType

@[reducible] def Carrier : ElementType → Type
  | .integer kind => BoundedInt kind
  | .text => String

instance : (type : ElementType) → Ord type.Carrier
  | .integer kind => inferInstanceAs (Ord (BoundedInt kind))
  | .text => inferInstanceAs (Ord String)

instance : (type : ElementType) → DecidableEq type.Carrier
  | .integer kind => inferInstanceAs (DecidableEq (BoundedInt kind))
  | .text => inferInstanceAs (DecidableEq String)

instance : (type : ElementType) → Textual type.Carrier
  | .integer kind => inferInstanceAs (Textual (BoundedInt kind))
  | .text => inferInstanceAs (Textual String)

instance : (type : ElementType) → JsonElement type.Carrier
  | .integer kind => inferInstanceAs (JsonElement (BoundedInt kind))
  | .text => inferInstanceAs (JsonElement String)

/-- The domain that comes with a type: all values of an integer type, and no value of text, where
no text follows another. -/
def domain : (type : ElementType) → DiscreteDomain type.Carrier
  | .integer kind => .integers kind
  | .text => .ofList []

end ElementType

/-- A value with its type. -/
structure AnyElement where
  type : ElementType
  value : type.Carrier

/-- Values of other types are in no view, also those with the same number. -/
def DiscreteView.containsAny {type : ElementType} (view : DiscreteView type.Carrier)
    (element : AnyElement) : Bool :=
  if h : element.type = type then view.contains (h ▸ element.value) else false

end RangeAlgebra
