import RangeAlgebra.Range
import RangeAlgebra.Text.Quoted

/-!
The written form of ranges. A square bracket stands at an end that keeps its element, a round
one at an end that does not, and an infinite end is written with a sign. Elements have two
forms. The quoted one can be told from the text around it and makes the form of a range
unambiguous; the plain one is the element as it is.
-/

namespace RangeAlgebra

universe u

class Textual (α : Type u) where
  quoted : α → String
  plain : α → String

namespace Cut

variable {α : Type u} (element : α → String)

def lowerText : Cut α → String
  | .belowAll => "(-∞"
  | .below value => "[" ++ element value
  | .above value => "(" ++ element value
  | .aboveAll => "(+∞"

def upperText : Cut α → String
  | .belowAll => "-∞)"
  | .below value => element value ++ ")"
  | .above value => element value ++ "]"
  | .aboveAll => "+∞)"

end Cut

namespace Range

variable {α : Type u}

def text (element : α → String) (range : Range α) : String :=
  range.lower.lowerText element ++ ".." ++ range.upper.upperText element

def quoted [Textual α] (range : Range α) : String :=
  range.text Textual.quoted

def plain [Textual α] (range : Range α) : String :=
  range.text Textual.plain

/-- Ranges in their order between square brackets, separated by a comma and a blank. -/
def listText (element : α → String) (ranges : List (Range α)) : String :=
  "[" ++ ", ".intercalate (ranges.map (text element)) ++ "]"

end Range

instance : Textual String where
  quoted := Text.quote
  plain := id

end RangeAlgebra
