/-!
Classes of characters as ranges of code points. The properties of the Unicode standard hold of
long stretches of code points, so a class is a short list of them and membership is found by
going up the list as far as the character.
-/

namespace RangeAlgebra.Text

/-- Closed ranges of code points, ascending and apart. -/
abbrev CodePoints := List (Nat × Nat)

namespace CodePoints

/-- The first range that does not end before `n` is the only one that can hold it. -/
def contains (n : Nat) : CodePoints → Bool
  | [] => false
  | (first, last) :: rest => if n ≤ last then first ≤ n else contains n rest

end CodePoints

end RangeAlgebra.Text
