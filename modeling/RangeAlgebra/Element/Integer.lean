import RangeAlgebra.Discrete.Domain
import RangeAlgebra.Text

/-!
The integers of a fixed width as elements of ranges. The ten kinds differ in width and sign;
those of the machine's word are kinds of their own although they have the bounds of the 64-bit
ones. Each kind is a discrete domain with a least and a greatest value.
-/

namespace RangeAlgebra

inductive IntegerKind where
  | int8
  | int16
  | int32
  | int64
  | intWord
  | uint8
  | uint16
  | uint32
  | uint64
  | uintWord
deriving DecidableEq, Repr

namespace IntegerKind

def minimum : IntegerKind → Int
  | .int8 => -128
  | .int16 => -32768
  | .int32 => -2147483648
  | .int64 | .intWord => -9223372036854775808
  | .uint8 | .uint16 | .uint32 | .uint64 | .uintWord => 0

def maximum : IntegerKind → Int
  | .int8 => 127
  | .int16 => 32767
  | .int32 => 2147483647
  | .int64 | .intWord => 9223372036854775807
  | .uint8 => 255
  | .uint16 => 65535
  | .uint32 => 4294967295
  | .uint64 | .uintWord => 18446744073709551615

theorem minimum_le_maximum (kind : IntegerKind) : kind.minimum ≤ kind.maximum := by
  cases kind <;> decide

end IntegerKind

structure BoundedInt (kind : IntegerKind) where
  val : Int
  minimum_le : kind.minimum ≤ val
  le_maximum : val ≤ kind.maximum
deriving DecidableEq, Repr

namespace BoundedInt

variable {kind : IntegerKind}

instance : Ord (BoundedInt kind) := ⟨fun a b => compare a.val b.val⟩

instance : Hashable (BoundedInt kind) := ⟨fun a => hash a.val⟩

instance : Textual (BoundedInt kind) where
  quoted a := toString a.val
  plain a := toString a.val

def ofInt? (kind : IntegerKind) (val : Int) : Option (BoundedInt kind) :=
  if h : kind.minimum ≤ val ∧ val ≤ kind.maximum then some ⟨val, h.1, h.2⟩ else none

def least (kind : IntegerKind) : BoundedInt kind :=
  ⟨kind.minimum, Int.le_refl _, kind.minimum_le_maximum⟩

def greatest (kind : IntegerKind) : BoundedInt kind :=
  ⟨kind.maximum, kind.minimum_le_maximum, Int.le_refl _⟩

def next? (a : BoundedInt kind) : Option (BoundedInt kind) :=
  ofInt? kind (a.val + 1)

def previous? (a : BoundedInt kind) : Option (BoundedInt kind) :=
  ofInt? kind (a.val - 1)

/-- The difference, brought into the bounds of a 64-bit integer. -/
def distance (first last : BoundedInt kind) : Int :=
  max IntegerKind.int64.minimum (min (last.val - first.val) IntegerKind.int64.maximum)

end BoundedInt

def DiscreteDomain.integers (kind : IntegerKind) : DiscreteDomain (BoundedInt kind) where
  next := BoundedInt.next?
  previous := BoundedInt.previous?
  distance := BoundedInt.distance
  least? := some (.least kind)
  greatest? := some (.greatest kind)

end RangeAlgebra
