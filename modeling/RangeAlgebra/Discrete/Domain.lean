import RangeAlgebra.Error

/-!
A discrete domain steps from value to value. The values that it steps over need not be all
values of the type, and it need not have a least or a greatest one.
-/

namespace RangeAlgebra

universe u

structure DiscreteDomain (α : Type u) where
  /-- The least value of the domain above the given one. -/
  next : α → Option α
  /-- The greatest value of the domain below the given one. -/
  previous : α → Option α
  /-- The number of steps from the first value to the second, negative when they go down, and
  within the bounds of a 64-bit integer. -/
  distance : α → α → Int
  least? : Option α := none
  greatest? : Option α := none

namespace DiscreteDomain

variable {α : Type u}

def minValue (domain : DiscreteDomain α) : Except (Error α) α :=
  domain.least?.elim (.error .noLeastValue) .ok

def maxValue (domain : DiscreteDomain α) : Except (Error α) α :=
  domain.greatest?.elim (.error .noGreatestValue) .ok

/-- The domain, without its least value unless `least` holds and without its greatest value
unless `greatest` holds. The steps stay the same. -/
def keepBounds (domain : DiscreteDomain α) (least greatest : Bool) : DiscreteDomain α :=
  { domain with
    least? := if least then domain.least? else none
    greatest? := if greatest then domain.greatest? else none }

/-- The domain of the given values, which ascend strictly. Its steps can start at any value of
the type. -/
def ofList [Ord α] (values : List α) : DiscreteDomain α where
  next value := values.find? fun listed => (compare value listed).isLT
  previous value := (values.filter fun listed => (compare listed value).isLT).getLast?
  distance first last :=
    let countBelow (value : α) : Int := values.countP fun listed => (compare listed value).isLT
    countBelow last - countBelow first
  least? := values.head?
  greatest? := values.getLast?

end DiscreteDomain

end RangeAlgebra
