import RangeAlgebra.Discrete.View

/-!
The values of a view one after the other, in either direction. A cursor stands before a value of
one range and steps through the domain until it meets the last value of that range, or until
the domain has no further value; then it enters the next range that holds one.
-/

namespace RangeAlgebra

universe u

inductive Direction where
  | ascending
  | descending
deriving DecidableEq, Repr

namespace Direction

variable {α : Type u}

def step (direction : Direction) (domain : DiscreteDomain α) (value : α) : Option α :=
  match direction with
  | .ascending => domain.next value
  | .descending => domain.previous value

/-- The first and the last value of a range on the way through it. -/
def entry? [Ord α] (direction : Direction) (domain : DiscreteDomain α) (range : Range α) :
    Option (α × α) :=
  match direction with
  | .ascending => range.endpoints? domain
  | .descending => (range.endpoints? domain).map Prod.swap

end Direction

/-- `current` is the value to give next and the last value of the range that it is in; `ahead`
are the ranges that have not been entered. -/
structure ValueCursor (α : Type u) where
  domain : DiscreteDomain α
  direction : Direction
  current : Option (α × α)
  ahead : List (Range α)

namespace ValueCursor

variable {α : Type u} [Ord α] [DecidableEq α]

/-- Gives `value` and moves on within a range that ends with `last`. -/
def give (cursor : ValueCursor α) (value last : α) (ahead : List (Range α)) :
    α × ValueCursor α :=
  (value,
    { cursor with
      current :=
        if value = last then none
        else (cursor.direction.step cursor.domain value).map fun next => (next, last)
      ahead := ahead })

/-- Gives the first value in the given ranges. -/
def enter? (cursor : ValueCursor α) : List (Range α) → Option (α × ValueCursor α)
  | [] => none
  | range :: rest =>
    match cursor.direction.entry? cursor.domain range with
    | some (first, last) => some (cursor.give first last rest)
    | none => cursor.enter? rest

def next? (cursor : ValueCursor α) : Option (α × ValueCursor α) :=
  match cursor.current with
  | some (value, last) => some (cursor.give value last cursor.ahead)
  | none => cursor.enter? cursor.ahead

/-- The next values, up to `count` of them. -/
def take (cursor : ValueCursor α) : Nat → List α
  | 0 => []
  | count + 1 =>
    match cursor.next? with
    | some (value, rest) => value :: rest.take count
    | none => []

end ValueCursor

namespace DiscreteView

variable {α : Type u} [Ord α] [DecidableEq α]

def cursor (view : DiscreteView α) (direction : Direction) : ValueCursor α where
  domain := view.domain
  direction := direction
  current := none
  ahead :=
    match direction with
    | .ascending => view.set.ranges
    | .descending => view.set.ranges.reverse

def first? (view : DiscreteView α) : Option α :=
  (view.cursor .ascending).next?.map Prod.fst

def last? (view : DiscreteView α) : Option α :=
  (view.cursor .descending).next?.map Prod.fst

end DiscreteView

end RangeAlgebra
