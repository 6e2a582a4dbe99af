import RangeAlgebra.RangeSet.Algebra

/-!
Collecting the ranges of a set under the promise that they do not overlap. A builder accepts
any range that is not empty; whether the promise was kept is only found out when the set is
built. There the ranges are sorted, so a range can only overlap the span of those merged right
before it, and touching ranges become one.
-/

namespace RangeAlgebra

universe u

structure Builder (α : Type u) where
  added : Array (Range α)
deriving DecidableEq

namespace Builder

variable {α : Type u}

def empty : Builder α :=
  ⟨#[]⟩

instance : EmptyCollection (Builder α) := ⟨empty⟩

section Accumulation

variable [DecidableEq α]

/-- An addition gives the builder that it leaves, and why it was refused if it was. -/
def add (builder : Builder α) (range : Range α) : Builder α × Option (Error α) :=
  if range.isEmpty then (builder, some (.emptyRange range))
  else (⟨builder.added.push range⟩, none)

/-- Adds ranges up to the first empty one. The builder returned holds those before it also when
there is such a one; the error then names it. -/
def addAll (builder : Builder α) (ranges : List (Range α)) : Builder α × Option (Error α) :=
  changeEach add builder ranges

theorem addAll_cons (builder : Builder α) (range : Range α) (rest : List (Range α)) :
    builder.addAll (range :: rest) =
      if range.isEmpty then (builder, some (.emptyRange range))
      else addAll ⟨builder.added.push range⟩ rest := by
  rw [addAll, changeEach, add]
  cases range.isEmpty with
  | true => rfl
  | false => rfl

def addCollection [Ord α] (builder : Builder α) (collection : RangeCollection α) :
    Builder α × Option (Error α) :=
  builder.addAll collection.ranges

def combine (builder other : Builder α) : Builder α :=
  ⟨builder.added ++ other.added⟩

end Accumulation

section Building

variable [Ord α] [DecidableEq α]

/-- Joins sorted ranges to the disconnected ones they make up, `current` being the span that is
still open at its upper end. -/
def mergeFrom (current : Range α) : List (Range α) → Except (Error α) (List (Range α))
  | [] => .ok [current]
  | range :: rest =>
    if current.isConnected range then
      if current.overlaps range then .error (.overlapping current range)
      else mergeFrom (current.span range) rest
    else (mergeFrom range rest).map (current :: ·)

def mergeSorted : List (Range α) → Except (Error α) (List (Range α))
  | [] => .ok []
  | range :: rest => mergeFrom range rest

/-- The disconnected ranges that the added ones make up, in ascending order. -/
def merged (builder : Builder α) : Except (Error α) (List (Range α)) :=
  mergeSorted (Range.sort builder.added.toList)

def build (builder : Builder α) (label : Nat := 0) : Except (Error α) (RangeSet α) :=
  builder.merged.map fun ranges => .ofCanonical ranges label

end Building

def quoted [Textual α] (builder : Builder α) : String :=
  "Builder \x7b ranges: " ++ Range.listText Textual.quoted builder.added.toList ++ " \x7d"

end Builder

/-- The set of ranges that are not empty and do not overlap. -/
def RangeSet.copyOfRanges {α : Type u} [Ord α] [DecidableEq α] (ranges : List (Range α))
    (label : Nat := 0) : Except (Error α) (RangeSet α) :=
  match (∅ : Builder α).addAll ranges with
  | (builder, none) => builder.build label
  | (_, some error) => .error error

end RangeAlgebra
