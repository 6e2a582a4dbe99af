import RangeAlgebra.RangeIndex
import RangeAlgebra.RangeSet.Basic

/-!
Sets and indexes seen alike. Operations that only read the ranges of their other operand take a
collection, which is either kind. Both kinds answer the same queries; only an index can be
changed, and a change asked of a set is refused whatever the change would have been.
-/

namespace RangeAlgebra

universe u

inductive RangeCollection (α : Type u) where
  | ofSet (set : RangeSet α)
  | ofIndex (index : RangeIndex α)

namespace RangeCollection

variable {α : Type u}

instance : Coe (RangeSet α) (RangeCollection α) := ⟨.ofSet⟩
instance : Coe (RangeIndex α) (RangeCollection α) := ⟨.ofIndex⟩

def isEmpty : RangeCollection α → Bool
  | .ofSet set => set.isEmpty
  | .ofIndex index => index.isEmpty

def asSet? : RangeCollection α → Option (RangeSet α)
  | .ofSet set => some set
  | .ofIndex _ => none

def asIndex? : RangeCollection α → Option (RangeIndex α)
  | .ofSet _ => none
  | .ofIndex index => some index

variable [Ord α] [DecidableEq α]

def ranges : RangeCollection α → List (Range α)
  | .ofSet set => set.ranges
  | .ofIndex index => index.ranges

def rangeContaining? (collection : RangeCollection α) (value : α) : Option (Range α) :=
  match collection with
  | .ofSet set => set.rangeContaining? value
  | .ofIndex index => index.rangeContaining? value

def contains (collection : RangeCollection α) (value : α) : Bool :=
  (collection.rangeContaining? value).isSome

def intersects (collection : RangeCollection α) (range : Range α) : Bool :=
  match collection with
  | .ofSet set => set.intersects range
  | .ofIndex index => index.intersects range

def encloses (collection : RangeCollection α) (range : Range α) : Bool :=
  match collection with
  | .ofSet set => set.encloses range
  | .ofIndex index => index.encloses range

def enclosesAll (collection other : RangeCollection α) : Bool :=
  other.ranges.all collection.encloses

def span : RangeCollection α → Except (Error α) (Range α)
  | .ofSet set => set.span
  | .ofIndex index => index.span

def complement : RangeCollection α → RangeCollection α
  | .ofSet set => .ofSet set.complement
  | .ofIndex index => .ofIndex index.complement

/-! Each change gives the collection that it leaves, and why it was refused if it was. -/

def add (collection : RangeCollection α) (range : Range α) : RangeCollection α × Option (Error α) :=
  match collection with
  | .ofSet set => (.ofSet set, some (.immutable .add))
  | .ofIndex index => (.ofIndex (index.add range), none)

def remove (collection : RangeCollection α) (range : Range α) :
    RangeCollection α × Option (Error α) :=
  match collection with
  | .ofSet set => (.ofSet set, some (.immutable .remove))
  | .ofIndex index => (.ofIndex (index.remove range), none)

/-- A set refuses several ranges before it looks at any. -/
def addAll (collection other : RangeCollection α) : RangeCollection α × Option (Error α) :=
  match collection with
  | .ofSet set => (.ofSet set, some (.immutable .addAll))
  | .ofIndex index => changeEach add (.ofIndex index) other.ranges

def removeAll (collection other : RangeCollection α) : RangeCollection α × Option (Error α) :=
  match collection with
  | .ofSet set => (.ofSet set, some (.immutable .removeAll))
  | .ofIndex index => changeEach remove (.ofIndex index) other.ranges

omit [Ord α] [DecidableEq α] in
/-- Changes that no index refuses are all made. -/
theorem changeEach_ofIndex {change : RangeCollection α → Range α →
      RangeCollection α × Option (Error α)} {next : RangeIndex α → Range α → RangeIndex α}
    (h : ∀ index range, change (.ofIndex index) range = (.ofIndex (next index range), none))
    (index : RangeIndex α) (ranges : List (Range α)) :
    changeEach change (.ofIndex index) ranges = (.ofIndex (ranges.foldl next index), none) := by
  induction ranges generalizing index with
  | nil => rfl
  | cons range rest ih =>
      rw [changeEach, h]
      exact ih _

theorem addAll_ofIndex (index : RangeIndex α) (other : RangeCollection α) :
    (ofIndex index).addAll other = (.ofIndex (index.addAll other.ranges), none) :=
  changeEach_ofIndex (fun _ _ => rfl) index other.ranges

theorem removeAll_ofIndex (index : RangeIndex α) (other : RangeCollection α) :
    (ofIndex index).removeAll other = (.ofIndex (index.removeAll other.ranges), none) :=
  changeEach_ofIndex (fun _ _ => rfl) index other.ranges

end RangeCollection

end RangeAlgebra
