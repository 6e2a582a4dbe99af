/-!
A finite map whose entries are kept in the order of their keys. Besides the usual changes it
answers for the neighbours of a key that need not be present: the entry before it, the entry
up to it and the entry from it on.
-/

namespace RangeAlgebra

universe u v

/-- The entries stand in strictly ascending order of their keys; every operation below keeps
them so. -/
structure OrderedMap (κ : Type u) (ν : Type v) where
  entries : List (κ × ν)
deriving DecidableEq, Hashable

namespace OrderedMap

variable {κ : Type u} {ν : Type v}

def empty : OrderedMap κ ν :=
  ⟨[]⟩

instance : EmptyCollection (OrderedMap κ ν) := ⟨empty⟩

def size (map : OrderedMap κ ν) : Nat :=
  map.entries.length

def isEmpty (map : OrderedMap κ ν) : Bool :=
  map.entries.isEmpty

/-- The values in the order of their keys. -/
def values (map : OrderedMap κ ν) : List ν :=
  map.entries.map Prod.snd

def first? (map : OrderedMap κ ν) : Option ν :=
  map.values.head?

def last? (map : OrderedMap κ ν) : Option ν :=
  map.values.getLast?

variable [LE κ] [LT κ] [DecidableLE κ] [DecidableLT κ]

/-- Puts an entry in its place among `entries`, instead of the one with the same key if there is
one. -/
def insertEntry (key : κ) (value : ν) : List (κ × ν) → List (κ × ν)
  | [] => [(key, value)]
  | entry :: rest =>
      if key < entry.1 then (key, value) :: entry :: rest
      else if entry.1 < key then entry :: insertEntry key value rest
      else (key, value) :: rest

def insert (map : OrderedMap κ ν) (key : κ) (value : ν) : OrderedMap κ ν :=
  ⟨insertEntry key value map.entries⟩

/-- Drops every entry whose key is `lower` or above it and still below `upper`. -/
def eraseWithin (map : OrderedMap κ ν) (lower upper : κ) : OrderedMap κ ν :=
  ⟨map.entries.filter fun entry => !(lower ≤ entry.1 && entry.1 < upper)⟩

/-- The value with the greatest key below `key`. -/
def before? (map : OrderedMap κ ν) (key : κ) : Option ν :=
  ((map.entries.filter (·.1 < key)).getLast?).map Prod.snd

/-- The value with the greatest key that is not above `key`. -/
def upTo? (map : OrderedMap κ ν) (key : κ) : Option ν :=
  ((map.entries.filter (·.1 ≤ key)).getLast?).map Prod.snd

/-- The value with the least key that is not below `key`. -/
def from? (map : OrderedMap κ ν) (key : κ) : Option ν :=
  (map.entries.find? (key ≤ ·.1)).map Prod.snd

end OrderedMap

end RangeAlgebra
