/-!
Binary search over the positions of a sorted sequence. The sequence is only seen through
comparisons of the key with the element at a position, and it is sorted when these go from
greater through equal to less. What a search answers is a choice of the caller, both for a key
that occurs, perhaps several times, and for one that does not. The positions compared are part
of the result, so that how much of the sequence a search looks at can be read off as well. Results
are integers, as some lie before the first position; those for a length that is a signed word are
signed words themselves.
-/

namespace RangeAlgebra.Search

/-- The answer for a key that occurs. -/
inductive Present where
  /-- The position of some occurrence. -/
  | any
  /-- The position of the last occurrence. -/
  | last
  /-- The position of the first occurrence. -/
  | first
  /-- The position after the last occurrence. -/
  | firstAfter
  /-- The position before the first occurrence. -/
  | lastBefore
deriving DecidableEq, Repr

/-- The answer for a key that does not occur. -/
inductive Absent where
  /-- The position of the greatest smaller element, `-1` if there is none. -/
  | nextLower
  /-- The position of the smallest greater element, the length if there is none. -/
  | nextHigher
  /-- The place of insertion `i`, written as `-i - 1` to tell it from a position. -/
  | invertedInsertion
deriving DecidableEq, Repr

/-- A result together with the positions compared on the way to it, in order. -/
structure Probed (β : Type) where
  result : β
  probes : List Nat
deriving Repr

namespace Probed

variable {β γ : Type}

def after (position : Nat) (rest : Probed β) : Probed β :=
  ⟨rest.result, position :: rest.probes⟩

def map (f : β → γ) (probed : Probed β) : Probed γ :=
  ⟨f probed.result, probed.probes⟩

end Probed

/-- The last occurrence between `lower`, where the key occurs, and `upper`, after which it does
not. The middle is rounded up so that `lower` rises when it is kept. -/
def lastPresent (compareAt : Nat → Ordering) (lower upper : Nat) : Probed Nat :=
  if lower < upper then
    let middle := lower + (upper - lower + 1) / 2
    match compareAt middle with
    | .lt => (lastPresent compareAt lower (middle - 1)).after middle
    | .eq | .gt => (lastPresent compareAt middle upper).after middle
  else ⟨lower, []⟩
termination_by upper - lower

/-- The first occurrence between `lower`, before which the key does not occur, and `upper`,
where it does. -/
def firstPresent (compareAt : Nat → Ordering) (lower upper : Nat) : Probed Nat :=
  if lower < upper then
    let middle := lower + (upper - lower) / 2
    match compareAt middle with
    | .gt => (firstPresent compareAt (middle + 1) upper).after middle
    | .eq | .lt => (firstPresent compareAt lower middle).after middle
  else ⟨lower, []⟩
termination_by upper - lower

/-- The answer when the key occurs at `found` and nowhere outside `lower` to `upper`. -/
def Present.resolve (present : Present) (compareAt : Nat → Ordering)
    (lower found upper : Nat) : Probed Int :=
  match present with
  | .any => ⟨found, []⟩
  | .last => (lastPresent compareAt found upper).map Int.ofNat
  | .first => (firstPresent compareAt lower found).map Int.ofNat
  | .firstAfter => (lastPresent compareAt found upper).map fun (position : Nat) => (position : Int) + 1
  | .lastBefore => (firstPresent compareAt lower found).map fun (position : Nat) => (position : Int) - 1

/-- The answer when `higher` elements are smaller than the key and the others greater. -/
def Absent.resolve (absent : Absent) (higher : Nat) : Int :=
  match absent with
  | .nextLower => higher - 1
  | .nextHigher => higher
  | .invertedInsertion => -higher - 1

/-- A search among the positions from `lower` up to `upper`, the latter excluded. -/
def locateWithin (compareAt : Nat → Ordering) (present : Present) (absent : Absent)
    (lower upper : Nat) : Probed Int :=
  if lower < upper then
    let middle := lower + (upper - lower) / 2
    match compareAt middle with
    | .lt => (locateWithin compareAt present absent lower middle).after middle
    | .gt => (locateWithin compareAt present absent (middle + 1) upper).after middle
    | .eq => (present.resolve compareAt lower middle (upper - 1)).after middle
  else ⟨absent.resolve lower, []⟩
termination_by upper - lower

def locate (length : Nat) (present : Present) (absent : Absent)
    (compareAt : Nat → Ordering) : Probed Int :=
  locateWithin compareAt present absent 0 length

/-- The search for `key` among `items`, which are sorted by `keyOf`. -/
def locateKey {ε κ : Type} [Ord κ] (items : Array ε) (keyOf : ε → κ) (key : κ)
    (present : Present) (absent : Absent) : Probed Int :=
  locate items.size present absent fun i =>
    (items[i]?).elim .lt fun item => compare key (keyOf item)

end RangeAlgebra.Search
