import RangeAlgebra.Range
import RangeAlgebra.Text

/-!
Everything that can be refused, by cause. A cause carries the ranges that it is about, so a
caller can act on them; the wording is made from the cause in one place. A change that may be
refused gives the state that it leaves together with the cause, since a refusal alone does not
tell what has been changed by then.
-/

namespace RangeAlgebra

universe u v

/-- The changes that can be asked of a collection of ranges. -/
inductive Mutation where
  | add
  | remove
  | addAll
  | removeAll
deriving DecidableEq, Repr

def Mutation.name : Mutation → String
  | .add => "add"
  | .remove => "remove"
  | .addAll => "add_all"
  | .removeAll => "remove_all"

inductive Error (α : Type u) where
  /-- An empty range was given where every range must hold a position. -/
  | emptyRange (range : Range α)
  /-- `added` shares a position with `merged`, the span of ranges accepted before it. -/
  | overlapping (merged added : Range α)
  /-- The collection cannot be changed. -/
  | immutable (mutation : Mutation)
  | emptySpan
  | noLeastValue
  | noGreatestValue
  /-- The lower of two given cuts is above the upper one. -/
  | invertedCuts
  /-- An infinite cut was given for the opposite end. -/
  | infiniteCuts
  /-- The lower of two given elements, with their bound types, is above the upper one. -/
  | invertedEndpoints
  /-- The first element of a selection is above its last. -/
  | invertedSelection
  | unboundedBelow
  | unboundedAbove
deriving DecidableEq, Repr

/-- The kinds of causes, which callers tell apart without looking at the wording. -/
inductive ErrorKind where
  | emptyRange
  | overlappingRanges
  | unsupported
  | noSuchElement
  | illegalArgument
  | unboundedBelow
  | unboundedAbove
  /-- The caller broke what was asked of it, so the program stops. -/
  | panic
deriving DecidableEq, Repr

/-- What every message of the kind begins with. -/
def ErrorKind.opening : ErrorKind → String
  | .emptyRange => "range must not be empty, but was "
  | .overlappingRanges => "overlapping ranges not permitted but found "
  | .unsupported => "unsupported operation "
  | .noSuchElement => "no such element: "
  | .illegalArgument => "illegal argument: "
  | .unboundedBelow | .unboundedAbove =>
      "neither the discrete domain nor this range set are bounded "
  | .panic => "Invalid range: "

namespace Error

variable {α : Type u}

def kind : Error α → ErrorKind
  | .emptyRange _ => .emptyRange
  | .overlapping _ _ => .overlappingRanges
  | .immutable _ => .unsupported
  | .emptySpan | .noLeastValue | .noGreatestValue => .noSuchElement
  | .invertedCuts | .infiniteCuts | .invertedSelection => .illegalArgument
  | .invertedEndpoints => .panic
  | .unboundedBelow => .unboundedBelow
  | .unboundedAbove => .unboundedAbove

variable [Textual α]

def detail : Error α → String
  | .emptyRange range => range.quoted
  | .overlapping merged added => merged.quoted ++ " overlapping " ++ added.quoted
  | .immutable mutation => "`" ++ mutation.name ++ "`: the range set is immutable"
  | .emptySpan => "an empty range set has no span"
  | .noLeastValue => "the discrete domain has no minimum value"
  | .noGreatestValue => "the discrete domain has no maximum value"
  | .invertedCuts => "invalid range: the lower bound is above the upper bound"
  | .infiniteCuts => "invalid range: +∞ cannot be a lower bound and -∞ cannot be an upper bound"
  | .invertedEndpoints => "the lower bound must not be above the upper bound."
  | .invertedSelection => "sub_set: the first element is above the last element"
  | .unboundedBelow => "below"
  | .unboundedAbove => "above"

def message (error : Error α) : String :=
  error.kind.opening ++ error.detail

end Error

section Changes

variable {α : Type u} {σ : Type v}

/-- Makes a change for one range after the other, up to the first that is refused. What comes back
is the state that is left and, if there was such a one, why it was refused. -/
def changeEach (change : σ → Range α → σ × Option (Error α)) (state : σ) :
    List (Range α) → σ × Option (Error α)
  | [] => (state, none)
  | range :: rest =>
    match change state range with
    | (changed, none) => changeEach change changed rest
    | (left, some error) => (left, some error)

/-- What every change keeps is kept up to wherever they stop. -/
theorem changeEach_keeps {change : σ → Range α → σ × Option (Error α)} {kept : σ → Prop}
    {ranges : List (Range α)}
    (hchange : ∀ range ∈ ranges, ∀ state, kept state → kept (change state range).1) {state : σ}
    (h : kept state) : kept (changeEach change state ranges).1 := by
  induction ranges generalizing state with
  | nil => exact h
  | cons range rest ih =>
      have hfirst := hchange range List.mem_cons_self state h
      rw [changeEach]
      split
      · rename_i changed hchanged
        rw [hchanged] at hfirst
        exact ih (fun other hother => hchange other (List.mem_cons_of_mem range hother)) hfirst
      · rename_i left error hrefused
        rw [hrefused] at hfirst
        exact hfirst

end Changes

end RangeAlgebra
