import RangeAlgebra.Proofs.Builder.Copying

/-!
What refused calls leave behind. A call that takes several ranges takes one after the other and
stops at the first that is refused, and what it has taken by then stays. An index refuses none and a
set already the first one, so a collection is always left as it was. A builder refuses empty ranges
only: it is left as it was by a refused call that takes a single range, but one that takes several
has added those before the empty one.
-/

namespace RangeAlgebra

universe u v

variable {α : Type u}

/-- If a single refused change leaves the state as it was, a refused series leaves what the changes
before the refused one have made. -/
theorem exists_refused_of_changeEach {σ : Type v} {change : σ → Range α → σ × Option (Error α)}
    (hsingle : ∀ state range error, (change state range).2 = some error →
      (change state range).1 = state)
    {state : σ} {ranges : List (Range α)} {error : Error α}
    (h : (changeEach change state ranges).2 = some error) :
    ∃ before range after, ranges = before ++ range :: after ∧
      changeEach change state before = ((changeEach change state ranges).1, none) ∧
      (change (changeEach change state ranges).1 range).2 = some error := by
  induction ranges generalizing state with
  | nil => cases h
  | cons range rest ih =>
      have hstays := hsingle state range
      rw [changeEach] at h ⊢
      split at h
      · rename_i changed hchanged
        obtain ⟨before, refused, after, rfl, hbefore, hrefused⟩ := ih h
        refine ⟨range :: before, refused, after, rfl, ?_, hrefused⟩
        rw [changeEach, hchanged]
        exact hbefore
      · rename_i left cause hrefused
        cases h
        rw [hrefused] at hstays
        cases hstays error rfl
        exact ⟨[], range, rest, rfl, rfl, congrArg Prod.snd hrefused⟩

namespace RangeCollection

/-- The changes that a collection can be asked for. -/
inductive Change (α : Type u) where
  | add (range : Range α)
  | remove (range : Range α)
  | addAll (other : RangeCollection α)
  | removeAll (other : RangeCollection α)

section ChangeEach

variable {change : RangeCollection α → Range α → RangeCollection α × Option (Error α)}

theorem changeEach_ofSet {set : RangeSet α} {error : Error α}
    (h : ∀ range, change (.ofSet set) range = (.ofSet set, some error)) (ranges : List (Range α)) :
    (changeEach change (.ofSet set) ranges).1 = .ofSet set := by
  cases ranges with
  | nil => rfl
  | cons range rest => rw [changeEach, h]

/-- No refused series of single changes has changed anything. -/
theorem changeEach_refused {next : RangeIndex α → Range α → RangeIndex α} {error : Error α}
    (hindex : ∀ index range, change (.ofIndex index) range = (.ofIndex (next index range), none))
    (hset : ∀ set range, change (.ofSet set) range = (.ofSet set, some error))
    {collection : RangeCollection α} {ranges : List (Range α)} {cause : Error α}
    (h : (changeEach change collection ranges).2 = some cause) :
    (changeEach change collection ranges).1 = collection := by
  cases collection with
  | ofSet set => exact changeEach_ofSet (hset set) ranges
  | ofIndex index =>
      rw [changeEach_ofIndex hindex] at h
      cases h

end ChangeEach

variable [Ord α] [DecidableEq α]

/-- The collection that a change leaves, and why the change was refused if it was. -/
def Change.run (collection : RangeCollection α) : Change α → RangeCollection α × Option (Error α)
  | .add range => collection.add range
  | .remove range => collection.remove range
  | .addAll other => collection.addAll other
  | .removeAll other => collection.removeAll other

/-- A set refuses all changes and an index none. -/
theorem Change.run_refused {collection : RangeCollection α} {change : Change α} {error : Error α}
    (h : (change.run collection).2 = some error) : (change.run collection).1 = collection := by
  cases collection with
  | ofSet set => cases change <;> rfl
  | ofIndex index =>
      cases change with
      | add range | remove range => cases h
      | addAll other =>
          rw [Change.run, addAll_ofIndex] at h
          cases h
      | removeAll other =>
          rw [Change.run, removeAll_ofIndex] at h
          cases h

end RangeCollection

namespace Builder

variable [DecidableEq α]

/-- Only an empty range is refused, and it is not added. -/
theorem add_refused {builder : Builder α} {range : Range α} {error : Error α}
    (h : (builder.add range).2 = some error) :
    range.isEmpty = true ∧ error = .emptyRange range ∧ (builder.add range).1 = builder := by
  unfold add at h ⊢
  split
  · rename_i hempty
    rw [if_pos hempty] at h
    cases h
    exact ⟨hempty, rfl, rfl⟩
  · rename_i hproper
    rw [if_neg hproper] at h
    cases h

/-- The refused range is the first empty one, and those before it have been added. -/
theorem addAll_refused {builder : Builder α} {ranges : List (Range α)} {error : Error α}
    (h : (builder.addAll ranges).2 = some error) :
    ∃ before range after, ranges = before ++ range :: after ∧
      (∀ other ∈ before, ¬ other.isEmpty = true) ∧ range.isEmpty = true ∧
      error = .emptyRange range ∧
      (builder.addAll ranges).1.added.toList = builder.added.toList ++ before := by
  obtain ⟨before, range, after, hranges, hbefore, hrefused⟩ :=
    exists_refused_of_changeEach (fun _ _ _ hadd => (add_refused hadd).2.2) h
  obtain ⟨hempty, herror, -⟩ := add_refused hrefused
  have hproper : ∀ other ∈ before, ¬ other.isEmpty = true := by
    have haccepted : (builder.addAll before).2 = none := congrArg Prod.snd hbefore
    rwa [addAll_snd, Option.map_eq_none_iff, List.find?_eq_none] at haccepted
  refine ⟨before, range, after, hranges, hproper, hempty, herror, ?_⟩
  have hadded := added_addAll builder before
  rw [List.takeWhile_eq_self_iff.mpr fun other hother => by simpa using hproper other hother]
    at hadded
  rw [← hadded]
  exact congrArg (fun outcome => outcome.1.added.toList) hbefore.symm

variable [Ord α]

theorem run_eq_self_iff (builder : Builder α) (call : Call α) :
    (call.run builder).1 = builder ↔ call.added = [] := by
  have hadded := added_run builder call
  constructor
  · intro hsame
    rw [hsame] at hadded
    exact List.self_eq_append_right.mp hadded
  · intro hnone
    apply eq_of_added_eq
    rw [hadded, hnone, List.append_nil]

variable [Std.TransOrd α] [Std.LawfulEqOrd α]

/-- The ranges of a collection are never refused. -/
theorem run_addCollection_of_reachable (builder : Builder α) {collection : RangeCollection α}
    (h : collection.Reachable) : ((Call.addCollection collection).run builder).2 = none := by
  have hcanonical := RangeCollection.WellFormed.canonical h.wellFormed
  have hnone : collection.ranges.find? (·.isEmpty) = none :=
    List.find?_eq_none.mpr hcanonical.not_isEmpty
  change (builder.addAll collection.ranges).2 = none
  rw [addAll_snd, hnone]
  rfl

/-- A refused change leaves a collection as it was, also where one change is made for each range. A
refused addition of one range, which is an empty one, and a refused build leave a builder as it was.
A refused addition of several ranges leaves it with those before the first empty one: it is as it
was only if that one came first. The ranges of another collection are added like any others, and of
sets and indexes that can be made none is refused. -/
theorem refused_calls (builder : Builder α) (collection : RangeCollection α) :
    (∀ change error, (RangeCollection.Change.run collection change).2 = some error →
      (change.run collection).1 = collection) ∧
    (∀ ranges error, (changeEach RangeCollection.add collection ranges).2 = some error →
      (changeEach RangeCollection.add collection ranges).1 = collection) ∧
    (∀ ranges error, (changeEach RangeCollection.remove collection ranges).2 = some error →
      (changeEach RangeCollection.remove collection ranges).1 = collection) ∧
    (∀ range error, ((Call.add range).run builder).2 = some error →
      range.isEmpty = true ∧ error = .emptyRange range ∧
        ((Call.add range).run builder).1 = builder) ∧
    (∀ label error, ((Call.build label).run builder).2 = some error →
      ((Call.build label).run builder).1 = builder) ∧
    (∀ ranges error, ((Call.addAll ranges).run builder).2 = some error →
      ∃ before range after, ranges = before ++ range :: after ∧
        (∀ other ∈ before, ¬ other.isEmpty = true) ∧ range.isEmpty = true ∧
        error = .emptyRange range ∧
        ((Call.addAll ranges).run builder).1.added.toList = builder.added.toList ++ before ∧
        (((Call.addAll ranges).run builder).1 = builder ↔ before = [])) ∧
    (Call.addCollection collection).run builder = (Call.addAll collection.ranges).run builder ∧
    (collection.Reachable → ((Call.addCollection collection).run builder).2 = none) := by
  refine ⟨?_, ?_, ?_, ?_, ?_, ?_, rfl, ?_⟩
  · intro change error h
    exact RangeCollection.Change.run_refused h
  · intro ranges error h
    exact RangeCollection.changeEach_refused (fun _ _ => rfl) (fun _ _ => rfl) h
  · intro ranges error h
    exact RangeCollection.changeEach_refused (fun _ _ => rfl) (fun _ _ => rfl) h
  · intro range error h
    exact add_refused h
  · intro label error h
    exact (run_eq_self_iff builder (.build label)).mpr rfl
  · intro ranges error h
    obtain ⟨before, range, after, hranges, hbefore, hempty, herror, hadded⟩ := addAll_refused h
    have hadds : (Call.addAll ranges).added = before :=
      List.append_cancel_left ((added_run builder (.addAll ranges)).symm.trans hadded)
    refine ⟨before, range, after, hranges, hbefore, hempty, herror, hadded, ?_⟩
    rw [run_eq_self_iff, hadds]
  · intro h
    exact run_addCollection_of_reachable builder h

/-- An empty range is refused at the end of a list, alone and by a builder that cannot be built, and
a set refuses to lose a range. -/
theorem refused_calls_partly :
    let clashing : Builder Int := ⟨#[⟨.below 1, .above 2⟩, ⟨.below 2, .above 3⟩]⟩
    let ranges : List (Range Int) :=
      [⟨.below 4, .above 5⟩, ⟨.above 6, .above 6⟩, ⟨.below 7, .above 8⟩]
    let set : RangeCollection Int := .ofSet (.ofRange ⟨.below 1, .above 9⟩)
    ((Call.addAll ranges).run clashing).2 = some (.emptyRange ⟨.above 6, .above 6⟩) ∧
      (∃ before, ((Call.addAll ranges).run clashing).1.added.toList =
        clashing.added.toList ++ before ∧
        (((Call.addAll ranges).run clashing).1 = clashing ↔ before = [])) ∧
      ((Call.add ⟨.above 6, .above 6⟩).run clashing).1 = clashing ∧
      ((Call.build 1).run clashing).1 = clashing ∧
      ((Call.addCollection set).run clashing).2 = none ∧
      (RangeCollection.Change.run set (.remove ⟨.below 1, .above 2⟩)).1 = set := by
  intro clashing ranges set
  have hset : set.Reachable := RangeCollection.Reachable.ofRange (by decide) 0
  have hempty : ((Call.addAll ranges).run clashing).2 =
      some (.emptyRange ⟨.above 6, .above 6⟩) := rfl
  have hsorted : clashing.added.toList = Range.sort clashing.added.toList :=
    Range.eq_sort_of_perm (by decide) (by decide)
  have hclash : clashing.build 1 =
      .error (.overlapping ⟨.below 1, .above 2⟩ ⟨.below 2, .above 3⟩) := by
    rw [build, Builder.merged, ← hsorted]
    rfl
  have hbuild : ((Call.build 1).run clashing).2 =
      some (.overlapping ⟨.below 1, .above 2⟩ ⟨.below 2, .above 3⟩) := by
    rw [Call.run, hclash]
  obtain ⟨hchange, -, -, hadd, hbuilt, hall, -, hreachable⟩ := refused_calls clashing set
  obtain ⟨before, -, -, -, -, -, -, hadded, hsame⟩ := hall ranges _ hempty
  exact ⟨hempty, ⟨before, hadded, hsame⟩, (hadd _ _ rfl).2.2, hbuilt 1 _ hbuild, hreachable hset,
    hchange (.remove ⟨.below 1, .above 2⟩) _ rfl⟩

/-- The addition of two ranges is refused for the second one, and the builder then holds the first
one. -/
theorem addAll_keeps_added :
    let builder : Builder Int := ⟨#[⟨.below 1, .above 2⟩]⟩
    let ranges : List (Range Int) := [⟨.below 4, .above 5⟩, ⟨.above 6, .above 6⟩]
    builder.Reachable ∧ (∀ range ∈ ranges, range.Valid) ∧
      (builder.addAll ranges).2 = some (.emptyRange ⟨.above 6, .above 6⟩) ∧
      (builder.addAll ranges).1.added.toList ≠ builder.added.toList := by
  intro builder ranges
  have hvalid : (⟨.below 1, .above 2⟩ : Range Int).Valid := by decide
  exact ⟨Reachable.empty.add hvalid, by decide, rfl, by decide⟩

end Builder

end RangeAlgebra
