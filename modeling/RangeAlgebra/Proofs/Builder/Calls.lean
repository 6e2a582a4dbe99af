import RangeAlgebra.Proofs.Builder.Merging
import RangeAlgebra.Proofs.Set.Reachable

/-!
What builders make of the ranges that calls have added. A call adds the ranges it is given up to the
first empty one, and building adds none, so a builder can be built from and added to in turns. What
is built depends on the ranges alone and not on the order in which they came: it is their union if
no two of them share a position, and otherwise it is refused with two ranges that do.
-/

namespace RangeAlgebra.Builder

universe u

variable {α : Type u}

theorem eq_of_added_eq {a b : Builder α} (h : a.added.toList = b.added.toList) : a = b := by
  cases a
  cases b
  exact congrArg mk (Array.toList_inj.mp h)

variable [DecidableEq α]

theorem added_addAll (builder : Builder α) (ranges : List (Range α)) :
    (builder.addAll ranges).1.added.toList =
      builder.added.toList ++ ranges.takeWhile fun range => !range.isEmpty := by
  induction ranges generalizing builder with
  | nil => simp [addAll, changeEach]
  | cons range rest ih =>
      rw [addAll_cons]
      by_cases hempty : range.isEmpty = true
      · simp [hempty]
      · simp [hempty, ih]

variable [Ord α]

/-- The calls that a builder takes. -/
inductive Call (α : Type u) where
  | add (range : Range α)
  | addAll (ranges : List (Range α))
  | addCollection (collection : RangeCollection α)
  | combine (other : Builder α)
  | build (label : Nat)

namespace Call

/-- The builder that a call leaves, and why the call was refused if it was. Building only reads the
builder. -/
def run (builder : Builder α) : Call α → Builder α × Option (Error α)
  | .add range => builder.add range
  | .addAll ranges => builder.addAll ranges
  | .addCollection collection => builder.addCollection collection
  | .combine other => (builder.combine other, none)
  | .build label =>
    match builder.build label with
    | .ok _ => (builder, none)
    | .error error => (builder, some error)

/-- The builder after all calls, each of them made whether or not one before it was refused. -/
def runAll (start : Builder α) (calls : List (Call α)) : Builder α :=
  calls.foldl (fun builder call => (call.run builder).1) start

def isBuild : Call α → Bool
  | .build _ => true
  | _ => false

/-- The ranges that a call adds, in order. -/
def added : Call α → List (Range α)
  | .add range => [range].takeWhile fun range => !range.isEmpty
  | .addAll ranges => ranges.takeWhile fun range => !range.isEmpty
  | .addCollection collection => collection.ranges.takeWhile fun range => !range.isEmpty
  | .combine other => other.added.toList
  | .build _ => []

end Call

/-- Adding one range is adding a list of one. -/
theorem run_add (builder : Builder α) (range : Range α) :
    (Call.add range).run builder = builder.addAll [range] := by
  rw [Call.run, addAll_cons, add]
  rfl

theorem added_run (builder : Builder α) (call : Call α) :
    (call.run builder).1.added.toList = builder.added.toList ++ call.added := by
  cases call with
  | add range =>
      rw [run_add]
      exact added_addAll builder [range]
  | addAll ranges => exact added_addAll builder ranges
  | addCollection collection => exact added_addAll builder collection.ranges
  | combine other => exact Array.toList_append
  | build label =>
      rw [Call.run, Call.added, List.append_nil]
      cases builder.build label with
      | ok set => rfl
      | error error => rfl

theorem added_runAll (start : Builder α) (calls : List (Call α)) :
    (Call.runAll start calls).added.toList = start.added.toList ++ calls.flatMap Call.added := by
  induction calls generalizing start with
  | nil => simp [Call.runAll]
  | cons call rest ih =>
      rw [Call.runAll, List.foldl_cons, List.flatMap_cons, ← List.append_assoc, ← added_run]
      exact ih _

theorem runAll_append (start : Builder α) (calls more : List (Call α)) :
    Call.runAll start (calls ++ more) = Call.runAll (Call.runAll start calls) more :=
  List.foldl_append

/-- A builder that can be made is the result of a run of calls. -/
theorem Reachable.exists_runAll {builder : Builder α} (h : builder.Reachable) :
    ∃ calls, Call.runAll ∅ calls = builder := by
  induction h with
  | empty => exact ⟨[], rfl⟩
  | add h hvalid ih =>
      obtain ⟨calls, rfl⟩ := ih
      exact ⟨calls ++ [.add _], runAll_append _ _ _⟩
  | addAll h hvalid ih =>
      obtain ⟨calls, rfl⟩ := ih
      exact ⟨calls ++ [.addAll _], runAll_append _ _ _⟩
  | addCollection h hvalid ih =>
      obtain ⟨calls, rfl⟩ := ih
      exact ⟨calls ++ [.addCollection _], runAll_append _ _ _⟩
  | combine h hother ih ihOther =>
      obtain ⟨calls, rfl⟩ := ih
      exact ⟨calls ++ [.combine _], runAll_append _ _ _⟩

theorem Call.added_eq_nil {call : Call α} (h : call.isBuild = true) : call.added = [] := by
  cases call with
  | build label => rfl
  | add range | addAll ranges | addCollection collection | combine other => cases h

/-- The builds of a run change nothing. -/
theorem runAll_filter_isBuild (start : Builder α) (calls : List (Call α)) :
    Call.runAll start (calls.filter fun call => !call.isBuild) = Call.runAll start calls := by
  have hadded : (calls.filter fun call => !call.isBuild).flatMap Call.added =
      calls.flatMap Call.added := by
    induction calls with
    | nil => rfl
    | cons call rest ih =>
        cases hbuild : call.isBuild with
        | true => simp [hbuild, Call.added_eq_nil hbuild, ih]
        | false => simp [hbuild, ih]
  apply eq_of_added_eq
  rw [added_runAll, added_runAll, hadded]

variable [Std.TransOrd α] [Std.LawfulEqOrd α]

/-- Equality of sets is equality of positions, so it does not matter that a builder joins its ranges
in a scan and a union takes them into an index. -/
theorem WellFormed.build_beq_unionOf {builder : Builder α} (h : builder.WellFormed) {label : Nat}
    {set : RangeSet α} (hbuild : builder.build label = .ok set) (unionLabel : Nat) :
    (set == .unionOf builder.added.toList unionLabel) = true := by
  obtain ⟨hset, hcovers⟩ := h.build_spec hbuild
  have hvalid : ∀ range ∈ builder.added.toList, range.Valid := by
    intro range hrange
    exact Range.valid_of_lt (h range (Array.mem_toList_iff.mp hrange))
  obtain ⟨hunion, hunionCovers⟩ := RangeSet.unionOf_spec hvalid unionLabel
  apply RangeSet.beq_of_covers_iff hset hunion
  intro cut
  rw [hcovers, hunionCovers]

/-- A builder is built exactly if no two of its ranges share a position. The set is then the union
of the ranges, in canonical form. Otherwise a range is named that shares a position with the span
of some others, which touch one another and share none. All this depends neither on the order in
which the ranges were added nor on what was built before. The ranges are those that the calls since
the empty builder have added, each call those it was given up to the first empty one. -/
theorem build_exact {builder : Builder α} (h : builder.Reachable) (label : Nat) :
    let added := builder.added.toList
    ((∃ set, builder.build label = .ok set) ↔ added.Pairwise Range.Apart) ∧
      (∀ set, builder.build label = .ok set →
        (∀ unionLabel, (set == .unionOf added unionLabel) = true) ∧
          Range.IsCanonical set.ranges ∧
          (set = .empty ↔ set.ranges = []) ∧ (set = .all ↔ set.ranges = [.all])) ∧
      (∀ error, builder.build label = .error error →
        ∃ group merged next, error = .overlapping merged next ∧
          (∀ [Textual α], error.message = "overlapping ranges not permitted but found " ++
            merged.quoted ++ " overlapping " ++ next.quoted) ∧
          Range.Merges group merged ∧ (group ++ [next]).Subperm added ∧
          ∃ cut, merged.Covers cut ∧ next.Covers cut) ∧
      (∀ other : Builder α, other.added.toList.Perm added →
        other.build label = builder.build label) ∧
      (∀ calls, Call.runAll builder (calls.filter fun call => !call.isBuild) =
        Call.runAll builder calls) ∧
      (∃ calls, Call.runAll ∅ calls = builder ∧ added = calls.flatMap Call.added) ∧
      ∀ calls, (Call.runAll builder calls).added.toList = added ++ calls.flatMap Call.added := by
  intro added
  have hform := h.wellFormed
  refine ⟨hform.build_eq_ok_iff label, ?_, ?_, ?_, runAll_filter_isBuild builder, ?_,
    added_runAll builder⟩
  · intro set hbuild
    have hlists : set.Lists set.ranges := (hform.build_spec hbuild).1
    exact ⟨hform.build_beq_unionOf hbuild, hlists.canonical, hlists.eq_empty_iff,
      hlists.eq_all_iff⟩
  · intro error herror
    obtain ⟨group, merged, next, rfl, hmerges, hshared, hadded⟩ := hform.build_error herror
    refine ⟨group, merged, next, rfl, ?_, hmerges, hadded, hshared⟩
    intro
    simp only [Error.message, Error.kind, ErrorKind.opening, Error.detail, String.append_assoc]
  · intro other hperm
    exact build_eq_of_perm hperm label
  · obtain ⟨calls, rfl⟩ := h.exists_runAll
    exact ⟨calls, rfl, added_runAll ∅ calls⟩

/-- Ranges that touch are given out of order, behind an empty range none is added, and the last
range starts inside the span of the others. -/
theorem build_exact_touching :
    let kept : Builder Int :=
      ((∅ : Builder Int).addAll [⟨.below 4, .below 6⟩, ⟨.below 1, .below 2⟩, ⟨.above 3, .above 3⟩,
        ⟨.below 7, .above 8⟩]).1
    let joined := kept.combine ((∅ : Builder Int).addAll [⟨.below 2, .below 4⟩]).1
    let clashing := (joined.addAll [⟨.below 5, .above 9⟩]).1
    let reversed : Builder Int := ⟨clashing.added.toList.reverse.toArray⟩
    joined.added.toList.Pairwise Range.Apart ∧
      (∃ set, joined.build 1 = .ok set ∧ (set == .unionOf joined.added.toList 2) = true) ∧
      ¬ clashing.added.toList.Pairwise Range.Apart ∧
      (∃ group merged next, clashing.build 1 = .error (.overlapping merged next) ∧
        Range.Merges group merged ∧ (group ++ [next]).Subperm clashing.added.toList) ∧
      reversed.build 1 = clashing.build 1 ∧
      Call.runAll joined [.build 1, .addAll [⟨.below 5, .above 9⟩], .build 2] =
        Call.runAll joined [.addAll [⟨.below 5, .above 9⟩]] ∧
      (Call.runAll joined [.combine kept, .add ⟨.above 3, .above 3⟩]).added.toList =
        joined.added.toList ++ kept.added.toList := by
  intro kept joined clashing reversed
  have hkept : kept.Reachable := Reachable.empty.addAll (by decide)
  have hjoined : joined.Reachable := hkept.combine (Reachable.empty.addAll (by decide))
  have hclashing : clashing.Reachable := hjoined.addAll (by decide)
  have hsorted : [⟨.below 1, .below 2⟩, ⟨.below 2, .below 4⟩, ⟨.below 4, .below 6⟩] =
      Range.sort joined.added.toList := Range.eq_sort_of_perm (by decide) (by decide)
  have hset : joined.build 1 = .ok (.ofCanonical [⟨.below 1, .below 6⟩] 1) := by
    rw [build, Builder.merged, ← hsorted]
    rfl
  have hclash : [⟨.below 1, .below 2⟩, ⟨.below 2, .below 4⟩, ⟨.below 4, .below 6⟩,
      ⟨.below 5, .above 9⟩] = Range.sort clashing.added.toList :=
    Range.eq_sort_of_perm (by decide) (by decide)
  have herror : clashing.build 1 =
      .error (.overlapping ⟨.below 1, .below 6⟩ ⟨.below 5, .above 9⟩) := by
    rw [build, Builder.merged, ← hclash]
    rfl
  obtain ⟨hokJoined, hunion, -, -, hruns, -, hadds⟩ := build_exact hjoined 1
  obtain ⟨hokClashing, -, hrefused, hperm, -⟩ := build_exact hclashing 1
  obtain ⟨group, merged, next, hcause, -, hmerges, hsubperm, -⟩ := hrefused _ herror
  refine ⟨hokJoined.mp ⟨_, hset⟩, ⟨_, hset, (hunion _ hset).1 2⟩, ?_,
    ⟨group, merged, next, herror.trans (congrArg _ hcause), hmerges, hsubperm⟩,
    hperm reversed (List.reverse_perm _), (hruns _).symm, hadds _⟩
  intro hapart
  obtain ⟨set, hbuilt⟩ := hokClashing.mpr hapart
  rw [herror] at hbuilt
  cases hbuilt

end RangeAlgebra.Builder
