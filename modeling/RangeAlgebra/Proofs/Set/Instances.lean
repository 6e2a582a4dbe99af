import RangeAlgebra.Proofs.Builder.Copying
import RangeAlgebra.Proofs.Set.Equality

/-!
Which sets are the same instance and how their ranges are kept. A set that stores its ranges is
shared by its copies. A restriction or complement reads through the sequence that it was made from,
and as restricting a view stores what it selects, a window lies directly over a stored sequence
however many restrictions and complements led to it. So a read passes through at most a window and
a complement.
-/

namespace RangeAlgebra

universe u

variable {α : Type u}

namespace RangeList

/-- Every window lies over a stored sequence, has a range and ends within that sequence. -/
def WindowsWithin : RangeList α → Prop
  | .stored .. => True
  | .window _ (.stored _ ranges) start count _ => 1 ≤ count ∧ start + count ≤ ranges.size
  | .window .. => False
  | .complement source => source.WindowsWithin

end RangeList

namespace RangeSet

def WindowsWithin : RangeSet α → Prop
  | .empty | .all => True
  | .listed list => list.WindowsWithin

def viewDepth : RangeSet α → Nat
  | .empty | .all => 0
  | .listed list => list.viewDepth

/-- The calls that make a view of a set. -/
inductive ViewCall (α : Type u) where
  | complement
  | restrict (range : Range α) (label : Nat)

def ViewCall.Valid [Ord α] : ViewCall α → Prop
  | .complement => True
  | .restrict range _ => range.Valid

instance [Ord α] [DecidableEq α] (call : ViewCall α) : Decidable call.Valid :=
  match call with
  | .complement => inferInstanceAs (Decidable True)
  | .restrict range _ => inferInstanceAs (Decidable range.Valid)

def ViewCall.run [Ord α] [DecidableEq α] (set : RangeSet α) : ViewCall α → RangeSet α
  | .complement => set.complement
  | .restrict range label => set.restrict range label

/-- What a chain of calls makes, each a view of the set before it. -/
def ViewCall.runAll [Ord α] [DecidableEq α] (set : RangeSet α) (calls : List (ViewCall α)) :
    RangeSet α :=
  calls.foldl run set

section Instances

variable [DecidableEq α]

theorem sameInstance_iff (a b : RangeSet α) : a.sameInstance b = true ↔ a = b := by
  cases a <;> cases b <;> simp [sameInstance]

theorem sameInstance_equivalence : Equivalence fun a b : RangeSet α => a.sameInstance b = true := by
  simp only [sameInstance_iff]
  exact eq_equivalence

theorem isPartialView_ofRange (range : Range α) (label : Nat) :
    (ofRange range label).isPartialView = false := by
  unfold ofRange
  split
  · rfl
  · split <;> rfl

end Instances

end RangeSet

variable [Ord α] [DecidableEq α]

namespace RangeSet

/-- A copy of a view stores the ranges of the view. -/
theorem isPartialView_copyOf (collection : RangeCollection α) (label : Nat) :
    (copyOf collection label).isPartialView = false := by
  unfold copyOf
  split
  · rfl
  · split
    · rfl
    · split
      · split
        · exact isPartialView_ofCanonical _ label
        · rename_i hstored
          exact Bool.not_eq_true _ ▸ hstored
      · exact isPartialView_ofCanonical _ label

theorem isPartialView_of_copyOfRanges_eq_ok {ranges : List (Range α)} {label : Nat}
    {copy : RangeSet α} (hcopy : copyOfRanges ranges label = .ok copy) :
    copy.isPartialView = false := by
  unfold copyOfRanges at hcopy
  split at hcopy
  · exact Builder.isPartialView_of_build_eq_ok hcopy
  · cases hcopy

theorem isPartialView_of_ofJson_eq_ok [JsonElement α] {json : Json} {label : Nat}
    {read : RangeSet α} (hread : ofJson json label = .ok read) : read.isPartialView = false := by
  obtain ⟨items, ranges, -, -, hcopy⟩ := exists_copyOfRanges_of_ofJson hread
  exact isPartialView_of_copyOfRanges_eq_ok hcopy

end RangeSet

variable [Std.TransOrd α] [Std.LawfulEqOrd α]

namespace RangeList

variable {list : RangeList α} {ranges : List (Range α)}

theorem Direct.windowsWithin (h : list.Direct ranges) (hne : ranges ≠ []) :
    list.WindowsWithin := by
  cases h with
  | stored hranges => trivial
  | @window label storedLabel start count stored restriction hranges hproper hstart hstop =>
      have hlength : Range.startedBefore restriction stored ≤ stored.length :=
        List.countP_le_length
      have hcount : 1 ≤ count := by
        apply Nat.one_le_iff_ne_zero.mpr
        intro hzero
        apply hne
        rw [hranges.within_eq_map_clip hproper, ← hstart, ← hstop, Nat.add_sub_cancel_left, hzero]
        simp
      refine ⟨hcount, ?_⟩
      rw [List.size_toArray]
      omega

theorem Lists.windowsWithin (h : list.Lists ranges) : list.WindowsWithin := by
  cases h with
  | direct h hranges => exact h.windowsWithin hranges.ne_nil
  | complement h hranges => exact h.windowsWithin hranges.ne_nil

omit [Std.TransOrd α] [Std.LawfulEqOrd α] in
theorem Direct.viewDepth_le (h : list.Direct ranges) : list.viewDepth ≤ 1 := by
  cases h <;> simp [viewDepth]

omit [Std.TransOrd α] [Std.LawfulEqOrd α] in
theorem Lists.viewDepth_le (h : list.Lists ranges) : list.viewDepth ≤ 2 := by
  cases h with
  | direct h hranges => exact Nat.le_succ_of_le h.viewDepth_le
  | complement h hranges => exact Nat.succ_le_succ h.viewDepth_le

omit [Std.TransOrd α] [Std.LawfulEqOrd α] in
theorem Direct.flip_eq (h : list.Direct ranges) : list.flip = .complement list := by
  cases h <;> rfl

omit [Std.TransOrd α] [Std.LawfulEqOrd α] in
theorem Lists.flip_flip (h : list.Lists ranges) : list.flip.flip = list := by
  cases h with
  | direct h hranges =>
      rw [h.flip_eq]
      rfl
  | complement h hranges => exact h.flip_eq

end RangeList

namespace RangeSet

variable {set : RangeSet α}

omit [Std.TransOrd α] [Std.LawfulEqOrd α] in
theorem WellFormed.complement_complement (h : set.WellFormed) :
    set.complement.complement = set := by
  rw [WellFormed] at h
  cases h with
  | empty => rfl
  | all => rfl
  | listed h => exact congrArg RangeSet.listed h.flip_flip

omit [Std.TransOrd α] [Std.LawfulEqOrd α] in
theorem WellFormed.viewDepth_le (h : set.WellFormed) : set.viewDepth ≤ 2 := by
  rw [WellFormed] at h
  cases h with
  | empty => exact Nat.zero_le 2
  | all => exact Nat.zero_le 2
  | listed h => exact h.viewDepth_le

theorem WellFormed.windowsWithin (h : set.WellFormed) : set.WindowsWithin := by
  rw [WellFormed] at h
  cases h with
  | empty => trivial
  | all => trivial
  | listed h => exact h.windowsWithin

/-- The span reaches from the first range to the last one, so a range encloses it exactly if it
covers all positions of the set. -/
theorem WellFormed.exists_span (h : set.WellFormed) (hne : set.isEmpty = false) :
    ∃ span, set.span = .ok span ∧ ∀ range : Range α,
      range.encloses span = true ↔ ∀ cut, set.Covers cut → range.Covers cut := by
  have hranges : set.ranges ≠ [] := fun hnil =>
    Bool.eq_false_iff.mp hne ((Lists.isEmpty_iff h).mpr hnil)
  have hfirst := List.head?_eq_some_head hranges
  have hlast := List.getLast?_eq_some_getLast hranges
  refine ⟨_, Lists.span_eq_ok h hfirst hlast, fun range => ?_⟩
  have hfirstProper := h.canonical.lower_lt_upper _ (List.head_mem hranges)
  have hlastProper := h.canonical.lower_lt_upper _ (List.getLast_mem hranges)
  rw [Range.encloses_iff]
  constructor
  · rintro ⟨hlower, hupper⟩ cut ⟨other, hother, hcut⟩
    have hbegin := h.canonical.lower_head_le hfirst other hother
    have hend := h.canonical.upper_le_getLast hlast other hother
    exact ⟨Std.le_trans hlower (Std.le_trans hbegin hcut.1),
      Std.lt_of_lt_of_le hcut.2 (Std.le_trans hend hupper)⟩
  · intro hcovers
    have hcoversFirst : range.encloses (set.ranges.head hranges) = true := by
      rw [Range.encloses_iff_forall_covers range hfirstProper]
      intro cut hcut
      exact hcovers cut ⟨_, List.head_mem hranges, hcut⟩
    have hcoversLast : range.encloses (set.ranges.getLast hranges) = true := by
      rw [Range.encloses_iff_forall_covers range hlastProper]
      intro cut hcut
      exact hcovers cut ⟨_, List.getLast_mem hranges, hcut⟩
    rw [Range.encloses_iff] at hcoversFirst hcoversLast
    exact ⟨hcoversFirst.1, hcoversLast.2⟩

/-- A restriction to a range that encloses the span is the set itself. -/
theorem restrict_eq_self {span range : Range α} (hspan : set.span = .ok span)
    (hencloses : range.encloses span = true) (label : Nat) : set.restrict range label = set := by
  cases set with
  | empty => rfl
  | all =>
      cases hspan
      have hall : range = .all := by
        rw [Range.encloses_iff] at hencloses
        apply Range.ext
        · exact Std.le_antisymm hencloses.1 (Cut.belowAll_le _)
        · exact Std.le_antisymm (Cut.le_aboveAll _) hencloses.2
      subst hall
      rfl
  | listed list =>
      have hlist : list.listing.span? = some span := by
        cases hfound : list.listing.span? with
        | none => simp [RangeSet.span, listing, hfound] at hspan
        | some found => simpa [RangeSet.span, listing, hfound] using hspan
      rw [restrict, hlist]
      exact if_pos hencloses

/-- Any other range cuts something off a set, so it leaves another one. -/
theorem WellFormed.restrict_eq_iff (h : set.WellFormed) {span range : Range α}
    (hvalid : range.Valid) (hspan : set.span = .ok span)
    (hencloses : range.encloses span = true ↔ ∀ cut, set.Covers cut → range.Covers cut)
    (label : Nat) : set.restrict range label = set ↔ range.encloses span = true := by
  refine ⟨?_, fun henclosed => restrict_eq_self hspan henclosed label⟩
  intro hsame
  rw [hencloses]
  intro cut hcut
  have hrestricted := (Lists.restrict h hvalid label).covers_iff cut
  rw [hsame, h.canonical.covered_within hvalid] at hrestricted
  exact (hrestricted.mp hcut).2

/-- A set is shared with its copy unless the copy has to store what it was read through. -/
theorem WellFormed.copyOf_eq_iff (h : set.WellFormed) (label : Nat) :
    copyOf (.ofSet set) label = set ↔ set.isPartialView = false := by
  have hcollection : (RangeCollection.ofSet set).WellFormed := h
  constructor
  · intro hsame
    have hcopy := isPartialView_copyOf (.ofSet set) label
    rwa [hsame] at hcopy
  · intro hstored
    unfold copyOf
    split
    · rename_i hempty
      exact ((Lists.eq_empty_iff h).mpr (hcollection.isEmpty_iff.mp hempty)).symm
    · split
      · rename_i hall
        exact ((Lists.eq_all_iff h).mpr (hcollection.encloses_all_iff.mp hall)).symm
      · exact if_neg (Bool.not_eq_true _ ▸ hstored)

omit [Std.TransOrd α] [Std.LawfulEqOrd α] in
/-- One more call makes a view of a set that calls have made. -/
theorem Reachable.run (h : set.Reachable) {call : ViewCall α} (hvalid : call.Valid) :
    (call.run set).Reachable := by
  cases call with
  | complement => exact RangeCollection.Reachable.complement h
  | restrict range label => exact RangeCollection.Reachable.restrict h hvalid label

omit [Std.TransOrd α] [Std.LawfulEqOrd α] in
theorem Reachable.runAll (h : set.Reachable) {calls : List (ViewCall α)}
    (hvalid : ∀ call ∈ calls, call.Valid) : (ViewCall.runAll set calls).Reachable := by
  induction calls generalizing set with
  | nil => exact h
  | cons call rest ih =>
      have hfirst := h.run (hvalid call (by simp))
      exact ih hfirst fun other hother => hvalid other (List.mem_cons_of_mem call hother)

/-- The complement of the complement is the set itself, and so is the restriction to a range exactly
if the range encloses the span. A copy is an equal set, the same one unless the set is a view.
Neither a copy nor what is made of ranges, of a builder, of JSON or by the algebra is a view. However
many complements and restrictions are taken, a window lies directly over a stored sequence, within
it, and a read passes through no more than two descriptions. -/
theorem instance_laws (h : set.Reachable) (label : Nat) :
    (set.complement.complement.sameInstance set = true ∧
      Equivalence fun a b : RangeSet α => a.sameInstance b = true) ∧
    (set.isEmpty = false → ∃ span, set.span = .ok span ∧ ∀ range : Range α, range.Valid →
      ((set.restrict range label).sameInstance set = true ↔ range.encloses span = true)) ∧
    ((copyOf (.ofSet set) label == set) = true ∧ (copyOf (.ofSet set) label).isPartialView = false ∧
      ((copyOf (.ofSet set) label).sameInstance set = true ↔
        set.isPartialView = false)) ∧
    ((∀ range : Range α, (ofRange range label).isPartialView = false) ∧
      (∀ ranges : List (Range α), (unionOf ranges label).isPartialView = false ∧
        ∀ copy, copyOfRanges ranges label = .ok copy → copy.isPartialView = false) ∧
      (∀ (builder : Builder α) (built : RangeSet α), builder.build label = .ok built →
        built.isPartialView = false) ∧
      (∀ [JsonElement α] (json : Json) (read : RangeSet α), ofJson json label = .ok read →
        read.isPartialView = false) ∧
      ∀ other : RangeCollection α, (set.union other label).isPartialView = false ∧
        (set.intersection other label).isPartialView = false ∧
        (set.difference other label).isPartialView = false) ∧
    ∀ calls : List (ViewCall α), (∀ call ∈ calls, call.Valid) →
      (ViewCall.runAll set calls).WindowsWithin ∧ (ViewCall.runAll set calls).viewDepth ≤ 2 := by
  have hset := h.wellFormed
  have hcollection : (RangeCollection.ofSet set).WellFormed := hset
  refine ⟨⟨?_, sameInstance_equivalence⟩, ?_, ⟨?_, isPartialView_copyOf _ label, ?_⟩,
    ⟨fun range => isPartialView_ofRange range label, fun ranges => ⟨?_, fun copy => ?_⟩,
      fun builder built => ?_, ?_, fun other => ⟨?_, ?_, ?_⟩⟩, ?_⟩
  · rw [sameInstance_iff]
    exact hset.complement_complement
  · intro hne
    obtain ⟨span, hspan, hencloses⟩ := hset.exists_span hne
    refine ⟨span, hspan, fun range hvalid => ?_⟩
    rw [sameInstance_iff]
    exact hset.restrict_eq_iff hvalid hspan (hencloses range) label
  · rw [beq_iff]
    exact (lists_copyOf hcollection label).ranges_eq
  · rw [sameInstance_iff]
    exact hset.copyOf_eq_iff label
  · exact isPartialView_copyOf _ label
  · exact isPartialView_of_copyOfRanges_eq_ok
  · exact Builder.isPartialView_of_build_eq_ok
  · intro element json read
    exact isPartialView_of_ofJson_eq_ok
  · exact isPartialView_copyOf _ label
  · exact isPartialView_copyOf _ label
  · exact isPartialView_copyOf _ label
  · intro calls hvalid
    have hview := (h.runAll hvalid).wellFormed
    exact ⟨hview.windowsWithin, hview.viewDepth_le⟩

/-- The set is the complement of a window, and the calls restrict it, turn it over and restrict it
again. -/
theorem instance_laws_chain :
    let parts : RangeSet Int := .unionOf [⟨.below 1, .below 4⟩, ⟨.above 6, .above 9⟩] 1
    let gaps := (parts.restrict ⟨.below 2, .below 8⟩ 2).complement
    let calls : List (ViewCall Int) :=
      [.restrict ⟨.below 0, .above 30⟩ 3, .complement, .restrict ⟨.belowAll, .below 7⟩ 4]
    let view := ViewCall.runAll gaps calls
    gaps.complement.complement.sameInstance gaps = true ∧ (copyOf (.ofSet gaps) 5 == gaps) = true ∧
      (∃ span, gaps.span = .ok span ∧ ∀ range : Range Int, range.Valid →
        ((gaps.restrict range 5).sameInstance gaps = true ↔ range.encloses span = true)) ∧
      view.WindowsWithin ∧ view.viewDepth ≤ 2 := by
  intro parts gaps calls view
  have hparts : parts.Reachable := RangeCollection.Reachable.unionOf (by decide) 1
  have hgaps : gaps.Reachable := (hparts.restrict (by decide) 2).complement
  have hvalid : ∀ call ∈ calls, call.Valid := by decide
  obtain ⟨⟨htwice, -⟩, hspan, ⟨hcopy, -, -⟩, -, hviews⟩ := instance_laws hgaps 5
  exact ⟨htwice, hcopy, hspan (by decide +kernel), hviews calls hvalid⟩

end RangeSet

end RangeAlgebra
