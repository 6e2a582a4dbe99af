import RangeAlgebra.Proofs.Set.Reachable

/-!
When sets are equal. Equality compares ranges read through whatever views the two sets are, and
canonical ranges are determined by the positions they cover, so equality is equality of positions
and equal sets present the same data to a hash. Elements alone do not determine a set: between two
elements with nothing between them lies a position that no element marks.
-/

namespace RangeAlgebra

universe u

variable {α : Type u} [Ord α] [DecidableEq α]

namespace RangeSet

instance : EquivBEq (RangeSet α) where
  rfl {a} := (beq_iff a a).mpr rfl
  symm {a b} h := (beq_iff b a).mpr ((beq_iff a b).mp h).symm
  trans {a b c} hab hbc := (beq_iff a c).mpr (((beq_iff a b).mp hab).trans ((beq_iff b c).mp hbc))

theorem beq_of_sameInstance {a b : RangeSet α} (h : a.sameInstance b = true) : (a == b) = true := by
  rw [eq_of_sameInstance h]
  exact BEq.rfl

end RangeSet

variable [Std.TransOrd α] [Std.LawfulEqOrd α]

namespace RangeIndex

omit [DecidableEq α] in
theorem WellFormed.eq_iff_covers {a b : RangeIndex α} (ha : a.WellFormed) (hb : b.WellFormed) :
    a = b ↔ ∀ cut, a.Covers cut ↔ b.Covers cut := by
  constructor
  · rintro rfl cut
    exact Iff.rfl
  · intro hcovers
    exact ha.filed.eq_of_ranges_eq hb.filed (ha.canonical.eq_of_covered_iff hb.canonical hcovers)

omit [DecidableEq α] [Std.TransOrd α] [Std.LawfulEqOrd α] in
/-- The ranges are all that is filed. -/
theorem WellFormed.fingerprint_eq_iff {a b : RangeIndex α} (ha : a.WellFormed)
    (hb : b.WellFormed) : a.fingerprint = b.fingerprint ↔ a = b := by
  constructor
  · intro hdata
    exact ha.filed.eq_of_ranges_eq hb.filed (congrArg Prod.snd hdata)
  · rintro rfl
    rfl

end RangeIndex

namespace RangeSet

theorem WellFormed.beq_iff_covers {a b : RangeSet α} (ha : a.WellFormed) (hb : b.WellFormed) :
    (a == b) = true ↔ ∀ cut, a.Covers cut ↔ b.Covers cut := by
  refine ⟨fun hequal cut => ?_, beq_of_covers_iff ha hb⟩
  rw [Covers, (beq_iff a b).mp hequal, Covers]

/-- The number of ranges is the length of the sequence, so equal sequences are counted alike. -/
theorem WellFormed.fingerprint_eq_iff {a b : RangeSet α} (ha : a.WellFormed) (hb : b.WellFormed) :
    a.fingerprint = b.fingerprint ↔ (a == b) = true := by
  rw [beq_iff]
  constructor
  · exact fun hdata => congrArg Prod.snd hdata
  · intro hranges
    rw [fingerprint, fingerprint, Lists.rangeCount_eq ha, Lists.rangeCount_eq hb, hranges]

/-- Between two neighbouring elements lies a position, and no element. -/
theorem not_contains_ofRange_between {lower upper : α} (hlt : compare lower upper = .lt)
    (hnext : ∀ value, compare lower value = .lt → ¬ compare value upper = .lt) (label : Nat) :
    let between : RangeSet α := ofRange ⟨.above lower, .below upper⟩ label
    (between == .empty) = false ∧ ∀ value, between.contains value = false := by
  intro between
  have hproper := (Cut.above_lt_below_iff lower upper).mpr hlt
  have hvalid : (⟨.above lower, .below upper⟩ : Range α).Valid := Range.valid_of_lt hproper
  have hlists := lists_ofRange hvalid label
  have hcovers := covers_ofRange_iff hvalid label
  constructor
  · rw [← Bool.not_eq_true, hlists.wellFormed.beq_iff_covers Lists.empty.wellFormed]
    intro hsame
    have hcut := (hsame (.above lower)).mp ((hcovers _).mpr ⟨Std.le_refl _, hproper⟩)
    rw [Lists.empty.covers_iff] at hcut
    exact Range.not_covered_nil _ hcut
  · intro value
    rw [← Bool.not_eq_true, hlists.contains_iff, ← hlists.covers_iff, hcovers]
    rintro ⟨hlower, hupper⟩
    exact hnext value ((Cut.above_le_below_iff lower value).mp hlower) hupper

/-- Sets are equal exactly when they cover the same positions. Equality is an equivalence that
being the same instance implies, and exactly equal sets present the same data to a hash. Indexes are
equal and hashed by the same rule. Elements would not do: the positions between two neighbours make
a set that is not empty and contains none. -/
theorem beq_extensional {a b : RangeSet α} (ha : a.Reachable) (hb : b.Reachable) :
    ((a == b) = true ↔ ∀ cut, a.Covers cut ↔ b.Covers cut) ∧
      (Equivalence fun set other : RangeSet α => (set == other) = true) ∧
      (a.sameInstance b = true → (a == b) = true) ∧
      (a.fingerprint = b.fingerprint ↔ (a == b) = true) ∧
      ((a == b) = true → ∀ [Hashable α], hash a = hash b) ∧
      (∀ index other : RangeIndex α, index.Reachable → other.Reachable →
        ((index == other) = true ↔ ∀ cut, index.Covers cut ↔ other.Covers cut) ∧
          (index.fingerprint = other.fingerprint ↔ (index == other) = true) ∧
          ((index == other) = true → index.byLowerCut.entries = other.byLowerCut.entries ∧
            ∀ [Hashable α], hash index = hash other)) ∧
      ∀ lower upper : α, compare lower upper = .lt →
        (∀ value, compare lower value = .lt → ¬ compare value upper = .lt) → ∀ label,
          (ofRange ⟨.above lower, .below upper⟩ label == .empty) = false ∧
            ∀ value, (ofRange ⟨.above lower, .below upper⟩ label).contains value = false := by
  have hdata := ha.wellFormed.fingerprint_eq_iff hb.wellFormed
  refine ⟨ha.wellFormed.beq_iff_covers hb.wellFormed, ⟨fun _ => BEq.rfl, BEq.symm, BEq.trans⟩,
    beq_of_sameInstance, hdata, ?_, ?_, fun _ _ => not_contains_ofRange_between⟩
  · intro hequal _
    change hash a.fingerprint = hash b.fingerprint
    rw [hdata.mpr hequal]
  · intro index other hindex hother
    rw [beq_iff_eq]
    refine ⟨hindex.wellFormed.eq_iff_covers hother.wellFormed,
      hindex.wellFormed.fingerprint_eq_iff hother.wellFormed, ?_⟩
    rintro rfl
    exact ⟨rfl, rfl⟩

/-- A window over a stored list and the complement of what surrounds it are equal without being the
same instance. Nothing lies between 1 and 2 but a position. -/
theorem beq_extensional_window :
    let parts : RangeSet Int := .unionOf [⟨.below 1, .below 4⟩, ⟨.above 6, .above 9⟩] 1
    let window := parts.restrict ⟨.below 2, .below 8⟩ 2
    let around : RangeSet Int :=
      .unionOf [⟨.belowAll, .below 2⟩, ⟨.below 4, .above 6⟩, ⟨.below 8, .aboveAll⟩] 3
    (∀ cut, window.Covers cut ↔ around.complement.Covers cut) ∧
      window.sameInstance around.complement = false ∧
      window.fingerprint = around.complement.fingerprint ∧
      (ofRange (⟨.above 1, .below 2⟩ : Range Int) == .empty) = false := by
  intro parts window around
  have hparts : parts.Reachable := RangeCollection.Reachable.unionOf (by decide) 1
  have hwindow : window.Reachable := hparts.restrict (by decide) 2
  have haround : around.Reachable := RangeCollection.Reachable.unionOf (by decide) 3
  have hequal : (window == around.complement) = true := by decide +kernel
  obtain ⟨hcovers, -, -, hdata, -, -, hbetween⟩ := beq_extensional hwindow haround.complement
  refine ⟨hcovers.mp hequal, by decide +kernel, hdata.mpr hequal, (hbetween 1 2 rfl ?_ 0).1⟩
  intro value hlower hupper
  rw [Std.compare_eq_lt] at hlower hupper
  omega

end RangeSet

end RangeAlgebra
