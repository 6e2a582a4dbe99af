import RangeAlgebra.Proofs.Json.Decoding

/-!
What is written is read back. Cuts and ranges come back as they were. A set comes back with the same
ranges, which are then stored, so it may be a different instance but is written to the same JSON.
-/

namespace RangeAlgebra

universe u

variable {α : Type u} [JsonElement α] [LawfulJsonElement α]

theorem Cut.ofJson_toJson (cut : Cut α) : Cut.ofJson cut.toJson = .ok cut :=
  (Cut.ofJson_eq_ok_iff _ cut).mpr cut.written_toJson

variable [Ord α] [DecidableEq α]

theorem Range.ofJson_toJson [Std.TransOrd α] {range : Range α} (hvalid : range.Valid) :
    Range.ofJson range.toJson = .ok range :=
  (Range.ofJson_eq_ok_iff _ range).mpr (Range.written_toJson hvalid)

omit [LawfulJsonElement α] in
theorem RangeSet.toJson_eq_of_beq {a b : RangeSet α} (h : (a == b) = true) :
    a.toJson = b.toJson := by
  rw [RangeSet.toJson, (RangeSet.beq_iff a b).mp h, RangeSet.toJson]

/-- For elements of every type, each cut, each valid range and each set that can be made is written
to JSON that denotes it, and is read back from that. The set read stores its ranges and is equal to
the one written; if it is the empty set or that of all positions it is so as a case of its own, and
it is written to the same JSON. -/
theorem json_round_trip (type : ElementType) :
    (∀ cut : Cut type.Carrier, cut.Written cut.toJson ∧ Cut.ofJson cut.toJson = .ok cut) ∧
      (∀ range : Range type.Carrier, range.Valid →
        range.Written range.toJson ∧ Range.ofJson range.toJson = .ok range) ∧
      ∀ set : RangeSet type.Carrier, set.Reachable → Range.ListWritten set.ranges set.toJson ∧
        ∀ label, ∃ read : RangeSet type.Carrier, RangeSet.ofJson set.toJson label = .ok read ∧
          (read == set) = true ∧ read.isPartialView = false ∧ (read = .empty ↔ set = .empty) ∧
          (read = .all ↔ set = .all) ∧ read.toJson = set.toJson := by
  refine ⟨fun cut => ⟨cut.written_toJson, Cut.ofJson_toJson cut⟩,
    fun range hvalid => ⟨Range.written_toJson hvalid, Range.ofJson_toJson hvalid⟩, ?_⟩
  intro set h
  have hset : set.Lists set.ranges := h.wellFormed
  refine ⟨h.wellFormed.listWritten_toJson, fun label => ?_⟩
  obtain ⟨read, hread, hform, hequal, hstored⟩ := h.wellFormed.exists_ofJson_toJson label
  have hlists : read.Lists set.ranges := (RangeSet.beq_iff read set).mp hequal ▸ hform
  refine ⟨read, hread, hequal, hstored, ?_, ?_, RangeSet.toJson_eq_of_beq hequal⟩
  · rw [hlists.eq_empty_iff, hset.eq_empty_iff]
  · rw [hlists.eq_all_iff, hset.eq_all_iff]

/-- The set is read through a window over the gaps of a stored list of texts, and its last range is
cut where the window ends. -/
theorem json_round_trip_window :
    let gaps : RangeSet String :=
      (RangeSet.unionOf [⟨.below "b", .above "d"⟩, ⟨.above "k", .above "m"⟩] 1).complement
    let window := gaps.restrict ⟨.above "a", .below "k"⟩ 2
    let range : Range String := ⟨.above "c", .above "c"⟩
    Range.ofJson range.toJson = .ok range ∧ window.isPartialView = true ∧
      Range.ListWritten window.ranges window.toJson ∧
      ∃ read, RangeSet.ofJson window.toJson 3 = .ok read ∧ (read == window) = true ∧
        read.isPartialView = false ∧ read.toJson = window.toJson := by
  intro gaps window range
  have hgaps : gaps.Reachable := RangeCollection.Reachable.complement (.unionOf (by decide) 1)
  have hwindow : window.Reachable := hgaps.restrict (by decide) 2
  obtain ⟨-, hranges, hsets⟩ := json_round_trip .text
  obtain ⟨hwritten, hreads⟩ := hsets window hwindow
  obtain ⟨read, hread, hequal, hstored, -, -, hsame⟩ := hreads 3
  exact ⟨(hranges range (by decide)).2, by decide +kernel, hwritten, read, hread, hequal, hstored,
    hsame⟩

end RangeAlgebra
