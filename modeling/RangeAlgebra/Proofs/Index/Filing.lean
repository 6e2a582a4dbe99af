import RangeAlgebra.Proofs.Canonical.Neighbours

/-!
How an index files its ranges. The entries of the map stand in the order of their keys, and the
key of an entry is the lower cut of its range, so a look-up by key is a look-up among the ranges
by their starts. Filing a range and erasing a stretch of keys change which ranges are there and
keep this order; whether the ranges are canonical is a matter of which ones are filed.
-/

namespace RangeAlgebra

universe u v

namespace OrderedMap

variable {κ : Type u} {ν : Type v} [LE κ] [LT κ] [DecidableLT κ]
  [Std.LawfulOrderLT κ] [Std.IsLinearOrder κ]

theorem mem_insertEntry_iff (key : κ) (value : ν) {entries : List (κ × ν)}
    (hsorted : entries.Pairwise fun a b => a.1 < b.1) (entry : κ × ν) :
    entry ∈ insertEntry key value entries ↔
      entry = (key, value) ∨ entry ∈ entries ∧ entry.1 ≠ key := by
  induction entries with
  | nil => simp [insertEntry]
  | cons first rest ih =>
      obtain ⟨hfirst, hrest⟩ := List.pairwise_cons.mp hsorted
      rw [insertEntry]
      split
      · simp only [List.mem_cons]
        grind
      · split
        · rw [List.mem_cons, ih hrest, List.mem_cons]
          grind
        · simp only [List.mem_cons]
          grind

theorem insertEntry_sorted (key : κ) (value : ν) {entries : List (κ × ν)}
    (hsorted : entries.Pairwise fun a b => a.1 < b.1) :
    (insertEntry key value entries).Pairwise fun a b => a.1 < b.1 := by
  induction entries with
  | nil => exact List.pairwise_singleton _ _
  | cons first rest ih =>
      obtain ⟨hfirst, hrest⟩ := List.pairwise_cons.mp hsorted
      rw [insertEntry]
      split
      · rw [List.pairwise_cons]
        refine ⟨?_, hsorted⟩
        intro entry hentry
        rcases List.mem_cons.mp hentry with rfl | hentry
        · assumption
        · have hlt := hfirst entry hentry
          grind
      · split
        · rw [List.pairwise_cons]
          refine ⟨?_, ih hrest⟩
          intro entry hentry
          rcases (mem_insertEntry_iff key value hrest entry).mp hentry with rfl | hentry
          · assumption
          · exact hfirst entry hentry.1
        · rw [List.pairwise_cons]
          refine ⟨?_, hrest⟩
          intro entry hentry
          have hlt := hfirst entry hentry
          grind

/-- A key above all others goes to the end. -/
theorem insertEntry_eq_append (key : κ) (value : ν) {entries : List (κ × ν)}
    (hbelow : ∀ entry ∈ entries, entry.1 < key) :
    insertEntry key value entries = entries ++ [(key, value)] := by
  induction entries with
  | nil => rfl
  | cons first rest ih =>
      have hfirst := hbelow first (by simp)
      have hnot : ¬ key < first.1 := by grind
      rw [insertEntry, if_neg hnot, if_pos hfirst, ih fun entry hentry => hbelow entry (by
        simp [hentry])]
      rfl

end OrderedMap

namespace RangeIndex

variable {α : Type u} [Ord α]

/-- The ranges stand in the order of their lower cuts and are filed under them. -/
structure Filed (index : RangeIndex α) : Prop where
  key_eq : ∀ entry ∈ index.byLowerCut.entries, entry.1 = entry.2.lower
  sorted : index.byLowerCut.entries.Pairwise fun a b => a.1 < b.1

theorem filed_empty : (∅ : RangeIndex α).Filed :=
  ⟨fun _ hentry => absurd hentry List.not_mem_nil, List.Pairwise.nil⟩

theorem Filed.ascending {index : RangeIndex α} (h : index.Filed) :
    index.ranges.Pairwise fun a b => a.lower < b.lower := by
  rw [ranges, OrderedMap.values, List.pairwise_map]
  refine h.sorted.imp_of_mem ?_
  intro a b ha hb hab
  rwa [← h.key_eq a ha, ← h.key_eq b hb]

/-- The ranges say what the entries are. -/
theorem Filed.entries_eq {index : RangeIndex α} (h : index.Filed) :
    index.byLowerCut.entries = index.ranges.map fun range => (range.lower, range) := by
  rw [ranges, OrderedMap.values, List.map_map]
  refine (List.map_id _).symm.trans (List.map_congr_left ?_)
  intro entry hentry
  change entry = (entry.2.lower, entry.2)
  rw [← h.key_eq entry hentry]

theorem Filed.eq_of_ranges_eq {a b : RangeIndex α} (ha : a.Filed) (hb : b.Filed)
    (hranges : a.ranges = b.ranges) : a = b := by
  have hentries : a.byLowerCut.entries = b.byLowerCut.entries := by
    rw [ha.entries_eq, hb.entries_eq, hranges]
  obtain ⟨⟨entries⟩⟩ := a
  obtain ⟨⟨entries'⟩⟩ := b
  rw [show entries = entries' from hentries]

/-- Choosing entries by their keys is choosing ranges by their lower cuts. -/
theorem Filed.map_filter_key {index : RangeIndex α} (h : index.Filed) (p : Cut α → Bool) :
    (index.byLowerCut.entries.filter fun entry => p entry.1).map Prod.snd =
      index.ranges.filter fun range => p range.lower := by
  rw [ranges, OrderedMap.values, List.filter_map]
  congr 1
  apply List.filter_congr
  intro entry hentry
  rw [h.key_eq entry hentry]
  rfl

theorem Filed.before?_eq {index : RangeIndex α} (h : index.Filed) (key : Cut α) :
    index.byLowerCut.before? key = Range.lastStarting? (· < key) index.ranges := by
  rw [OrderedMap.before?, Range.lastStarting?, ← h.map_filter_key (· < key), List.getLast?_map]

theorem Filed.upTo?_eq {index : RangeIndex α} (h : index.Filed) (key : Cut α) :
    index.byLowerCut.upTo? key = Range.lastStarting? (· ≤ key) index.ranges := by
  rw [OrderedMap.upTo?, Range.lastStarting?, ← h.map_filter_key (· ≤ key), List.getLast?_map]

theorem Filed.from?_eq {index : RangeIndex α} (h : index.Filed) (key : Cut α) :
    index.byLowerCut.from? key = Range.firstStarting? (key ≤ ·) index.ranges := by
  rw [OrderedMap.from?, Range.firstStarting?, ← List.head?_filter, ← List.head?_filter,
    ← h.map_filter_key (key ≤ ·), List.head?_map]

theorem Filed.eraseWithin {index : RangeIndex α} (h : index.Filed) (range : Range α) :
    (index.eraseWithin range).Filed := by
  constructor
  · intro entry hentry
    exact h.key_eq entry (List.mem_filter.mp hentry).1
  · exact h.sorted.filter _

theorem Filed.mem_eraseWithin_iff {index : RangeIndex α} (h : index.Filed) (range : Range α)
    (stored : Range α) :
    stored ∈ (index.eraseWithin range).ranges ↔
      stored ∈ index.ranges ∧ ¬ (range.lower ≤ stored.lower ∧ stored.lower < range.upper) := by
  have hmap := h.map_filter_key fun key => !(range.lower ≤ key && key < range.upper)
  change stored ∈ (index.byLowerCut.entries.filter _).map Prod.snd ↔ _
  rw [hmap, List.mem_filter, Bool.not_eq_true', ← Bool.not_eq_true, Bool.and_eq_true,
    decide_eq_true_eq, decide_eq_true_eq]

variable [Std.TransOrd α] [Std.LawfulEqOrd α]

theorem Filed.file {index : RangeIndex α} (h : index.Filed) (range : Range α) :
    (index.file range).Filed := by
  constructor
  · intro entry hentry
    rcases (OrderedMap.mem_insertEntry_iff _ _ h.sorted entry).mp hentry with rfl | hentry
    · rfl
    · exact h.key_eq entry hentry.1
  · exact OrderedMap.insertEntry_sorted _ _ h.sorted

/-- A filed range takes the place of the one with the same start. -/
theorem Filed.mem_file_iff {index : RangeIndex α} (h : index.Filed) (range stored : Range α) :
    stored ∈ (index.file range).ranges ↔
      stored = range ∨ stored ∈ index.ranges ∧ stored.lower ≠ range.lower := by
  simp only [ranges, OrderedMap.values, List.mem_map, RangeIndex.file, OrderedMap.insert,
    OrderedMap.mem_insertEntry_iff _ _ h.sorted]
  constructor
  · rintro ⟨entry, rfl | ⟨hentry, hkey⟩, rfl⟩
    · exact Or.inl rfl
    · rw [h.key_eq entry hentry] at hkey
      exact Or.inr ⟨⟨entry, hentry, rfl⟩, hkey⟩
  · rintro (rfl | ⟨⟨entry, hentry, rfl⟩, hkey⟩)
    · exact ⟨_, Or.inl rfl, rfl⟩
    · rw [← h.key_eq entry hentry] at hkey
      exact ⟨entry, Or.inr ⟨hentry, hkey⟩, rfl⟩

omit [Std.LawfulEqOrd α] in
/-- The ranges of an index are known by what is among them. -/
theorem Filed.eq_of_mem_iff {a b : RangeIndex α} (ha : a.Filed) (hb : b.Filed)
    (hmem : ∀ range, range ∈ a.ranges ↔ range ∈ b.ranges) : a = b := by
  have hnodup : ∀ {index : RangeIndex α}, index.Filed → index.ranges.Nodup := by
    intro index h
    refine h.ascending.imp ?_
    rintro range _ hlt rfl
    exact Std.lt_irrefl hlt
  apply ha.eq_of_ranges_eq hb
  apply List.Perm.eq_of_pairwise _ ha.ascending hb.ascending
  · exact (List.perm_ext_iff_of_nodup (hnodup ha) (hnodup hb)).mpr hmem
  · intro range other _ _ hlt hgt
    exact absurd hgt (Std.not_lt.mpr (Std.le_of_lt hlt))

/-- Filing a range twice is filing it the second time. -/
theorem Filed.file_twice {index : RangeIndex α} (h : index.Filed) (range other : Range α) :
    ((index.file range).file other).file range = (index.file other).file range := by
  apply (((h.file range).file other).file range).eq_of_mem_iff ((h.file other).file range)
  intro stored
  rw [((h.file range).file other).mem_file_iff, (h.file range).mem_file_iff, h.mem_file_iff,
    (h.file other).mem_file_iff, h.mem_file_iff]
  grind

/-- Ranges that start one after the other, and after all that are there, are filed at the end. -/
theorem Filed.foldl_file {index : RangeIndex α} (h : index.Filed) (added : List (Range α))
    (hsorted : (index.ranges ++ added).Pairwise fun a b => a.lower < b.lower) :
    (added.foldl RangeIndex.file index).Filed ∧
      (added.foldl RangeIndex.file index).ranges = index.ranges ++ added := by
  induction added generalizing index with
  | nil => exact ⟨h, (List.append_nil _).symm⟩
  | cons range rest ih =>
      have hranges : (index.file range).ranges = index.ranges ++ [range] := by
        have hbelow : ∀ entry ∈ index.byLowerCut.entries, entry.1 < range.lower := by
          intro entry hentry
          rw [h.key_eq entry hentry]
          exact (List.pairwise_append.mp hsorted).2.2 entry.2
            (List.mem_map_of_mem hentry) range (by simp)
        simp only [ranges, OrderedMap.values, RangeIndex.file, OrderedMap.insert,
          OrderedMap.insertEntry_eq_append _ _ hbelow, List.map_append, List.map_cons,
          List.map_nil]
      have hnext := ih (h.file range) (by rwa [hranges, List.append_assoc])
      rw [hranges, List.append_assoc] at hnext
      exact hnext

end RangeIndex

end RangeAlgebra
