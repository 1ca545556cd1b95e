import NoWait.Proofs.Rows
import NoWait.Gap

/-!
# What an index lists in a range of keys

The entries of an index are in ascending order, so cutting them off at the two ends of a range leaves the
entries with keys in the range.  In a sound table these are the rows with keys in the range.

* `KeyIndex.ridsBetween_eq` says so for an index, `Table.Sound.mem_entries` for the rows of a table;
* `Gap.contains_range` says that the gap of a range holds the positions of the keys in the range.
-/

namespace NoWait

/-! ### Positions and ranges -/

namespace Position

variable {position : Position} {a b : Bytes}

theorem isPast_of_le (hab : (compare a b).isLE = true) (h : position.isPast b = true) :
    position.isPast a = true := by
  cases position with
  | min => cases h
  | before key =>
    simp only [isPast, Ordering.isLT_iff_eq_lt] at h ⊢
    exact Std.TransCmp.lt_of_isLE_of_lt hab h
  | after key =>
    simp only [isPast] at h ⊢
    exact Std.TransCmp.isLE_trans hab h
  | max => rfl

theorem isAtOrBefore_of_le (hab : (compare a b).isLE = true) (h : position.isAtOrBefore a = true) :
    position.isAtOrBefore b = true := by
  cases position with
  | min => rfl
  | before key =>
    simp only [isAtOrBefore] at h ⊢
    exact Std.TransCmp.isLE_trans h hab
  | after key =>
    simp only [isAtOrBefore, Ordering.isLT_iff_eq_lt] at h ⊢
    exact Std.TransCmp.lt_of_lt_of_isLE h hab
  | max => cases h

theorem isAtOrBefore_iff (position : Position) (key : Bytes) :
    position.isAtOrBefore key = true ↔ position ≤ .before key := by
  cases position with
  | min => exact ⟨fun _ => rfl, fun _ => rfl⟩
  | before k => exact Iff.rfl
  | after k =>
    show (compare k key).isLT = true ↔ ((compare k key).then .gt).isLE = true
    cases compare k key <;> simp
  | max => exact ⟨fun h => (by cases h), fun h => (by cases h)⟩

theorem isPast_iff (position : Position) (key : Bytes) :
    position.isPast key = true ↔ .before key < position := by
  cases position with
  | min => exact ⟨fun h => (by cases h), fun h => (by cases h)⟩
  | before k => exact Ordering.isLT_iff_eq_lt
  | after k =>
    show (compare key k).isLE = true ↔ (compare key k).then .lt = .lt
    cases compare key k <;> simp
  | max => exact ⟨fun _ => rfl, fun _ => rfl⟩

end Position

namespace KeyRange

theorem isAtOrBefore_start (range : KeyRange) (key : Bytes) :
    range.start.isAtOrBefore key = range.lower.admitsAbove key := by
  unfold start
  cases range.lower <;> rfl

theorem isPast_stop (range : KeyRange) (key : Bytes) :
    range.stop.isPast key = range.upper.admitsBelow key := by
  unfold stop
  cases range.upper <;> rfl

end KeyRange

/-- The gap of a range holds the positions of the keys in the range. -/
theorem Gap.contains_range (txn : TxnId) (range : KeyRange) (key : Bytes) :
    ({ txn, start := range.start, stop := range.stop } : Gap).contains (.before key) =
      range.contains key := by
  rw [Bool.eq_iff_iff, Gap.contains, KeyRange.contains, ← range.isAtOrBefore_start, ← range.isPast_stop]
  simp only [Bool.and_eq_true, decide_eq_true_eq, Position.isAtOrBefore_iff, Position.isPast_iff]

/-! ### The positions that an index lists -/

theorem IndexEntry.compare_fst {a b : IndexEntry} (h : (IndexEntry.compare a b).isLE = true) :
    (Ord.compare a.1 b.1).isLE = true := by
  unfold IndexEntry.compare compareLex compareOn at h
  cases hkey : Ord.compare a.1 b.1 with
  | lt => rfl
  | eq => rfl
  | gt =>
    rw [hkey] at h
    cases h

/-- Between two positions an index lists the entries that the first does not lie behind and the second does. -/
theorem KeyIndex.ridsBetween_eq_filter (index : KeyIndex) (start stop : Position) :
    index.ridsBetween start stop =
      (index.entries.filter fun entry => start.isAtOrBefore entry.1 && stop.isPast entry.1).map (·.2) := by
  have hpast : index.entries.Pairwise fun a b => stop.isPast b.1 = true → stop.isPast a.1 = true :=
    index.pairwise_entries.imp fun hab => Position.isPast_of_le (IndexEntry.compare_fst hab)
  have hbehind : index.entries.Pairwise fun a b =>
      (!start.isAtOrBefore b.1) = true → (!start.isAtOrBefore a.1) = true := by
    refine index.pairwise_entries.imp fun {a b} hab hb => ?_
    rw [Bool.not_eq_true', Bool.eq_false_iff] at hb ⊢
    exact fun ha => hb (Position.isAtOrBefore_of_le (IndexEntry.compare_fst hab) ha)
  rw [ridsBetween, ridsAt_eq, Bisect.drop_take_partitionPoint hpast hbehind]
  simp only [Bool.not_not, Bool.and_comm]

/-- Between the two ends of a range an index lists the positions of its entries in the range. -/
theorem KeyIndex.ridsBetween_eq (index : KeyIndex) (range : KeyRange) :
    index.ridsBetween range.start range.stop =
      (index.entries.filter fun entry => range.contains entry.1).map (·.2) := by
  rw [ridsBetween_eq_filter]
  congr 1
  refine List.filter_congr fun entry _ => ?_
  rw [KeyRange.contains, KeyRange.isAtOrBefore_start, KeyRange.isPast_stop]

/-- The entries of a sound table are its rows under their keys, each once. -/
theorem Table.Sound.mem_entries {table : Table} (h : table.Sound) {index : TableIndex}
    (hindex : table.index = some index) (key : Bytes) (rid : Rid) :
    (key, rid) ∈ index.keys.entries ↔ (table.heap.row? rid).bind table.keyOf? = some key := by
  have hcount := h.index key rid
  simp only [Table.entryCount, hindex, Option.map_some, Option.getD_some] at hcount
  rw [← List.count_pos_iff, KeyIndex.count_entries, hcount]
  split
  · rename_i hkey
    simp [hkey]
  · rename_i hkey
    simp [hkey]

theorem Table.Sound.nodup_entries {table : Table} (h : table.Sound) {index : TableIndex}
    (hindex : table.index = some index) : index.keys.entries.Nodup := by
  rw [List.nodup_iff_count]
  rintro ⟨key, rid⟩
  have hcount := h.index key rid
  simp only [Table.entryCount, hindex, Option.map_some, Option.getD_some] at hcount
  rw [KeyIndex.count_entries, hcount]
  split
  · exact Nat.le_refl 1
  · exact Nat.zero_le 1

end NoWait
