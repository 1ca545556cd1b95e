import NoWait.Proofs.Ranges

/-!
# The order of index positions

Keys are in order byte by byte, and a key comes ahead of every longer one that begins with it.  Positions lie between
the entries of an index: those of one key ahead of its entries or behind them, and two at the ends.

* `Bytes.Precedes` is the order of keys, read off their bytes; `Bytes.compare_eq_lt_iff` says that it is the one by
  which keys are compared;
* `Position.before_lt_before` and its like say where positions of two keys lie, `Position.min_lt` and
  `Position.lt_max` where the ends do;
* `Bound.IsBelow` and `Bound.IsAbove` say what a bound asks of a key; `KeyRange.start_le_iff` and
  `KeyRange.lt_stop_iff` say that the two ends of a range ask the same;
* `position_order` is the order as a whole, with the tests of keys and the ends of ranges.
-/

namespace NoWait

variable {a b key : Bytes} {bound : Bound}

/-! ### Keys -/

/-- Whether a key comes ahead of another: where they first differ it has the smaller byte, or it ends there. -/
def Bytes.Precedes (a b : Bytes) : Prop := List.Lex (· < ·) a b

/-- Keys are compared by their first bytes, and if these are the same by the others. -/
theorem Bytes.compare_eq_lt_iff : compare a b = .lt ↔ a.Precedes b := by
  induction a generalizing b with
  | nil =>
    cases b with
    | nil => simp [Precedes]
    | cons y b => simp [Precedes, List.compare_nil_cons]
  | cons x a ih =>
    cases b with
    | nil => simp [Precedes, List.compare_cons_nil]
    | cons y b =>
      rw [List.compare_cons_cons, Ordering.then_eq_lt, ih, Std.compare_eq_lt, Std.LawfulEqOrd.compare_eq_iff_eq]
      constructor
      · rintro (hlt | ⟨rfl, hrest⟩)
        · exact .rel hlt
        · exact .cons hrest
      · intro hprecedes
        cases hprecedes with
        | rel hlt => exact .inl hlt
        | cons hrest => exact .inr ⟨rfl, hrest⟩

theorem Bytes.isLE_compare_iff : (compare a b).isLE = true ↔ a = b ∨ a.Precedes b := by
  rw [Ordering.isLE_iff_eq_lt_or_eq_eq, compare_eq_lt_iff, Std.LawfulEqOrd.compare_eq_iff_eq]
  exact or_comm

/-! ### Positions -/

namespace Position

variable {position : Position}

theorem before_lt_before : before a < before b ↔ a.Precedes b := Bytes.compare_eq_lt_iff

theorem after_lt_after : after a < after b ↔ a.Precedes b := Bytes.compare_eq_lt_iff

/-- Between the two positions of one key lie its entries. -/
theorem before_lt_after : before a < after b ↔ a = b ∨ a.Precedes b := by
  rw [← Bytes.isLE_compare_iff]
  show (compare a b).then .lt = .lt ↔ _
  cases compare a b <;> simp

theorem after_lt_before : after a < before b ↔ a.Precedes b := by
  rw [← Bytes.compare_eq_lt_iff]
  show (compare a b).then .gt = .lt ↔ _
  cases compare a b <;> simp

theorem min_lt (h : position ≠ min) : min < position := by
  cases position with
  | min => exact absurd rfl h
  | before | after | max => rfl

theorem lt_max (h : position ≠ max) : position < max := by
  cases position with
  | max => exact absurd rfl h
  | min | before | after => rfl

/-- Two comparisons with the same outcome, one after the other. -/
theorem compare_trans {a b c : Position} {outcome : Ordering} (hab : Ord.compare a b = outcome)
    (hbc : Ord.compare b c = outcome) : Ord.compare a c = outcome := by
  cases outcome with
  | lt => exact Std.TransCmp.lt_trans hab hbc
  | eq => exact Std.TransCmp.eq_trans hab hbc
  | gt => exact Std.TransCmp.gt_trans hab hbc

end Position

/-! ### Ranges -/

namespace Bound

/-- Whether a key satisfies a bound from which a range goes on. -/
def IsBelow (key : Bytes) : Bound → Prop
  | .unbounded => True
  | .included least => least = key ∨ least.Precedes key
  | .excluded least => least.Precedes key

/-- Whether a key satisfies a bound up to which a range goes. -/
def IsAbove (key : Bytes) : Bound → Prop
  | .unbounded => True
  | .included greatest => key = greatest ∨ key.Precedes greatest
  | .excluded greatest => key.Precedes greatest

theorem admitsAbove_iff : bound.admitsAbove key = true ↔ bound.IsBelow key := by
  cases bound with
  | unbounded => simp [admitsAbove, IsBelow]
  | included least => exact Bytes.isLE_compare_iff
  | excluded least => exact Ordering.isLT_iff_eq_lt.trans Bytes.compare_eq_lt_iff

theorem admitsBelow_iff : bound.admitsBelow key = true ↔ bound.IsAbove key := by
  cases bound with
  | unbounded => simp [admitsBelow, IsAbove]
  | included greatest => exact Bytes.isLE_compare_iff
  | excluded greatest => exact Ordering.isLT_iff_eq_lt.trans Bytes.compare_eq_lt_iff

end Bound

namespace KeyRange

theorem start_le_iff (range : KeyRange) : range.start ≤ .before key ↔ range.lower.IsBelow key := by
  rw [← Position.isAtOrBefore_iff, isAtOrBefore_start, Bound.admitsAbove_iff]

theorem lt_stop_iff (range : KeyRange) : .before key < range.stop ↔ range.upper.IsAbove key := by
  rw [← Position.isPast_iff, isPast_stop, Bound.admitsBelow_iff]

end KeyRange

/-- Positions are in a total order: comparing them is transitive, turns round with its arguments, and finds them equal
only if they are the same.  All of them lie between the two ends, and those of keys lie as the keys do, a key's entries
between its two positions.  The tests of a key against a position are comparisons with the position ahead of the key's
entries; and that one lies in the interval of a range, from its start to ahead of its end, if and only if the key
satisfies both bounds, of whatever kind they are and in whatever order. -/
theorem position_order :
    (∀ a b c : Position,
      (∀ outcome, compare a b = outcome → compare b c = outcome → compare a c = outcome) ∧
      (a ≤ b → b ≤ c → a ≤ c) ∧ (a ≤ b → b ≤ a → a = b) ∧ (a ≤ b ∨ b ≤ a) ∧
      compare b a = (compare a b).swap ∧ (compare a b = .eq ↔ a = b)) ∧
    (∀ position : Position,
      (position ≠ .min → .min < position) ∧ (position ≠ .max → position < .max)) ∧
    (∀ a b : Bytes,
      (Position.before a < .before b ↔ a.Precedes b) ∧ (Position.after a < .after b ↔ a.Precedes b) ∧
      (Position.after a < .before b ↔ a.Precedes b) ∧ (Position.before a < .after b ↔ a = b ∨ a.Precedes b)) ∧
    (∀ (position : Position) (key : Bytes),
      (position.isAtOrBefore key = true ↔ position ≤ .before key) ∧
      (position.isPast key = true ↔ .before key < position)) ∧
    ∀ (range : KeyRange) (key : Bytes), (range.start ≤ .before key ∧ .before key < range.stop) ↔
      range.lower.IsBelow key ∧ range.upper.IsAbove key := by
  refine ⟨fun a b c => ⟨fun outcome => Position.compare_trans, Std.le_trans, Std.le_antisymm, Std.le_total,
      Std.OrientedOrd.eq_swap, Std.LawfulEqOrd.compare_eq_iff_eq⟩, ?_, ?_, ?_, ?_⟩
  · exact fun position => ⟨Position.min_lt, Position.lt_max⟩
  · exact fun a b => ⟨Position.before_lt_before, Position.after_lt_after, Position.after_lt_before,
      Position.before_lt_after⟩
  · exact fun position key => ⟨position.isAtOrBefore_iff key, position.isPast_iff key⟩
  · exact fun range key => and_congr range.start_le_iff range.lt_stop_iff

/-- No key lies between a key and the same one with a zero byte behind it, and still the positions between them are
two, so that the interval of the range between them runs forward. -/
example : Position.after [7] < .before [7, 0] ∧ Position.before [7, 0] < .after [7, 0] ∧
    ({ lower := .excluded [7], upper := .excluded [7, 0] } : KeyRange).start <
      ({ lower := .excluded [7], upper := .excluded [7, 0] } : KeyRange).stop := by
  decide

end NoWait
