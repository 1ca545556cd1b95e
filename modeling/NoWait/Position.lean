import NoWait.Bytes

/-!
# Positions in an index, and ranges of keys

A position lies between the entries of an index: `before k` ahead of every entry with key `k`,
`after k` behind them, and `min` and `max` at the two open ends.  A position is named by a key and not
by a place in a list, so it stays where it is while entries come and go.

* `Position.compare` orders positions as they lie in key order; `compare_eq_compareLex` takes it apart, and the
  instances behind it say that the order is linear;
* `isAtOrBefore` and `isPast` compare a position with `before k` without building one;
* a `KeyRange` is a pair of bounds, and `KeyRange.start` and `KeyRange.stop` are the half-open
  interval of positions that holds exactly the keys the bounds admit.
-/

namespace NoWait

/-- A place between the entries of an index. -/
inductive Position where
  | min
  | before (key : Bytes)
  | after (key : Bytes)
  | max
  deriving DecidableEq, Inhabited, Repr

namespace Position

/-- The order of positions: by key, and at one key `before` ahead of `after`. -/
protected def compare : Position → Position → Ordering
  | .min, .min => .eq
  | .min, _ => .lt
  | _, .min => .gt
  | .max, .max => .eq
  | .max, _ => .gt
  | _, .max => .lt
  | .before a, .before b => Ord.compare a b
  | .after a, .after b => Ord.compare a b
  | .before a, .after b => (Ord.compare a b).then .lt
  | .after a, .before b => (Ord.compare a b).then .gt

instance : Ord Position := ⟨Position.compare⟩

instance : LT Position := ltOfOrd

instance : LE Position := leOfOrd

/-! ### The order is a linear one -/

/-- The end at which a position lies, or the middle. -/
def side : Position → Nat
  | .min => 0
  | .before _ | .after _ => 1
  | .max => 2

/-- The key by which a position is named, if it does not lie at an end. -/
def key? : Position → Option Bytes
  | .min | .max => none
  | .before key | .after key => some key

/-- Whether a position lies behind the entries with its key. -/
def isBehind : Position → Bool
  | .after _ => true
  | _ => false

theorem ext_iff {a b : Position} : a = b ↔ a.side = b.side ∧ a.key? = b.key? ∧ a.isBehind = b.isBehind := by
  cases a <;> cases b <;> simp [side, key?, isBehind]

/-- Positions are in order by side, then by key, and at one key as they lie before or behind its entries. -/
theorem compare_eq_compareLex : Position.compare =
    compareLex (compareOn side) (compareLex (compareOn key?) (compareOn isBehind)) := by
  funext a b
  cases a <;> cases b <;> first | rfl | exact Ordering.then_eq.symm

instance : Std.TransOrd Position := by
  show Std.TransCmp Position.compare
  rw [compare_eq_compareLex]
  infer_instance

instance : Std.LawfulEqOrd Position where
  eq_of_compare {a b} h := by
    have hlex : compareLex (compareOn side) (compareLex (compareOn key?) (compareOn isBehind)) a b = .eq :=
      compare_eq_compareLex ▸ h
    obtain ⟨hside, hrest⟩ := compareLex_eq_eq.mp hlex
    obtain ⟨hkey, hbehind⟩ := compareLex_eq_eq.mp hrest
    exact ext_iff.mpr ⟨Std.LawfulEqOrd.eq_of_compare hside, Std.LawfulEqOrd.eq_of_compare hkey,
      Std.LawfulEqOrd.eq_of_compare hbehind⟩

instance : Std.LawfulOrderOrd Position where
  isLE_compare _ _ := Iff.rfl
  isGE_compare a b := by
    rw [Std.OrientedOrd.eq_swap (a := a), Ordering.isGE_swap]
    exact Iff.rfl

instance : Std.IsLinearOrder Position := .of_ord

instance : Std.LawfulOrderLT Position := .of_ord Position fun _ _ => Iff.rfl

/-! ### Keys and positions -/

/-- Whether the position lies at `before key` or ahead of it. -/
def isAtOrBefore (position : Position) (key : Bytes) : Bool :=
  match position with
  | .min => true
  | .before k => (Ord.compare k key).isLE
  | .after k => (Ord.compare k key).isLT
  | .max => false

/-- Whether the position lies behind `before key`. -/
def isPast (position : Position) (key : Bytes) : Bool :=
  match position with
  | .min => false
  | .before k => (Ord.compare key k).isLT
  | .after k => (Ord.compare key k).isLE
  | .max => true

/-- The text of a position: the key in hexadecimal with a mark on the side where the position lies. -/
def text : Position → String
  | .min => "-inf"
  | .before key => "<" ++ key.toHex
  | .after key => key.toHex ++ ">"
  | .max => "+inf"

end Position

/-- One end of a range of keys. -/
inductive Bound where
  | unbounded
  | included (key : Bytes)
  | excluded (key : Bytes)
  deriving DecidableEq, Inhabited, Repr

namespace Bound

/-- Whether a key satisfies the bound as a lower end. -/
def admitsAbove (bound : Bound) (key : Bytes) : Bool :=
  match bound with
  | .unbounded => true
  | .included l => (compare l key).isLE
  | .excluded l => (compare l key).isLT

/-- Whether a key satisfies the bound as an upper end. -/
def admitsBelow (bound : Bound) (key : Bytes) : Bool :=
  match bound with
  | .unbounded => true
  | .included u => (compare key u).isLE
  | .excluded u => (compare key u).isLT

end Bound

/-- The keys between a lower and an upper bound. -/
structure KeyRange where
  lower : Bound := .unbounded
  upper : Bound := .unbounded
  deriving DecidableEq, Inhabited, Repr

namespace KeyRange

/-- Whether a key satisfies both bounds. -/
def contains (range : KeyRange) (key : Bytes) : Bool :=
  range.lower.admitsAbove key && range.upper.admitsBelow key

/-- The position where the range begins. -/
def start (range : KeyRange) : Position :=
  match range.lower with
  | .unbounded => .min
  | .included key => .before key
  | .excluded key => .after key

/-- The position where the range ends. -/
def stop (range : KeyRange) : Position :=
  match range.upper with
  | .unbounded => .max
  | .included key => .after key
  | .excluded key => .before key

end KeyRange

end NoWait
