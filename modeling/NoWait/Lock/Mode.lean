/-!
# Lock modes

Five modes can be requested on a table or a record: intention to read (`IS`) or to write (`IX`) a
part of it, shared (`S`), shared with the intention to write a part (`SIX`), and exclusive (`X`).

* `Mode.compatible` says which modes two transactions may hold together;
* `Mode.join` is the weakest mode that grants what both arguments grant;
* `Mode.covers` asks whether a held mode already grants what is requested, through `join` alone;
* a `GroupMode` sums up the modes granted on one resource: their join, or nothing.
-/

namespace NoWait

/-- What a transaction may do with a resource and its parts. -/
inductive Mode where
  | intentionShared
  | intentionExclusive
  | shared
  | sharedIntentionExclusive
  | exclusive
  deriving DecidableEq, Inhabited, Repr

namespace Mode

/-- Every mode, in the order in which the compatibility table is laid out. -/
def all : List Mode :=
  [.intentionShared, .intentionExclusive, .shared, .sharedIntentionExclusive, .exclusive]

theorem mem_all (mode : Mode) : mode ∈ all := by cases mode <;> decide

/-- Whether another transaction may hold `requested` while `held` is granted. -/
def compatible (held requested : Mode) : Bool :=
  match held with
  | .intentionShared => requested ≠ .exclusive
  | .intentionExclusive => requested = .intentionShared ∨ requested = .intentionExclusive
  | .shared => requested = .intentionShared ∨ requested = .shared
  | .sharedIntentionExclusive => requested = .intentionShared
  | .exclusive => false

/-- The weakest mode that is at least as strong as both. -/
def join (a b : Mode) : Mode :=
  match a, b with
  | .intentionShared, m => m
  | m, .intentionShared => m
  | .exclusive, _ => .exclusive
  | _, .exclusive => .exclusive
  | .intentionExclusive, .intentionExclusive => .intentionExclusive
  | .shared, .shared => .shared
  | _, _ => .sharedIntentionExclusive

/-- Whether holding `held` already grants everything `requested` would. -/
def covers (held requested : Mode) : Bool := held.join requested = held

/-- The mode that a request on a record implies on its table. -/
def intention : Mode → Mode
  | .intentionShared | .shared => .intentionShared
  | .intentionExclusive | .sharedIntentionExclusive | .exclusive => .intentionExclusive

/-- The usual abbreviation of a mode. -/
def text : Mode → String
  | .intentionShared => "IS"
  | .intentionExclusive => "IX"
  | .shared => "S"
  | .sharedIntentionExclusive => "SIX"
  | .exclusive => "X"

/-! ### Laws of the two tables -/

theorem compatible_comm (a b : Mode) : a.compatible b = b.compatible a := by
  cases a <;> cases b <;> rfl

theorem join_comm (a b : Mode) : a.join b = b.join a := by
  cases a <;> cases b <;> rfl

theorem join_assoc (a b c : Mode) : (a.join b).join c = a.join (b.join c) := by
  cases a <;> cases b <;> cases c <;> rfl

theorem join_self (a : Mode) : a.join a = a := by
  cases a <;> rfl

/-- What is compatible with a join is what is compatible with both parts. -/
theorem join_compatible (a b c : Mode) :
    (a.join b).compatible c = (a.compatible c && b.compatible c) := by
  cases a <;> cases b <;> cases c <;> rfl

end Mode

/-- The join of the modes granted on one resource, or nothing when none is granted. -/
abbrev GroupMode := Option Mode

namespace GroupMode

/-- The group after one more grant. -/
def join (group : GroupMode) (mode : Mode) : GroupMode :=
  match group with
  | none => some mode
  | some m => some (m.join mode)

/-- Whether a new request can be granted alongside the group. -/
def admits (group : GroupMode) (requested : Mode) : Bool :=
  match group with
  | none => true
  | some m => m.compatible requested

/-- The text of a group: its mode, or a word for none. -/
def text : GroupMode → String
  | none => "NON_LOCK"
  | some mode => mode.text

end GroupMode

end NoWait
