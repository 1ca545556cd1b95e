import NoWait.Lock.Resource
import NoWait.Position

/-!
# Gap locks: key ranges that others may not write into

A gap lock holds a half-open interval of index positions `[start, stop)` for one transaction, so that
no other transaction can bring a key into a range that has been read.

* `Gap.contains` and `Gap.overlaps` are the two tests; an interval that does not run forward holds no
  position and overlaps nothing;
* `GapTable.lock?` adds a gap unless it overlaps one of another transaction;
* `GapTable.blocks` asks whether a position lies in a gap of another transaction.
-/

namespace NoWait

/-- The interval `[start, stop)` of index positions, held by one transaction. -/
structure Gap where
  txn : TxnId
  start : Position
  stop : Position
  deriving DecidableEq, Inhabited, Repr

namespace Gap

/-- Whether the interval does not run forward, so that it holds no position. -/
def isEmpty (gap : Gap) : Bool := gap.stop ≤ gap.start

/-- Whether the gap shares a stretch with `[start, stop)`; a common end point is not enough. -/
def overlaps (gap : Gap) (start stop : Position) : Bool :=
  !gap.isEmpty && start < stop && gap.start < stop && start < gap.stop

/-- Whether a position lies in the gap. -/
def contains (gap : Gap) (position : Position) : Bool :=
  gap.start ≤ position && position < gap.stop

end Gap

/-- The gaps held on all tables, in the order in which they were locked. -/
structure GapTable where
  entries : List (TableId × Gap) := []
  deriving DecidableEq, Inhabited, Repr

namespace GapTable

/-- The gaps held on one table, in the order in which they were locked. -/
def gaps (gaps : GapTable) (table : TableId) : List Gap :=
  gaps.entries.filterMap fun entry => if entry.1 = table then some entry.2 else none

/-- Whether a position of a table's index lies in a gap of a transaction other than `txn`. -/
def blocks (gaps : GapTable) (txn : TxnId) (table : TableId) (position : Position) : Bool :=
  (gaps.gaps table).any fun gap => gap.txn ≠ txn && gap.contains position

/-- Adds a gap, or gives nothing when it overlaps a gap of another transaction on the table.  Gaps of
one transaction may overlap one another. -/
def lock? (gaps : GapTable) (table : TableId) (gap : Gap) : Option GapTable :=
  if (gaps.gaps table).any fun held => held.txn ≠ gap.txn && held.overlaps gap.start gap.stop then
    none
  else some ⟨gaps.entries ++ [(table, gap)]⟩

/-- Drops every gap of a transaction. -/
def release (gaps : GapTable) (txn : TxnId) : GapTable :=
  ⟨gaps.entries.filter (·.2.txn ≠ txn)⟩

/-- The number of gaps that a transaction holds on all tables. -/
def count (gaps : GapTable) (txn : TxnId) : Nat := gaps.entries.countP (·.2.txn = txn)

/-! ### The gaps of a table after each operation -/

theorem gaps_of_lock? {gaps gaps' : GapTable} {table : TableId} {gap : Gap}
    (h : gaps.lock? table gap = some gaps') (table' : TableId) :
    gaps'.gaps table' = gaps.gaps table' ++ (if table = table' then [gap] else []) := by
  unfold lock? at h
  split at h
  · cases h
  · cases h
    by_cases ht : table = table' <;> simp [GapTable.gaps, ht]

theorem gaps_release (gaps : GapTable) (txn : TxnId) (table : TableId) :
    (gaps.release txn).gaps table = (gaps.gaps table).filter (·.txn ≠ txn) := by
  obtain ⟨entries⟩ := gaps
  simp only [GapTable.gaps, release]
  induction entries with
  | nil => rfl
  | cons entry rest ih =>
    by_cases h : entry.2.txn = txn <;> by_cases ht : entry.1 = table <;>
      simp_all

end GapTable

end NoWait
