import NoWait.Bytes
import NoWait.Lock.Resource

/-!
# Log records

A log record says what one transaction did: that it began or ended, or how it changed one row.  Every
record has a sequence number of its own and names the one that its transaction wrote before it.
-/

namespace NoWait

/-- The sequence number of a log record. -/
abbrev Lsn := UInt64

/-- What a log record reports. -/
inductive RecordKind where
  | begin
  | commit
  | abort
  | update
  | insert
  | delete
  deriving DecidableEq, Inhabited, Repr

namespace RecordKind

/-- Every kind, in the order of their numbers in the log. -/
def all : List RecordKind := [.begin, .commit, .abort, .update, .insert, .delete]

/-- The number of a kind in the log. -/
def index : RecordKind → Nat
  | .begin => 0
  | .commit => 1
  | .abort => 2
  | .update => 3
  | .insert => 4
  | .delete => 5

theorem getElem?_index (kind : RecordKind) : all[kind.index]? = some kind := by
  cases kind <;> rfl

/-- A kind is the one listed under its number, and no other. -/
theorem getElem?_all_eq_some_iff {n : Nat} {kind : RecordKind} :
    all[n]? = some kind ↔ n = kind.index := by
  constructor
  · intro h
    match n, h with
    | 0, h | 1, h | 2, h | 3, h | 4, h | 5, h => cases h; rfl
  · rintro rfl
    exact getElem?_index kind

/-- The name of a kind. -/
def text : RecordKind → String
  | .begin => "Begin"
  | .commit => "Commit"
  | .abort => "Abort"
  | .update => "Update"
  | .insert => "Insert"
  | .delete => "Delete"

end RecordKind

/-- A change of one row: where it is, and what it was and is. -/
structure RowChange where
  table : TableId
  rid : Rid
  before : Option Bytes := none
  after : Option Bytes := none
  deriving DecidableEq, Inhabited, Repr

/-- What a record carries: a change of a row, or the time at which a transaction began or ended, in
seconds since the epoch. -/
inductive RecordContent where
  | data (change : RowChange)
  | control (timestamp : UInt64)
  deriving DecidableEq, Inhabited, Repr

/-- One record of the log. -/
structure LogRecord where
  lsn : Lsn
  txn : TxnId
  prev : Lsn
  kind : RecordKind
  content : RecordContent
  deriving DecidableEq, Inhabited, Repr

end NoWait
