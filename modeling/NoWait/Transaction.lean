import NoWait.Lock.Table
import NoWait.Log
import NoWait.Heap
import Std.Data.ExtTreeSet

/-!
# Transactions

A transaction has a number, a state, the writes that undoing it has to take back, the resources it has
locked, and the sequence numbers of its first and last log record.

* writes are kept newest first, which is the order in which they are undone;
* `TransactionError` is what a lock request, a commit or an abort may fail with.
-/

namespace NoWait

/-! ### State -/

/-- How far a transaction has come. -/
inductive TransactionState where
  | growing
  | shrinking
  | committed
  | aborted
  deriving DecidableEq, Inhabited, Repr

namespace TransactionState

/-- Whether a transaction in this state can do nothing more. -/
def isFinished : TransactionState → Bool
  | .growing | .shrinking => false
  | .committed | .aborted => true

/-- The name of a state. -/
def text : TransactionState → String
  | .growing => "Growing"
  | .shrinking => "Shrinking"
  | .committed => "Committed"
  | .aborted => "Aborted"

end TransactionState

/-! ### Writes -/

/-- What a write did to a row. -/
inductive WriteKind where
  | insert
  | delete
  | update
  deriving DecidableEq, Inhabited, Repr

/-- The kind of the log record of a write. -/
def WriteKind.recordKind : WriteKind → RecordKind
  | .insert => .insert
  | .delete => .delete
  | .update => .update

/-- What is needed to take a write back: where it was, and the row as it stood before it.  A write
without an image before it can be undone only if it was an insert. -/
structure WriteRecord where
  kind : WriteKind
  table : String
  rid : Rid
  before : Option Bytes := none
  deriving DecidableEq, Inhabited, Repr

/-! ### Transactions -/

/-- A transaction. -/
structure Transaction where
  id : TxnId
  state : TransactionState := .growing
  /-- The writes to take back, newest first. -/
  writes : List WriteRecord := []
  /-- The resources on which the transaction was granted a lock. -/
  locks : Std.ExtTreeSet Resource := {}
  firstLsn : Lsn := 0
  lastLsn : Lsn := 0
  deriving Inhabited, Repr

namespace Transaction

/-- Whether the transaction is marked aborted. -/
def isAborted (txn : Transaction) : Bool := txn.state = .aborted

/-- Whether the transaction was granted a lock on a resource. -/
def holdsLock (txn : Transaction) (resource : Resource) : Bool := txn.locks.contains resource

/-- The transaction with one more locked resource. -/
def addLock (txn : Transaction) (resource : Resource) : Transaction :=
  { txn with locks := txn.locks.insert resource }

/-- The transaction with one locked resource fewer. -/
def removeLock (txn : Transaction) (resource : Resource) : Transaction :=
  { txn with locks := txn.locks.erase resource }

/-- The transaction with one more write. -/
def addWrite (txn : Transaction) (write : WriteRecord) : Transaction :=
  { txn with writes := write :: txn.writes }

/-- The transaction after a log record was written on its behalf.  Zero stands for no record, so the
first number that follows it is the first one of the transaction. -/
def recordLsn (txn : Transaction) (lsn : Lsn) : Transaction :=
  { txn with firstLsn := if txn.firstLsn = 0 then lsn else txn.firstLsn, lastLsn := lsn }

/-- The text that describes a transaction: number, state, and how many writes and locks it has. -/
def text (txn : Transaction) : String :=
  "Transaction \x7b id: " ++ toString txn.id ++ ", state: " ++ txn.state.text ++
    ", write_set: " ++ toString txn.writes.length ++
    ", lock_set: " ++ toString txn.locks.size ++ " \x7d"

/-- The text that describes the surroundings in which a transaction's statements run. -/
def contextText (txn : Transaction) : String :=
  "Context \x7b txn: " ++ txn.text ++ " \x7d"

end Transaction

/-! ### Errors -/

/-- Why a lock request, a commit or an abort fails. -/
inductive TransactionError where
  /-- The request was refused and the transaction is marked aborted. -/
  | aborted (txn : TxnId) (reason : AbortReason)
  /-- The transaction has already committed or is marked aborted. -/
  | finished (txn : TxnId)
  /-- A record can be locked in shared or exclusive mode only. -/
  | recordMode (mode : Mode)
  | unknownTable (name : String)
  | missingBeforeImage (table : String) (rid : Rid)
  | log (error : LogError)
  | storage (error : StorageError)
  deriving DecidableEq, Inhabited, Repr

namespace TransactionError

/-- The text of a transaction error. -/
def message : TransactionError → String
  | .aborted txn reason => s!"Transaction {txn} aborted: {reason.text}"
  | .finished txn => s!"Transaction {txn} is already committed or aborted"
  | .recordMode mode => s!"Lock mode {mode.text} cannot be taken on a record"
  | .unknownTable name => "Unknown table: " ++ name
  | .missingBeforeImage table rid =>
    "Write record for " ++ rid.text ++ " in " ++ table ++ " has no before-image"
  | .log error => "Failed to write to WAL: " ++ error.message
  | .storage error => "Storage error: " ++ error.message

/-- The reason for which the transaction has to be rolled back, if the error says so. -/
def abortReason? : TransactionError → Option AbortReason
  | .aborted _ reason => some reason
  | _ => none

end TransactionError

end NoWait
