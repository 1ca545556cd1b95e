import NoWait.Database.Basic

/-!
# Locking for transactions

Transactions lock tables and records under the multi-granularity protocol: a request on a record first
takes the intention mode that it implies on the table.  Nothing waits.  A request that conflicts with
another transaction marks its own transaction aborted and fails with the reason; what it was granted on
the way there it keeps until it is released.

* `Database.acquire` takes a lock, `release` and `releaseAll` give locks up;
* `lockGap` takes a gap lock if no other transaction stands in the way, `checkGap` fails when a write
  would land in another transaction's gap, and `releaseGaps` gives gap locks up.
-/

namespace NoWait

namespace Database

/-- Only an unfinished transaction goes on. -/
def ensureActive (h : Handle) : Action TransactionError Unit := do
  let t := (← get).txn h
  if t.state.isFinished then throw (.finished t.id)

/-- Marks a transaction aborted and fails with the reason. -/
def refuse {α : Type} (h : Handle) (reason : AbortReason) : Action TransactionError α := do
  let id := ((← get).txn h).id
  modify (·.setState h .aborted)
  throw (.aborted id reason)

/-! ### Locks -/

/-- Takes `mode` on one resource and enters the resource into the transaction's lock-set when the
transaction had no mode on it before. -/
def lockResource (h : Handle) (resource : Resource) (mode : Mode) :
    Action TransactionError Unit := do
  let db ← get
  let id := (db.txn h).id
  match db.locks.request id resource mode with
  | .error reason => refuse h reason
  | .ok locks =>
    set { db with locks }
    if (db.locks.heldMode id resource).isNone then modify (·.updateTxn h (·.addLock resource))

/-- Takes `mode` on a resource, and on a record first the intention mode on its table. -/
def acquire (h : Handle) (resource : Resource) (mode : Mode) : Action TransactionError Unit := do
  ensureActive h
  match resource with
  | .table _ => lockResource h resource mode
  | .record .. =>
    if mode ≠ .shared ∧ mode ≠ .exclusive then throw (.recordMode mode)
    lockResource h resource.parent mode.intention
    lockResource h resource mode

/-- Gives up the lock on a resource. -/
def release (db : Database) (h : Handle) (resource : Resource) : Database :=
  { db with locks := db.locks.release (db.txn h).id resource }.updateTxn h (·.removeLock resource)

/-- Gives up every lock in a transaction's lock-set. -/
def releaseAll (db : Database) (h : Handle) : Database :=
  { db with locks := db.locks.releaseAll (db.txn h).id (db.txn h).locks.toList }.updateTxn h
    fun t => { t with locks := {} }

/-! ### Gaps -/

/-- Takes the gap `[start, stop)` on a table's index.  When another transaction holds an overlapping gap
the answer is no, and the transaction is left as it is. -/
def lockGap (h : Handle) (table : TableId) (start stop : Position) :
    Action TransactionError Bool := do
  ensureActive h
  let db ← get
  match db.gaps.lock? table { txn := (db.txn h).id, start, stop } with
  | some gaps => set { db with gaps }; return true
  | none => return false

/-- Fails when a write at the position would land in another transaction's gap. -/
def checkGap (h : Handle) (table : TableId) (position : Position) :
    Action TransactionError Unit := do
  ensureActive h
  let db ← get
  if db.gaps.blocks (db.txn h).id table position then refuse h .gapConflict

/-- Gives up every gap of a transaction. -/
def releaseGaps (db : Database) (h : Handle) : Database :=
  { db with gaps := db.gaps.release (db.txn h).id }

/-! ### Writes -/

/-- Enters a write into the write-set of an unfinished transaction. -/
def addWrite (h : Handle) (write : WriteRecord) : Action TransactionError Unit := do
  ensureActive h
  modify (·.updateTxn h (·.addWrite write))

end Database

end NoWait
