import NoWait.Database.Locking

/-!
# Beginning and ending transactions

* `Database.begin` numbers a transaction, logs that it begins, and registers it;
* `Database.commit` forgets what undoing would need, gives up locks and gaps, logs the commit and
  writes the log out;
* `Database.abort` takes every write back, newest first, before it gives anything up; when a write
  cannot be undone it stops there with everything else still held, so that it can be tried again.

A transaction that a refused request has marked aborted is still to be rolled back; only a committed one
cannot be aborted.
-/

namespace NoWait

namespace Database

/-- Appends a record to the log on behalf of a transaction, chained to its last one. -/
def logRecord (h : Handle) (kind : RecordKind) (content : RecordContent) :
    Action LogError Unit := do
  let db ← get
  let t := db.txn h
  let (result, log) := db.log.append t.id t.lastLsn kind content
  set { db with log }
  let lsn ← Action.ofExcept result
  modify (·.updateTxn h (·.recordLsn lsn))

/-- Begins a transaction.  Its number is used up even if the log refuses the record. -/
def begin : Action TransactionError Handle := do
  let db ← get
  let id := db.nextTxn
  let (result, log) := db.log.append id 0 .begin (.control db.clock)
  set { db with log, nextTxn := id + 1 }
  let lsn ← (Action.ofExcept result).mapError .log
  let h := (← get).nextHandle
  modify fun db =>
    { db with active := db.active.insert id h }.addTxn (({ id } : Transaction).recordLsn lsn)
  return h

/-- Begins a transaction, unless there is one to go on with. -/
def beginOrContinue (existing : Option Handle) : Action TransactionError Handle :=
  match existing with
  | some h => pure h
  | none => begin

/-- Takes in a transaction that the database did not begin and does not register. -/
def adopt (db : Database) (id : TxnId) : Handle × Database :=
  (db.nextHandle, db.addTxn { id })

/-- Ends a transaction whose locks are given up: logs the end, writes the log out, and strikes the
transaction off the register. -/
def finish (h : Handle) (kind : RecordKind) (state : TransactionState) :
    Action TransactionError Unit := do
  (logRecord h kind (.control (← get).clock)).mapError .log
  modify fun db =>
    { db with log := db.log.flush, active := db.active.erase (db.txn h).id }.setState h state

/-- Gives up everything that a transaction holds. -/
def letGo (db : Database) (h : Handle) : Database :=
  ((db.updateTxn h fun t => { t with writes := [] }).releaseAll h).releaseGaps h

/-- Commits an unfinished transaction. -/
def commit (h : Handle) : Action TransactionError Unit := do
  ensureActive h
  modify (·.letGo h)
  finish h .commit .committed

/-- Takes a transaction's writes back, newest first; one leaves the write-set once it is undone. -/
def rollback (h : Handle) : Action TransactionError Unit := do
  let db ← get
  let (result, left, catalog) := db.catalog.undoAll (db.txn h).writes
  set ({ db with catalog }.updateTxn h fun t => { t with writes := left })
  Action.ofExcept result

/-- Rolls a transaction back and ends it. -/
def abort (h : Handle) : Action TransactionError Unit := do
  let t := (← get).txn h
  if t.state = .committed then throw (.finished t.id)
  rollback h
  modify (·.letGo h)
  finish h .abort .aborted

end Database

end NoWait
