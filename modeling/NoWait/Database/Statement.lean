import NoWait.Database.Lifecycle

/-!
# Statements: the way of a transaction to the rows

A statement locks what it needs, checks gaps where it brings a key into an index, enters its write for
undo, and logs it.

* `Database.insert` reserves a slot that no other transaction has locked, so that a slot freed by an
  unfinished delete stays free for its undo, and locks it before the row is written;
* `Database.delete` and `Database.update` enter and log the write before they change the row;
* `Database.lockRange` locks the gap that holds exactly the keys of a range; when another transaction
  stands in the way, the transaction is marked aborted.
-/

namespace NoWait

/-- Why a statement fails. -/
inductive StatementError where
  | transaction (error : TransactionError)
  | storage (error : StorageError)
  | log (error : LogError)
  | noIndex (table : String)
  deriving DecidableEq, Inhabited, Repr

namespace StatementError

/-- The text of a statement error. -/
def message : StatementError → String
  | .transaction error => error.message
  | .storage error => "Storage error: " ++ error.message
  | .log error => "Failed to write to WAL: " ++ error.message
  | .noIndex table => "Table " ++ table ++ " has no index"

/-- The reason for which the transaction has to be rolled back, if the error says so. -/
def abortReason? : StatementError → Option AbortReason
  | .transaction error => error.abortReason?
  | _ => none

end StatementError

namespace Database

/-! ### Access to a table -/

/-- The table of a name. -/
def table (name : String) : Action StatementError Table := do
  match (← get).catalog.get? name with
  | some table => return table
  | none => throw (.transaction (.unknownTable name))

/-- The database with a table in place of the one of its name. -/
def putTable (db : Database) (table : Table) : Database :=
  { db with catalog := db.catalog.put table }

/-- Runs an operation on a table and keeps the table that it leaves.  An operation that the storage
refuses changes nothing. -/
def onTable {α : Type} (name : String) (operation : Table → Except StorageError (α × Table)) :
    Action StatementError α := do
  let (value, table) ← (Action.ofExcept (operation (← table name))).mapError .storage
  modify (·.putTable table)
  return value

/-- The database with the heap of a table changed. -/
def updateHeap (db : Database) (name : String) (change : Heap → Heap) : Database :=
  match db.catalog.get? name with
  | some table => db.putTable { table with heap := change table.heap }
  | none => db

/-- The row at a position. -/
def rowAt (name : String) (rid : Rid) : Action StatementError Bytes := do
  (Action.ofExcept ((← table name).heap.get rid)).mapError .storage

/-- Locks the position of a row. -/
def lockRow (h : Handle) (name : String) (rid : Rid) (mode : Mode) :
    Action StatementError Unit := do
  (acquire h (.record (← table name).id rid) mode).mapError .transaction

/-- Enters a write for undo, and logs it with the row that it leaves behind. -/
def enterWrite (h : Handle) (write : WriteRecord) (after : Option Bytes) :
    Action StatementError Unit := do
  let id := (← table write.table).id
  (addWrite h write).mapError .transaction
  (logRecord h write.kind.recordKind
    (.data { table := id, rid := write.rid, before := write.before, after })).mapError .log

/-! ### Insertion -/

/-- Reserves a slot of a table on which no other transaction has a request.  The position that is answered is
the one that a row is then written to: where it does not name the slot that was claimed, that slot is left as
it is. -/
def reserveSlot (h : Handle) (name : String) : Action StatementError Rid := do
  let table ← table name
  let db ← get
  let id := (db.txn h).id
  let (result, heap) := table.heap.reserveNamed fun rid =>
    db.locks.lockedByOther id (.record table.id rid)
  set (db.putTable { table with heap })
  (Action.ofExcept result).mapError .storage

/-- Locks a reserved slot exclusively and writes a row into it; if either fails the slot is given
back. -/
def fillSlot (h : Handle) (name : String) (rid : Rid) (row : Bytes) :
    Action StatementError Unit :=
  Action.onFailure (do
    lockRow h name rid .exclusive
    onTable name fun table => (table.placeRow rid row).map ((), ·))
    (·.updateHeap name (·.cancel rid))

/-- Inserts a row and returns its position. -/
def insert (h : Handle) (name : String) (row : Bytes) : Action StatementError Rid := do
  let table ← table name
  (acquire h (.table table.id) .intentionExclusive).mapError .transaction
  if let some key := table.keyOf? row then
    (checkGap h table.id (.before key)).mapError .transaction
  let rid ← reserveSlot h name
  fillSlot h name rid row
  enterWrite h { kind := .insert, table := name, rid } (some row)
  return rid

/-! ### Statements on a row that is there -/

/-- Deletes the row at a position and returns it. -/
def delete (h : Handle) (name : String) (rid : Rid) : Action StatementError Bytes := do
  lockRow h name rid .exclusive
  let before ← rowAt name rid
  enterWrite h { kind := .delete, table := name, rid, before := some before } none
  onTable name (·.removeRow rid)

/-- Writes over the row at a position and returns the old one.  Moving a row to another key is a write at
the place of the new key, which must not lie in another transaction's gap. -/
def update (h : Handle) (name : String) (rid : Rid) (row : Bytes) :
    Action StatementError Bytes := do
  lockRow h name rid .exclusive
  let before ← rowAt name rid
  let table ← table name
  if let some key := table.newKey? before row then
    (checkGap h table.id (.before key)).mapError .transaction
  enterWrite h { kind := .update, table := name, rid, before := some before } (some row)
  onTable name (·.replaceRow rid row)

/-- Reads the row at a position under a shared lock. -/
def read (h : Handle) (name : String) (rid : Rid) : Action StatementError Bytes := do
  lockRow h name rid .shared
  rowAt name rid

/-! ### Ranges of keys -/

/-- Locks the gap of a range of keys on a table's index and returns its two ends. -/
def lockRange (h : Handle) (name : String) (range : KeyRange) :
    Action StatementError (Position × Position) := do
  let table ← table name
  if table.index.isNone then throw (.noIndex name)
  let granted ← (lockGap h table.id range.start range.stop).mapError .transaction
  if !granted then (refuse h .gapConflict).mapError .transaction
  return (range.start, range.stop)

end Database

end NoWait
