import NoWait.Database.Scan

/-!
# A workload of no-wait transactions

The workload seeds some tables with rows and then lets workers, one after another, run transactions
that each scan a range, insert a row, or read and overwrite one.  Which it is follows from a seed, the
number of the transaction times a fixed multiplier.  A transaction whose statement fails is rolled back,
and the reason is counted.  `Workload.run` fails only where the seeding or an end of a transaction does,
or where there is no memory for as many tables or workers.
-/

namespace NoWait

/-- How large a workload is: the workers, the transactions of each, the tables, and the rows seeded into
each table. -/
structure Workload where
  threads : Nat := 4
  txns : Nat := 100
  tables : Nat := 2
  records : Nat := 64
  deriving DecidableEq, Inhabited, Repr

/-- How the transactions of a workload ended. -/
structure Tally where
  committed : Nat := 0
  deadlockPrevention : Nat := 0
  upgradeConflict : Nat := 0
  gapConflict : Nat := 0
  deriving DecidableEq, Inhabited, Repr

/-- Why a workload breaks off. -/
inductive WorkloadError where
  | catalog (error : CatalogError)
  | statement (error : StatementError)
  | transaction (error : TransactionError)
  /-- The list of the tables, or that of the workers, is larger than a block of memory. -/
  | outOfMemory
  deriving DecidableEq, Inhabited, Repr

/-- The text of a workload error. -/
def WorkloadError.message : WorkloadError → String
  | .catalog error => error.message
  | .statement error => error.message
  | .transaction error => error.message
  | .outOfMemory => "The workload does not fit in memory"

namespace Tally

/-- Counts a commit. -/
def addCommit (tally : Tally) : Tally := { tally with committed := tally.committed + 1 }

/-- Counts an abort for a reason. -/
def addAbort (tally : Tally) : AbortReason → Tally
  | .deadlockPrevention => { tally with deadlockPrevention := tally.deadlockPrevention + 1 }
  | .upgradeConflict => { tally with upgradeConflict := tally.upgradeConflict + 1 }
  | .gapConflict => { tally with gapConflict := tally.gapConflict + 1 }

end Tally

namespace Workload

/-- The shape of every table. -/
def shape : HeapConfig := { rowSize := 16, slotsPerPage := 64 }

/-- The name of a table by its number. -/
def tableName (n : Nat) : String := "t" ++ toString n

/-- A row: a four-byte key whose order is numeric order, an eight-byte payload, and four bytes of
padding. -/
def row (key payload : Nat) : Bytes :=
  Bytes.be 4 key ++ (Bytes.le 8 payload ++ [0, 0, 0, 0])

/-- A row with another payload. -/
def withPayload (row : Bytes) (payload : Nat) : Bytes :=
  row.take 4 ++ (Bytes.le 8 payload ++ row.drop 12)

/-- The seed of a transaction. -/
def seed (workload : Workload) (worker i : Nat) : Nat :=
  (worker * workload.txns + i) * 2654435761

/-- Scans five keys of a table from `key`. -/
def scanFive (h : Handle) (name : String) (key : Nat) : Action StatementError Unit := fun db =>
  let range : KeyRange :=
    { lower := .included (Bytes.be 4 key), upper := .included (Bytes.be 4 (key + 4)) }
  match Scan.collect (db, { owner := h, table := name, plan := .range range }) with
  | .ok _ (db, _) => .ok () db
  | .error error (db, _) => .error error db

/-- Reads one row of a table, if it has any, and writes it back with the seed as its payload. -/
def overwriteOne (h : Handle) (name : String) (key seed : Nat) : Action StatementError Unit := do
  let rids := (← Database.table name).heap.scan
  match rids[key % max rids.length 1]? with
  | none => return ()
  | some rid =>
    let current ← Database.read h name rid
    let _ ← Database.update h name rid (withPayload current seed)

/-- The statements of one transaction. -/
def statements (workload : Workload) (h : Handle) (name : String) (seed : Nat) :
    Action StatementError Unit := do
  let key := seed % max workload.records 1
  if seed % 4 = 0 then scanFive h name key
  else if seed % 4 = 1 then
    let _ ← Database.insert h name (row (workload.records + key) seed)
  else overwriteOne h name key seed

/-- Runs one transaction to its commit, or to its rollback if a statement fails. -/
def runTransaction (workload : Workload) (tally : Tally) (seed : Nat) :
    Action TransactionError Tally := do
  let h ← Database.begin
  let outcome ← Action.attempt (workload.statements h (tableName (seed % workload.tables)) seed)
  match outcome with
  | .ok () =>
    Database.commit h
    return tally.addCommit
  | .error error =>
    Database.abort h
    return (error.abortReason?.map tally.addAbort).getD tally

/-- Runs the transactions of all workers. -/
def runWorkers (workload : Workload) : Action TransactionError Tally :=
  let seeds := (List.range workload.threads).flatMap fun worker =>
    (List.range workload.txns).map (workload.seed worker)
  seeds.foldlM (workload.runTransaction ·) {}

/-- Creates a table and seeds it in one transaction. -/
def seedTable (workload : Workload) (n : Nat) : Action WorkloadError Unit := do
  let db ← get
  match db.catalog.createIndexedTable (tableName n) shape 0 4 with
  | .error error => throw (.catalog error)
  | .ok (_, catalog) =>
    set { db with catalog }
    let h ← Database.begin.mapError .transaction
    (List.range workload.records).forM fun key => do
      let _ ← (Database.insert h (tableName n) (row key 0)).mapError .statement
    (Database.commit h).mapError .transaction

/-- Refuses a list of more entries of the given size than a block of memory holds. -/
def checkMemory (entrySize count : Nat) : Action WorkloadError Unit := do
  if Bytes.blockLimit < entrySize * count then throw .outOfMemory

/-- Seeds the tables and runs the workers.  A table is listed in eight bytes and a worker in 24. -/
def run (workload : Workload) : Action WorkloadError Tally := do
  checkMemory 8 workload.tables
  (List.range workload.tables).forM workload.seedTable
  checkMemory 24 workload.threads
  workload.runWorkers.mapError .transaction

/-- The lines that report on a workload. -/
def report (tally : Tally) (flushed : Lsn) : List String :=
  ["committed:           " ++ toString tally.committed,
    "deadlock prevention: " ++ toString tally.deadlockPrevention,
    "upgrade conflict:    " ++ toString tally.upgradeConflict,
    "gap conflict:        " ++ toString tally.gapConflict,
    "log flushed through LSN " ++ toString flushed]

end Workload

end NoWait
