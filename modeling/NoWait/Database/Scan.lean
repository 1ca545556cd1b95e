import NoWait.Database.Statement

/-!
# Scans

A scan belongs to one transaction and one table and hands out rows one at a time.  A sequential scan
locks the whole table in shared mode; a range scan locks the gap of its range, and each row on its way
out.  Opening a scan lists the positions that it will visit; a visit takes a position off the list,
whether or not the row there can be read.

* `Scan.init` locks and lists, `Scan.next` hands out the next row, `Scan.collect` does both to the end;
* a range scan passes over positions at which there is no row any more, a sequential scan fails there.
-/

namespace NoWait

/-- What a scan visits. -/
inductive ScanPlan where
  | sequential
  | range (range : KeyRange)
  deriving DecidableEq, Inhabited, Repr

/-- A scan: whose it is, what it visits, and the positions that it has still to visit. -/
structure Scan where
  owner : Handle
  table : String
  plan : ScanPlan
  pending : List Rid := []
  deriving DecidableEq, Inhabited, Repr

/-- A step of a scan: it works on the database and on the scan, and changes to either stay when it
fails. -/
abbrev ScanAction (α : Type) := EStateM StatementError (Database × Scan) α

namespace Scan

/-- The positions to visit, once the table or the range is locked. -/
def positions (scan : Scan) : Action StatementError (List Rid) := do
  match scan.plan with
  | .sequential =>
    let id := (← Database.table scan.table).id
    (Database.acquire scan.owner (.table id) .shared).mapError .transaction
    return (← Database.table scan.table).heap.scan
  | .range range =>
    let (start, stop) ← Database.lockRange scan.owner scan.table range
    match (← Database.table scan.table).index with
    | some index => return index.keys.ridsBetween start stop
    | none => throw (.noIndex scan.table)

/-- The row at a position.  A range scan locks it in shared mode first, and finds nothing where there
is no row; to a sequential scan that is an error. -/
def visit (scan : Scan) (rid : Rid) : Action StatementError (Option Bytes) := do
  match scan.plan with
  | .sequential => return some (← Database.rowAt scan.table rid)
  | .range _ =>
    Database.lockRow scan.owner scan.table rid .shared
    match (← Database.table scan.table).heap.get rid with
    | .ok row => return some row
    | .error (.notFound _) => return none
    | .error error => throw (.storage error)

/-- Opens the scan, or opens it again from the start.  A failure leaves its positions as they were. -/
def init : ScanAction Unit := fun (db, scan) =>
  match scan.positions db with
  | .ok pending db => .ok () (db, { scan with pending })
  | .error error db => .error error (db, scan)

/-- Visits the given positions in turn until one yields a row; the positions behind it stay pending. -/
def nextFrom (scan : Scan) (db : Database) :
    List Rid → EStateM.Result StatementError (Database × Scan) (Option (Rid × Bytes))
  | [] => .ok none (db, { scan with pending := [] })
  | rid :: rest =>
    match scan.visit rid db with
    | .ok (some row) db => .ok (some (rid, row)) (db, { scan with pending := rest })
    | .ok none db => nextFrom scan db rest
    | .error error db => .error error (db, { scan with pending := rest })

/-- The next row with its position, or nothing when the scan is at its end. -/
def next : ScanAction (Option (Rid × Bytes)) := fun (db, scan) => nextFrom scan db scan.pending

/-- At most `count` further rows. -/
def take : (count : Nat) → ScanAction (List (Rid × Bytes))
  | 0 => return []
  | count + 1 => do
    match ← next with
    | some row => return row :: (← take count)
    | none => return []

/-- Opens the scan and hands out every row.  No more rows come than there are positions. -/
def collect : ScanAction (List (Rid × Bytes)) := do
  init
  let (_, scan) ← get
  take scan.pending.length

end Scan

end NoWait
