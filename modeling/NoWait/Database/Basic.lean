import NoWait.Gap
import NoWait.Undo

/-!
# The database: everything that transactions share

A database is the lock table, the gap locks, the catalog, the log, and the transactions.  A transaction
is named by a handle; the handles of unfinished transactions that the database began are registered
under their numbers.

* an `Action` runs on a database and returns a value or fails; either way the database it leaves is the
  one that the next action finds;
* `Database.txn` reads the transaction behind a handle and `Database.updateTxn` changes it.
-/

namespace NoWait

/-- What a caller holds in its hand to name a transaction. -/
abbrev Handle := Nat

/-- The shared state of all transactions. -/
structure Database where
  log : Log
  locks : LockTable := {}
  gaps : GapTable := {}
  catalog : Catalog := {}
  /-- Every transaction, by handle. -/
  transactions : Array Transaction := #[]
  /-- The handles of the unfinished transactions, by transaction number. -/
  active : Std.ExtTreeMap TxnId Handle := {}
  nextTxn : TxnId := 1
  /-- The present time, in seconds since the epoch. -/
  clock : UInt64 := 0
  deriving Inhabited, Repr

/-- A step on a database that may fail; what it changed before a failure stays changed. -/
abbrev Action (ε α : Type) := EStateM ε Database α

namespace Action

variable {ε ε' α β : Type}

/-- Runs a repair on the database when an action fails, and fails all the same. -/
def onFailure (action : Action ε α) (repair : Database → Database) : Action ε α := fun db =>
  match action db with
  | .ok value db => .ok value db
  | .error error db => .error error (repair db)

/-- Runs an action and returns what became of it, so that the next one goes on either way. -/
def attempt (action : Action ε α) : Action ε' (Except ε α) := fun db =>
  match action db with
  | .ok value db => .ok (.ok value) db
  | .error error db => .ok (.error error) db

/-- The action with its errors turned into others. -/
def mapError (action : Action ε α) (f : ε → ε') : Action ε' α :=
  EStateM.adaptExcept f action

/-- Goes on with a value, or fails with an error. -/
def ofExcept (result : Except ε α) : Action ε α :=
  match result with
  | .ok value => pure value
  | .error error => throw error

end Action

namespace Database

/-- The transaction behind a handle.  A handle that was never given out reads as a transaction that is
over, and changing it changes nothing. -/
def txn (db : Database) (h : Handle) : Transaction :=
  db.transactions[h]?.getD { id := 0, state := .committed }

/-- The database with the transaction behind a handle changed. -/
def updateTxn (db : Database) (h : Handle) (change : Transaction → Transaction) : Database :=
  { db with transactions := db.transactions.modify h change }

/-- The database with the transaction behind a handle in another state. -/
def setState (db : Database) (h : Handle) (state : TransactionState) : Database :=
  db.updateTxn h fun t => { t with state }

/-- The database with a further transaction, behind the next handle. -/
def addTxn (db : Database) (t : Transaction) : Database :=
  { db with transactions := db.transactions.push t }

/-- The handle that the next transaction gets. -/
def nextHandle (db : Database) : Handle := db.transactions.size

/-- The numbers of the unfinished transactions, in ascending order. -/
def activeIds (db : Database) : List TxnId := db.active.keys

/-- The handle of the unfinished transaction with a number. -/
def activeHandle? (db : Database) (id : TxnId) : Option Handle := db.active[id]?

/-! ### The transaction behind a handle after a change -/

theorem txn_updateTxn_self (db : Database) {h : Handle} (change : Transaction → Transaction)
    (hh : h < db.transactions.size) : (db.updateTxn h change).txn h = change (db.txn h) := by
  simp [txn, updateTxn, Array.getElem_modify, hh]

theorem txn_updateTxn_of_ne (db : Database) {h h' : Handle} (change : Transaction → Transaction)
    (hne : h ≠ h') : (db.updateTxn h change).txn h' = db.txn h' := by
  simp [txn, updateTxn, Array.getElem?_modify, hne]

/-- Changes that make the same of the transaction make the same of everything. -/
theorem updateTxn_congr {db : Database} {h : Handle} {change change' : Transaction → Transaction}
    (hsame : change (db.txn h) = change' (db.txn h)) : db.updateTxn h change = db.updateTxn h change' := by
  have htransactions : db.transactions.modify h change = db.transactions.modify h change' := by
    refine Array.ext (by simp) fun i hi _ => ?_
    simp only [Array.getElem_modify]
    split
    · rename_i heq
      subst heq
      have hlt : h < db.transactions.size := by simpa using hi
      simpa [txn, hlt] using hsame
    · rfl
  simp only [updateTxn, htransactions]

/-- A change that leaves the transaction as it is leaves everything as it is. -/
theorem updateTxn_eq_self {db : Database} {h : Handle} {change : Transaction → Transaction}
    (hsame : change (db.txn h) = db.txn h) : db.updateTxn h change = db := by
  have hkeep : db.updateTxn h change = db.updateTxn h fun t => t := updateTxn_congr hsame
  rw [hkeep, updateTxn]
  simp [Array.modify, Array.modifyM]

/-- Two changes one after the other make one. -/
theorem updateTxn_updateTxn (db : Database) (h : Handle) (first second : Transaction → Transaction) :
    (db.updateTxn h first).updateTxn h second = db.updateTxn h fun t => second (first t) := by
  have htransactions : (db.transactions.modify h first).modify h second =
      db.transactions.modify h fun t => second (first t) := by
    refine Array.ext (by simp) fun i hi _ => ?_
    simp only [Array.getElem_modify]
    split <;> rfl
  simp only [updateTxn, htransactions]

theorem txn_addTxn_self (db : Database) (t : Transaction) :
    (db.addTxn t).txn db.nextHandle = t := by
  simp [txn, addTxn, nextHandle]

end Database

end NoWait
