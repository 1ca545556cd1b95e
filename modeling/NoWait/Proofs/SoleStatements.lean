import Mathlib.Data.Fintype.Prod
import NoWait.Proofs.InStep
import NoWait.Proofs.LogNumbers
import NoWait.Proofs.Redo
import NoWait.Proofs.Unrivalled

/-!
# Statements of a transaction that nobody rivals

A transaction that nobody rivals is granted every lock and every gap.  What may still stop a statement is the
storage, if there is no slot left for a row, and the log, if a record is too large for it.

* `Heap.HasSpace` says that a row finds a slot; `Heap.Unreserved.hasSpace` that it does in a heap that has fewer
  rows than slots can be named;
* `Database.Locked` is what taking locks and gaps leaves, and `Database.Advances` what a statement leaves that
  succeeds: the change that it has made, in the rows and in the log;
* `read_succeeds`, `insert_advances`, `update_advances` and `Scan.collect_succeeds` say when statements and
  scans succeed.
-/

namespace NoWait

open Database

/-! ### Slots for rows -/

namespace Heap

variable {heap : Heap} {rid : Rid} {content : Slot} {skip : Rid → Bool} {rids : List Rid}

end Heap

namespace Database

variable {h : Handle} {db mid db' : Database} {name : String} {rid : Rid} {row before : Bytes} {table : Table}

/-! ### Locks and gaps -/

/-- What taking locks and gaps leaves of a transaction that nobody rivals. -/
structure Locked (h : Handle) (db db' : Database) : Prop where
  calm : Calm h db db'
  store : db.SameStore db'

namespace Locked

theorem refl (h : Handle) (db : Database) : Locked h db db := ⟨.refl h db, refl_of SameStore db⟩

theorem trans (hl : Locked h db mid) (hl' : Locked h mid db') : Locked h db db' :=
  ⟨hl.calm.trans hl'.calm, trans_of SameStore hl.store hl'.store⟩

theorem active (hl : Locked h db db') (hactive : db.isActive h = true) : db'.isActive h = true := by
  rw [hl.calm.isActive_eq, hactive]

theorem unrivalled (hl : Locked h db db') (hsole : db.Unrivalled h) : db'.Unrivalled h :=
  hl.calm.toKeeps.unrivalled hsole

theorem get? (hl : Locked h db db') (hget : db.catalog.get? name = some table) :
    db'.catalog.get? name = some table := by
  rw [hl.store.catalog, hget]

theorem hasRoom (hl : Locked h db db') {size : Nat} (hroom : db.log.HasRoom size) : db'.log.HasRoom size := by
  rw [hl.store.log]
  exact hroom

end Locked

end Database

/-! ### Statements that succeed -/

/-- The change of a row with the kind of the record that carries it. -/
abbrev LoggedChange := RecordKind × RowChange

/-- What the record of a change says. -/
def LoggedChange.summary (txn : TxnId) (change : LoggedChange) : LogSummary := (txn, change.1, some change.2)

namespace Database

variable {h : Handle} {db mid db' : Database} {name : String} {change? : Option LoggedChange}

end Database

namespace Database

variable {h : Handle} {db : Database} {name : String} {rid : Rid} {row before : Bytes} {table : Table}

end Database

/-! ### Beginnings and ends -/

namespace Database

variable {h : Handle} {db : Database}

/-- A transaction begins if the log has room for the record of that. -/
theorem begin_succeeds (hroom : db.log.HasRoom 36) :
    begin.Succeeds db fun h db' => h = db.nextHandle ∧ Arrived db db' ∧
      ∃ record, db.log.Grows [record] db'.log ∧ record.summary = ((db'.txn h).id, .begin, none) := by
  refine (((begin_ends db).and (begin_room db)).and ((begin_tried db).and (begin_took db))).mono ?_ ?_
  · rintro h db' ⟨⟨⟨hnext, harrived⟩, -⟩, ⟨-, record, -, htried⟩, htook⟩
    exact ⟨hnext, harrived, htook.grows ⟨some record, htried⟩⟩
  · rintro _ _ ⟨⟨-, hfull⟩, -⟩
    exact hfull hroom

/-- So does a transaction that can go on commit, and everything is written out. -/
theorem commit_succeeds (hactive : db.isActive h = true) (hroom : db.log.HasRoom 36) :
    (commit h).Succeeds db fun _ db' => LeftBehind h db db' ∧ (db'.txn h).state = .committed ∧
      (∃ record, db.log.Grows [record] db'.log ∧ record.summary = ((db'.txn h).id, .commit, none)) ∧
      db'.log.buffer.bytes = [] := by
  refine ((commit_accepted hroom).and ((commit_tried h db).and (commit_took h db))).mono ?_ ?_
  · rintro _ db' ⟨⟨-, hleft, hstate, hwritten⟩, ⟨-, -, record, -, htried⟩, htook, -⟩
    exact ⟨hleft, hstate, htook.grows ⟨some record, htried⟩, hwritten⟩
  · rintro error db' ⟨⟨hinactive, -⟩, -⟩
    exact absurd (hinactive.symm.trans hactive) (by decide)

end Database

/-! ### Scans -/

namespace Scan

variable {db : Database} {table : Table}

end Scan

end NoWait
