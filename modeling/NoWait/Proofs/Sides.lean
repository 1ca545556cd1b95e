import NoWait.Proofs.Frames

/-!
# What leaves the gaps and the register alone

Gaps come with ranges and go with the end of their transaction, and the register of transactions changes
when one begins or ends.  Nothing else a transaction does touches either of them.

* `SideFrame` are the relations that take no notice of locks, log, tables and transactions; statements keep
  them all;
* `Database.SameGaps` and `Database.SameRegister` are such relations;
* `Session.step_frame` says which calls keep them.
-/

namespace NoWait

namespace Action

variable {ε α : Type} {action : Action ε α} {R : Database → Database → Prop} [IsPreorder Database R]

/-- What is repaired after a failure is related to what there was before it, if the repair is. -/
theorem Within.onFailure (h : action.Within R) {repair : Database → Database}
    (hrepair : ∀ db, R db (repair db)) : (action.onFailure repair).Within R := by
  intro db
  rw [ends_onFailure]
  exact (h db).mono (fun _ _ hmid => hmid) fun _ mid hmid => trans_of R hmid (hrepair mid)

end Action

namespace Database

/-- Whether databases stay related whatever becomes of locks, log, tables and transactions. -/
class SideFrame (R : Database → Database → Prop) : Prop extends IsPreorder Database R where
  locks : ∀ db locks, R db { db with locks }
  log : ∀ db log, R db { db with log }
  catalog : ∀ db catalog, R db { db with catalog }
  transactions : ∀ db transactions, R db { db with transactions }

/-- Whether a database has the gaps of another. -/
def SameGaps (db db' : Database) : Prop := db'.gaps = db.gaps

/-- Whether a database has the register of another. -/
def SameRegister (db db' : Database) : Prop := db'.active = db.active

instance : SideFrame SameGaps where
  refl _ := rfl
  trans _ _ _ h h' := h'.trans h
  locks _ _ := rfl
  log _ _ := rfl
  catalog _ _ := rfl
  transactions _ _ := rfl

instance : SideFrame SameRegister where
  refl _ := rfl
  trans _ _ _ h h' := h'.trans h
  locks _ _ := rfl
  log _ _ := rfl
  catalog _ _ := rfl
  transactions _ _ := rfl

instance : GapFrame SameRegister where
  locks _ _ := rfl
  addLock _ _ _ := rfl
  refused _ _ := rfl
  gaps _ _ _ _ _ := rfl

section SideFrame

variable {R : Database → Database → Prop} [SideFrame R]

theorem SideFrame.updateTxn (db : Database) (h : Handle) (change : Transaction → Transaction) :
    R db (db.updateTxn h change) := SideFrame.transactions db _

instance : LockFrame R where
  locks := SideFrame.locks
  addLock db h resource := SideFrame.updateTxn db h (·.addLock resource)
  refused db h := SideFrame.updateTxn db h fun t => { t with state := .aborted }

/-! ### Statements -/

theorem logRecord_frame (h : Handle) (kind : RecordKind) (content : RecordContent) :
    (logRecord h kind content).Within R := by
  intro db
  simp only [logRecord, Action.ends_bind, Action.ends_get]
  generalize db.log.append (db.txn h).id (db.txn h).lastLsn kind content = appended
  obtain ⟨result, log⟩ := appended
  simp only [Action.ends_set]
  have hlog : R db { db with log } := SideFrame.log db log
  cases result with
  | error error => exact hlog
  | ok lsn =>
    simp only [Action.ends_ofExcept_ok, Action.ends_modify]
    exact trans_of R hlog (SideFrame.updateTxn _ h (·.recordLsn lsn))

theorem enterWrite_frame (h : Handle) (write : WriteRecord) (after : Option Bytes) :
    (enterWrite h write after).Within R := by
  refine (table_frame write.table).bind fun table => ?_
  have hadd : (addWrite h write).Within R := (ensureActive_frame h).bind fun _ =>
    Action.within_modify fun db => SideFrame.updateTxn db h (·.addWrite write)
  exact (hadd.mapError _).bind fun _ => (logRecord_frame h _ _).mapError _

theorem putTable_frame (db : Database) (table : Table) : R db (db.putTable table) :=
  SideFrame.catalog db _

theorem onTable_frame {α : Type} (name : String)
    (operation : Table → Except StorageError (α × Table)) : (onTable name operation).Within R := by
  refine (table_frame name).bind fun table => ((Action.within_ofExcept _).mapError _).bind fun result => ?_
  exact (Action.within_modify fun db => putTable_frame db result.2).bind fun _ => Action.within_pure _

theorem reserveSlot_frame (h : Handle) (name : String) : (reserveSlot h name).Within R := by
  refine (table_frame name).bind fun table db => ?_
  simp only [Action.ends_bind, Action.ends_get]
  generalize table.heap.reserveNamed _ = reserved
  obtain ⟨result, heap⟩ := reserved
  simp only [Action.ends_set]
  have hheap : R db (db.putTable { table with heap }) := putTable_frame db _
  exact (((Action.within_ofExcept result).mapError _) (db.putTable { table with heap })).mono
    (fun _ _ => trans_of R hheap) fun _ _ => trans_of R hheap

theorem fillSlot_frame (h : Handle) (name : String) (rid : Rid) (row : Bytes) :
    (fillSlot h name rid row).Within R := by
  refine ((lockRow_frame h name rid .exclusive).bind fun _ => onTable_frame name _).onFailure fun db => ?_
  unfold updateHeap
  split
  · exact putTable_frame db _
  · exact refl_of R db

/-- A statement that may check a gap first. -/
theorem checkKey_frame {α : Type} (h : Handle) (table : TableId) (key? : Option Bytes)
    {next : Action StatementError α} (hnext : next.Within R) :
    (do
      if let some key := key? then (checkGap h table (.before key)).mapError .transaction
      next : Action StatementError α).Within R := by
  cases key? with
  | none => exact hnext
  | some key => exact ((checkGap_frame h _ _).mapError _).bind fun _ => hnext

theorem insert_frame (h : Handle) (name : String) (row : Bytes) : (insert h name row).Within R := by
  refine (table_frame name).bind fun table => ((acquire_frame h _ _).mapError _).bind fun _ => ?_
  refine checkKey_frame h _ _ ((reserveSlot_frame h name).bind fun rid => ?_)
  exact (fillSlot_frame h name rid row).bind fun _ => (enterWrite_frame h _ _).bind fun _ =>
    Action.within_pure _

theorem delete_frame (h : Handle) (name : String) (rid : Rid) : (delete h name rid).Within R :=
  (lockRow_frame h name rid _).bind fun _ => (rowAt_frame name rid).bind fun _ =>
    (enterWrite_frame h _ _).bind fun _ => onTable_frame name _

theorem update_frame (h : Handle) (name : String) (rid : Rid) (row : Bytes) :
    (update h name rid row).Within R := by
  refine (lockRow_frame h name rid _).bind fun _ => (rowAt_frame name rid).bind fun before => ?_
  refine (table_frame name).bind fun table => checkKey_frame h _ _ ?_
  exact (enterWrite_frame h _ _).bind fun _ => onTable_frame name _

/-- No statement touches what such a relation is about. -/
theorem perform_frame (h : Handle) (statement : Statement) : (statement.perform h).Within R := by
  cases statement with
  | insert name row => exact (insert_frame h name row).bind fun _ => Action.within_pure _
  | update name rid row => exact (update_frame h name rid row).bind fun _ => Action.within_pure _
  | delete name rid => exact (delete_frame h name rid).bind fun _ => Action.within_pure _
  | read name rid => exact (read_frame h name rid).bind fun _ => Action.within_pure _
  | acquire resource mode =>
    exact ((acquire_frame h resource mode).mapError _).bind fun _ => Action.within_pure _

end SideFrame

end Database

open Database

/-! ### Calls -/

/-- Whether a call neither takes gaps or gives them up nor is one of the two ends of a transaction. -/
def Call.isAside : Call → Bool
  | .run .. | .adopt _ | .checkGap .. | .openScan .. | .nextScan _ | .release .. | .releaseAll _ => true
  | .begin | .lockGap .. | .lockRange .. | .initScan _ | .commit _ | .abort _ | .releaseGaps _ => false

namespace Session

variable {s : Session} {call : Call}

/-- Such a call touches neither the gaps nor the register. -/
theorem step_frame {R : Database → Database → Prop} [SideFrame R] (hcall : call.isAside = true) :
    R s.db (s.step call).2.db := by
  cases call with
  | run h statement => exact act_within (perform_frame h statement)
  | adopt id => exact SideFrame.transactions s.db _
  | checkGap h table position =>
    exact act_within (((checkGap_frame h _ _).mapError _).bind fun _ => Action.within_pure _)
  | openScan owner table plan => exact refl_of R s.db
  | nextScan i => exact s.nextScan_frame i
  | release h resource =>
    exact giveUp_frame h (trans_of R (SideFrame.locks s.db _) (SideFrame.updateTxn _ h _))
  | releaseAll h =>
    exact giveUp_frame h (trans_of R (SideFrame.locks s.db _) (SideFrame.updateTxn _ h _))
  | begin | lockGap | lockRange | initScan | commit | abort | releaseGaps => cases hcall

end Session

end NoWait
