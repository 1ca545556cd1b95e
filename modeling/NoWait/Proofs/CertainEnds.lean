import NoWait.Proofs.LogRoom

/-!
# Ends that the log cannot refuse

A commit forgets the writes of its transaction and gives its locks up before it logs anything.  If the log
refused the record of the end then, the transaction would go on with nothing to be rolled back.  It never does:
the record of an end is as long as that of the beginning, which the log has taken.

* `Occurrence` is what can happen after a transaction has begun: the calls of a session, and what others do
  to the log and to anything else that transactions share;
* `Database.CanLogEnd` says that the log has room for the end of a transaction; `Session.canLogEnd_undergo` is
  the step and `Session.canLogEnd_undergoAll` the run that keep it;
* `ends_accepted` says that from then on a commit comes to its end, and that an abort can only fail at a write
  that cannot be taken back.
-/

namespace NoWait

open Database

/-! ### What can happen between the beginning and the end -/

/-- What can happen to a session, by its own calls or from outside. -/
inductive Occurrence where
  | call (call : Call)
  /-- Someone else who uses the log appends a record to it, or writes it out. -/
  | append (txn : TxnId) (prev : Lsn) (kind : RecordKind) (content : RecordContent)
  | flush
  /-- The clock is set. -/
  | clock (now : UInt64)
  /-- The transaction of a handle is changed by its owner: marked, moved on in the log, or given writes. -/
  | alter (h : Handle) (change : Transaction → Transaction)
  /-- The locks, the gaps and the tables are what someone else has made of them. -/
  | share (locks : LockTable) (gaps : GapTable) (catalog : Catalog)

namespace Session

/-- The session after something has happened to it. -/
def undergo (s : Session) : Occurrence → Session
  | .call call => (s.step call).2
  | .append txn prev kind content =>
    { s with db := { s.db with log := (s.db.log.append txn prev kind content).2 } }
  | .flush => { s with db := { s.db with log := s.db.log.flush } }
  | .clock now => { s with db := { s.db with clock := now } }
  | .alter h change => { s with db := s.db.updateTxn h change }
  | .share locks gaps catalog => { s with db := { s.db with locks, gaps, catalog } }

/-- The session after all that has happened to it. -/
def undergoAll (s : Session) (occurrences : List Occurrence) : Session := occurrences.foldl undergo s

end Session

/-! ### The log keeps its room -/

/-- There is a transaction of this handle, and the log has room for the record of its end. -/
structure Database.CanLogEnd (db : Database) (h : Handle) : Prop where
  lt : h < db.transactions.size
  room : db.log.HasRoom 36

namespace Session

variable {s : Session} {h : Handle}

/-- Where one transaction could begin, it can end. -/
theorem canLogEnd_begin (hbegun : (s.step .begin).1 = .ok (.handle h)) : (s.step .begin).2.db.CanLogEnd h := by
  obtain ⟨hroom, hsize⟩ := s.hasRoom_of_begin hbegun
  exact ⟨hsize ▸ Nat.lt_succ_self h, (Log.hasRoom_congr (s.step_config .begin) 36).mpr hroom⟩

/-- Whatever happens, the log takes as much as before, and no transaction goes away. -/
theorem canLogEnd_undergo (hcan : s.db.CanLogEnd h) (occurrence : Occurrence) :
    (s.undergo occurrence).db.CanLogEnd h := by
  obtain ⟨hlt, hroom⟩ := hcan
  cases occurrence with
  | call call =>
    have hsize := (s.step_effect call).keepsIds.size
    exact ⟨Nat.lt_of_lt_of_le hlt hsize, (Log.hasRoom_congr (s.step_config call) 36).mpr hroom⟩
  | append txn prev kind content =>
    have hconfig := s.db.log.config_append txn prev kind content
    exact ⟨hlt, (Log.hasRoom_congr hconfig 36).mpr hroom⟩
  | flush => exact ⟨hlt, (Log.hasRoom_congr s.db.log.config_flush 36).mpr hroom⟩
  | clock now => exact ⟨hlt, hroom⟩
  | alter h' change =>
    have hsize : (s.db.updateTxn h' change).transactions.size = s.db.transactions.size := Array.size_modify
    exact ⟨hsize ▸ hlt, hroom⟩
  | share locks gaps catalog => exact ⟨hlt, hroom⟩

theorem canLogEnd_undergoAll (hcan : s.db.CanLogEnd h) (occurrences : List Occurrence) :
    (s.undergoAll occurrences).db.CanLogEnd h := by
  induction occurrences generalizing s with
  | nil => exact hcan
  | cons occurrence occurrences ih => exact ih (canLogEnd_undergo hcan occurrence)

end Session

/-! ### Ends -/

/-- A transaction that has begun is never refused its end by the log, whatever has happened since, be the buffer of
any size.  While it can go on, its commit succeeds; a commit that fails has changed nothing, so none stops halfway.
While it is not committed, its abort fails only at a write that cannot be taken back. -/
theorem ends_accepted {s : Session} {h : Handle} (hbegun : (s.step .begin).1 = .ok (.handle h))
    (later : List Occurrence) :
    let db := ((s.step .begin).2.undergoAll later).db
    (db.isActive h = true → (commit h).Succeeds db fun _ db' =>
      LeftBehind h db db' ∧ (db'.txn h).state = .committed ∧ db'.log.buffer.bytes = []) ∧
    (∀ error db', commit h db = .error error db' →
      db.isActive h = false ∧ error = .finished (db.txn h).id ∧ db' = db) ∧
    ((db.txn h).state ≠ .committed → (abort h).Ends db
      (fun _ db' => (db'.txn h).state = .aborted ∧ (db'.txn h).writes = [])
      fun error db' => error.IsUndoFailure ∧ ∃ left catalog,
        db.catalog.undoAll (db.txn h).writes = (.error error, left, catalog) ∧
        db' = db.rolledBack h left catalog) := by
  intro db
  have hcan : db.CanLogEnd h := Session.canLogEnd_undergoAll (Session.canLogEnd_begin hbegun) later
  have hcommit := commit_accepted (h := h) hcan.room
  refine ⟨fun hactive => ?_, fun error db' hfails => ?_, abort_accepted hcan.room⟩
  · apply Action.Ends.mono hcommit
    · intro _ db' hended
      exact hended.2
    · intro _ _ hrefused
      exact absurd (hrefused.1.symm.trans hactive) (by decide)
  · simpa only [Action.Ends, hfails] using hcommit

/-- A buffer that takes no more than the record of a beginning or of an end: the insert is refused, others append to
the log and write it out, and the end is logged all the same. -/
theorem ends_accepted_narrow_log :
    let log : Log := { Session.oneTable.db.log with buffer := { config := { bufferSize := 40 } } }
    let s : Session := { db := { Session.oneTable.db with log } }
    let later : List Occurrence :=
      [.call (.run 0 (.insert "t" [5])), .append 7 0 .begin (.control 3), .call .begin, .flush, .clock 60,
        .call (.run 1 (.acquire (.record 1 ⟨0, 0⟩) .shared)), .append 7 0 .commit (.control 60), .call (.abort 1)]
    let db := ((s.step .begin).2.undergoAll later).db
    (s.step .begin).1 = .ok (.handle 0) ∧ db.isActive 0 = true ∧
      (commit 0).Succeeds db fun _ db' =>
        LeftBehind 0 db db' ∧ (db'.txn 0).state = .committed ∧ db'.log.buffer.bytes = [] := by
  intro log s later
  have hbegun : (s.step .begin).1 = .ok (.handle 0) := by decide +kernel
  have hactive : ((s.step .begin).2.undergoAll later).db.isActive 0 = true := by decide +kernel
  -- From here on nothing is to be evaluated.
  clear_value s later
  exact ⟨hbegun, hactive, (ends_accepted hbegun later).1 hactive⟩

end NoWait
