import NoWait.Proofs.LogChains

/-!
# How much the log takes

The log refuses a record for its size alone, and what it takes is settled when it is opened.  The record
of a beginning is as short as any, so where one transaction could begin, all of them can end.

* `Run.hasRoom_iff` says that the log has room for as much at the end of a run as at its start;
* `Run.hasRoom_of_begun` says that a transaction that has begun finds room for the records of its end, and
  `Session.step_end_hasRoom` that an end is lost in the log only for want of it;
* `Database.commit_accepted` and `Database.abort_accepted` say how a commit and an abort end where there is room.
-/

namespace NoWait

open Database

/-! ### What the log takes never changes -/

namespace Database

variable {h : Handle} {db db' : Database} {record? : Option LogRecord}

/-- An attempt to log a record does not change how much the log takes. -/
theorem Tried.config (htried : Tried h db db' record?) :
    db'.log.buffer.config = db.log.buffer.config := by
  cases htried with
  | same hsame => rw [hsame.log]
  | refused hlog _ => rw [hlog]
  | taken record _ _ _ _ _ hlog _ _ =>
    rcases hlog with hlog | hlog
    · rw [hlog]
      rfl
    · rw [hlog, Log.config_flush]
      rfl

end Database

variable {start s : Session} {trace : List Event} {h : Handle}

theorem Session.step_config (s : Session) (call : Call) :
    (s.step call).2.db.log.buffer.config = s.db.log.buffer.config := by
  obtain ⟨h, record?, htried⟩ := s.step_tried call
  exact htried.config

/-- The log has room for as much at the end of a run as at its start, and at any time between. -/
theorem Run.hasRoom_iff (hrun : Run start trace s) (size : Nat) :
    (s.db.log.HasRoom size ↔ start.db.log.HasRoom size) ∧
      ∀ event ∈ trace, event.before.db.log.HasRoom size ↔ start.db.log.HasRoom size := by
  induction hrun with
  | nil => exact ⟨Iff.rfl, by simp⟩
  | @snoc trace s call _ ih =>
    obtain ⟨hroom, hbefore⟩ := ih
    exact ⟨(Log.hasRoom_congr (s.step_config call) size).trans hroom,
      List.forall_mem_append.mpr ⟨hbefore, List.forall_mem_singleton.mpr hroom⟩⟩

/-! ### Ends that the log has room for -/

/-- No record is shorter than that of a beginning or of an end. -/
theorem LogRecord.le_length_encode (record : LogRecord) : 36 ≤ record.encode.length := by
  obtain ⟨lsn, txn, prev, kind, content⟩ := record
  cases content with
  | control timestamp => exact (length_encode_control lsn prev txn kind timestamp).ge
  | data change =>
    have hlength := length_encode_data lsn prev txn kind change
    omega

/-- A transaction that begins has found room in the log for the record of that. -/
theorem Session.hasRoom_of_begin (s : Session) (hbegun : (s.step .begin).1 = .ok (.handle h)) :
    s.db.log.HasRoom 36 ∧ (s.step .begin).2.db.transactions.size = h + 1 := by
  refine act_spec (P := fun answer db' => answer = .ok (.handle h) →
    s.db.log.HasRoom 36 ∧ db'.transactions.size = h + 1) ?_ hbegun
  rw [Action.ends_bind, Action.ends_mapError]
  apply ((begin_ends s.db).and (begin_tried s.db)).mono
  · intro handle db' hended hanswer
    obtain ⟨⟨hnext, harrived⟩, _, record, _, htried⟩ := hended
    obtain rfl : handle = h := by simpa using hanswer
    cases htried with
    | taken _ _ _ _ _ hfits _ _ _ =>
      have hroom : s.db.log.HasRoom record.encode.length := hfits
      exact ⟨hroom.mono record.le_length_encode, hnext ▸ harrived.size⟩
  · intro error db' _ hanswer
    cases hanswer

/-- A transaction that was begun in a run is there, and the log has room for the record of its end. -/
theorem Run.hasRoom_of_begun (hrun : Run start trace s)
    (hbegun : ∃ event ∈ trace, event.call = .begin ∧ event.answer = .ok (.handle h)) :
    start.db.log.HasRoom 36 ∧ h < s.db.transactions.size := by
  induction hrun with
  | nil =>
    obtain ⟨_, hmem, _⟩ := hbegun
    cases hmem
  | @snoc trace s call hrun ih =>
    have hkeeps := (s.step_effect call).keepsIds
    obtain ⟨event, hmem, hcall, hanswer⟩ := hbegun
    rcases List.mem_append.mp hmem with hmem | hmem
    · obtain ⟨hroom, hlt⟩ := ih ⟨event, hmem, hcall, hanswer⟩
      exact ⟨hroom, Nat.lt_of_lt_of_le hlt hkeeps.size⟩
    · obtain rfl := List.mem_singleton.mp hmem
      obtain rfl : call = .begin := hcall
      obtain ⟨hroom, hsize⟩ := s.hasRoom_of_begin hanswer
      exact ⟨((hrun.hasRoom_iff 36).1).mp hroom, hsize ▸ Nat.lt_succ_self h⟩

/-- What keeps a write from being taken back: its table refuses the change, the row as it was before is missing,
or there is no table. -/
def TransactionError.IsUndoFailure (error : TransactionError) : Prop :=
  (∃ cause, error = .storage cause) ∨ (∃ name rid, error = .missingBeforeImage name rid) ∨
    ∃ name, error = .unknownTable name

theorem Table.isUndoFailure_of_undo {table : Table} {write : WriteRecord} {error : TransactionError}
    (hundo : table.undo write = .error error) : error.IsUndoFailure := by
  have hstorage : ∀ {α : Type} {result : Except StorageError α},
      result.mapError TransactionError.storage = .error error → error.IsUndoFailure := by
    intro α result hresult
    cases result with
    | ok value => cases hresult
    | error cause =>
      cases hresult
      exact .inl ⟨cause, rfl⟩
  unfold Table.undo at hundo
  split at hundo
  · exact hstorage hundo
  · exact hstorage hundo
  · exact hstorage hundo
  · cases hundo
    exact .inr (.inl ⟨_, _, rfl⟩)
  · cases hundo
    exact .inr (.inl ⟨_, _, rfl⟩)

theorem Catalog.isUndoFailure_of_undoAll {catalog catalog' : Catalog} {writes left : List WriteRecord}
    {error : TransactionError} (hundo : catalog.undoAll writes = (.error error, left, catalog')) :
    error.IsUndoFailure := by
  obtain ⟨write, _, _, hfailed, _⟩ := Catalog.undoAll_error hundo
  unfold Catalog.undo at hfailed
  cases hget : catalog'.get? write.table with
  | none =>
    rw [hget] at hfailed
    cases hfailed
    exact .inr (.inr ⟨_, rfl⟩)
  | some table =>
    rw [hget] at hfailed
    cases htable : table.undo write with
    | ok table' =>
      simp only [htable] at hfailed
      cases hfailed
    | error cause =>
      simp only [htable] at hfailed
      cases hfailed
      exact Table.isUndoFailure_of_undo htable

/-- A write that cannot be taken back is no matter of the log. -/
theorem TransactionError.IsUndoFailure.isLogFailure_eq_false {error : TransactionError}
    (hfailure : error.IsUndoFailure) : (StatementError.transaction error).isLogFailure = false := by
  rcases hfailure with ⟨_, rfl⟩ | ⟨_, _, rfl⟩ | ⟨_, rfl⟩ <;> rfl

/-- Nor is it one of a lock. -/
theorem TransactionError.IsUndoFailure.abortReason?_eq_none {error : TransactionError}
    (hfailure : error.IsUndoFailure) : error.abortReason? = none := by
  rcases hfailure with ⟨_, rfl⟩ | ⟨_, _, rfl⟩ | ⟨_, rfl⟩ <;> rfl

namespace Database

variable {db : Database}

/-- A transaction does not begin only if the log has no room for the record of that. -/
theorem begin_room (db : Database) :
    begin.Ends db (fun _ _ => True) fun _ _ => ¬ db.log.HasRoom 36 := by
  simp only [begin, Action.ends_bind, Action.ends_get]
  have hrefuses := db.log.append_refuses_iff db.nextTxn 0 .begin (.control db.clock)
  rw [LogRecord.length_encode_control] at hrefuses
  cases happend : db.log.append db.nextTxn 0 .begin (.control db.clock) with
  | mk result log =>
    rw [happend] at hrefuses
    simp only [Action.ends_set, Action.ends_mapError]
    cases result with
    | error error => exact hrefuses.mp ⟨error, rfl⟩
    | ok lsn => trivial

/-- The end of a transaction is lost in the log only if there is no room for it. -/
theorem finish_room (h : Handle) (kind : RecordKind) (state : TransactionState) (db : Database) :
    (finish h kind state).Ends db (fun _ _ => True) fun _ db' => ¬ db'.log.HasRoom 36 := by
  simp only [finish, Action.ends_bind, Action.ends_get, Action.ends_mapError]
  apply (logRecord_room h kind _ (fun lsn txn prev => LogRecord.length_encode_control lsn prev txn _ _)
    db).mono
  · intro _ db' _
    rw [Action.ends_modify]
    trivial
  · intro _ db' hfull
    exact hfull

theorem commit_room (h : Handle) (db : Database) :
    (commit h).Ends db (fun _ _ => True) fun error db' =>
      (StatementError.transaction error).isLogFailure = true → ¬ db'.log.HasRoom 36 := by
  apply commit_ends_of
  · intro _ hlost
    cases hlost
  · intro _
    exact (finish_room h .commit .committed _).mono (fun _ _ _ => trivial) fun _ _ hfull _ => hfull

theorem abort_room (h : Handle) (db : Database) :
    (abort h).Ends db (fun _ _ => True) fun error db' =>
      (StatementError.transaction error).isLogFailure = true → ¬ db'.log.HasRoom 36 := by
  apply abort_ends_of
  · intro _ hlost
    cases hlost
  · intro _ _ _ _ hundo hlost
    exact absurd (hlost.symm.trans (Catalog.isUndoFailure_of_undoAll hundo).isLogFailure_eq_false) (by decide)
  · intro _ _ _
    exact (finish_room h .abort .aborted _).mono (fun _ _ _ => trivial) fun _ _ hfull _ => hfull

/-- If the log has room for it, a commit comes to its end, unless the transaction is over: then nothing changes. -/
theorem commit_accepted (hroom : db.log.HasRoom 36) :
    (commit h).Ends db
      (fun _ db' => db.isActive h = true ∧ LeftBehind h db db' ∧ (db'.txn h).state = .committed ∧
        db'.log.buffer.bytes = [])
      fun error db' => db.isActive h = false ∧ error = .finished (db.txn h).id ∧ db' = db := by
  apply (((commit_ends h db).and (commit_tried h db)).and (commit_room h db)).mono
  · intro _ db' hended
    obtain ⟨⟨⟨hactive, hleft, hstate⟩, hwritten, _⟩, _⟩ := hended
    exact ⟨hactive, hleft, hstate, hwritten⟩
  · intro error db' hended
    obtain ⟨⟨⟨hdb, hinactive, herror⟩ | ⟨_, hlost⟩, htried⟩, hfull⟩ := hended
    · exact ⟨hinactive, herror, hdb⟩
    · exact absurd ((Log.hasRoom_congr htried.config 36).mpr hroom) (hfull hlost)

/-- If the log has room for it, an abort of a transaction that is not committed comes to its end, unless a write
cannot be taken back: then nothing else has changed. -/
theorem abort_accepted (hroom : db.log.HasRoom 36) (hgoing : (db.txn h).state ≠ .committed) :
    (abort h).Ends db
      (fun _ db' => (db'.txn h).state = .aborted ∧ (db'.txn h).writes = [])
      fun error db' => error.IsUndoFailure ∧ ∃ left catalog,
        db.catalog.undoAll (db.txn h).writes = (.error error, left, catalog) ∧
        db' = db.rolledBack h left catalog := by
  apply (((abort_ends h db).and (abort_tried h db)).and (abort_room h db)).mono
  · intro _ db' hended
    obtain ⟨⟨⟨_, _, _, hleft, hstate⟩, _⟩, _⟩ := hended
    exact ⟨hstate, hleft.writes⟩
  · intro error db' hended
    obtain ⟨⟨⟨_, hcommitted, _⟩ | ⟨_, left, catalog, hundo, hdb⟩ | ⟨_, _, _, _, hlost⟩, htried⟩, hfull⟩ := hended
    · exact absurd hcommitted hgoing
    · exact ⟨Catalog.isUndoFailure_of_undoAll hundo, left, catalog, hundo, hdb⟩
    · exact absurd ((Log.hasRoom_congr htried.config 36).mpr hroom) (hfull hlost)

end Database

/-- A commit or an abort is lost in the log only if there is no room for it. -/
theorem Session.step_end_hasRoom (s : Session) {call : Call} (hcall : call = .commit h ∨ call = .abort h)
    (hroom : s.db.log.HasRoom 36) : Answer.isLogFailure (s.step call).1 = false := by
  have hafter : (s.step call).2.db.log.HasRoom 36 :=
    (Log.hasRoom_congr (s.step_config call) 36).mpr hroom
  rw [Bool.eq_false_iff]
  intro hlost
  refine step_end_spec (P := fun answer db' => Answer.isLogFailure answer = true → ¬ db'.log.HasRoom 36)
    hcall (fun _ => ?_) (fun _ => ?_) hlost hafter
  · exact (commit_room h s.db).mono (fun _ _ _ hfails => by cases hfails) fun _ _ hfull => hfull
  · exact (abort_room h s.db).mono (fun _ _ _ hfails => by cases hfails) fun _ _ hfull => hfull

end NoWait
