import NoWait.Proofs.Frames
import NoWait.Proofs.LogHistory

/-!
# What each call adds to the log

A call that succeeds adds at most one record to the log, on behalf of its transaction: that the transaction
has begun or ended, or how it has changed one row.  A call that fails adds nothing, unless it is the log
that has failed.

* `Log.Took` says which records a log has taken since another, be they in the file by now or still in the
  buffer;
* `Statement.change?` is the change that a statement has to log, to go by its answer, and `Call.toLog?` what
  any call has;
* `Session.step_logs` says that every call logs exactly that, and `Session.step_end` that the end of a
  transaction is written out at once.
-/

namespace NoWait

/-! ### Logs that take records -/

namespace Log

variable {log log' : Log} {records : List LogRecord} {record : LogRecord} {txn : TxnId} {prev lsn : Lsn}
  {kind : RecordKind} {content : RecordContent}

/-- All that a log has: the bytes of its file, and behind them those of its buffer. -/
def bytes (log : Log) : Bytes := log.file ++ log.buffer.bytes

/-- Whether a log has taken exactly the given records more than another, each of which fits into the
buffer. -/
structure Took (log log' : Log) (records : List LogRecord) : Prop where
  bytes : log'.bytes = log.bytes ++ records.flatMap LogRecord.frame
  config : log'.buffer.config = log.buffer.config
  fits : ∀ record ∈ records, record.encode.length + 4 ≤ log.buffer.config.bufferSize.toNat

theorem took_nil (h : log' = log) : log.Took log' [] := by
  subst h
  exact ⟨by simp, rfl, by simp⟩

theorem Took.trans {log'' : Log} {older newer : List LogRecord} (h : log.Took log' older)
    (h' : log'.Took log'' newer) : log.Took log'' (older ++ newer) where
  bytes := by rw [h'.bytes, h.bytes, List.flatMap_append, List.append_assoc]
  config := h'.config.trans h.config
  fits := by
    intro record hmem
    rcases List.mem_append.mp hmem with hmem | hmem
    · exact h.fits record hmem
    · rw [← h.config]
      exact h'.fits record hmem

theorem Took.imagesFit (h : log.Took log' records) (hmem : record ∈ records) : record.ImagesFit :=
  LogRecord.imagesFit_of_fits (h.fits record hmem)

/-- What a log has more says which record it has taken. -/
theorem Took.record_unique {record' : LogRecord} (h : log.Took log' [record]) (h' : log.Took log' [record']) :
    record = record' := by
  have hbytes := h.bytes.symm.trans h'.bytes
  simp only [List.flatMap_singleton, List.append_cancel_left_eq] at hbytes
  exact LogRecord.frame_inj (h.imagesFit List.mem_cons_self) (h'.imagesFit List.mem_cons_self) hbytes

/-- Writing records out takes none. -/
theorem took_flush (log : Log) : log.Took log.flush [] := by
  have hbytes : log.flush.bytes = log.bytes := by
    rw [bytes, file_flush, buffer_flush, List.append_nil]
    rfl
  exact ⟨by simpa using hbytes, log.config_flush, by simp⟩

/-- A record that is not refused is taken, whether or not it is written out at once. -/
theorem took_append (h : log.append txn prev kind content = (.ok lsn, log')) :
    log.Took log' [{ lsn, txn, prev, kind, content }] := by
  rcases log.append_cases txn prev kind content with hrefused | ⟨hfits, happend⟩
  · rw [hrefused] at h
    cases h
  · rw [happend] at h
    cases h
    have htake : log.Took (log.take { lsn := log.nextLsn, txn, prev, kind, content })
        [{ lsn := log.nextLsn, txn, prev, kind, content }] := by
      refine ⟨?_, rfl, by simpa using hfits⟩
      show log.file ++ (log.buffer.trail.append _).toBytes = _
      rw [Trail.toBytes_append, ← List.append_assoc, List.flatMap_singleton]
      rfl
    split
    · have hflushed := htake.trans (took_flush _)
      rwa [List.append_nil] at hflushed
    · exact htake

/-- A record that is refused leaves nothing behind but a number that is used up. -/
theorem took_refused {error : LogError} (h : log.append txn prev kind content = (.error error, log')) :
    log.Took log' [] := by
  obtain hrefused | ⟨_, happend⟩ := log.append_cases txn prev kind content
  · rw [hrefused] at h
    cases h
    exact ⟨by simp [bytes, file], rfl, by simp⟩
  · rw [happend] at h
    cases h

end Log

/-! ### What calls have to log -/

/-- The change to a row that a statement has to log, to go by its answer. -/
def Statement.change? (shapes : String → Option TableShape) :
    Statement → Except StatementError Answer → Option (RecordKind × RowChange)
  | .insert name row, .ok (.position rid) => (shapes name).map fun shape =>
    (.insert, { table := shape.id, rid, after := some row })
  | .update name rid row, .ok (.row before) => (shapes name).map fun shape =>
    (.update, { table := shape.id, rid, before := some before, after := some row })
  | .delete name rid, .ok (.row before) => (shapes name).map fun shape =>
    (.delete, { table := shape.id, rid, before := some before })
  | _, _ => none

/-- What a call has to log, to go by its answer, and on behalf of which transaction. -/
def Call.toLog? (db : Database) :
    Call → Except StatementError Answer → Option (Handle × RecordKind × RecordContent)
  | .begin, .ok (.handle h) => some (h, .begin, .control db.clock)
  | .run h statement, answer =>
    (statement.change? db.catalog.shapes answer).map fun (kind, change) => (h, kind, .data change)
  | .commit h, .ok _ => some (h, .commit, .control db.clock)
  | .abort h, .ok _ => some (h, .abort, .control db.clock)
  | _, _ => none

/-- Whether the error says that a row does not have the size of the rows of its table. -/
def StatementError.isMisfit : StatementError → Bool
  | .storage (.sizeMismatch ..) => true
  | _ => false

/-- Whether an update brings a row of the size of the rows of its table.  A row of another size is refused
only after it has been logged; an insertion of such a row is refused before. -/
def Call.isSized (shapes : String → Option TableShape) : Call → Bool
  | .run _ (.update name _ row) => (shapes name).all fun shape => row.length = shape.config.rowSize
  | _ => true

namespace Database

variable {h : Handle} {db mid db' : Database} {kind : RecordKind} {content : RecordContent}

/-- Whether the log has taken one more record, on behalf of a transaction. -/
def TookRecord (h : Handle) (kind : RecordKind) (content : RecordContent) (db db' : Database) : Prop :=
  ∃ record : LogRecord, db.log.Took db'.log [record] ∧ record.txn = (db'.txn h).id ∧
    record.kind = kind ∧ record.content = content

/-- Whether the log has taken exactly what there was to log, if anything. -/
def Logs (db db' : Database) : Option (Handle × RecordKind × RecordContent) → Prop
  | none => db'.log = db.log
  | some (h, kind, content) => TookRecord h kind content db db'

theorem TookRecord.of_log (htook : TookRecord h kind content mid db') (hlog : mid.log = db.log) :
    TookRecord h kind content db db' := by
  unfold TookRecord at htook ⊢
  rwa [← hlog]

/-- Whether the log has taken nothing, either because it was asked for nothing or because it has failed. -/
def LogsNothing (error : StatementError) (db db' : Database) : Prop :=
  (error.isLogFailure = true ∧ db.log.Took db'.log []) ∨ db'.log = db.log

theorem LogsNothing.took {error : StatementError} (hnothing : LogsNothing error db db') :
    db.log.Took db'.log [] := by
  obtain ⟨_, htook⟩ | hlog := hnothing
  · exact htook
  · exact Log.took_nil hlog

theorem LogsNothing.of_log {error : StatementError} (hnothing : LogsNothing error mid db')
    (hlog : mid.log = db.log) : LogsNothing error db db' := by
  unfold LogsNothing at hnothing ⊢
  rwa [← hlog]

theorem LogsNothing.isLogFailure {error : StatementError} (hnothing : LogsNothing error db db') :
    error.isLogFailure = true ∨ db'.log = db.log := hnothing.imp_left And.left

/-! ### Actions that log -/

theorem logRecord_took (h : Handle) (kind : RecordKind) (content : RecordContent) (db : Database) :
    (logRecord h kind content).Ends db (fun _ db' => TookRecord h kind content db db')
      fun _ db' => db.log.Took db'.log [] := by
  simp only [logRecord, Action.ends_bind, Action.ends_get]
  cases happend : db.log.append (db.txn h).id (db.txn h).lastLsn kind content with
  | mk result log =>
    simp only [Action.ends_set]
    cases result with
    | error error => exact Log.took_refused happend
    | ok lsn =>
      simp only [Action.ends_ofExcept_ok, Action.ends_modify]
      have hids : Keeps h { db with log } (({ db with log } : Database).updateTxn h (·.recordLsn lsn)) :=
        .updateTxn h _ (fun _ => rfl) fun _ => rfl
      exact ⟨_, Log.took_append happend, hids.id.symm, rfl, rfl⟩

/-- A write that has been entered has been logged, too. -/
theorem enterWrite_took (h : Handle) (write : WriteRecord) (after : Option Bytes) (db : Database) :
    (enterWrite h write after).Ends db
      (fun _ db' => db'.catalog = db.catalog ∧ ∃ table, db.catalog.get? write.table = some table ∧
        TookRecord h write.kind.recordKind
          (.data { table := table.id, rid := write.rid, before := write.before, after }) db db')
      fun error db' => error.isMisfit = false ∧ LogsNothing error db db' := by
  have htook : (enterWrite h write after).Ends db
      (fun _ db' => ∃ table, db.catalog.get? write.table = some table ∧
        TookRecord h write.kind.recordKind
          (.data { table := table.id, rid := write.rid, before := write.before, after }) db db')
      fun error db' => error.isMisfit = false ∧ LogsNothing error db db' := by
    simp only [enterWrite, Action.ends_bind, Action.ends_mapError, addWrite]
    refine (table_ends write.table db).mono ?_ ?_
    · rintro table db ⟨rfl, hget⟩
      refine (ensureActive_ends h db).mono ?_ ?_
      · rintro _ db ⟨rfl, _⟩
        simp only [Action.ends_modify]
        exact (logRecord_took h _ _ _).mono (fun _ db' htook => ⟨table, hget, htook.of_log rfl⟩)
          fun _ _ htook => ⟨rfl, .inl ⟨rfl, htook⟩⟩
      · rintro _ db ⟨rfl, _⟩
        exact ⟨rfl, .inr rfl⟩
    · rintro _ db ⟨rfl, _, rfl⟩
      exact ⟨rfl, .inr rfl⟩
  refine (htook.and (enterWrite_within h write after db)).mono ?_ ?_
  · rintro _ _ ⟨htook, htables⟩
    exact ⟨htables, htook⟩
  · rintro _ _ ⟨hnothing, _⟩
    exact hnothing

/-! ### Statements -/

/-- A row that is asked for under a lock either is found, or nothing is logged. -/
theorem lockRow_rowAt_ends {α : Type} (h : Handle) (name : String) (rid : Rid) (mode : Mode) {db : Database}
    {next : Bytes → Action StatementError α} {ok : α → Database → Prop}
    {err : StatementError → Database → Prop}
    (hnext : ∀ before mid table, db.SameStore mid → mid.catalog.get? name = some table →
      table.heap.row? rid = some before → (next before).Ends mid ok err)
    (herr : ∀ error mid, error.isMisfit = false → mid.log = db.log → err error mid) :
    (lockRow h name rid mode >>= fun _ => rowAt name rid >>= next).Ends db ok err := by
  have hlock : (lockRow h name rid mode).Ends db (fun _ _ => True) fun error _ => error.isMisfit = false := by
    rw [lockRow, Action.ends_bind]
    apply (table_ends name db).mono
    · intro table mid _
      rw [Action.ends_mapError]
      exact (acquire_within h _ _ mid).mono (fun _ _ _ => trivial) fun _ _ _ => rfl
    · intro error mid hunknown
      rw [hunknown.2.2]
      rfl
  rw [Action.ends_bind]
  apply (hlock.and (lockRow_within h name rid mode db)).mono
  · intro _ mid hlocked
    have hsame := hlocked.2
    rw [Action.ends_bind]
    cases hget : mid.catalog.get? name with
    | none =>
      rw [rowAt, Action.ends_bind]
      apply (table_ends name mid).mono
      · intro table mid' hfound
        rw [hget] at hfound
        exact absurd hfound.2 (by simp)
      · intro error mid' hunknown
        rw [hunknown.1, hunknown.2.2]
        exact herr _ mid rfl hsame.log
    | some table =>
      apply (rowAt_ends hget rid).mono
      · intro before mid' hfound
        rw [hfound.1]
        exact hnext before mid table hsame hget hfound.2
      · intro error mid' hmissing
        rw [hmissing.1, hmissing.2.2]
        exact herr _ mid rfl hsame.log
  · intro error mid hrefused
    exact herr error mid hrefused.1 hrefused.2.log

theorem delete_logs (h : Handle) (name : String) (rid : Rid) (db : Database) :
    (delete h name rid).Ends db
      (fun before db' => db.catalog.rows name rid = some before ∧ ∃ shape, db.catalog.shapes name = some shape ∧
        TookRecord h .delete (.data { table := shape.id, rid, before := some before }) db db')
      fun error db' => LogsNothing error db db' := by
  apply lockRow_rowAt_ends h name rid .exclusive
  · intro before mid table hsame hget hrow
    rw [Action.ends_bind]
    apply (enterWrite_took h _ _ mid).mono
    · intro _ db' hentered
      obtain ⟨hcatalog, table', hget', htook⟩ := hentered
      obtain rfl : table = table' := Option.some.inj (hget.symm.trans hget')
      obtain ⟨table₁, hremove⟩ := Table.exists_removeRow hrow
      refine onTable_ends (hcatalog ▸ hget) ?_ ?_
      · intro value table₂ hvalue
        rw [hremove] at hvalue
        cases hvalue
        rw [← hsame.catalog, Catalog.rows_of_get? hget, Catalog.shapes_of_get? hget]
        exact ⟨hrow, table.shape, rfl, htook.of_log hsame.log⟩
      · intro error herror
        rw [hremove] at herror
        cases herror
    · intro error db' hnothing
      exact hnothing.2.of_log hsame.log
  · intro error mid _ hlog
    exact .inr hlog

/-- An update logs the new row before it is known to fit; if it does not, the record stays. -/
theorem update_logs (h : Handle) (name : String) (rid : Rid) (row : Bytes) (db : Database) :
    (update h name rid row).Ends db
      (fun before db' => db.catalog.rows name rid = some before ∧ ∃ shape, db.catalog.shapes name = some shape ∧
        TookRecord h .update
          (.data { table := shape.id, rid, before := some before, after := some row }) db db')
      fun error db' => (error.isMisfit = false ∧ LogsNothing error db db') ∨
        (error.isMisfit = true ∧ ∃ shape before, db.catalog.shapes name = some shape ∧
          row.length ≠ shape.config.rowSize ∧ db.catalog.rows name rid = some before ∧
          TookRecord h .update
            (.data { table := shape.id, rid, before := some before, after := some row }) db db') := by
  apply lockRow_rowAt_ends h name rid .exclusive
  · intro before mid table hsame hget hrow
    refine (table_succeeds hget).bind_ends ?_
    rintro table mid ⟨rfl, rfl⟩
    refine checkKey_bind_ends h _ _ (fun mid₁ hsame₁ => ?_)
      fun _ _ hsame₁ => .inl ⟨rfl, .inr (hsame₁.log.trans hsame.log)⟩
    have hlog : mid₁.log = db.log := hsame₁.log.trans hsame.log
    have hshape : db.catalog.shapes name = some table.shape := by
      rw [← hsame.catalog]
      exact Catalog.shapes_of_get? hget
    have hbefore : db.catalog.rows name rid = some before := by
      rw [← hsame.catalog, Catalog.rows_of_get? hget, hrow]
    rw [Action.ends_bind]
    apply (enterWrite_took h _ _ mid₁).mono
    · intro _ db' hentered
      obtain ⟨hcatalog', table', hget', htook⟩ := hentered
      rw [hsame₁.catalog] at hcatalog' hget'
      obtain rfl : table = table' := Option.some.inj (hget.symm.trans hget')
      by_cases hsize : row.length = table.heap.config.rowSize
      · obtain ⟨table₁, hreplace⟩ := Table.exists_replaceRow hrow hsize
        refine onTable_ends (hcatalog' ▸ hget) ?_ ?_
        · intro value table₂ hvalue
          rw [hreplace] at hvalue
          cases hvalue
          exact ⟨hbefore, table.shape, hshape, htook.of_log hlog⟩
        · intro error herror
          rw [hreplace] at herror
          cases herror
      · have hreplace := Table.replaceRow_error_of_size hrow hsize
        refine onTable_ends (hcatalog' ▸ hget) ?_ ?_
        · intro value table₂ hvalue
          rw [hreplace] at hvalue
          cases hvalue
        · intro error herror
          rw [hreplace] at herror
          cases herror
          exact .inr ⟨rfl, table.shape, before, hshape, hsize, hbefore, htook.of_log hlog⟩
    · intro error db' hnothing
      exact .inl ⟨hnothing.1, hnothing.2.of_log hlog⟩
  · intro error mid hfits hlog
    exact .inl ⟨hfits, .inr hlog⟩

/-- Whether a database differs from another in its tables at most, as far as log and transactions go. -/
def SameTxns (db db' : Database) : Prop := db'.log = db.log ∧ db'.transactions = db.transactions

instance : IsPreorder Database SameTxns where
  refl _ := ⟨rfl, rfl⟩
  trans _ _ _ h h' := ⟨h'.1.trans h.1, h'.2.trans h.2⟩

theorem SameTxns.txn {db db' : Database} (h : db.SameTxns db') (i : Handle) : db'.txn i = db.txn i := by
  rw [Database.txn, Database.txn, h.2]

theorem SameTxns.sameLog {db db' : Database} (h : db.SameTxns db') : db.SameLog db' :=
  ⟨h.1, fun i => by rw [h.txn]⟩

theorem updateHeap_sameTxns (db : Database) (name : String) (change : Heap → Heap) :
    db.SameTxns (db.updateHeap name change) := by
  unfold updateHeap
  split
  · exact ⟨rfl, rfl⟩
  · exact refl_of SameTxns db

theorem onTable_sameTxns {α : Type} (name : String)
    (operation : Table → Except StorageError (α × Table)) : (onTable name operation).Within SameTxns := by
  have htable : (table name).Within SameTxns :=
    fun db => (table_ends name db).mono (fun _ _ h => h.1 ▸ refl_of SameTxns db)
      fun _ _ h => h.1 ▸ refl_of SameTxns db
  refine htable.bind fun table => ((Action.within_ofExcept _).mapError _).bind fun result => ?_
  exact (Action.within_modify fun _ => ⟨rfl, rfl⟩).bind fun _ => Action.within_pure _

theorem reserveSlot_sameLog (h : Handle) (name : String) : (reserveSlot h name).Within SameLog := by
  refine ((table_within name).mono fun _ _ => SameStore.toSameLog).bind fun table db => ?_
  simp only [Action.ends_bind, Action.ends_get]
  cases table.heap.reserveNamed fun rid => db.locks.lockedByOther (db.txn h).id (.record table.id rid) with
  | mk result heap =>
    rw [Action.ends_set, Action.ends_mapError]
    cases result with
    | ok rid => exact SameTxns.sameLog ⟨rfl, rfl⟩
    | error error => exact SameTxns.sameLog ⟨rfl, rfl⟩

theorem fillSlot_sameLog (h : Handle) (name : String) (rid : Rid) (row : Bytes) :
    (fillSlot h name rid row).Within SameLog := by
  have hplace : (do
      lockRow h name rid .exclusive
      onTable name fun table => (table.placeRow rid row).map ((), ·) :
      Action StatementError Unit).Within SameLog := by
    refine ((lockRow_within h name rid _).mono fun _ _ => SameStore.toSameLog).bind fun _ => ?_
    exact (onTable_sameTxns name _).mono fun _ _ => SameTxns.sameLog
  intro db
  rw [fillSlot, Action.ends_onFailure]
  refine (hplace db).mono (fun _ _ hlog => hlog) fun _ mid hlog => ?_
  exact trans_of SameLog hlog (updateHeap_sameTxns mid name _).sameLog

theorem insert_logs (h : Handle) (name : String) (row : Bytes) (db : Database) :
    (insert h name row).Ends db
      (fun rid db' => ∃ shape, db'.catalog.shapes name = some shape ∧
        TookRecord h .insert (.data { table := shape.id, rid, after := some row }) db db')
      fun error db' => LogsNothing error db db' := by
  refine (table_within name).bind_ends (fun table mid hsame => ?_) fun _ _ hsame => .inr hsame.log
  refine ((acquire_within h _ _).mapError _).bind_ends (fun _ mid₁ hsame₁ => ?_)
    fun _ _ hsame₁ => .inr (hsame₁.log.trans hsame.log)
  have hlog₁ : mid₁.log = db.log := hsame₁.log.trans hsame.log
  refine checkKey_bind_ends h _ _ (fun mid₂ hsame₂ => ?_) fun _ _ hsame₂ => .inr (hsame₂.log.trans hlog₁)
  have hlog₂ : mid₂.log = db.log := hsame₂.log.trans hlog₁
  refine (reserveSlot_sameLog h name).bind_ends (fun rid mid₃ hsame₃ => ?_)
    fun _ _ hsame₃ => .inr (hsame₃.log.trans hlog₂)
  have hlog₃ : mid₃.log = db.log := hsame₃.log.trans hlog₂
  refine (fillSlot_sameLog h name rid row).bind_ends (fun _ mid₄ hsame₄ => ?_)
    fun _ _ hsame₄ => .inr (hsame₄.log.trans hlog₃)
  have hlog₄ : mid₄.log = db.log := hsame₄.log.trans hlog₃
  rw [Action.ends_bind]
  refine (enterWrite_took h _ _ mid₄).mono ?_ ?_
  · rintro _ db' ⟨hcatalog, table', hget, htook⟩
    refine ⟨table'.shape, ?_, htook.of_log hlog₄⟩
    rw [hcatalog]
    exact Catalog.shapes_of_get? hget
  · intro error db' hnothing
    exact hnothing.2.of_log hlog₄

end Database

open Database

/-- The tables have the same shapes after a statement as before. -/
theorem Statement.Outcome.shapes {h : Handle} {statement : Statement}
    {answer : Except StatementError Answer} {db db' : Database}
    (houtcome : Statement.Outcome h statement answer db db') (hs : db.catalog.Sound) :
    db'.catalog.shapes = db.catalog.shapes := by
  cases houtcome.did with
  | quiet hquiet _ => exact (hquiet.rows hs).shapes
  | wrote _ _ hw _ _ _ => exact (hw.change hs).shapes
  | missed _ hw _ _ _ => exact (hw.change hs).shapes

/-- A statement that succeeds logs the change that it has made, and a statement that fails logs nothing,
unless the log has failed. -/
theorem Statement.perform_logs (h : Handle) (statement : Statement) {db : Database}
    (hs : db.catalog.Sound) (hsized : (Call.run h statement).isSized db.catalog.shapes = true) :
    (statement.perform h).Ends db
      (fun answer db' => db.Logs db' ((Call.run h statement).toLog? db (.ok answer)))
      fun error db' => error.isLogFailure = true ∨ db'.log = db.log := by
  cases statement with
  | insert name row =>
    simp only [perform, Action.ends_bind, Action.ends_pure]
    refine ((insert_ends h name row db).and (insert_logs h name row db)).mono ?_
      fun _ _ hnothing => hnothing.2.isLogFailure
    rintro rid db' ⟨houtcome, shape, hshape, htook⟩
    rw [houtcome.shapes hs] at hshape
    simpa only [Call.toLog?, change?, hshape, Option.map_some, Logs] using htook
  | update name rid row =>
    simp only [perform, Action.ends_bind, Action.ends_pure]
    apply (update_logs h name rid row db).mono
    · intro before db' hlogged
      obtain ⟨_, shape, hshape, htook⟩ := hlogged
      simpa only [Call.toLog?, change?, hshape, Option.map_some, Logs] using htook
    · intro error db' hends
      obtain ⟨_, hnothing⟩ | ⟨_, shape, _, hshape, hsize, _⟩ := hends
      · exact hnothing.isLogFailure
      · simp only [Call.isSized, hshape, Option.all_some, decide_eq_true_eq] at hsized
        exact absurd hsized hsize
  | delete name rid =>
    simp only [perform, Action.ends_bind, Action.ends_pure]
    refine (delete_logs h name rid db).mono ?_ fun _ _ hnothing => hnothing.isLogFailure
    rintro before db' ⟨_, shape, hshape, htook⟩
    simpa only [Call.toLog?, change?, hshape, Option.map_some, Logs] using htook
  | read name rid =>
    simp only [perform, Action.ends_bind, Action.ends_pure]
    exact (read_within h name rid db).mono (fun _ _ hsame => hsame.log) fun _ _ hsame => .inr hsame.log
  | acquire resource mode =>
    simp only [perform, Action.ends_bind, Action.ends_mapError, Action.ends_pure]
    exact (acquire_within h resource mode db).mono (fun _ _ hsame => hsame.log)
      fun _ _ hsame => .inr hsame.log

/-! ### Beginnings and ends -/

namespace Database

variable {h : Handle}

theorem begin_took (db : Database) :
    begin.Ends db (fun h db' => TookRecord h .begin (.control db.clock) db db') fun _ _ => True := by
  simp only [begin, Action.ends_bind, Action.ends_get]
  cases happend : db.log.append db.nextTxn 0 .begin (.control db.clock) with
  | mk result log =>
    simp only [Action.ends_set, Action.ends_mapError]
    cases result with
    | error error => trivial
    | ok lsn =>
      simp only [Action.ends_ofExcept_ok, Action.ends_modify, Action.ends_pure]
      refine ⟨_, Log.took_append happend, ?_, rfl, rfl⟩
      have htxn := txn_addTxn_self
        ({ db with log, nextTxn := db.nextTxn + 1, active := db.active.insert db.nextTxn db.nextHandle } :
          Database) (({ id := db.nextTxn } : Transaction).recordLsn lsn)
      exact (congrArg Transaction.id htxn).symm

/-- A transaction that has ended has logged its end, and everything is written out. -/
theorem finish_took (h : Handle) (kind : RecordKind) (state : TransactionState) (db : Database) :
    (finish h kind state).Ends db
      (fun _ db' => TookRecord h kind (.control db.clock) db db' ∧ db'.log.buffer.bytes = [])
      fun error _ => (StatementError.transaction error).isLogFailure = true := by
  simp only [finish, Action.ends_bind, Action.ends_get, Action.ends_mapError]
  refine (logRecord_took h kind _ db).mono ?_ fun _ _ _ => rfl
  rintro _ mid ⟨record, htook, htxn, hkind, hcontent⟩
  rw [Action.ends_modify]
  have hids : ∀ db : Database, Keeps h db (db.setState h state) :=
    fun db => .updateTxn h db (fun _ => rfl) fun _ => rfl
  refine ⟨⟨record, ?_, htxn.trans (hids _).id.symm, hkind, hcontent⟩, Log.buffer_flush mid.log⟩
  have hflushed := htook.trans (Log.took_flush mid.log)
  rwa [List.append_nil] at hflushed

theorem commit_took (h : Handle) (db : Database) :
    (commit h).Ends db
      (fun _ db' => TookRecord h .commit (.control db.clock) db db' ∧ db'.log.buffer.bytes = [])
      fun error db' => (StatementError.transaction error).isLogFailure = true ∨ db'.log = db.log := by
  refine commit_ends_of (fun _ => .inr rfl) fun _ => ?_
  exact (finish_took h .commit .committed (db.letGo h)).mono
    (fun _ _ ⟨htook, hflushed⟩ => ⟨htook.of_log rfl, hflushed⟩) fun _ _ hlost => .inl hlost

theorem abort_took (h : Handle) (db : Database) :
    (abort h).Ends db
      (fun _ db' => TookRecord h .abort (.control db.clock) db db' ∧ db'.log.buffer.bytes = [])
      fun error db' => (StatementError.transaction error).isLogFailure = true ∨ db'.log = db.log := by
  refine abort_ends_of (fun _ => .inr rfl) (fun _ _ _ _ _ => .inr rfl) fun catalog _ _ => ?_
  exact (finish_took h .abort .aborted ((db.rolledBack h [] catalog).letGo h)).mono
    (fun _ _ ⟨htook, hflushed⟩ => ⟨htook.of_log rfl, hflushed⟩) fun _ _ hlost => .inl hlost

end Database

/-! ### Calls -/

/-- A statement that has changed no row has no change to log. -/
theorem Statement.change?_eq_none {shapes : String → Option TableShape} {statement : Statement}
    {answer : Except StatementError Answer} (h : statement.target? answer = none) :
    statement.change? shapes answer = none := by
  cases answer with
  | error error => cases statement <;> rfl
  | ok answer =>
    cases statement with
    | insert table row => cases answer <;> first | rfl | cases h
    | update table rid row => cases h
    | delete table rid => cases h
    | read table rid => rfl
    | acquire resource mode => rfl

/-- A call that is neither a beginning nor an end nor a statement has nothing to log. -/
theorem Call.toLog?_of_other {call : Call} (db : Database) (answer : Except StatementError Answer)
    (hbegin : call ≠ .begin) (hends : ∀ h, call ≠ .commit h ∧ call ≠ .abort h)
    (hrun : ∀ h statement, call ≠ .run h statement) : call.toLog? db answer = none := by
  unfold toLog?
  split
  · exact absurd rfl hbegin
  · exact absurd rfl (hrun _ _)
  · exact absurd rfl (hends _).1
  · exact absurd rfl (hends _).2
  · rfl

/-- A transaction that cannot go on has nothing to log. -/
theorem Effect.toLog?_of_inactive {s : Session} {h : Handle} {statement : Statement}
    {answer : Except StatementError Answer} {db' : Database} (heffect : Effect s (.run h statement) answer db')
    (hlog : Answer.isLogFailure answer = false) (hinactive : s.db.isActive h = false) :
    (Call.run h statement).toLog? s.db answer = none := by
  have hnone : statement.target? answer = none → (Call.run h statement).toLog? s.db answer = none := by
    intro htarget
    rw [Call.toLog?, Statement.change?_eq_none htarget]
    rfl
  cases heffect with
  | arrived _ hcall => simp at hcall
  | untouched _ _ hrun => exact absurd rfl (hrun h statement)
  | quiet _ _ hrun => exact absurd rfl (hrun h statement)
  | ran houtcome =>
    cases houtcome.did with
    | quiet _ htarget => exact hnone htarget
    | missed _ _ _ htarget _ => exact hnone htarget
    | wrote _ _ hw _ _ _ => exact absurd (hinactive.symm.trans hw.active) (by decide)

namespace Session

variable {s : Session} {call : Call} {h : Handle}

/-- A transaction begins, unless the log fails. -/
theorem step_begin (s : Session) :
    Answer.isLogFailure (s.step .begin).1 = true ∨
      (s.step .begin).1 = .ok (.handle s.db.nextHandle) ∧ Arrived s.db (s.step .begin).2.db ∧
        TookRecord s.db.nextHandle .begin (.control s.db.clock) s.db (s.step .begin).2.db := by
  refine act_spec (P := fun answer db' => Answer.isLogFailure answer = true ∨
    answer = .ok (.handle s.db.nextHandle) ∧ Arrived s.db db' ∧
      TookRecord s.db.nextHandle .begin (.control s.db.clock) s.db db') ?_
  rw [Action.ends_bind, Action.ends_mapError]
  refine ((begin_ends s.db).and (begin_took s.db)).mono ?_ ?_
  · rintro h db' ⟨⟨rfl, harrived⟩, htook⟩
    exact .inr ⟨rfl, harrived, htook⟩
  · rintro error db' ⟨⟨_, hlost⟩, _⟩
    exact .inl hlost

/-- The end of a transaction that succeeds is logged and written out. -/
theorem step_end (s : Session) (hends : call = .commit h ∨ call = .abort h) :
    Answer.isLogFailure (s.step call).1 = true ∨
      s.db.Logs (s.step call).2.db (call.toLog? s.db (s.step call).1) ∧
        ((s.step call).1.isOk = true → (s.step call).2.db.log.buffer.bytes = []) := by
  refine step_end_spec (P := fun answer db' => Answer.isLogFailure answer = true ∨
    s.db.Logs db' (call.toLog? s.db answer) ∧ (answer.isOk = true → db'.log.buffer.bytes = [])) hends ?_ ?_
  · rintro rfl
    refine (commit_took h s.db).mono ?_ ?_
    · rintro _ db' ⟨htook, hflushed⟩
      exact .inr ⟨htook, fun _ => hflushed⟩
    · rintro error db' (hlost | hlog)
      · exact .inl hlost
      · exact .inr ⟨hlog, fun hok => by cases hok⟩
  · rintro rfl
    refine (abort_took h s.db).mono ?_ ?_
    · rintro _ db' ⟨htook, hflushed⟩
      exact .inr ⟨htook, fun _ => hflushed⟩
    · rintro error db' (hlost | hlog)
      · exact .inl hlost
      · exact .inr ⟨hlog, fun hok => by cases hok⟩

/-- Every call logs exactly what it has to log, unless the log fails. -/
theorem step_logs (s : Session) (call : Call) (hs : s.db.catalog.Sound)
    (hsized : call.isSized s.db.catalog.shapes = true) :
    Answer.isLogFailure (s.step call).1 = true ∨
      s.db.Logs (s.step call).2.db (call.toLog? s.db (s.step call).1) := by
  have hsparing : call.isSparing = true → call.toLog? s.db (s.step call).1 = none →
      s.db.Logs (s.step call).2.db (call.toLog? s.db (s.step call).1) := by
    intro hcall hnone
    rw [hnone]
    exact (step_sameStore hcall).log
  cases call with
  | begin =>
    rcases step_begin s with hlost | ⟨hanswer, _, htook⟩
    · exact .inl hlost
    · rw [hanswer]
      exact .inr htook
  | commit h => exact (step_end s (.inl rfl)).imp_right And.left
  | abort h => exact (step_end s (.inr rfl)).imp_right And.left
  | run h statement =>
    refine act_spec (P := fun answer db' => Answer.isLogFailure answer = true ∨
      s.db.Logs db' ((Call.run h statement).toLog? s.db answer)) ?_
    refine (statement.perform_logs h hs hsized).mono (fun _ _ hlogs => .inr hlogs) ?_
    rintro error db' (hlost | hlog)
    · exact .inl hlost
    · refine .inr ?_
      cases statement <;> exact hlog
  | adopt id => exact .inr (hsparing rfl rfl)
  | lockGap h table start stop => exact .inr (hsparing rfl rfl)
  | checkGap h table position => exact .inr (hsparing rfl rfl)
  | lockRange h table range => exact .inr (hsparing rfl rfl)
  | openScan owner table plan => exact .inr (hsparing rfl rfl)
  | initScan i => exact .inr (hsparing rfl rfl)
  | nextScan i => exact .inr (hsparing rfl rfl)
  | release h resource => exact .inr (hsparing rfl rfl)
  | releaseAll h => exact .inr (hsparing rfl rfl)
  | releaseGaps h => exact .inr (hsparing rfl rfl)

end Session

end NoWait
