import NoWait.Proofs.LogRoom

/-!
# The sequence numbers of a log that grows

A log that takes record after record, and writes them out now and then, gives them consecutive numbers.  As
long as none is used up in vain, the highest number that is in the file or waits for it is the last one given.

* `Log.Grows` lists the records that a log takes on the way to another; `Grows.took` says that these are what it
  has more, and `Grows.nextLsn` that it goes on behind them;
* `Log.Level` says that no number is missing at the end, `Grows.level` that it stays so, and
  `Level.flushedLsn` that all numbers are in the file once nothing waits;
* `LogRecord.summary` is what a record says besides its numbers and its time;
* `Database.TookRecord.grows` and `Database.Logs.grows` say that whatever logs what it has to makes the log grow by
  records that say so.
-/

namespace NoWait

/-! ### Logs that grow -/

namespace Log

variable {log mid log' : Log} {records older newer : List LogRecord} {record : LogRecord}

/-- Whether a log comes from another by taking some records, one after another, and writing them out now and
then. -/
inductive Grows (log : Log) : List LogRecord → Log → Prop where
  | refl : Grows log [] log
  | take {records : List LogRecord} {log' : Log} (record : LogRecord) : Grows log records log' →
    record.lsn = log'.nextLsn → log'.HasRoom record.encode.length →
    Grows log (records ++ [record]) (log'.take record)
  | flush {records : List LogRecord} {log' : Log} : Grows log records log' → Grows log records log'.flush

theorem Grows.trans (h : log.Grows older mid) (h' : mid.Grows newer log') :
    log.Grows (older ++ newer) log' := by
  induction h' with
  | refl => rwa [List.append_nil]
  | take record _ hlsn hroom ih =>
    rw [← List.append_assoc]
    exact ih.take record hlsn hroom
  | flush _ ih => exact ih.flush

/-- A log has more what it has taken, and nothing else. -/
theorem Grows.took (h : log.Grows records log') : log.Took log' records := by
  induction h with
  | refl => exact took_nil rfl
  | @take _ mid record _ _ hroom ih =>
    refine ih.trans ⟨?_, rfl, by simpa [HasRoom] using hroom⟩
    show mid.file ++ (mid.buffer.trail.append record.frame).toBytes = mid.bytes ++ [record].flatMap _
    rw [Trail.toBytes_append, ← List.append_assoc, List.flatMap_singleton]
    rfl
  | flush _ ih =>
    have hflushed := ih.trans (took_flush _)
    rwa [List.append_nil] at hflushed

theorem Grows.hasRoom_iff (h : log.Grows records log') (size : Nat) : log'.HasRoom size ↔ log.HasRoom size :=
  hasRoom_congr h.took.config size

/-- Every record that a log takes uses up one number. -/
theorem Grows.nextLsn (h : log.Grows records log') :
    log'.nextLsn = log.nextLsn + UInt64.ofNat records.length := by
  induction h with
  | refl => simp
  | @take _ mid record _ _ _ ih =>
    show mid.nextLsn + 1 = _
    rw [ih, List.length_append, UInt64.ofNat_add, UInt64.add_assoc]
    rfl
  | flush _ ih => rw [nextLsn_flush, ih]

/-- Whether the highest number in the file, or of those that wait, is the one before the next. -/
structure Level (log : Log) : Prop where
  last : max log.flushedLsn.toNat log.buffer.maxLsn.toNat + 1 = log.nextLsn.toNat
  waiting : log.buffer.bytes = [] → log.buffer.maxLsn = 0

theorem Level.flush (h : log.Level) : log.flush.Level := by
  by_cases hnil : log.buffer.bytes = []
  · rwa [flush_of_nil hnil]
  · rw [flush_of_ne_nil hnil]
    refine ⟨?_, fun _ => rfl⟩
    show max (max log.flushedLsn log.buffer.maxLsn).toNat 0 + 1 = log.nextLsn.toNat
    rw [Nat.max_zero, UInt64.toNat_max]
    exact h.last

theorem Level.take (h : log.Level) (hlsn : record.lsn = log.nextLsn)
    (hnext : log.nextLsn.toNat + 1 < UInt64.size) : (log.take record).Level where
  last := by
    have hlast := h.last
    show max log.flushedLsn.toNat (max log.buffer.maxLsn record.lsn).toNat + 1 = (log.nextLsn + 1).toNat
    rw [UInt64.toNat_max, hlsn, UInt64.toNat_add, UInt64.toNat_one, Nat.mod_eq_of_lt hnext]
    omega
  waiting := by
    intro hnil
    have hframe : (log.buffer.trail.append record.frame).toBytes = [] := hnil
    rw [Trail.toBytes_append, List.append_eq_nil_iff] at hframe
    exact absurd hframe.2 record.frame_ne_nil

theorem toNat_pred {lsn : Lsn} (hlsn : lsn ≠ 0) : (lsn - 1).toNat + 1 = lsn.toNat := by
  have hpos : lsn.toNat ≠ 0 := fun hzero => hlsn (UInt64.toNat_inj.mp hzero)
  have hone : (1 : Lsn) ≤ lsn := by
    rw [UInt64.le_iff_toNat_le, UInt64.toNat_one]
    omega
  rw [UInt64.toNat_sub_of_le _ _ hone, UInt64.toNat_one]
  omega

/-- Once nothing waits, every number that was given is in the file. -/
theorem Level.flushedLsn (h : log.Level) (hnil : log.buffer.bytes = []) :
    log.flushedLsn = log.nextLsn - 1 := by
  have hlast := h.last
  rw [h.waiting hnil, UInt64.toNat_zero, Nat.max_zero] at hlast
  have hne : log.nextLsn ≠ 0 := by
    intro hzero
    rw [hzero] at hlast
    cases hlast
  rw [← UInt64.toNat_inj, ← Nat.add_right_cancel_iff, toNat_pred hne, hlast]

end Log

/-! ### What makes a log grow -/

/-- The change of a row that a record carries, if it does. -/
def RecordContent.change? : RecordContent → Option RowChange
  | .data change => some change
  | .control _ => none

/-- What a record says: on behalf of which transaction it is, of which kind, and which change it carries. -/
abbrev LogSummary := TxnId × RecordKind × Option RowChange

/-- What a record says besides its numbers and its time. -/
def LogRecord.summary (record : LogRecord) : LogSummary := (record.txn, record.kind, record.content.change?)

namespace Database

variable {h : Handle} {db db' : Database} {record? : Option LogRecord} {record : LogRecord}

/-- A record that is taken makes the log grow by it. -/
theorem Tried.grows (htried : Tried h db db' (some record)) : db.log.Grows [record] db'.log := by
  cases htried with
  | taken _ _ hlsn _ _ hfits hlog _ _ =>
    have htake : db.log.Grows ([] ++ [record]) (db.log.take record) := Log.Grows.refl.take record hlsn hfits
    rcases hlog with hlog | hlog
    · rw [hlog]
      exact htake
    · rw [hlog]
      exact htake.flush

/-- An attempt leaves the log with the record, if it has taken it, and with nothing else. -/
theorem Tried.took (htried : Tried h db db' record?) : db.log.Took db'.log record?.toList := by
  cases record? with
  | some record => exact htried.grows.took
  | none =>
    cases htried with
    | same hsame => exact Log.took_nil hsame.log
    | refused hlog _ =>
      rw [hlog]
      exact ⟨by simp [Log.bytes, Log.file], rfl, by simp⟩

/-- Whoever tries to log a record, and has it taken, has made the log grow by it, and by nothing else. -/
theorem TookRecord.grows {kind : RecordKind} {content : RecordContent} (htook : TookRecord h kind content db db')
    {h' : Handle} (htries : Tries h' db db') :
    ∃ record, db.log.Grows [record] db'.log ∧ record.summary = ((db'.txn h).id, kind, content.change?) := by
  obtain ⟨record, htook, htxn, rfl, rfl⟩ := htook
  obtain ⟨record?, htried⟩ := htries
  cases record? with
  | none =>
    have hbytes := htook.bytes.symm.trans htried.took.bytes
    rw [List.append_cancel_left_eq, List.flatMap_singleton] at hbytes
    exact absurd hbytes record.frame_ne_nil
  | some record' =>
    obtain rfl := htook.record_unique htried.took
    exact ⟨record, htried.grows, by rw [LogRecord.summary, htxn]⟩

/-- Whoever has logged what there was to log has made the log grow by that, and by nothing else. -/
theorem Logs.grows {toLog? : Option (Handle × RecordKind × RecordContent)} (hlogs : db.Logs db' toLog?)
    (htries : Tries h db db') :
    ∃ records, db.log.Grows records db'.log ∧ records.map LogRecord.summary =
      toLog?.toList.map fun logged => ((db'.txn logged.1).id, logged.2.1, logged.2.2.change?) := by
  cases toLog? with
  | none =>
    rw [Logs] at hlogs
    exact ⟨[], hlogs ▸ .refl, rfl⟩
  | some logged =>
    obtain ⟨record, hgrows, hsummary⟩ := TookRecord.grows hlogs htries
    exact ⟨[record], hgrows, congrArg (fun summary => [summary]) hsummary⟩

end Database

end NoWait
