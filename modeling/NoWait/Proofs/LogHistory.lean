import Mathlib.Data.List.Induction
import NoWait.Proofs.LogCodec

/-!
# The log file is the history of its appends

A log is opened on a file, takes records, writes them out when they are many or when it is asked to, and
loses at its close what it has not written out.  Then it is opened again on the same file.

* `LogSession` is the file with the log that is open on it, `LogSession.step` does what a user asks for,
  and `LogRun` is a sequence of such calls from an empty file;
* `LogLedger` is the account of the records that were accepted: those in the file and those in the buffer;
* `FileHolds` and `Log.Holds` say that file and buffer have exactly the frames of these records, with
  sequence numbers in order; `Log.Holds.take`, `Log.Holds.flush` and `FileHolds.ofFile` are the steps;
* `log_file_is_history` is what follows for a whole run.
-/

namespace NoWait

/-! ### Users of a log file -/

/-- What a user of a log file asks for. -/
inductive LogCall where
  | openWith (config : LogConfig)
  | append (txn : TxnId) (prev : Lsn) (kind : RecordKind) (content : RecordContent)
  | flush
  | close
  deriving Inhabited, Repr

/-- A log file: either nobody has it open, or a log is open on it. -/
inductive LogSession where
  | closed (file : Bytes)
  | running (log : Log)
  deriving Inhabited, Repr

namespace LogSession

/-- The bytes of the file. -/
def file : LogSession → Bytes
  | closed file => file
  | running log => log.file

/-- Does what is asked for, if it can be done.  A log that is closed takes its buffer along. -/
def step : LogSession → LogCall → LogSession
  | closed file, .openWith config =>
    match Log.ofFile config file with
    | .ok log => running log
    | .error _ => closed (Log.startFile file)
  | running log, .append txn prev kind content => running (log.append txn prev kind content).2
  | running log, .flush => running log.flush
  | running log, .close => closed log.file
  | s, _ => s

/-- The record that an append has put into the log, if it has not been refused. -/
def accepted? : LogSession → LogCall → Option LogRecord
  | running log, .append txn prev kind content =>
    match (log.append txn prev kind content).1 with
    | .ok lsn => some { lsn, txn, prev, kind, content }
    | .error _ => none
  | _, _ => none

end LogSession

/-- The records that were accepted, in order: those that have been written out, and those that wait. -/
structure LogLedger where
  written : List LogRecord := []
  waiting : List LogRecord := []
  deriving DecidableEq, Inhabited, Repr

namespace LogLedger

/-- All records, in order. -/
def records (ledger : LogLedger) : List LogRecord := ledger.written ++ ledger.waiting

/-- The account after everything has been written out. -/
def flush (ledger : LogLedger) : LogLedger := { written := ledger.records }

/-- A further record waits, until the frames that wait have as many bytes as the threshold. -/
def add (ledger : LogLedger) (threshold : Nat) (record : LogRecord) : LogLedger :=
  let waiting := ledger.waiting ++ [record]
  if threshold ≤ (waiting.flatMap LogRecord.frame).length then { written := ledger.written ++ waiting }
  else { ledger with waiting }

/-- Wherever the threshold is, the record comes behind all others. -/
theorem records_add (ledger : LogLedger) (threshold : Nat) (record : LogRecord) :
    (ledger.add threshold record).records = ledger.records ++ [record] := by
  simp only [add]
  split
  · simp [records]
  · simp [records]

/-- What a call does to the account: what waits when the log is closed is lost. -/
def enter (ledger : LogLedger) (s : LogSession) (call : LogCall) : LogLedger :=
  match s, call with
  | .running log, .append .. =>
    match s.accepted? call with
    | some record => ledger.add log.buffer.threshold record
    | none => ledger
  | .running _, .flush => ledger.flush
  | .running _, .close => { ledger with waiting := [] }
  | _, _ => ledger

end LogLedger

/-- The calls made from an empty file on, with the session that each was made on, and the session and the
account that they leave. -/
inductive LogRun : List (LogSession × LogCall) → LogSession → LogLedger → Prop where
  | nil : LogRun [] (.closed []) {}
  | snoc {trace : List (LogSession × LogCall)} {s : LogSession} {ledger : LogLedger} (call : LogCall) :
    LogRun trace s ledger → LogRun (trace ++ [(s, call)]) (s.step call) (ledger.enter s call)

/-! ### Numbers in order -/

/-- The sequence number of the last record, or zero. -/
def lastLsn (records : List LogRecord) : Lsn := (records.getLast?.map (·.lsn)).getD 0

/-- Records that one log can have: each fits into a frame, and the sequence numbers ascend, leaving room
for another one. -/
structure InSequence (records : List LogRecord) : Prop where
  framed : ∀ record ∈ records, record.IsFramed
  ascending : records.Pairwise fun a b => a.lsn < b.lsn
  room : ∀ record ∈ records, record.lsn.toNat + 1 < UInt64.size

variable {records older newer : List LogRecord} {record : LogRecord}

@[simp] theorem lastLsn_nil : lastLsn [] = 0 := rfl

@[simp] theorem lastLsn_concat : lastLsn (records ++ [record]) = record.lsn := by
  simp [lastLsn]

theorem InSequence.nil : InSequence [] := ⟨by simp, .nil, by simp⟩

theorem InSequence.of_append (h : InSequence (older ++ newer)) : InSequence older where
  framed := fun record hmem => h.framed record (List.mem_append_left _ hmem)
  ascending := (List.pairwise_append.mp h.ascending).1
  room := fun record hmem => h.room record (List.mem_append_left _ hmem)

theorem InSequence.of_append_right (h : InSequence (older ++ newer)) : InSequence newer where
  framed := fun record hmem => h.framed record (List.mem_append_right _ hmem)
  ascending := (List.pairwise_append.mp h.ascending).2.1
  room := fun record hmem => h.room record (List.mem_append_right _ hmem)

/-- A record with a larger number goes behind all others. -/
theorem InSequence.concat (h : InSequence records) (hframed : record.IsFramed)
    (hlarger : ∀ r ∈ records, r.lsn < record.lsn) (hroom : record.lsn.toNat + 1 < UInt64.size) :
    InSequence (records ++ [record]) where
  framed := by
    intro r hmem
    rcases List.mem_append.mp hmem with hmem | hmem
    · exact h.framed r hmem
    · rw [List.mem_singleton.mp hmem]
      exact hframed
  ascending := by
    rw [List.pairwise_append]
    refine ⟨h.ascending, List.pairwise_singleton _ _, fun a ha b hb => ?_⟩
    rw [List.mem_singleton.mp hb]
    exact hlarger a ha
  room := by
    intro r hmem
    rcases List.mem_append.mp hmem with hmem | hmem
    · exact h.room r hmem
    · rw [List.mem_singleton.mp hmem]
      exact hroom

theorem lastLsn_eq_zero_or_mem (records : List LogRecord) :
    lastLsn records = 0 ∨ ∃ record ∈ records, record.lsn = lastLsn records := by
  cases records using List.reverseRecOn with
  | nil => exact .inl rfl
  | append_singleton records record => exact .inr ⟨record, by simp, by simp⟩

/-- The last number of two stretches is the larger one of the two last numbers. -/
theorem InSequence.max_lastLsn (h : InSequence (older ++ newer)) :
    max (lastLsn older) (lastLsn newer) = lastLsn (older ++ newer) := by
  cases newer using List.reverseRecOn with
  | nil =>
    rw [List.append_nil, lastLsn_nil]
    exact max_zero_lsn _
  | append_singleton newer record =>
    rw [← List.append_assoc, lastLsn_concat, lastLsn_concat]
    refine if_pos ?_
    rcases lastLsn_eq_zero_or_mem older with hzero | ⟨r, hmem, heq⟩
    · rw [hzero]
      exact UInt64.zero_le
    · rw [← heq]
      have hlt := (List.pairwise_append.mp h.ascending).2.2 r hmem record (by simp)
      exact UInt64.le_of_lt hlt

theorem InSequence.le_lastLsn (h : InSequence records) (hmem : record ∈ records) :
    record.lsn ≤ lastLsn records := by
  cases records using List.reverseRecOn with
  | nil => cases hmem
  | append_singleton records last =>
    rw [lastLsn_concat]
    rcases List.mem_append.mp hmem with hmem | hmem
    · exact UInt64.le_of_lt ((List.pairwise_append.mp h.ascending).2.2 record hmem last (by simp))
    · rw [List.mem_singleton.mp hmem]
      exact UInt64.le_refl _

theorem InSequence.room_lastLsn (h : InSequence records) : (lastLsn records).toNat + 1 < UInt64.size := by
  rcases lastLsn_eq_zero_or_mem records with hzero | ⟨record, hmem, heq⟩
  · rw [hzero]
    decide
  · rw [← heq]
    exact h.room record hmem

/-- Every record has a frame. -/
theorem flatMap_frame_eq_nil : records.flatMap LogRecord.frame = [] ↔ records = [] := by
  cases records with
  | nil => simp
  | cons record records => simp [record.frame_ne_nil]

/-! ### Logs that hold their records -/

/-- Whether a file consists of its header and the frames of the given records. -/
structure FileHolds (file : Bytes) (records : List LogRecord) : Prop where
  inSequence : InSequence records
  bytes : file = LogHeader.encode { firstLsn := 1 } ++ records.flatMap LogRecord.frame

/-- Whether the file and the buffer of a log have the records of an account, and the numbers of the log go
with those of the records. -/
structure Log.Holds (log : Log) (ledger : LogLedger) : Prop where
  inSequence : InSequence ledger.records
  file : log.file = LogHeader.encode { firstLsn := 1 } ++ ledger.written.flatMap LogRecord.frame
  buffer : log.buffer.bytes = ledger.waiting.flatMap LogRecord.frame
  bounded : log.buffer.config.bufferSize.toNat < UInt32.size
  maxLsn : log.buffer.maxLsn = lastLsn ledger.waiting
  next : ∀ record ∈ ledger.records, record.lsn < log.nextLsn
  flushed : log.flushedLsn = lastLsn ledger.written

namespace FileHolds

variable {file : Bytes}

theorem readRecords_eq (h : FileHolds file records) : readRecords file = .ok records := by
  rw [h.bytes, readRecords_encode _ h.inSequence.framed]

theorem startFile_eq (h : FileHolds file records) : Log.startFile file = file := by
  refine Log.startFile_of_ne_nil ?_
  rw [h.bytes]
  rintro ⟨⟩

/-- A file that is empty holds no record as soon as it has its header. -/
theorem of_nil : FileHolds (Log.startFile []) [] := ⟨.nil, rfl⟩

/-- A log that is opened on a file holds its records and goes on behind the last one. -/
theorem ofFile (h : FileHolds (Log.startFile file) records) {config : LogConfig}
    (hconfig : config.bufferSize.toNat < UInt32.size) :
    ∃ log, Log.ofFile config file = .ok log ∧ log.Holds { written := records } ∧
      log.file = Log.startFile file ∧ log.nextLsn = lastLsn records + 1 ∧
      log.buffer.threshold = config.threshold := by
  have hheader : LogHeader.read? (Log.startFile file) = some { firstLsn := 1 } := by
    rw [h.bytes, LogHeader.read?_encode]
  have hresume : Log.resumeLsn { firstLsn := 1 } records = lastLsn records + 1 := by
    unfold Log.resumeLsn lastLsn
    cases records.getLast? <;> rfl
  have hroom := h.inSequence.room_lastLsn
  have hnext : (lastLsn records + 1).toNat = (lastLsn records).toNat + 1 := by
    rw [UInt64.toNat_add]
    exact Nat.mod_eq_of_lt hroom
  have hne : lastLsn records + 1 ≠ 0 := by
    intro hzero
    rw [hzero] at hnext
    cases hnext
  have hfits : config.bufferSize.toNat ≤ Bytes.blockLimit := Nat.le_trans (Nat.le_of_lt hconfig) (by decide)
  let log : Log := {
    trail := .ofBytes (Log.startFile file)
    buffer := { config }
    nextLsn := lastLsn records + 1
    flushedLsn := lastLsn records + 1 - 1 }
  refine ⟨log, ?_, ?_, ?_, rfl, rfl⟩
  · refine Log.ofFile_eq_ok_iff.mpr ⟨{ firstLsn := 1 }, records, ⟨hheader, by decide⟩, h.readRecords_eq, ?_, hfits, ?_⟩
    · rw [hresume]
      exact hne
    · rw [hresume]
  · refine ⟨?_, ?_, rfl, hconfig, rfl, ?_, ?_⟩
    · simpa [LogLedger.records] using h.inSequence
    · rw [← h.bytes]
      exact Trail.toBytes_ofBytes _
    · intro record hmem
      simp only [LogLedger.records, List.append_nil] at hmem
      have hle := UInt64.le_iff_toNat_le.mp (h.inSequence.le_lastLsn hmem)
      rw [UInt64.lt_iff_toNat_lt]
      show record.lsn.toNat < (lastLsn records + 1).toNat
      omega
    · show lastLsn records + 1 - 1 = lastLsn records
      simp
  · exact Trail.toBytes_ofBytes _

end FileHolds

namespace Log

variable {log log' : Log} {ledger : LogLedger}

/-- What is written out uses up no number. -/
theorem nextLsn_flush (log : Log) : log.flush.nextLsn = log.nextLsn := by
  by_cases hnil : log.buffer.bytes = []
  · rw [flush_of_nil hnil]
  · rw [flush_of_ne_nil hnil]

/-- A flush writes out what waits. -/
theorem Holds.flush (h : log.Holds ledger) : log.flush.Holds ledger.flush := by
  have hsequence : InSequence ledger.flush.records := by
    simpa [LogLedger.flush, LogLedger.records] using h.inSequence
  have hnext : ∀ record ∈ ledger.flush.records, record.lsn < log.nextLsn := by
    simpa [LogLedger.flush, LogLedger.records] using h.next
  by_cases hwaiting : ledger.waiting = []
  · have hnil : log.buffer.bytes = [] := by
      rw [h.buffer, hwaiting]
      rfl
    have hledger : ledger.flush = ledger := by
      cases ledger
      simp only [LogLedger.flush, LogLedger.records] at hwaiting ⊢
      rw [hwaiting, List.append_nil]
    rw [flush_of_nil hnil, hledger]
    exact h
  · have hne : log.buffer.bytes ≠ [] := by
      rw [h.buffer]
      exact fun hnil => hwaiting (flatMap_frame_eq_nil.mp hnil)
    rw [flush_of_ne_nil hne]
    refine ⟨hsequence, ?_, rfl, h.bounded, rfl, hnext, ?_⟩
    · show (log.trail.append log.buffer.bytes).toBytes = _
      have hfile : log.trail.toBytes = _ := h.file
      rw [Trail.toBytes_append, hfile, h.buffer, List.append_assoc, ← List.flatMap_append]
      rfl
    · show max log.flushedLsn log.buffer.maxLsn = _
      rw [h.flushed, h.maxLsn]
      exact h.inSequence.max_lastLsn

/-- The log with a record put into its buffer. -/
def take (log : Log) (record : LogRecord) : Log := { log with
  nextLsn := log.nextLsn + 1
  buffer := { log.buffer with
    trail := log.buffer.trail.append record.frame
    maxLsn := max log.buffer.maxLsn record.lsn } }

/-- An append refuses the record, and has used a number up, or puts it into the buffer, which is written
out if it has reached its threshold. -/
theorem append_cases (log : Log) (txn : TxnId) (prev : Lsn) (kind : RecordKind) (content : RecordContent) :
    let record : LogRecord := { lsn := log.nextLsn, txn, prev, kind, content }
    log.append txn prev kind content =
        (.error (.buffer (.recordTooLarge record.encode.length)), { log with nextLsn := log.nextLsn + 1 }) ∨
      record.encode.length + 4 ≤ log.buffer.config.bufferSize.toNat ∧
      log.append txn prev kind content = (.ok log.nextLsn,
        if log.buffer.threshold ≤ (log.buffer.bytes ++ record.frame).length then (log.take record).flush
        else log.take record) := by
  intro record
  by_cases hfits : record.encode.length + 4 ≤ log.buffer.config.bufferSize.toNat
  · right
    refine ⟨hfits, ?_⟩
    simp only [append, LogBuffer.append_eq]
    rw [if_pos hfits, LogBuffer.bytes_add]
    simp only [decide_eq_true_eq]
    rfl
  · left
    simp only [append, LogBuffer.append_eq]
    rw [if_neg hfits]

/-- A record that is put into the buffer waits there with the others. -/
theorem Holds.take (h : log.Holds ledger) (hroom : log.nextLsn.toNat + 1 < UInt64.size)
    {record : LogRecord} (hlsn : record.lsn = log.nextLsn)
    (hfits : record.encode.length + 4 ≤ log.buffer.config.bufferSize.toNat) :
    (log.take record).Holds { ledger with waiting := ledger.waiting ++ [record] } := by
  have hrecords : ({ ledger with waiting := ledger.waiting ++ [record] } : LogLedger).records =
      ledger.records ++ [record] := (List.append_assoc _ _ _).symm
  have hframed : record.IsFramed := by
    have hbounded := h.bounded
    show record.encode.length < UInt32.size
    omega
  have hsequence : InSequence (ledger.records ++ [record]) :=
    h.inSequence.concat hframed (fun r hmem => hlsn ▸ h.next r hmem) (hlsn ▸ hroom)
  have hnext : (log.nextLsn + 1).toNat = log.nextLsn.toNat + 1 := by
    rw [UInt64.toNat_add]
    exact Nat.mod_eq_of_lt hroom
  refine ⟨hrecords ▸ hsequence, h.file, ?_, h.bounded, ?_, ?_, h.flushed⟩
  · show (log.buffer.trail.append record.frame).toBytes = _
    have hbuffer : log.buffer.trail.toBytes = _ := h.buffer
    rw [Trail.toBytes_append, hbuffer, List.flatMap_append, List.flatMap_singleton]
  · show max log.buffer.maxLsn record.lsn = lastLsn (ledger.waiting ++ [record])
    have hwaiting : InSequence (ledger.waiting ++ [record]) := by
      rw [LogLedger.records, List.append_assoc] at hsequence
      exact hsequence.of_append_right
    rw [h.maxLsn, ← hwaiting.max_lastLsn]
    rfl
  · intro r hmem
    rw [hrecords] at hmem
    rw [UInt64.lt_iff_toNat_lt]
    show r.lsn.toNat < (log.nextLsn + 1).toNat
    rcases List.mem_append.mp hmem with hmem | hmem
    · have hlt := UInt64.lt_iff_toNat_lt.mp (h.next r hmem)
      omega
    · rw [List.mem_singleton.mp hmem, hlsn]
      omega

/-- A refused record leaves the file, the buffer and the account as they are. -/
theorem Holds.refuse (h : log.Holds ledger) (hroom : log.nextLsn.toNat + 1 < UInt64.size) :
    ({ log with nextLsn := log.nextLsn + 1 } : Log).Holds ledger := by
  refine ⟨h.inSequence, h.file, h.buffer, h.bounded, h.maxLsn, fun record hmem => ?_, h.flushed⟩
  have hlt := UInt64.lt_iff_toNat_lt.mp (h.next record hmem)
  have hnext : (log.nextLsn + 1).toNat = log.nextLsn.toNat + 1 := by
    rw [UInt64.toNat_add]
    exact Nat.mod_eq_of_lt hroom
  rw [UInt64.lt_iff_toNat_lt]
  show record.lsn.toNat < (log.nextLsn + 1).toNat
  omega

theorem Holds.fileHolds (h : log.Holds ledger) : FileHolds log.file ledger.written :=
  ⟨h.inSequence.of_append, h.file⟩

end Log

/-! ### Calls and runs -/

namespace LogSession

variable {s : LogSession} {ledger : LogLedger}

/-- Whether a call stays within bounds: the lengths of all records that fit into the buffer fit into four
bytes, and the sequence number that a record gets is not the largest one. -/
def Admits (s : LogSession) (call : LogCall) : Prop :=
  match s, call with
  | .closed _, .openWith config => config.bufferSize.toNat < UInt32.size
  | .running log, .append .. => log.nextLsn.toNat + 1 < UInt64.size
  | _, _ => True

/-- Whether a session has the records of an account. -/
def Holds : LogSession → LogLedger → Prop
  | .closed file, ledger => FileHolds (Log.startFile file) ledger.written ∧ ledger.waiting = []
  | .running log, ledger => log.Holds ledger

/-- Every call within bounds does to the session what it does to the account. -/
theorem Holds.step (h : s.Holds ledger) {call : LogCall} (hadmits : s.Admits call) :
    (s.step call).Holds (ledger.enter s call) := by
  cases s with
  | closed file =>
    cases call with
    | openWith config =>
      obtain ⟨log, hopen, hlog, _⟩ := h.1.ofFile hadmits
      have hledger : ledger = { written := ledger.written } := by
        cases ledger
        exact congrArg _ h.2
      simp only [step, hopen, LogLedger.enter]
      rw [hledger]
      exact hlog
    | append txn prev kind content => exact h
    | flush => exact h
    | close => exact h
  | running log =>
    have hlog : log.Holds ledger := h
    cases call with
    | openWith config => exact h
    | append txn prev kind content =>
      have hroom : log.nextLsn.toNat + 1 < UInt64.size := hadmits
      rcases log.append_cases txn prev kind content with happend | ⟨hfits, happend⟩
      · simp only [step, LogLedger.enter, accepted?, happend]
        exact hlog.refuse hroom
      · have htaken := hlog.take hroom rfl hfits
        simp only [step, LogLedger.enter, accepted?, happend, LogLedger.add]
        rw [hlog.buffer, List.flatMap_append, List.flatMap_singleton]
        split
        · exact htaken.flush
        · exact htaken
    | flush => exact hlog.flush
    | close =>
      refine ⟨?_, rfl⟩
      show FileHolds (Log.startFile log.file) ledger.written
      rw [hlog.fileHolds.startFile_eq]
      exact hlog.fileHolds

/-- What is read from the file are the records that have been written out. -/
theorem Holds.readRecords_file (h : s.Holds ledger) : readRecords s.file = .ok ledger.written := by
  cases s with
  | running log => exact h.fileHolds.readRecords_eq
  | closed file =>
    cases file with
    | nil =>
      have hnil : ledger.written.flatMap LogRecord.frame = [] :=
        List.append_right_eq_self.mp h.1.bytes.symm
      rw [flatMap_frame_eq_nil.mp hnil]
      exact readFrames_nil
    | cons byte file => exact h.1.readRecords_eq

theorem Holds.inSequence (h : s.Holds ledger) : InSequence ledger.records := by
  cases s with
  | running log => exact Log.Holds.inSequence h
  | closed file =>
    rw [LogLedger.records, h.2, List.append_nil]
    exact h.1.inSequence

theorem Holds.startFile (h : s.Holds ledger) : FileHolds (Log.startFile s.file) ledger.written := by
  cases s with
  | running log =>
    have hfile : FileHolds log.file ledger.written := Log.Holds.fileHolds h
    show FileHolds (Log.startFile log.file) ledger.written
    rw [hfile.startFile_eq]
    exact hfile
  | closed file => exact h.1

end LogSession

variable {trace : List (LogSession × LogCall)} {s : LogSession} {ledger : LogLedger}

/-- File and buffer have the records of the account after any run within bounds. -/
theorem LogRun.holds (hrun : LogRun trace s ledger) (hadmits : ∀ entry ∈ trace, entry.1.Admits entry.2) :
    s.Holds ledger := by
  induction hrun with
  | nil => exact ⟨FileHolds.of_nil, rfl⟩
  | @snoc trace s ledger call _ ih =>
    have hs : s.Holds ledger := ih fun entry hmem => hadmits entry (List.mem_append_left _ hmem)
    exact hs.step (hadmits (s, call) (List.mem_append_right _ (List.mem_singleton_self _)))

/-- As long as the log is not closed, every record that was accepted is in the account. -/
theorem LogRun.records_eq (hrun : LogRun trace s ledger) (hopen : ∀ entry ∈ trace, entry.2 ≠ .close) :
    ledger.records = trace.filterMap fun entry => entry.1.accepted? entry.2 := by
  induction hrun with
  | nil => rfl
  | @snoc trace s ledger call _ ih =>
    have hbefore := ih fun entry hmem => hopen entry (List.mem_append_left _ hmem)
    have hcall : call ≠ .close := hopen (s, call) (List.mem_append_right _ (List.mem_singleton_self _))
    have hrecords : (ledger.enter s call).records = ledger.records ++ (s.accepted? call).toList := by
      cases s with
      | closed file => cases call <;> simp [LogLedger.enter, LogSession.accepted?]
      | running log =>
        cases call with
        | openWith config => simp [LogLedger.enter, LogSession.accepted?]
        | append txn prev kind content =>
          simp only [LogLedger.enter]
          cases (LogSession.running log).accepted? (.append txn prev kind content) with
          | none => simp
          | some record => exact ledger.records_add log.buffer.threshold record
        | flush => simp [LogLedger.enter, LogSession.accepted?, LogLedger.flush, LogLedger.records]
        | close => exact absurd rfl hcall
    rw [hrecords, hbefore, List.filterMap_append]
    simp [List.filterMap_cons]
    cases s.accepted? call <;> rfl

/-- Whatever is asked for on one file, within bounds: what is read from the file are the records written
out so far, and after a flush all accepted records that were not lost in a buffer at a close, in the order
of their appends.  Sequence numbers ascend, over all openings; what waits in the buffer has larger ones
than what is in the file, and smaller ones than the next; the log knows the last number in its file, and a
log that is opened on the file goes on behind it.  A record that is refused as too large changes neither
the file nor the buffer. -/
theorem log_file_is_history (hrun : LogRun trace s ledger)
    (hadmits : ∀ entry ∈ trace, entry.1.Admits entry.2) :
    readRecords s.file = .ok ledger.written ∧
    ledger.records.Pairwise (fun a b => a.lsn < b.lsn) ∧
    (∀ log, s = .running log →
      log.buffer.bytes = ledger.waiting.flatMap LogRecord.frame ∧
      log.flush.records = .ok ledger.records ∧
      (∀ record ∈ ledger.waiting,
        (∀ old ∈ ledger.written, old.lsn < record.lsn) ∧ record.lsn < log.nextLsn) ∧
      log.flushedLsn = lastLsn ledger.written ∧
      log.flush.flushedLsn = lastLsn ledger.records ∧
      ∀ txn prev kind content error log',
        log.append txn prev kind content = (.error error, log') →
        (∃ size, error = .buffer (.recordTooLarge size)) ∧ log'.file = log.file ∧
          log'.buffer = log.buffer) ∧
    ∀ config : LogConfig, config.bufferSize.toNat < UInt32.size →
      ∃ log, Log.ofFile config s.file = .ok log ∧ log.records = .ok ledger.written ∧
        log.flushedLsn = lastLsn ledger.written ∧
        log.nextLsn.toNat = (lastLsn ledger.written).toNat + 1 := by
  have hs : s.Holds ledger := hrun.holds hadmits
  refine ⟨hs.readRecords_file, hs.inSequence.ascending, fun log hlog => ?_, fun config hconfig => ?_⟩
  · subst hlog
    have hholds : log.Holds ledger := hs
    have hflush : log.flush.Holds ledger.flush := hholds.flush
    refine ⟨hholds.buffer, hflush.fileHolds.readRecords_eq, fun record hmem => ⟨fun old hold => ?_, ?_⟩,
      hholds.flushed, hflush.flushed, fun txn prev kind content error log' hrefused => ?_⟩
    · exact (List.pairwise_append.mp hs.inSequence.ascending).2.2 old hold record hmem
    · exact hholds.next record (List.mem_append_right _ hmem)
    · rcases log.append_cases txn prev kind content with happend | ⟨_, happend⟩
      · rw [happend] at hrefused
        cases hrefused
        exact ⟨⟨_, rfl⟩, rfl, rfl⟩
      · rw [happend] at hrefused
        cases hrefused
  · obtain ⟨log, hopen, hholds, _, hnext, _⟩ := hs.startFile.ofFile hconfig
    refine ⟨log, hopen, hholds.fileHolds.readRecords_eq, hholds.flushed, ?_⟩
    rw [hnext, UInt64.toNat_add]
    exact Nat.mod_eq_of_lt hs.startFile.inSequence.room_lastLsn

/-- A record is appended and written out, wherever the threshold is, and is there when the log is closed
and opened again. -/
theorem log_file_is_history_reopened :
    let config : LogConfig := { bufferSize := 100 }
    let record : LogRecord := { lsn := 1, txn := 7, prev := 0, kind := .begin, content := .control 5 }
    ∃ trace s ledger, LogRun trace s ledger ∧ (∀ entry ∈ trace, entry.1.Admits entry.2) ∧
      trace.map (·.2) = [.openWith config, .append 7 0 .begin (.control 5), .flush, .close] ∧
      ledger = { written := [record] } ∧
      ∃ log, Log.ofFile config s.file = .ok log ∧ log.records = .ok [record] ∧ log.nextLsn.toNat = 2 := by
  intro config record
  let log : Log := {
    trail := .ofBytes (Log.startFile [])
    buffer := { config }
    nextLsn := 1
    flushedLsn := 0 }
  have hopen : LogSession.step (.closed []) (.openWith config) = .running log := by
    have hrecords : readRecords (Log.startFile []) = .ok [] := FileHolds.of_nil.readRecords_eq
    simp only [LogSession.step, Log.ofFile, hrecords, bind, Except.bind, pure, Except.pure]
    rfl
  obtain ⟨filled, happend⟩ : ∃ filled, log.append 7 0 .begin (.control 5) = (.ok 1, filled) := by
    rcases log.append_cases 7 0 .begin (.control 5) with hrefused | ⟨_, happend⟩
    · cases hrefused
    · exact ⟨_, happend⟩
  have hfilled : LogSession.step (.running log) (.append 7 0 .begin (.control 5)) = .running filled := by
    simp only [LogSession.step, happend]
  have hledger : (((({} : LogLedger).enter (.closed []) (.openWith config)).enter (.running log)
      (.append 7 0 .begin (.control 5))).enter (.running filled) .flush).enter
      (LogSession.step (.running filled) .flush) .close = { written := [record] } := by
    simp only [LogLedger.enter, LogSession.step, LogSession.accepted?, happend, LogLedger.flush,
      LogLedger.records_add]
    rfl
  have hrun := (((LogRun.nil.snoc (.openWith config)).snoc (.append 7 0 .begin (.control 5))).snoc
    .flush).snoc .close
  have hadmits : ∀ entry ∈ ([] ++ [(LogSession.closed [], LogCall.openWith config)] ++
      [(.running log, .append 7 0 .begin (.control 5))] ++ [(.running filled, .flush)] ++
      [(.running filled.flush, .close)]), entry.1.Admits entry.2 := by
    intro entry hmem
    simp only [List.nil_append, List.cons_append, List.mem_cons, List.not_mem_nil, or_false] at hmem
    rcases hmem with rfl | rfl | rfl | rfl
    · show (100 : UInt64).toNat < UInt32.size
      decide
    · show (1 : UInt64).toNat + 1 < UInt64.size
      decide
    · trivial
    · trivial
  rw [hopen, hfilled] at hrun
  have hlast := (log_file_is_history hrun hadmits).2.2.2 config (by decide)
  rw [hledger] at hlast
  obtain ⟨reopened, hreopened, hrecords, _, hnext⟩ := hlast
  exact ⟨_, _, _, hrun, hadmits, rfl, hledger, reopened, hreopened, hrecords, hnext⟩

end NoWait
