import NoWait.Log.File

/-!
# The write-ahead log

A log that is open consists of the bytes of its file, a buffer of records on their way there, the next
sequence number to give out and the highest one known to be in the file.

* `Log.ofFile` opens a log on a file, which it continues behind the last record, unless no sequence
  number is left for that; `Log.startFile` gives a file that is empty its header first, and
  `ofFile_eq_ok_iff` says when a file is opened and what the log is then;
* `Log.append` gives a record its sequence number and buffers it, writing the buffer out when that is
  due; a refused record has used its number up;
* `Log.flush` writes the buffer to the end of the file; `flush_of_nil` and `flush_of_ne_nil` say what that
  changes.
-/

namespace NoWait

/-- No number is smaller than zero. -/
theorem max_zero_lsn (lsn : Lsn) : max lsn 0 = lsn := by
  show (if lsn ≤ 0 then 0 else lsn) = lsn
  split
  · rename_i hle
    exact UInt64.le_antisymm UInt64.zero_le hle
  · rfl

/-- A log that is open on a file. -/
structure Log where
  trail : Trail
  buffer : LogBuffer
  nextLsn : Lsn
  flushedLsn : Lsn
  deriving Inhabited, Repr

namespace Log

/-- The bytes of the file. -/
def file (log : Log) : Bytes := log.trail.toBytes

/-- The log with other bytes in its file. -/
def withFile (log : Log) (file : Bytes) : Log := { log with trail := .ofBytes file }

/-- The sequence number with which a file goes on: the one behind its last record, or the first one of
its header.  Zero stands for none, since the numbers begin at one and the largest is followed by zero. -/
def resumeLsn (header : LogHeader) (records : List LogRecord) : Lsn :=
  match records.getLast? with
  | some last => last.lsn + 1
  | none => header.firstLsn

/-- The bytes of a file on which a log is to be opened: an empty file gets a header, any other stays as
it is. -/
def startFile (file : Bytes) : Bytes :=
  if file.isEmpty then LogHeader.encode { firstLsn := 1 } else file

theorem startFile_of_ne_nil {file : Bytes} (hne : file ≠ []) : startFile file = file := by
  have hfull : file.isEmpty = false := by simpa using hne
  rw [startFile, hfull, if_neg Bool.false_ne_true]

/-- Opens a log on the bytes of a file. -/
def ofFile (config : LogConfig) (file : Bytes) : Except LogError Log := do
  let file := startFile file
  let some header := LogHeader.read? file | throw .shortRead
  if !header.isValid then throw .invalidFormat
  let next := resumeLsn header (← readRecords file)
  if next = 0 then throw .exhausted
  let some buffer := LogBuffer.ofConfig? config | throw .outOfMemory
  return { trail := .ofBytes file, buffer, nextLsn := next, flushedLsn := next - 1 }

/-- A file is opened if its header is valid, its frames can be read, there is a number to go on with and room for the
buffer; the buffer is empty then, and the file is as it was. -/
theorem ofFile_eq_ok_iff {config : LogConfig} {file : Bytes} {log : Log} :
    ofFile config file = .ok log ↔ ∃ header records,
      (LogHeader.read? (startFile file) = some header ∧ header.isValid = true) ∧
      readRecords (startFile file) = .ok records ∧ resumeLsn header records ≠ 0 ∧
      config.bufferSize.toNat ≤ Bytes.blockLimit ∧
      log = { trail := .ofBytes (startFile file), buffer := { config }
              nextLsn := resumeLsn header records, flushedLsn := resumeLsn header records - 1 } := by
  simp only [ofFile, bind, Except.bind]
  constructor
  · intro h
    cases hheader : LogHeader.read? (startFile file) with
    | none =>
      rw [hheader] at h
      cases h
    | some header =>
      simp only [hheader] at h
      cases hvalid : header.isValid with
      | false =>
        rw [hvalid] at h
        cases h
      | true =>
        simp only [hvalid] at h
        cases hrecords : readRecords (startFile file) with
        | error error =>
          rw [hrecords] at h
          cases h
        | ok records =>
          simp only [hrecords] at h
          by_cases hnext : resumeLsn header records = 0
          · rw [if_pos hnext] at h
            cases h
          · rw [if_neg hnext] at h
            cases hbuffer : LogBuffer.ofConfig? config with
            | none =>
              rw [hbuffer] at h
              cases h
            | some buffer =>
              rw [hbuffer] at h
              cases h
              obtain ⟨hfits, rfl⟩ := LogBuffer.ofConfig?_eq_some_iff.mp hbuffer
              exact ⟨header, records, ⟨rfl, hvalid⟩, rfl, hnext, hfits, rfl⟩
  · rintro ⟨header, records, ⟨hheader, hvalid⟩, hrecords, hnext, hfits, rfl⟩
    simp only [hheader, hvalid, hrecords, if_neg hnext, LogBuffer.ofConfig?_eq_some_iff.mpr ⟨hfits, rfl⟩]
    rfl

/-- Writes to the end of a file, which as a value takes whatever it is given. -/
def writeAtEnd (data : Bytes) : StateM Trail (Except Empty Unit) := do
  modify (·.append data)
  return .ok ()

/-- Writes the buffer to the end of the file. -/
def flush (log : Log) : Log :=
  match (log.buffer.flush writeAtEnd).run log.trail with
  | ((.ok written, buffer), trail) =>
    { log with trail, buffer, flushedLsn := max log.flushedLsn written }

/-- Gives a record the next sequence number and buffers it. -/
def append (log : Log) (txn : TxnId) (prev : Lsn) (kind : RecordKind) (content : RecordContent) :
    Except LogError Lsn × Log :=
  let lsn := log.nextLsn
  let log := { log with nextLsn := lsn + 1 }
  match log.buffer.append { lsn, txn, prev, kind, content } with
  | .error error => (.error (.buffer error), log)
  | .ok (due, buffer) =>
    let log := { log with buffer }
    (.ok lsn, if due then log.flush else log)

/-- The records that are in the file. -/
def records (log : Log) : Except LogError (List LogRecord) := readRecords log.file

/-- Whether the buffer takes a record whose encoding has the given number of bytes. -/
def HasRoom (log : Log) (size : Nat) : Prop := size + 4 ≤ log.buffer.config.bufferSize.toNat

theorem hasRoom_congr {log log' : Log} (hconfig : log'.buffer.config = log.buffer.config) (size : Nat) :
    log'.HasRoom size ↔ log.HasRoom size := by
  rw [HasRoom, HasRoom, hconfig]

/-- Where there is room for a record, there is room for every shorter one. -/
theorem HasRoom.mono {log : Log} {size size' : Nat} (hroom : log.HasRoom size) (hle : size' ≤ size) :
    log.HasRoom size' := by
  unfold HasRoom at hroom ⊢
  omega

/-! ### What a flush does -/

theorem flush_of_nil {log : Log} (h : log.buffer.bytes = []) : log.flush = log := by
  unfold flush
  rw [LogBuffer.flush_of_nil h]
  show { log with flushedLsn := max log.flushedLsn 0 } = log
  rw [max_zero_lsn]

theorem flush_of_ne_nil {log : Log} (h : log.buffer.bytes ≠ []) : log.flush = { log with
    trail := log.trail.append log.buffer.bytes
    buffer := log.buffer.emptied
    flushedLsn := max log.flushedLsn log.buffer.maxLsn } := by
  unfold flush
  rw [LogBuffer.flush_of_ne_nil h]
  rfl

theorem file_flush (log : Log) : log.flush.file = log.file ++ log.buffer.bytes := by
  by_cases hnil : log.buffer.bytes = []
  · rw [flush_of_nil hnil, hnil, List.append_nil]
  · rw [flush_of_ne_nil hnil]
    exact Trail.toBytes_append log.trail log.buffer.bytes

theorem buffer_flush (log : Log) : log.flush.buffer.bytes = [] := by
  by_cases hnil : log.buffer.bytes = []
  · rw [flush_of_nil hnil, hnil]
  · rw [flush_of_ne_nil hnil]
    rfl

theorem config_flush (log : Log) : log.flush.buffer.config = log.buffer.config := by
  by_cases hnil : log.buffer.bytes = []
  · rw [flush_of_nil hnil]
  · rw [flush_of_ne_nil hnil]
    rfl

/-! ### What an append does -/

/-- A record is refused for its size alone. -/
theorem append_refuses_iff (log : Log) (txn : TxnId) (prev : Lsn) (kind : RecordKind)
    (content : RecordContent) :
    (∃ error, (log.append txn prev kind content).1 = .error error) ↔
      ¬ log.HasRoom (LogRecord.encode { lsn := log.nextLsn, txn, prev, kind, content }).length := by
  rw [HasRoom]
  simp only [append, LogBuffer.append_eq]
  by_cases h : (LogRecord.encode { lsn := log.nextLsn, txn, prev, kind, content }).length + 4 ≤
      log.buffer.config.bufferSize.toNat
  · rw [if_pos h]
    refine ⟨?_, fun hlarge => absurd h hlarge⟩
    rintro ⟨_, ⟨⟩⟩
  · rw [if_neg h]
    exact ⟨fun _ => h, fun _ => ⟨_, rfl⟩⟩

/-- An append does not change how much the buffer takes. -/
theorem config_append (log : Log) (txn : TxnId) (prev : Lsn) (kind : RecordKind)
    (content : RecordContent) :
    (log.append txn prev kind content).2.buffer.config = log.buffer.config := by
  simp only [append, LogBuffer.append_eq]
  by_cases h : (LogRecord.encode { lsn := log.nextLsn, txn, prev, kind, content }).length + 4 ≤
      log.buffer.config.bufferSize.toNat
  · rw [if_pos h]
    simp only
    split
    · rw [config_flush]
      rfl
    · rfl
  · rw [if_neg h]

end Log

end NoWait
