import NoWait.Log.Codec
import NoWait.Trail

/-!
# The log buffer

Records wait in a buffer until they are written out together.  Each is kept as a frame: the length of
its encoding as a 32-bit number, and the encoding.

* `LogBuffer.ofConfig?` makes an empty buffer, unless its size is more than a block of memory holds
  (`ofConfig?_eq_some_iff`);
* `LogBuffer.append` adds the frame of a record, unless it is larger than the whole buffer may be, and
  says whether the buffer has reached its threshold;
* `LogBuffer.flush` hands all buffered bytes to a writer of any monad, and forgets them only if the
  writer succeeds;
* `LogBuffer.utilization` is the filled fraction of the buffer, in single precision;
* `append_eq` says how an append ends, `flush_of_nil` and `flush_of_ne_nil` how a flush does.
-/

namespace NoWait

/-- The size of a log buffer, and the fraction of it at which it is due to be written out. -/
structure LogConfig where
  bufferSize : UInt64 := 1048576
  flushThreshold : Float32 := 0.75
  deriving Inhabited, Repr

/-- The number of buffered bytes at which a flush is due: size times fraction in single precision,
truncated, and clamped to the 64-bit numbers. -/
def LogConfig.threshold (config : LogConfig) : Nat :=
  (config.bufferSize.toFloat32 * config.flushThreshold).toUInt64.toNat

/-- Why the buffer refuses a record or cannot be written out. -/
inductive LogBufferError where
  /-- The encoding of the record has this many bytes and does not fit. -/
  | recordTooLarge (size : Nat)
  | writeFailed (reason : String)
  deriving DecidableEq, Inhabited, Repr

/-- The text of a buffer error. -/
def LogBufferError.message : LogBufferError → String
  | .recordTooLarge size => s!"Log record of {size} bytes does not fit in the buffer"
  | .writeFailed reason => s!"Failed to write buffer: {reason}"

/-- The frame of a record: the length of its encoding, and the encoding. -/
def LogRecord.frame (record : LogRecord) : Bytes :=
  Bytes.le 4 record.encode.length ++ record.encode

/-- Frames that have not been written out, and the highest sequence number among them. -/
structure LogBuffer where
  config : LogConfig := {}
  /-- The number of buffered bytes at which a flush is due. -/
  threshold : Nat := config.threshold
  trail : Trail := .empty
  maxLsn : Lsn := 0
  deriving Inhabited, Repr

namespace LogBuffer

variable {m : Type → Type} [Monad m] {φ : Type}

/-- An empty buffer of the size asked for, if memory holds that much in one block. -/
def ofConfig? (config : LogConfig) : Option LogBuffer :=
  if Bytes.blockLimit < config.bufferSize.toNat then none else some { config }

theorem ofConfig?_eq_some_iff {config : LogConfig} {buffer : LogBuffer} :
    ofConfig? config = some buffer ↔ config.bufferSize.toNat ≤ Bytes.blockLimit ∧ buffer = { config } := by
  unfold ofConfig?
  split
  · rename_i hlarge
    simp [Nat.not_le.mpr hlarge]
  · rename_i hfits
    simp [Nat.le_of_not_lt hfits, eq_comm]

/-- The buffered bytes: the frames, in the order in which they were added. -/
def bytes (buffer : LogBuffer) : Bytes := buffer.trail.toBytes

/-- Whether nothing waits to be written out. -/
def isEmpty (buffer : LogBuffer) : Bool := buffer.trail.isEmpty

/-- The filled fraction of the buffer. -/
def utilization (buffer : LogBuffer) : Float32 :=
  (UInt64.ofNat buffer.trail.size).toFloat32 / buffer.config.bufferSize.toFloat32

/-- Adds a record, and says whether the buffer has reached its threshold. -/
def append (buffer : LogBuffer) (record : LogRecord) :
    Except LogBufferError (Bool × LogBuffer) :=
  if buffer.config.bufferSize.toNat < record.encode.length + 4 then
    .error (.recordTooLarge record.encode.length)
  else
    let trail := buffer.trail.append record.frame
    .ok (buffer.threshold ≤ trail.size,
      { buffer with trail, maxLsn := max buffer.maxLsn record.lsn })

/-- Hands the buffered bytes to a writer.  On success the buffer is empty and the highest sequence
number written is returned; when nothing waits the writer is not called and zero is returned; when the
writer fails the buffer keeps what it holds. -/
def flush (buffer : LogBuffer) (write : Bytes → m (Except φ Unit)) :
    m (Except φ Lsn × LogBuffer) := do
  if buffer.isEmpty then return (.ok 0, buffer)
  match ← write buffer.bytes with
  | .ok () => return (.ok buffer.maxLsn, { buffer with trail := .empty, maxLsn := 0 })
  | .error fault => return (.error fault, buffer)

/-! ### What an append does -/

/-- The buffer with the frame of a record behind the others. -/
def add (buffer : LogBuffer) (record : LogRecord) : LogBuffer :=
  { buffer with trail := buffer.trail.append record.frame, maxLsn := max buffer.maxLsn record.lsn }

theorem bytes_add (buffer : LogBuffer) (record : LogRecord) :
    (buffer.add record).bytes = buffer.bytes ++ record.frame := Trail.toBytes_append _ _

/-- A record is added if its frame is not larger than the whole buffer may be; otherwise it is refused. -/
theorem append_eq (buffer : LogBuffer) (record : LogRecord) :
    buffer.append record =
      if record.encode.length + 4 ≤ buffer.config.bufferSize.toNat then
        .ok (decide (buffer.threshold ≤ (buffer.add record).bytes.length), buffer.add record)
      else .error (.recordTooLarge record.encode.length) := by
  have hsize : (buffer.add record).bytes.length = (buffer.add record).trail.size := Trail.length_toBytes _
  by_cases hfits : record.encode.length + 4 ≤ buffer.config.bufferSize.toNat
  · rw [append, if_neg (Nat.not_lt.mpr hfits), if_pos hfits, hsize]
    rfl
  · rw [append, if_pos (Nat.lt_of_not_le hfits), if_neg hfits]

/-! ### What a flush does -/

/-- The buffer with nothing left in it. -/
def emptied (buffer : LogBuffer) : LogBuffer := { buffer with trail := .empty, maxLsn := 0 }

theorem isEmpty_iff (buffer : LogBuffer) : buffer.isEmpty = true ↔ buffer.bytes = [] := buffer.trail.isEmpty_iff

theorem flush_of_nil {buffer : LogBuffer} (hnil : buffer.bytes = []) (write : Bytes → m (Except φ Unit)) :
    buffer.flush write = pure (.ok 0, buffer) := by
  rw [flush, if_pos (buffer.isEmpty_iff.mpr hnil)]

/-- The writer is called once, with everything that waits. -/
theorem flush_of_ne_nil {buffer : LogBuffer} (hne : buffer.bytes ≠ []) (write : Bytes → m (Except φ Unit)) :
    buffer.flush write = do
      match ← write buffer.bytes with
      | .ok () => return (.ok buffer.maxLsn, buffer.emptied)
      | .error fault => return (.error fault, buffer) := by
  rw [flush, if_neg (mt buffer.isEmpty_iff.mp hne)]
  rfl

end LogBuffer

end NoWait
