import NoWait.Log.Buffer

/-!
# The log file

A log file begins with a header of sixteen bytes: a magic number, a format version and the sequence
number of the file's first record.  Behind it stand the frames of the records, one after another.

* `LogHeader.encode` and `LogHeader.read?` write and read the header;
* `readFrames` reads frames to the end of a byte string or to the first fault; it ends because every
  frame takes at least its four length bytes.
-/

namespace NoWait

/-- Why a log cannot be opened, read or appended to. -/
inductive LogError where
  /-- The file ends inside its header or inside the length of a frame. -/
  | shortRead
  | buffer (error : LogBufferError)
  | record (error : DecodeError)
  | invalidFormat
  /-- No sequence number is left to continue the file with. -/
  | exhausted
  /-- The buffer is to be larger than a block of memory. -/
  | outOfMemory
  deriving DecidableEq, Inhabited, Repr

/-- The text of a log error. -/
def LogError.message : LogError → String
  | .shortRead => "I/O error: failed to fill whole buffer"
  | .buffer error => "Buffer error: " ++ error.message
  | .record error => "Log record error: " ++ error.message
  | .invalidFormat => "Invalid log file format"
  | .exhausted => "No log sequence number is left"
  | .outOfMemory => "The log buffer does not fit in memory"

/-! ### The header -/

/-- The header of a log file. -/
structure LogHeader where
  magic : UInt32 := 0x5457414C
  version : UInt32 := 1
  firstLsn : Lsn
  deriving DecidableEq, Inhabited, Repr

namespace LogHeader

/-- The number of bytes in a header. -/
def size : Nat := 16

/-- The bytes of a header. -/
def encode (header : LogHeader) : Bytes :=
  Bytes.le 4 header.magic.toNat ++ (Bytes.le 4 header.version.toNat ++
    Bytes.le 8 header.firstLsn.toNat)

/-- The header at the front of a file, if the file is long enough for one. -/
def read? (file : Bytes) : Option LogHeader := do
  let (magic, rest) ← file.split? 4
  let (version, rest) ← rest.split? 4
  let (firstLsn, _) ← rest.split? 8
  return { magic := UInt32.ofNat (Bytes.ofLE magic)
           version := UInt32.ofNat (Bytes.ofLE version)
           firstLsn := UInt64.ofNat (Bytes.ofLE firstLsn) }

/-- Whether the magic number and the version are those of this format. -/
def isValid (header : LogHeader) : Bool :=
  header.magic = 0x5457414C && header.version = 1

end LogHeader

/-! ### Frames -/

/-- The body of the frame at the front of some bytes, and what follows the frame. -/
def splitFrame (bytes : Bytes) : Except LogError (Bytes × Bytes) :=
  match bytes.split? 4 with
  | none => .error .shortRead
  | some (size, rest) =>
    match rest.split? (Bytes.ofLE size) with
    | none => .error .invalidFormat
    | some frame => .ok frame

/-- A frame takes at least its length bytes, so fewer bytes follow it. -/
theorem length_of_splitFrame {bytes body rest : Bytes} (h : splitFrame bytes = .ok (body, rest)) :
    rest.length < bytes.length := by
  unfold splitFrame at h
  split at h
  · cases h
  · rename_i size rest₁ hsize
    split at h
    · cases h
    · rename_i frame hbody
      cases h
      obtain ⟨h₁, h₂⟩ := Bytes.split?_eq_some_iff.mp hsize
      obtain ⟨h₃, _⟩ := Bytes.split?_eq_some_iff.mp hbody
      rw [h₁, h₃]
      simp only [List.length_append, h₂]
      omega

/-- The records of consecutive frames up to the end of the bytes.  Bytes behind a record but inside its
frame are skipped. -/
def readFrames (bytes : Bytes) : Except LogError (List LogRecord) :=
  if bytes.isEmpty then .ok []
  else
    match h : splitFrame bytes with
    | .error error => .error error
    | .ok (body, rest) =>
      have := length_of_splitFrame h
      match LogRecord.decode body with
      | .error error => .error (.record error)
      | .ok record => (readFrames rest).map (record :: ·)
termination_by bytes.length

/-- The records of a log file: the frames behind the place of the header.  A file that ends before that
place has none. -/
def readRecords (file : Bytes) : Except LogError (List LogRecord) :=
  readFrames (file.drop LogHeader.size)

end NoWait
