import NoWait.Log.Record

/-!
# The bytes of a log record

A record is written as fixed-width little-endian numbers: its sequence number (8 bytes), transaction
(4), predecessor (8), kind (4) and a tag (4) for its content.  A row change (tag 0) goes on with table,
page and slot (4 each) and the two images; an image is a byte 0, or a byte 1, a length (8) and that many
bytes.  A control record (tag 1) goes on with its time (8).

* `LogRecord.encode` writes a record;
* `LogRecord.decode` reads one from the front of a byte string, leaves the bytes behind it alone, and
  reports the first fault it meets from left to right.
-/

namespace NoWait

/-- Why bytes are not the front of any written record. -/
inductive DecodeError where
  | unexpectedEnd
  /-- A kind or a content tag is not below the number of alternatives. -/
  | unknownVariant (value count : Nat)
  /-- An image begins with a byte other than 0 and 1. -/
  | badOptionTag (tag : Nat)
  deriving DecidableEq, Inhabited, Repr

/-- The text of a fault. -/
def DecodeError.message : DecodeError → String
  | .unexpectedEnd => "Failed to deserialize log record: io error: unexpected end of file"
  | .unknownVariant value count =>
    "Failed to deserialize log record: invalid value: integer \x60" ++ toString value ++
      "\x60, expected variant index 0 <= i < " ++ toString count
  | .badOptionTag tag =>
    "Failed to deserialize log record: tag for enum is not valid, found " ++ toString tag

namespace LogRecord

/-! ### Writing -/

/-- The bytes of an image: absent, or its length and its bytes. -/
def encodeImage : Option Bytes → Bytes
  | none => [0]
  | some image => 1 :: (Bytes.le 8 image.length ++ image)

/-- The bytes of a row change. -/
def encodeChange (change : RowChange) : Bytes :=
  Bytes.le 4 change.table.toNat ++ (Bytes.le 4 change.rid.page.toNat ++
    (Bytes.le 4 change.rid.slot.toNat ++ (encodeImage change.before ++ encodeImage change.after)))

/-- The bytes of a record's content, tag first. -/
def encodeContent : RecordContent → Bytes
  | .data change => Bytes.le 4 0 ++ encodeChange change
  | .control timestamp => Bytes.le 4 1 ++ Bytes.le 8 timestamp.toNat

/-- The bytes of a record. -/
def encode (record : LogRecord) : Bytes :=
  Bytes.le 8 record.lsn.toNat ++ (Bytes.le 4 record.txn.toNat ++ (Bytes.le 8 record.prev.toNat ++
    (Bytes.le 4 record.kind.index ++ encodeContent record.content)))

/-! ### Reading -/

/-- A reader takes what it needs from the front of a byte string and leaves the rest. -/
abbrev Reader := StateT Bytes (Except DecodeError)

/-- Reads a given number of bytes. -/
def readBytes (n : Nat) : Reader Bytes := fun bytes =>
  match bytes.split? n with
  | some (front, rest) => .ok (front, rest)
  | none => .error .unexpectedEnd

/-- Reads a number of the given width. -/
def readNumber (width : Nat) : Reader Nat := do
  return Bytes.ofLE (← readBytes width)

/-- Reads a 32-bit number. -/
def readU32 : Reader UInt32 := do
  return UInt32.ofNat (← readNumber 4)

/-- Reads a 64-bit number. -/
def readU64 : Reader UInt64 := do
  return UInt64.ofNat (← readNumber 8)

/-- Reads an image. -/
def readImage : Reader (Option Bytes) := do
  let tag ← readNumber 1
  if tag = 0 then return none
  else if tag = 1 then return some (← readBytes (← readNumber 8))
  else throw (.badOptionTag tag)

/-- Reads the number of a kind. -/
def readKind : Reader RecordKind := do
  let value ← readNumber 4
  match RecordKind.all[value]? with
  | some kind => return kind
  | none => throw (.unknownVariant value RecordKind.all.length)

/-- Reads a row change. -/
def readChange : Reader RowChange := do
  let table ← readU32
  let page ← readU32
  let slot ← readU32
  let before ← readImage
  let after ← readImage
  return { table, rid := ⟨page, slot⟩, before, after }

/-- Reads the content of a record, tag first. -/
def readContent : Reader RecordContent := do
  let tag ← readNumber 4
  if tag = 0 then return .data (← readChange)
  else if tag = 1 then return .control (← readU64)
  else throw (.unknownVariant tag 2)

/-- Reads a record. -/
def read : Reader LogRecord := do
  let lsn ← readU64
  let txn ← readU32
  let prev ← readU64
  let kind ← readKind
  let content ← readContent
  return { lsn, txn, prev, kind, content }

/-- The record at the front of a byte string, whatever follows it. -/
def decode (bytes : Bytes) : Except DecodeError LogRecord :=
  (read.run bytes).map (·.1)

/-! ### Lengths -/

/-- A control record has the same length whatever it says. -/
theorem length_encode_control (lsn prev : Lsn) (txn : TxnId) (kind : RecordKind)
    (timestamp : UInt64) :
    (encode { lsn, txn, prev, kind, content := .control timestamp }).length = 36 := by
  simp [encode, encodeContent]

theorem length_encodeImage_some (image : Bytes) : (encodeImage (some image)).length = 9 + image.length := by
  simp [encodeImage]
  omega

/-- The length of a data record depends on its images alone. -/
theorem length_encode_data (lsn prev : Lsn) (txn : TxnId) (kind : RecordKind) (change : RowChange) :
    (encode { lsn, txn, prev, kind, content := .data change }).length =
      40 + (encodeImage change.before).length + (encodeImage change.after).length := by
  simp [encode, encodeContent, encodeChange]
  omega

end LogRecord

end NoWait
