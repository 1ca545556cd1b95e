import NoWait.Log

/-!
# Reading a log gives back what was written

Every part of a record is read as far as it was written, whatever bytes follow, so the parts can be read
one after the other, as long as the length of an image fits into its eight bytes.  The same holds of the
records of a file, whose frames say how long they are, as long as a length fits into its four bytes.

* `LogRecord.Reads` says that a reader takes exactly the given bytes and makes a value of them; `Reads.bind`
  puts two readers together;
* `LogRecord.ImagesFit` says that the images of a record are not too long; `reads_encode` is one such record,
  and `decode_encode` what is decoded from the front of some bytes;
* `readFrames_frame` and `readFrames_flatMap_append` are the first record and the first records of a file, and
  `readFrames_flatMap` is all of them; `LogHeader.read?_encode` is its header.
-/

namespace NoWait

/-- The images that a record carries. -/
def RecordContent.images : RecordContent → List Bytes
  | .data change => change.before.toList ++ change.after.toList
  | .control _ => []

namespace LogRecord

/-- Whether the length of every image of a record fits into the eight bytes that are there for it. -/
def ImagesFit (record : LogRecord) : Prop := ∀ image ∈ record.content.images, image.length < UInt64.size

instance (record : LogRecord) : Decidable record.ImagesFit :=
  inferInstanceAs (Decidable (∀ image ∈ record.content.images, image.length < UInt64.size))

variable {α β : Type} {reader : Reader α} {bytes bytes' : Bytes} {value : α} {result : β}

/-- Whether a reader takes the given bytes, whatever follows them, and makes a value of them. -/
def Reads (reader : Reader α) (bytes : Bytes) (value : α) : Prop :=
  ∀ rest, reader (bytes ++ rest) = .ok (value, rest)

theorem reads_pure (value : α) : Reads (pure value) [] value := fun _ => rfl

/-- What one reader leaves is there for the next. -/
theorem Reads.bind {next : α → Reader β} (h : Reads reader bytes value)
    (hnext : Reads (next value) bytes' result) : Reads (reader >>= next) (bytes ++ bytes') result := by
  intro rest
  rw [List.append_assoc]
  show (reader (bytes ++ (bytes' ++ rest)) >>= fun (value, rest) => next value rest) = _
  rw [h]
  exact hnext rest

theorem Reads.map (h : Reads reader bytes value) (f : α → β) :
    Reads (do return f (← reader)) bytes (f value) := by
  have hpure : Reads (do return f (← reader)) (bytes ++ []) (f value) := h.bind (reads_pure (f value))
  rwa [List.append_nil] at hpure

/-! ### The parts of a record -/

theorem reads_bytes (front : Bytes) : Reads (readBytes front.length) front front := by
  intro rest
  rw [readBytes, Bytes.split?_append]

theorem reads_number {width n : Nat} (h : n < Nat.pow 256 width) :
    Reads (readNumber width) (Bytes.le width n) n := by
  have hread : Reads (readBytes width) (Bytes.le width n) (Bytes.le width n) := by
    have hbytes := reads_bytes (Bytes.le width n)
    rwa [Bytes.length_le] at hbytes
  have hnumber := hread.map Bytes.ofLE
  rwa [Bytes.ofLE_le, Nat.mod_eq_of_lt h] at hnumber

theorem reads_u32 (n : UInt32) : Reads readU32 (Bytes.le 4 n.toNat) n := by
  have hnumber : Reads (readNumber 4) (Bytes.le 4 n.toNat) n.toNat := reads_number n.toNat_lt
  have hread := hnumber.map UInt32.ofNat
  rwa [UInt32.ofNat_toNat] at hread

theorem reads_u64 (n : UInt64) : Reads readU64 (Bytes.le 8 n.toNat) n := by
  have hnumber : Reads (readNumber 8) (Bytes.le 8 n.toNat) n.toNat := reads_number n.toNat_lt
  have hread := hnumber.map UInt64.ofNat
  rwa [UInt64.ofNat_toNat] at hread

theorem reads_kind (kind : RecordKind) : Reads readKind (Bytes.le 4 kind.index) kind := by
  have hindex : kind.index < Nat.pow 256 4 := by cases kind <;> decide
  have hread : Reads readKind (Bytes.le 4 kind.index ++ []) kind := by
    refine (reads_number hindex).bind ?_
    simp only [RecordKind.getElem?_index]
    exact reads_pure kind
  rwa [List.append_nil] at hread

/-- An image is read if its length fits into eight bytes. -/
theorem reads_image {image : Option Bytes} (h : ∀ bytes ∈ image, bytes.length < UInt64.size) :
    Reads readImage (encodeImage image) image := by
  cases image with
  | none => exact fun rest => rfl
  | some image =>
    have hsize : image.length < Nat.pow 256 8 := h image rfl
    have htag : Reads (readNumber 1) (Bytes.le 1 1) 1 := reads_number (by decide)
    have hrest : Reads (readNumber 8 >>= fun size => readBytes size >>= fun image => pure (some image))
        (Bytes.le 8 image.length ++ image) (some image) :=
      (reads_number hsize).bind ((reads_bytes image).map some)
    exact htag.bind hrest

theorem reads_change {change : RowChange}
    (h : ∀ image ∈ (RecordContent.data change).images, image.length < UInt64.size) :
    Reads readChange (encodeChange change) change := by
  have hbefore : ∀ bytes ∈ change.before, bytes.length < UInt64.size := fun bytes hmem =>
    h bytes (List.mem_append_left _ (Option.mem_toList.mpr hmem))
  have hafter : ∀ bytes ∈ change.after, bytes.length < UInt64.size := fun bytes hmem =>
    h bytes (List.mem_append_right _ (Option.mem_toList.mpr hmem))
  refine (reads_u32 change.table).bind ((reads_u32 change.rid.page).bind
    ((reads_u32 change.rid.slot).bind ?_))
  exact (reads_image hbefore).bind ((reads_image hafter).map _)

theorem reads_content {content : RecordContent}
    (h : ∀ image ∈ content.images, image.length < UInt64.size) :
    Reads readContent (encodeContent content) content := by
  cases content with
  | data change =>
    have htag : Reads (readNumber 4) (Bytes.le 4 0) 0 := reads_number (by decide)
    exact htag.bind ((reads_change h).map RecordContent.data)
  | control timestamp =>
    have htag : Reads (readNumber 4) (Bytes.le 4 1) 1 := reads_number (by decide)
    exact htag.bind ((reads_u64 timestamp).map RecordContent.control)

/-- A record is read as it was written. -/
theorem reads_encode {record : LogRecord} (h : record.ImagesFit) : Reads read record.encode record := by
  refine (reads_u64 record.lsn).bind ((reads_u32 record.txn).bind ((reads_u64 record.prev).bind
    ((reads_kind record.kind).bind ?_)))
  exact (reads_content h).map _

theorem decode_encode {record : LogRecord} (h : record.ImagesFit) (rest : Bytes) :
    decode (record.encode ++ rest) = .ok record := by
  show ((read (record.encode ++ rest)).map fun result => result.1) = .ok record
  rw [reads_encode h rest]
  rfl

/-- The frame of a record says which record it is. -/
theorem frame_inj {record record' : LogRecord} (h : record.ImagesFit) (h' : record'.ImagesFit)
    (hframe : record.frame = record'.frame) : record = record' := by
  have hencode : record.encode = record'.encode := by simpa [frame] using congrArg (List.drop 4) hframe
  have hdecode := decode_encode h []
  rw [hencode, decode_encode h' []] at hdecode
  exact (Except.ok.inj hdecode).symm

end LogRecord

/-! ### Files -/

/-- Whether the length of a record fits into the four bytes of its frame. -/
def LogRecord.IsFramed (record : LogRecord) : Prop := record.encode.length < UInt32.size

/-- The images of a record are no longer than the record itself. -/
theorem LogRecord.length_le_of_mem_images {record : LogRecord} {image : Bytes}
    (hmem : image ∈ record.content.images) : image.length ≤ record.encode.length := by
  have hlength : ∀ image : Option Bytes, ∀ bytes ∈ image, bytes.length ≤ (encodeImage image).length := by
    rintro _ bytes rfl
    rw [length_encodeImage_some]
    omega
  obtain ⟨lsn, txn, prev, kind, content⟩ := record
  cases content with
  | control timestamp => cases hmem
  | data change =>
    rw [length_encode_data]
    rw [RecordContent.images, List.mem_append, Option.mem_toList, Option.mem_toList] at hmem
    rcases hmem with hmem | hmem
    · have hbefore := hlength change.before image hmem
      omega
    · have hafter := hlength change.after image hmem
      omega

theorem LogRecord.imagesFit_of_length_lt {record : LogRecord} (h : record.encode.length < UInt64.size) :
    record.ImagesFit := fun _ hmem => Nat.lt_of_le_of_lt (length_le_of_mem_images hmem) h

/-- The images of a record whose length fits are not too long themselves. -/
theorem LogRecord.IsFramed.imagesFit {record : LogRecord} (h : record.IsFramed) : record.ImagesFit :=
  imagesFit_of_length_lt (Nat.lt_trans h (by decide))

/-- A buffer has fewer than 2⁶⁴ bytes, so that the lengths of images fit if the record does. -/
theorem LogRecord.imagesFit_of_fits {record : LogRecord} {config : LogConfig}
    (h : record.encode.length + 4 ≤ config.bufferSize.toNat) : record.ImagesFit := by
  have hsize := config.bufferSize.toNat_lt
  refine imagesFit_of_length_lt ?_
  show record.encode.length < 2 ^ 64
  omega

theorem LogRecord.frame_ne_nil (record : LogRecord) : record.frame ≠ [] := by
  simp [frame, Bytes.le]

/-- The frame of any bytes: how many they are, and the bytes. -/
def frameOf (body : Bytes) : Bytes := Bytes.le 4 body.length ++ body

theorem splitFrame_frameOf {body : Bytes} (h : body.length < UInt32.size) (rest : Bytes) :
    splitFrame (frameOf body ++ rest) = .ok (body, rest) := by
  have hsize : Bytes.ofLE (Bytes.le 4 body.length) = body.length := by
    rw [Bytes.ofLE_le]
    exact Nat.mod_eq_of_lt h
  have hlength : (Bytes.le 4 body.length).length = 4 := Bytes.length_le 4 _
  have hsplit := Bytes.split?_append (Bytes.le 4 body.length) (body ++ rest)
  rw [hlength, ← List.append_assoc] at hsplit
  unfold splitFrame frameOf
  rw [hsplit]
  simp only [hsize, Bytes.split?_append]

/-- Where a frame can be cut off, what follows depends on its body. -/
theorem readFrames_of_splitFrame {bytes body rest : Bytes} (h : splitFrame bytes = .ok (body, rest)) :
    readFrames bytes =
      match LogRecord.decode body with
      | .error error => .error (.record error)
      | .ok record => (readFrames rest).map (record :: ·) := by
  have hne : bytes.isEmpty = false := by
    cases bytes with
    | nil => cases h
    | cons byte bytes => rfl
  rw [readFrames, hne, if_neg Bool.false_ne_true]
  split
  · rename_i error herror
    rw [h] at herror
    cases herror
  · rename_i body' rest' hsplit
    rw [h] at hsplit
    cases hsplit
    rfl

/-- The first record of a file, and the records behind it. -/
theorem readFrames_frame {record : LogRecord} (h : record.IsFramed) (rest : Bytes) :
    readFrames (record.frame ++ rest) = (readFrames rest).map (record :: ·) := by
  have hdecode := LogRecord.decode_encode h.imagesFit []
  rw [List.append_nil] at hdecode
  have hsplit : splitFrame (record.frame ++ rest) = .ok (record.encode, rest) := splitFrame_frameOf h rest
  rw [readFrames_of_splitFrame hsplit, hdecode]

theorem readFrames_nil : readFrames [] = .ok [] := by
  rw [readFrames]
  rfl

/-- The first records of a file, and the records behind them. -/
theorem readFrames_flatMap_append {records : List LogRecord} (h : ∀ record ∈ records, record.IsFramed)
    (rest : Bytes) :
    readFrames (records.flatMap LogRecord.frame ++ rest) = (readFrames rest).map (records ++ ·) := by
  induction records with
  | nil => cases hrest : readFrames rest <;> simp [hrest, Except.map]
  | cons record records ih =>
    rw [List.forall_mem_cons] at h
    rw [List.flatMap_cons, List.append_assoc, readFrames_frame h.1, ih h.2]
    cases readFrames rest <;> rfl

/-- The records of a file are the ones whose frames it consists of. -/
theorem readFrames_flatMap {records : List LogRecord} (h : ∀ record ∈ records, record.IsFramed) :
    readFrames (records.flatMap LogRecord.frame) = .ok records := by
  have hread := readFrames_flatMap_append h []
  rw [List.append_nil, readFrames_nil] at hread
  rw [hread, Except.map, List.append_nil]

namespace LogHeader

theorem length_encode (header : LogHeader) : header.encode.length = size := by
  simp [encode, size]

theorem read?_encode (header : LogHeader) (rest : Bytes) : read? (header.encode ++ rest) = some header := by
  have h4 : ∀ (n : Nat) (rest : Bytes), Bytes.split? 4 (Bytes.le 4 n ++ rest) = some (Bytes.le 4 n, rest) := by
    intro n rest
    have hsplit := Bytes.split?_append (Bytes.le 4 n) rest
    rwa [Bytes.length_le] at hsplit
  have h8 : ∀ (n : Nat) (rest : Bytes), Bytes.split? 8 (Bytes.le 8 n ++ rest) = some (Bytes.le 8 n, rest) := by
    intro n rest
    have hsplit := Bytes.split?_append (Bytes.le 8 n) rest
    rwa [Bytes.length_le] at hsplit
  have hmagic : header.magic.toNat % Nat.pow 256 4 = header.magic.toNat :=
    Nat.mod_eq_of_lt header.magic.toNat_lt
  have hversion : header.version.toNat % Nat.pow 256 4 = header.version.toNat :=
    Nat.mod_eq_of_lt header.version.toNat_lt
  have hfirst : header.firstLsn.toNat % Nat.pow 256 8 = header.firstLsn.toNat :=
    Nat.mod_eq_of_lt header.firstLsn.toNat_lt
  simp only [read?, encode, List.append_assoc, h4, h8, bind, Option.bind, pure, Bytes.ofLE_le, hmagic,
    hversion, hfirst, UInt32.ofNat_toNat, UInt64.ofNat_toNat]

end LogHeader

theorem readRecords_header (header : LogHeader) (bytes : Bytes) :
    readRecords (header.encode ++ bytes) = readFrames bytes := by
  rw [readRecords, ← header.length_encode, List.drop_left]

/-- The records of a file that consists of a header and frames. -/
theorem readRecords_encode (header : LogHeader) {records : List LogRecord}
    (h : ∀ record ∈ records, record.IsFramed) :
    readRecords (header.encode ++ records.flatMap LogRecord.frame) = .ok records := by
  rw [readRecords_header, readFrames_flatMap h]

end NoWait
