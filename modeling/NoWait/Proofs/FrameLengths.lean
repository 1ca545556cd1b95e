import NoWait.Proofs.BufferBounds
import NoWait.Proofs.LogFrames

/-!
# Records that are too long for their frames

A buffer takes every record whose frame is not larger than the buffer may be.  The frame begins with the length of the
record in four bytes, and the length of a record of 2³² bytes or more does not fit there: what is written is the length
without its higher bytes.  The reader takes that for the whole length, finds the beginning of a record and not the rest
of it, and gives up, so that no record of the file is read.

* `LogRecord.head` and `LogRecord.tail` are the part of a record that its frame speaks of and the part that it leaves
  out; `LogRecord.frame_eq` is a frame as the reader sees it;
* `ReadsBack` says that bytes are read as given records wherever they stand in a log, and `LosesLog` that no log with
  them is read; `readsBack_flatMap` and `losesLog_flatMap` say which of them holds of the frames of some records, and
  `readRecords_eq_ok_iff` what that makes of a whole file;
* `BufferAccount.Admitted` says that the records that a buffer has accepted are no larger than it may be;
  `Admitted.enter` is the step that keeps it and `admitted_play` the run;
* `accepted_records_read_back` says which of the records that a buffer accepts are read back, and for which sizes of a
  buffer all of them are; `oversized_record_loses_log` is the shortest record that is not.
-/

namespace NoWait

open LogRecord

variable {φ : Type} {config : LogConfig} {bytes : Bytes} {record : LogRecord} {records : List LogRecord}

/-! ### What the reader sees of a frame -/

namespace LogRecord

/-- The part of a record that has the length which its frame says it has. -/
def head (record : LogRecord) : Bytes := record.encode.take (record.encode.length % UInt32.size)

/-- The part of a record that its frame says nothing of. -/
def tail (record : LogRecord) : Bytes := record.encode.drop (record.encode.length % UInt32.size)

theorem length_head (record : LogRecord) : record.head.length = record.encode.length % UInt32.size := by
  rw [head, List.length_take, Nat.min_eq_left (Nat.mod_le _ _)]

theorem length_head_lt (record : LogRecord) : record.head.length < UInt32.size := by
  rw [length_head]
  exact Nat.mod_lt _ (by decide)

/-- The frame of a record is that of its head, with its tail behind it. -/
theorem frame_eq (record : LogRecord) : record.frame = frameOf record.head ++ record.tail := by
  have hsize : Bytes.le 4 record.head.length = Bytes.le 4 record.encode.length := by
    rw [length_head]
    exact Bytes.le_mod 4 record.encode.length
  rw [frameOf, hsize, List.append_assoc, head, tail, List.take_append_drop, frame]

theorem head_eq_encode_iff : record.head = record.encode ↔ record.IsFramed := by
  constructor
  · intro heq
    have hlt := record.length_head_lt
    rwa [heq] at hlt
  · intro hframed
    rw [head, Nat.mod_eq_of_lt hframed, List.take_length]

end LogRecord

/-- Of a record that is too long for its frame the reader finds the head and misses the rest. -/
theorem readFrames_of_not_isFramed (hfits : record.ImagesFit) (hlong : ¬ record.IsFramed) (rest : Bytes) :
    readFrames (record.frame ++ rest) = .error (.record .unexpectedEnd) := by
  have hsplit : splitFrame (record.frame ++ rest) = .ok (record.head, record.tail ++ rest) := by
    rw [record.frame_eq, List.append_assoc]
    exact splitFrame_frameOf record.length_head_lt _
  have hdecode : decode record.head = .error .unexpectedEnd :=
    decode_eq_error (starves_encode hfits _ (List.take_prefix _ _) (mt head_eq_encode_iff.mp hlong))
  rw [readFrames_of_splitFrame hsplit, hdecode]

/-! ### Logs with such frames -/

/-- Whether bytes are read as the given records behind any header, and then whatever stands behind them. -/
def ReadsBack (bytes : Bytes) (records : List LogRecord) : Prop :=
  ∀ (header : LogHeader) (rest : Bytes),
    readRecords (header.encode ++ (bytes ++ rest)) = (readFrames rest).map (records ++ ·)

/-- Whether a log with the given bytes behind its header is not read, whatever stands behind them, and not opened. -/
def LosesLog (bytes : Bytes) : Prop :=
  ∀ (header : LogHeader) (rest : Bytes),
    readRecords (header.encode ++ (bytes ++ rest)) = .error (.record .unexpectedEnd) ∧
    (header.isValid = true → ∀ config, Log.ofFile config (header.encode ++ (bytes ++ rest)) =
      .error (.record .unexpectedEnd))

theorem LosesLog.not_readsBack (h : LosesLog bytes) : ¬ ReadsBack bytes records := by
  intro hread
  have hlost := (h { firstLsn := 1 } []).1
  rw [hread, readFrames_nil] at hlost
  cases hlost

theorem LosesLog.of_readFrames (h : ∀ rest, readFrames (bytes ++ rest) = .error (.record .unexpectedEnd)) :
    LosesLog bytes := by
  intro header rest
  have hread : readRecords (header.encode ++ (bytes ++ rest)) = .error (.record .unexpectedEnd) := by
    rw [readRecords_header, h]
  refine ⟨hread, fun hvalid config => ?_⟩
  have hne : header.encode ++ (bytes ++ rest) ≠ [] := by
    rintro ⟨⟩
  exact ofFile_of_readRecords config hne (header.read?_encode _) hvalid hread

theorem readsBack_flatMap (h : ∀ record ∈ records, record.IsFramed) :
    ReadsBack (records.flatMap LogRecord.frame) records := by
  intro header rest
  rw [readRecords_header, readFrames_flatMap_append h]

/-- One frame that is too short for its record is enough: the reader does not get past the first of them. -/
theorem losesLog_flatMap (hfits : ∀ record ∈ records, record.ImagesFit)
    (hlong : ∃ record ∈ records, ¬ record.IsFramed) : LosesLog (records.flatMap LogRecord.frame) := by
  refine .of_readFrames fun rest => ?_
  induction records with
  | nil =>
    obtain ⟨_, hmem, _⟩ := hlong
    cases hmem
  | cons record records ih =>
    rw [List.forall_mem_cons] at hfits
    rw [List.flatMap_cons, List.append_assoc]
    by_cases hframed : record.IsFramed
    · -- This record is read, and the fault lies behind it.
      have hlater : ∃ record ∈ records, ¬ record.IsFramed := by
        obtain ⟨r, hmem, hr⟩ := hlong
        rcases List.mem_cons.mp hmem with rfl | hmem
        · exact absurd hframed hr
        · exact ⟨r, hmem, hr⟩
      rw [readFrames_frame hframed, ih hfits.2 hlater]
      rfl
    · exact readFrames_of_not_isFramed hfits.1 hframed _

/-- A file is read back as the records whose frames it has exactly when the length of each of them fits there. -/
theorem readRecords_eq_ok_iff (header : LogHeader) (hfits : ∀ record ∈ records, record.ImagesFit) :
    readRecords (header.encode ++ records.flatMap LogRecord.frame) = .ok records ↔
      ∀ record ∈ records, record.IsFramed := by
  refine ⟨fun hread => ?_, readRecords_encode header⟩
  by_contra hlong
  simp only [not_forall, exists_prop] at hlong
  have hlost := (losesLog_flatMap hfits hlong header []).1
  rw [List.append_nil, hread] at hlost
  cases hlost

/-! ### What a buffer accepts -/

theorem LogBuffer.bytes_add_of_new (config : LogConfig) (record : LogRecord) :
    (({ config } : LogBuffer).add record).bytes = record.frame := bytes_add _ record

theorem LogBuffer.config_flushTo (buffer : LogBuffer) (verdict : Bytes → Except φ Unit) :
    (buffer.flushTo verdict).1.2.config = buffer.config := by
  by_cases hnil : buffer.bytes = []
  · rw [flushTo_of_nil hnil]
  · rw [flushTo_of_ne_nil hnil]
    cases verdict buffer.bytes <;> rfl

namespace BufferAccount

variable {account : BufferAccount}

/-- The records that were accepted are no larger than the buffer may be. -/
structure Admitted (config : LogConfig) (account : BufferAccount) : Prop where
  config_eq : account.buffer.config = config
  fits : ∀ record ∈ account.accepted, record.frame.length ≤ config.bufferSize.toNat

namespace Admitted

theorem enter (h : account.Admitted config) (call : BufferCall φ) : (account.enter call).Admitted config := by
  cases call with
  | append record =>
    cases happend : account.buffer.append record with
    | error error => simpa only [BufferAccount.enter, happend] using h
    | ok accepted =>
      obtain ⟨due, buffer⟩ := accepted
      obtain ⟨hfits, rfl, -⟩ := LogBuffer.of_append_eq_ok happend
      simp only [BufferAccount.enter, happend]
      rw [h.config_eq] at hfits
      exact ⟨h.config_eq, List.forall_mem_append.mpr ⟨h.fits, List.forall_mem_singleton.mpr hfits⟩⟩
  | flush verdict =>
    have hconfig := account.buffer.config_flushTo verdict
    simp only [BufferAccount.enter]
    cases hflush : account.buffer.flushTo verdict with
    | mk outcome given =>
      obtain ⟨result, buffer⟩ := outcome
      rw [hflush] at hconfig
      cases result with
      | ok lsn => exact ⟨hconfig.trans h.config_eq, h.fits⟩
      | error fault => exact ⟨hconfig.trans h.config_eq, h.fits⟩

theorem imagesFit (h : account.Admitted config) (hmem : record ∈ account.accepted) : record.ImagesFit := by
  have hfits := h.fits record hmem
  rw [length_frame] at hfits
  exact imagesFit_of_fits hfits

/-- In a buffer that is not larger than a frame can be, all records are shorter than that. -/
theorem isFramed (h : account.Admitted config) (hsmall : config.bufferSize.toNat < UInt32.size + 4)
    (hmem : record ∈ account.accepted) : record.IsFramed := by
  have hfits := h.fits record hmem
  rw [length_frame] at hfits
  show record.encode.length < UInt32.size
  omega

end Admitted

theorem admitted_play (config : LogConfig) (calls : List (BufferCall φ)) : (play config calls).Admitted config := by
  refine List.foldlRecOn calls enter ⟨rfl, ?_⟩ fun account hadmitted call _ => hadmitted.enter call
  intro record hmem
  cases hmem

/-- What has been sent are the frames of some of the records, which are read back if the frames are long enough for
them; a single one that is not loses them all. -/
theorem exists_delivered (config : LogConfig) (calls : List (BufferCall φ)) :
    let account := play config calls
    ∃ delivered, account.accepted = delivered ++ account.waiting ∧
      ((∀ record ∈ delivered, record.encode.length < UInt32.size) → ReadsBack account.sent delivered) ∧
      ((∃ record ∈ delivered, UInt32.size ≤ record.encode.length) → LosesLog account.sent) := by
  intro account
  obtain ⟨delivered, haccepted, hsent⟩ := (exact_play config calls).split
  have himages : ∀ record ∈ delivered, record.ImagesFit := fun record hmem =>
    (admitted_play config calls).imagesFit (haccepted ▸ List.mem_append_left _ hmem)
  refine ⟨delivered, haccepted, fun hshort => ?_, fun ⟨record, hmem, hlong⟩ => ?_⟩
  · rw [hsent]
    exact readsBack_flatMap hshort
  · rw [hsent]
    exact losesLog_flatMap himages ⟨record, hmem, Nat.not_lt.mpr hlong⟩

/-- A record that is not larger than the buffer may be can be all that has been sent. -/
theorem sent_play_append_flush (φ : Type) (hfits : record.frame.length ≤ config.bufferSize.toNat) :
    (play config [.append record, .flush fun _ => (.ok () : Except φ Unit)]).sent = record.frame := by
  let added := ({ config } : LogBuffer).add record
  have happend : ({ config } : LogBuffer).append record =
      .ok (decide (config.threshold ≤ added.bytes.length), added) := by
    rw [LogBuffer.append_eq, if_pos (record.length_frame ▸ hfits)]
  have hbytes : added.bytes = record.frame := LogBuffer.bytes_add_of_new config record
  have hflush : added.flushTo (fun _ => (.ok () : Except φ Unit)) =
      ((.ok added.maxLsn, added.emptied), [added.bytes]) :=
    LogBuffer.flushTo_of_ok (hbytes ▸ record.frame_ne_nil) rfl
  simp [play, enter, happend, hflush, hbytes]

/-- A buffer with room for the frame of a record of 2³² bytes takes such a record, too. -/
theorem exists_losesLog (φ : Type) (hlarge : UInt32.size + 4 ≤ config.bufferSize.toNat) :
    ∃ calls : List (BufferCall φ), LosesLog (play config calls).sent := by
  obtain ⟨record, hlength⟩ := exists_frame_length (n := UInt32.size + 4) (.inr (by decide))
  have hsent := sent_play_append_flush φ (hlength ▸ hlarge)
  rw [record.length_frame, Nat.add_right_cancel_iff] at hlength
  have himages : record.ImagesFit := imagesFit_of_length_lt (by rw [hlength]; decide)
  have hlong : ¬ record.IsFramed := Nat.not_lt.mpr (Nat.le_of_eq hlength.symm)
  have hlost : LosesLog record.frame := .of_readFrames (readFrames_of_not_isFramed himages hlong)
  rw [← hsent] at hlost
  exact ⟨_, hlost⟩

end BufferAccount

/-- A record that is accepted is appended to the buffer behind four bytes, in which its length stands if and only if it
has fewer than 2³² bytes.  Whatever calls have been made on a buffer: if all records that have been written out are
shorter than that, they are read back, and the reader goes on with whatever follows them; if one of them is not, no
record of the log is read, and the log is not opened.  So a buffer of which every accepted record can be read back is
one that is too small for the frame of such a record. -/
theorem accepted_records_read_back (config : LogConfig) :
    (∀ (buffer buffer' : LogBuffer) (record : LogRecord) (due : Bool), buffer.append record = .ok (due, buffer') →
      ∃ size : Bytes, buffer'.bytes = buffer.bytes ++ (size ++ record.encode) ∧ size.length = 4 ∧
        (Bytes.ofLE size = record.encode.length ↔ record.encode.length < UInt32.size)) ∧
    (∀ calls : List (BufferCall φ),
      let account := BufferAccount.play config calls
      ∃ delivered, account.accepted = delivered ++ account.waiting ∧
        ((∀ record ∈ delivered, record.encode.length < UInt32.size) → ReadsBack account.sent delivered) ∧
        ((∃ record ∈ delivered, UInt32.size ≤ record.encode.length) → LosesLog account.sent)) ∧
    ((∀ calls : List (BufferCall φ),
      let account := BufferAccount.play config calls
      ∃ delivered, account.accepted = delivered ++ account.waiting ∧ ReadsBack account.sent delivered) ↔
        config.bufferSize.toNat < UInt32.size + 4) := by
  refine ⟨fun buffer buffer' record due happend => ?_, BufferAccount.exists_delivered config, fun hread => ?_,
    fun hsmall calls => ?_⟩
  · obtain ⟨-, rfl, -⟩ := LogBuffer.of_append_eq_ok happend
    refine ⟨Bytes.le 4 record.encode.length, buffer.bytes_add record, Bytes.length_le 4 _, ?_⟩
    rw [Bytes.ofLE_le]
    exact Nat.mod_eq_iff_lt (by decide)
  · by_contra hlarge
    obtain ⟨calls, hlost⟩ := BufferAccount.exists_losesLog φ (Nat.le_of_not_lt hlarge)
    obtain ⟨_, _, hback⟩ := hread calls
    exact hlost.not_readsBack hback
  · obtain ⟨delivered, haccepted, hshort, -⟩ := BufferAccount.exists_delivered config calls
    refine ⟨delivered, haccepted, hshort fun record hmem => ?_⟩
    exact (BufferAccount.admitted_play config calls).isFramed hsmall (haccepted ▸ List.mem_append_left _ hmem)

/-- A row of four gigabytes is logged in a buffer that has just enough room for it.  The four bytes in front of the
record are those of the length zero, and the log is neither read nor opened. -/
theorem oversized_record_loses_log :
    let config : LogConfig := { bufferSize := 4294967300 }
    let row : Bytes := List.replicate 4294967246 0
    let change : RowChange := { table := 1, rid := ⟨0, 0⟩, after := some row }
    let record : LogRecord := { lsn := 1, txn := 1, prev := 0, kind := .insert, content := .data change }
    let buffer := ({ config } : LogBuffer).add record
    let file := LogHeader.encode { firstLsn := 1 } ++ buffer.bytes
    LogBuffer.ofConfig? config = some { config } ∧ record.encode.length = 4294967296 ∧
      (∃ due, ({ config } : LogBuffer).append record = .ok (due, buffer)) ∧
      buffer.bytes = [0, 0, 0, 0] ++ record.encode ∧
      readRecords file = .error (.record .unexpectedEnd) ∧
      Log.ofFile config file = .error (.record .unexpectedEnd) := by
  intro config row
  have hrow : row.length = 4294967246 := List.length_replicate
  -- The length of the row is all that matters, and its bytes must not be counted one by one.
  clear_value row
  intro change record buffer file
  have hlength : record.encode.length = 4294967296 := by
    have hbefore : (encodeImage change.before).length = 1 := rfl
    rw [length_encode_data, hbefore, length_encodeImage_some, hrow]
  have hmemory : LogBuffer.ofConfig? config = some { config } :=
    LogBuffer.ofConfig?_eq_some_iff.mpr ⟨by decide, rfl⟩
  have hframe : record.frame = [0, 0, 0, 0] ++ record.encode := by
    rw [frame, hlength]
    rfl
  have hbytes : buffer.bytes = record.frame := LogBuffer.bytes_add_of_new config record
  have happend : ∃ due, ({ config } : LogBuffer).append record = .ok (due, buffer) := by
    rw [LogBuffer.append_eq, if_pos (by rw [hlength]; decide)]
    exact ⟨_, rfl⟩
  have himages : record.ImagesFit := imagesFit_of_length_lt (by rw [hlength]; decide)
  have hlong : ¬ record.IsFramed := by
    rw [IsFramed, hlength]
    decide
  have hlost := LosesLog.of_readFrames (readFrames_of_not_isFramed himages hlong) { firstLsn := 1 } []
  rw [List.append_nil, ← hbytes] at hlost
  exact ⟨hmemory, hlength, happend, hbytes.trans hframe, hlost.1, hlost.2 (by decide) config⟩

end NoWait
