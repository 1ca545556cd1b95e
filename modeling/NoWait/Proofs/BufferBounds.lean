import NoWait.Proofs.Deliveries
import NoWait.Proofs.LogRoom

/-!
# How much a log buffer holds

A buffer refuses a record whose frame is larger than the whole buffer may be, and says that it is due to be written
out when it has reached its threshold.  Neither test asks whether a record fits behind those that wait already, so a
buffer that is written out whenever it is due can still hold more than its size.

* `Prompt` has the buffers that are written out whenever that is due; `Log.prompt_append` says that a log has such a
  one;
* `Filled` says how far they are filled; `Filled.append` and `Filled.flush` are the steps, and `Prompt.filled` is the
  run;
* `buffer_bound` says how much they hold, and for which configurations that is never more than their size;
* `buffer_exceeds_size` is a buffer of a hundred bytes that holds a hundred and forty.
-/

namespace NoWait

variable {config : LogConfig} {buffer buffer' : LogBuffer} {due : Bool} {record : LogRecord}

/-! ### Frames -/

theorem LogRecord.length_frame (record : LogRecord) : record.frame.length = record.encode.length + 4 := by
  rw [frame, List.length_append, Bytes.length_le, Nat.add_comm]

theorem LogRecord.le_length_frame (record : LogRecord) : 40 ≤ record.frame.length := by
  have hencode := record.le_length_encode
  rw [length_frame]
  omega

/-- There are frames of forty bytes, and of any number from fifty-four on. -/
theorem exists_frame_length {n : Nat} (hn : n = 40 ∨ 54 ≤ n) : ∃ record : LogRecord, record.frame.length = n := by
  rcases hn with rfl | hn
  · refine ⟨{ lsn := 1, txn := 1, prev := 0, kind := .begin, content := .control 0 }, ?_⟩
    rw [LogRecord.length_frame, LogRecord.length_encode_control]
  · let change : RowChange := { table := 1, rid := ⟨0, 0⟩, after := some (List.replicate (n - 54) 0) }
    refine ⟨{ lsn := 1, txn := 1, prev := 0, kind := .insert, content := .data change }, ?_⟩
    rw [LogRecord.length_frame, LogRecord.length_encode_data, LogRecord.length_encodeImage_some,
      List.length_replicate]
    show 40 + 1 + (9 + (n - 54)) + 4 = n
    omega

/-! ### Buffers that are written out when they are due -/

/-- A buffer of a configuration that is written out whenever that is due before it takes anything else, and whether
it is due now. -/
inductive Prompt (config : LogConfig) : LogBuffer → Bool → Prop where
  | start : Prompt config { config } false
  | append {buffer buffer' : LogBuffer} {record : LogRecord} {due : Bool} :
    Prompt config buffer false → buffer.append record = .ok (due, buffer') → Prompt config buffer' due
  | flush {buffer buffer' : LogBuffer} {verdict : Bytes → Except LogBufferError Unit} {due : Bool} {lsn : Lsn}
      {given : List Bytes} :
    Prompt config buffer due → buffer.flushTo verdict = ((.ok lsn, buffer'), given) → Prompt config buffer' false

/-- How far such a buffer is filled. -/
structure Filled (config : LogConfig) (buffer : LogBuffer) (due : Bool) : Prop where
  config_eq : buffer.config = config
  threshold_eq : buffer.threshold = config.threshold
  bound : buffer.bytes.length ≤ config.bufferSize.toNat + (config.threshold - 1)
  least : buffer.bytes = [] ∨ 40 ≤ buffer.bytes.length
  calm : due = false → buffer.bytes = [] ∨ buffer.bytes.length < config.threshold

namespace LogBuffer

/-- What an append says that succeeds. -/
theorem of_append_eq_ok (happend : buffer.append record = .ok (due, buffer')) :
    record.frame.length ≤ buffer.config.bufferSize.toNat ∧ buffer' = buffer.add record ∧
      due = decide (buffer.threshold ≤ buffer'.bytes.length) := by
  rw [append_eq] at happend
  split at happend
  · rename_i hfits
    cases happend
    exact ⟨record.length_frame ▸ hfits, rfl, rfl⟩
  · cases happend

/-- What a flush leaves that succeeds. -/
theorem of_flushTo_eq_ok {φ : Type} {verdict : Bytes → Except φ Unit} {lsn : Lsn} {given : List Bytes}
    (hflush : buffer.flushTo verdict = ((.ok lsn, buffer'), given)) :
    buffer'.bytes = [] ∧ buffer'.config = buffer.config ∧ buffer'.threshold = buffer.threshold := by
  by_cases hnil : buffer.bytes = []
  · rw [flushTo_of_nil hnil] at hflush
    cases hflush
    exact ⟨hnil, rfl, rfl⟩
  · rw [flushTo_of_ne_nil hnil] at hflush
    cases hverdict : verdict buffer.bytes with
    | ok _ =>
      rw [hverdict] at hflush
      cases hflush
      exact ⟨rfl, rfl, rfl⟩
    | error fault =>
      rw [hverdict] at hflush
      cases hflush

end LogBuffer

namespace Filled

theorem of_nil (hconfig : buffer.config = config) (hthreshold : buffer.threshold = config.threshold)
    (hnil : buffer.bytes = []) : Filled config buffer due where
  config_eq := hconfig
  threshold_eq := hthreshold
  bound := by simp [hnil]
  least := .inl hnil
  calm := fun _ => .inl hnil

/-- A buffer that is not due holds less than its threshold, so that one more frame brings it less than that beyond
its size. -/
theorem append (h : Filled config buffer false) (happend : buffer.append record = .ok (due, buffer')) :
    Filled config buffer' due := by
  obtain ⟨hfits, rfl, hdue⟩ := LogBuffer.of_append_eq_ok happend
  have hlength : (buffer.add record).bytes.length = buffer.bytes.length + record.frame.length := by
    rw [LogBuffer.bytes_add, List.length_append]
  have hframe := record.le_length_frame
  have hbelow : buffer.bytes.length ≤ config.threshold - 1 := by
    rcases h.calm rfl with hnil | hlt
    · rw [hnil]
      exact Nat.zero_le _
    · omega
  rw [h.config_eq] at hfits
  rw [h.threshold_eq] at hdue
  refine ⟨h.config_eq, h.threshold_eq, by omega, .inr (by omega), fun hcalm => .inr ?_⟩
  rw [hdue, decide_eq_false_iff_not] at hcalm
  exact Nat.lt_of_not_le hcalm

theorem flush (h : Filled config buffer due) {verdict : Bytes → Except LogBufferError Unit} {lsn : Lsn}
    {given : List Bytes} (hflush : buffer.flushTo verdict = ((.ok lsn, buffer'), given)) :
    Filled config buffer' false := by
  obtain ⟨hnil, hconfig, hthreshold⟩ := LogBuffer.of_flushTo_eq_ok hflush
  exact .of_nil (hconfig.trans h.config_eq) (hthreshold.trans h.threshold_eq) hnil

end Filled

namespace Prompt

theorem filled (h : Prompt config buffer due) : Filled config buffer due := by
  induction h with
  | start => exact .of_nil rfl rfl rfl
  | append _ happend ih => exact ih.append happend
  | flush _ hflush ih => exact ih.flush hflush

/-- If every record makes the buffer due, or none fits, the buffer never holds more than its size. -/
theorem length_le (h : Prompt config buffer due) (hnarrow : config.threshold ≤ 40 ∨ config.bufferSize.toNat < 40) :
    buffer.bytes.length ≤ config.bufferSize.toNat := by
  cases h with
  | start => exact Nat.zero_le _
  | flush _ hflush =>
    rw [(LogBuffer.of_flushTo_eq_ok hflush).1]
    exact Nat.zero_le _
  | @append before _ record _ hbefore happend =>
    obtain ⟨hfits, rfl, _⟩ := LogBuffer.of_append_eq_ok happend
    have hfilled := hbefore.filled
    have hframe := record.le_length_frame
    rw [hfilled.config_eq] at hfits
    have hnil : before.bytes = [] := by
      rcases hfilled.calm rfl with hnil | hbelow
      · exact hnil
      · exact hfilled.least.resolve_right fun hleast => by omega
    rw [LogBuffer.bytes_add, hnil]
    exact hfits

/-- A record that fits by itself is taken by a buffer that is not due. -/
theorem add (h : Prompt config buffer false) (hfits : record.frame.length ≤ config.bufferSize.toNat) :
    Prompt config (buffer.add record) (decide (config.threshold ≤ (buffer.add record).bytes.length)) := by
  obtain ⟨hconfig, hthreshold, _⟩ := h.filled
  have happend := buffer.append_eq record
  rw [hconfig, if_pos (record.length_frame ▸ hfits), hthreshold] at happend
  exact h.append happend

/-- Otherwise a short record can wait and a second one come behind it that does not fit there. -/
theorem exists_gt (hthreshold : 40 < config.threshold) (hsize : 40 ≤ config.bufferSize.toNat) :
    ∃ buffer due, Prompt config buffer due ∧ config.bufferSize.toNat < buffer.bytes.length := by
  obtain ⟨first, hfirst⟩ := exists_frame_length (.inl rfl)
  have hsecond : ∃ second : LogRecord, second.frame.length ≤ config.bufferSize.toNat ∧
      config.bufferSize.toNat < 40 + second.frame.length := by
    by_cases hsmall : config.bufferSize.toNat < 80
    · exact ⟨first, by omega, by omega⟩
    · obtain ⟨second, hlength⟩ := exists_frame_length (.inr (Nat.le_trans (by decide) (Nat.le_of_not_lt hsmall)))
      exact ⟨second, by omega, by omega⟩
  obtain ⟨second, hfits, hover⟩ := hsecond
  have hlength : (({ config } : LogBuffer).add first).bytes.length = 40 := by
    rw [LogBuffer.bytes_add, List.length_append, hfirst]
    rfl
  have hwaits : Prompt config (({ config } : LogBuffer).add first) false := by
    have hadded := Prompt.start.add (hfirst ▸ hsize)
    rwa [hlength, decide_eq_false (Nat.not_le.mpr hthreshold)] at hadded
  refine ⟨_, _, hwaits.add hfits, ?_⟩
  rw [LogBuffer.bytes_add, List.length_append, hlength]
  exact hover

end Prompt

/-! ### Logs write their buffers out when they are due -/

namespace Log

variable {log : Log}

theorem prompt_flush (h : Prompt config log.buffer due) : Prompt config log.flush.buffer false := by
  by_cases hnil : log.buffer.bytes = []
  · rw [flush_of_nil hnil]
    exact h.flush (LogBuffer.flushTo_of_nil hnil fun _ => .ok ())
  · rw [flush_of_ne_nil hnil]
    exact h.flush (LogBuffer.flushTo_of_ne_nil hnil fun _ => .ok ())

theorem prompt_append (h : Prompt config log.buffer false) (txn : TxnId) (prev : Lsn) (kind : RecordKind)
    (content : RecordContent) : Prompt config (log.append txn prev kind content).2.buffer false := by
  simp only [append]
  cases happend : log.buffer.append { lsn := log.nextLsn, txn, prev, kind, content } with
  | error error => exact h
  | ok accepted =>
    obtain ⟨due, buffer⟩ := accepted
    have hprompt := h.append happend
    cases due with
    | true =>
      let log' : Log := { log with nextLsn := log.nextLsn + 1, buffer }
      exact log'.prompt_flush hprompt
    | false => exact hprompt

end Log

/-- A buffer that is written out whenever it is due, as that of a log is, holds less than its threshold before
anything is appended, and so less than that beyond its size after it.  Its size is a bound only if every record makes
it due or none fits at all: the shortest frame has forty bytes. -/
theorem buffer_bound (config : LogConfig) :
    (∀ buffer due, Prompt config buffer due →
      buffer.bytes.length ≤ config.bufferSize.toNat + (config.threshold - 1) ∧
      (due = false → buffer.bytes = [] ∨ buffer.bytes.length < config.threshold)) ∧
    (∀ log : Log, Prompt config log.buffer false → ∀ txn prev kind content,
      Prompt config (log.append txn prev kind content).2.buffer false) ∧
    ((∀ buffer due, Prompt config buffer due → buffer.bytes.length ≤ config.bufferSize.toNat) ↔
      config.threshold ≤ 40 ∨ config.bufferSize.toNat < 40) := by
  refine ⟨fun buffer due hprompt => ⟨hprompt.filled.bound, hprompt.filled.calm⟩,
    fun log hprompt => Log.prompt_append hprompt, fun hbound => ?_, fun hnarrow buffer due hprompt =>
      hprompt.length_le hnarrow⟩
  by_contra hwide
  obtain ⟨hthreshold, hsize⟩ := not_or.mp hwide
  obtain ⟨buffer, due, hprompt, hover⟩ := Prompt.exists_gt (Nat.lt_of_not_le hthreshold) (Nat.le_of_not_lt hsize)
  exact absurd (hbound buffer due hprompt) (Nat.not_le.mpr hover)

/-- A short record waits in a buffer of a hundred bytes, which is not due with it; a second one of a hundred bytes is
taken all the same. -/
theorem buffer_exceeds_size :
    let config : LogConfig := { bufferSize := 100, flushThreshold := 0.75 }
    let first : LogRecord := { lsn := 1, txn := 1, prev := 0, kind := .begin, content := .control 0 }
    let change : RowChange := { table := 1, rid := ⟨0, 0⟩, after := some (List.replicate 46 7) }
    let second : LogRecord := { lsn := 2, txn := 1, prev := 1, kind := .insert, content := .data change }
    ∃ waiting full, ({ config } : LogBuffer).append first = .ok (false, waiting) ∧
      waiting.append second = .ok (true, full) ∧ Prompt config full true ∧
      full.bytes.length = 140 ∧ config.bufferSize.toNat = 100 ∧ 1 < full.utilization := by
  intro config first change second
  let waiting := ({ config } : LogBuffer).add first
  let full := waiting.add second
  have hfirst : first.encode.length + 4 ≤ config.bufferSize.toNat := by decide
  have hsecond : second.encode.length + 4 ≤ waiting.config.bufferSize.toNat := by decide
  have hcalm : decide (config.threshold ≤ waiting.bytes.length) = false := by decide +kernel
  have hdue : decide (waiting.threshold ≤ full.bytes.length) = true := by decide +kernel
  have hwaiting : ({ config } : LogBuffer).append first = .ok (false, waiting) := by
    rw [LogBuffer.append_eq, if_pos hfirst, ← hcalm]
  have hfull : waiting.append second = .ok (true, full) := by
    rw [LogBuffer.append_eq, if_pos hsecond, ← hdue]
  have hover : full.bytes.length = 140 ∧ config.bufferSize.toNat = 100 ∧ 1 < full.utilization := by decide +kernel
  exact ⟨waiting, full, hwaiting, hfull, (Prompt.start.append hwaiting).append hfull, hover⟩

end NoWait
