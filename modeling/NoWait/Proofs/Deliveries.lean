import NoWait.Proofs.LogHistory

/-!
# The log buffer delivers every record once

A buffer takes records and hands their frames on to writers, of which some succeed and some fail.

* `LogBuffer.flushTo` is a flush with a writer that notes down what it is given, and so tells how often it is
  called and with what; `flushTo_of_nil`, `flushTo_of_ok` and `flushTo_of_error` are its three ways to end;
* `BufferCall` is a use of a buffer; `BufferAccount` goes along with the buffer and has the records that were
  accepted, those of them that wait, and the bytes that writers have taken;
* `BufferAccount.Exact` says that nothing is lost and nothing is there twice; `Exact.append` and `Exact.flush`
  are the steps that keep it, and `exact_play` is the run;
* `buffer_delivers_once` is what follows for any sequence of calls.
-/

namespace NoWait

variable {φ : Type} {records : List LogRecord} {record : LogRecord} {lsn : Lsn}

/-! ### The highest number -/

/-- A number is the highest one of some records, or zero as long as there are none. -/
structure HighestLsn (records : List LogRecord) (lsn : Lsn) : Prop where
  upper : ∀ record ∈ records, record.lsn ≤ lsn
  attained : lsn = 0 ∨ ∃ record ∈ records, record.lsn = lsn

theorem max_lsn_cases (a b : Lsn) : b ≤ a ∧ max a b = a ∨ a ≤ b ∧ max a b = b := by
  by_cases hle : a ≤ b
  · exact .inr ⟨hle, if_pos hle⟩
  · exact .inl ⟨UInt64.le_of_lt (UInt64.not_le.mp hle), if_neg hle⟩

namespace HighestLsn

theorem nil : HighestLsn [] 0 := ⟨by simp, .inl rfl⟩

theorem concat (h : HighestLsn records lsn) (record : LogRecord) :
    HighestLsn (records ++ [record]) (max lsn record.lsn) := by
  obtain ⟨hupper, hattained⟩ := h
  rcases max_lsn_cases lsn record.lsn with ⟨hle, hmax⟩ | ⟨hle, hmax⟩
  · rw [hmax]
    refine ⟨List.forall_mem_append.mpr ⟨hupper, List.forall_mem_singleton.mpr hle⟩, ?_⟩
    exact hattained.imp_right fun ⟨r, hmem, heq⟩ => ⟨r, List.mem_append_left _ hmem, heq⟩
  · rw [hmax]
    have hupper' : ∀ r ∈ records, r.lsn ≤ record.lsn := fun r hmem => UInt64.le_trans (hupper r hmem) hle
    refine ⟨List.forall_mem_append.mpr ⟨hupper', List.forall_mem_singleton.mpr (UInt64.le_refl _)⟩, ?_⟩
    exact .inr ⟨record, by simp, rfl⟩

/-- If there is a record, the highest number is that of one. -/
theorem exists_mem (h : HighestLsn records lsn) (hne : records ≠ []) : ∃ record ∈ records, record.lsn = lsn := by
  rcases h.attained with hzero | hattained
  · obtain ⟨record, hmem⟩ := List.exists_mem_of_ne_nil records hne
    have hle := h.upper record hmem
    rw [hzero] at hle ⊢
    exact ⟨record, hmem, UInt64.le_antisymm hle UInt64.zero_le⟩
  · exact hattained

end HighestLsn

/-! ### Writers that note down what they are given -/

namespace LogBuffer

variable {buffer : LogBuffer} {verdict : Bytes → Except φ Unit}

/-- Notes down the bytes, and then succeeds or fails as the verdict on them says. -/
def noting (verdict : Bytes → Except φ Unit) (bytes : Bytes) : StateM (List Bytes) (Except φ Unit) := do
  modify (· ++ [bytes])
  return verdict bytes

/-- A flush with a writer of the given verdict: what comes of it, the buffer that it leaves, and what the writer
was given, call by call. -/
def flushTo (buffer : LogBuffer) (verdict : Bytes → Except φ Unit) :
    (Except φ Lsn × LogBuffer) × List Bytes :=
  (buffer.flush (noting verdict)).run []

theorem flushTo_of_nil (hnil : buffer.bytes = []) (verdict : Bytes → Except φ Unit) :
    buffer.flushTo verdict = ((.ok 0, buffer), []) := by
  rw [flushTo, flush_of_nil hnil]
  rfl

/-- The writer is called once, with everything that waits. -/
theorem flushTo_of_ne_nil (hne : buffer.bytes ≠ []) (verdict : Bytes → Except φ Unit) :
    buffer.flushTo verdict = match verdict buffer.bytes with
      | .ok () => ((.ok buffer.maxLsn, buffer.emptied), [buffer.bytes])
      | .error fault => ((.error fault, buffer), [buffer.bytes]) := by
  rw [flushTo, flush_of_ne_nil hne]
  simp only [noting, StateT.run_bind, StateT.run_modify, StateT.run_pure, pure_bind, List.nil_append]
  cases verdict buffer.bytes <;> rfl

theorem flushTo_of_ok (hne : buffer.bytes ≠ []) (hverdict : verdict buffer.bytes = .ok ()) :
    buffer.flushTo verdict = ((.ok buffer.maxLsn, buffer.emptied), [buffer.bytes]) := by
  rw [flushTo_of_ne_nil hne, hverdict]

theorem flushTo_of_error {fault : φ} (hne : buffer.bytes ≠ []) (hverdict : verdict buffer.bytes = .error fault) :
    buffer.flushTo verdict = ((.error fault, buffer), [buffer.bytes]) := by
  rw [flushTo_of_ne_nil hne, hverdict]

end LogBuffer

/-! ### Accounts -/

/-- A use of a log buffer.  The verdict is that of the writer on the bytes that it is given. -/
inductive BufferCall (φ : Type) where
  | append (record : LogRecord)
  | flush (verdict : Bytes → Except φ Unit)

/-- A log buffer with the account of its use. -/
structure BufferAccount where
  buffer : LogBuffer
  /-- The bytes that were given to writers that succeeded. -/
  sent : Bytes := []
  /-- The records that were accepted, in order. -/
  accepted : List LogRecord := []
  /-- Those of them that were accepted since a writer last succeeded. -/
  waiting : List LogRecord := []

namespace BufferAccount

variable {account : BufferAccount}

/-- The buffer and the account after a call. -/
def enter (account : BufferAccount) : BufferCall φ → BufferAccount
  | .append record =>
    match account.buffer.append record with
    | .ok (_, buffer) => { account with
        buffer, accepted := account.accepted ++ [record], waiting := account.waiting ++ [record] }
    | .error _ => account
  | .flush verdict =>
    match account.buffer.flushTo verdict with
    | ((.ok _, buffer), given) => { account with buffer, sent := account.sent ++ given.flatten, waiting := [] }
    | ((.error _, buffer), _) => { account with buffer }

/-- The buffer and the account after the given calls, from an empty buffer on. -/
def play (config : LogConfig) (calls : List (BufferCall φ)) : BufferAccount :=
  calls.foldl enter { buffer := { config } }

/-- Every record that was accepted has been sent or waits, and the buffer has those that wait. -/
structure Exact (account : BufferAccount) : Prop where
  split : ∃ delivered, account.accepted = delivered ++ account.waiting ∧
    account.sent = delivered.flatMap LogRecord.frame
  bytes : account.buffer.bytes = account.waiting.flatMap LogRecord.frame
  maxLsn : HighestLsn account.waiting account.buffer.maxLsn

namespace Exact

theorem init (config : LogConfig) : Exact { buffer := { config } } := ⟨⟨[], rfl, rfl⟩, rfl, .nil⟩

theorem bytes_eq_nil_iff (h : account.Exact) : account.buffer.bytes = [] ↔ account.waiting = [] := by
  rw [h.bytes]
  exact flatMap_frame_eq_nil

/-- What has been sent and what is buffered are all records, in order. -/
theorem sent_append_bytes (h : account.Exact) :
    account.sent ++ account.buffer.bytes = account.accepted.flatMap LogRecord.frame := by
  obtain ⟨delivered, haccepted, hsent⟩ := h.split
  rw [hsent, h.bytes, haccepted, List.flatMap_append]

/-- A record that is appended waits behind the others, or is refused and nothing changes. -/
theorem append (h : account.Exact) (record : LogRecord) :
    (account.enter (.append record : BufferCall φ)).Exact := by
  simp only [enter, LogBuffer.append_eq]
  by_cases hfits : record.encode.length + 4 ≤ account.buffer.config.bufferSize.toNat
  · rw [if_pos hfits]
    obtain ⟨⟨delivered, haccepted, hsent⟩, hbytes, hmaxLsn⟩ := h
    refine ⟨⟨delivered, ?_, hsent⟩, ?_, hmaxLsn.concat record⟩
    · rw [haccepted, List.append_assoc]
    · rw [LogBuffer.bytes_add, hbytes, List.flatMap_append, List.flatMap_singleton]
  · rw [if_neg hfits]
    exact h

/-- A flush sends everything that waits, unless the writer fails and nothing changes. -/
theorem flush (h : account.Exact) (verdict : Bytes → Except φ Unit) :
    (account.enter (.flush verdict)).Exact := by
  simp only [enter]
  by_cases hnil : account.buffer.bytes = []
  · rw [LogBuffer.flushTo_of_nil hnil]
    obtain ⟨delivered, haccepted, hsent⟩ := h.split
    have hwaiting := h.bytes_eq_nil_iff.mp hnil
    have hmaxLsn := h.maxLsn
    rw [hwaiting] at haccepted hmaxLsn
    exact ⟨⟨delivered, haccepted, by simpa using hsent⟩, hnil, hmaxLsn⟩
  · cases hverdict : verdict account.buffer.bytes with
    | ok _ =>
      rw [LogBuffer.flushTo_of_ok hnil hverdict]
      refine ⟨⟨account.accepted, (List.append_nil _).symm, ?_⟩, rfl, .nil⟩
      show account.sent ++ [account.buffer.bytes].flatten = _
      rw [List.flatten_singleton, h.sent_append_bytes]
    | error fault =>
      rw [LogBuffer.flushTo_of_error hnil hverdict]
      exact h

end Exact

theorem exact_play (config : LogConfig) (calls : List (BufferCall φ)) : (play config calls).Exact := by
  refine List.foldlRecOn calls enter (.init config) fun account hexact call _ => ?_
  cases call with
  | append record => exact hexact.append record
  | flush verdict => exact hexact.flush verdict

end BufferAccount

/-- Whatever calls have been made on a buffer of whatever configuration, what writers have taken and what is buffered
are the frames of the records that were accepted, in order and each once.  As to the next call: an append adds the
frame of its record, or is refused and changes nothing; a flush of an empty buffer calls no writer, and any other
calls its writer once, with all bytes.  If the writer fails nothing changes; if it succeeds the buffer is empty, and
the highest number of the records that were written is returned. -/
theorem buffer_delivers_once (config : LogConfig) (calls : List (BufferCall φ)) :
    let account := BufferAccount.play config calls
    let buffer := account.buffer
    (account.sent ++ buffer.bytes = account.accepted.flatMap LogRecord.frame ∧
      buffer.bytes = account.waiting.flatMap LogRecord.frame ∧ account.waiting <:+ account.accepted) ∧
    (∀ record,
      (∃ due, buffer.append record = .ok (due, buffer.add record) ∧
        (buffer.add record).bytes = buffer.bytes ++ record.frame) ∨
      (∃ error, buffer.append record = .error error ∧
        account.enter (.append record : BufferCall φ) = account)) ∧
    ∀ verdict : Bytes → Except φ Unit,
      (buffer.bytes = [] → buffer.flushTo verdict = ((.ok 0, buffer), [])) ∧
      (∀ fault, buffer.bytes ≠ [] → verdict buffer.bytes = .error fault →
        buffer.flushTo verdict = ((.error fault, buffer), [buffer.bytes])) ∧
      (buffer.bytes ≠ [] → verdict buffer.bytes = .ok () →
        ∃ lsn, buffer.flushTo verdict = ((.ok lsn, buffer.emptied), [buffer.bytes]) ∧
          (∃ record ∈ account.waiting, record.lsn = lsn) ∧ ∀ record ∈ account.waiting, record.lsn ≤ lsn) := by
  intro account buffer
  have hexact : account.Exact := BufferAccount.exact_play config calls
  obtain ⟨delivered, haccepted, _⟩ := hexact.split
  refine ⟨⟨hexact.sent_append_bytes, hexact.bytes, delivered, haccepted.symm⟩, fun record => ?_, fun verdict => ?_⟩
  · have happend := buffer.append_eq record
    split at happend
    · exact .inl ⟨_, happend, buffer.bytes_add record⟩
    · exact .inr ⟨_, happend, by simp only [BufferAccount.enter, happend, buffer]⟩
  · refine ⟨fun hnil => LogBuffer.flushTo_of_nil hnil verdict,
      fun fault hne hverdict => LogBuffer.flushTo_of_error hne hverdict, fun hne hverdict => ?_⟩
    have hwaiting : account.waiting ≠ [] := fun hnil => hne (hexact.bytes_eq_nil_iff.mpr hnil)
    exact ⟨buffer.maxLsn, LogBuffer.flushTo_of_ok hne hverdict, hexact.maxLsn.exists_mem hwaiting,
      hexact.maxLsn.upper⟩

end NoWait
