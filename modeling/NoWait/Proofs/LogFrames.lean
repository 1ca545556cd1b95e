import Mathlib.Data.List.Forall2
import NoWait.Proofs.LogDecoding

/-!
# Whole and torn log files

Behind its header a log consists of frames: the length of a body in four bytes, and the body, which begins
with the bytes of a record.  The reader accepts exactly such files, and of a file that was cut short it gives
the records of the frames that are whole, or an error when the cut goes through a frame.

* `Frames` says that bytes are the frames of given bodies, which begin with given records;
* `splitFrame_eq_ok_iff` is one frame at the front, `readFrames_eq_ok_iff` all frames of a file;
* `splitFrame_take` is a frame that was cut through, `readFrames_take` a file that was cut through a frame;
* `log_reader_exact` is the reader on any file, and on a file that was cut anywhere behind its header.
-/

namespace NoWait

open LogRecord

variable {bytes body rest : Bytes} {bodies : List Bytes} {record : LogRecord} {records : List LogRecord}

/-- Whether the body of a frame begins with a record, and its length fits into four bytes. -/
structure Carries (body : Bytes) (record : LogRecord) : Prop where
  fits : body.length < UInt32.size
  record : record.encode <+: body

/-- Whether bytes are the frames of some bodies, one after another, that begin with records. -/
structure Frames (bytes : Bytes) (bodies : List Bytes) (records : List LogRecord) : Prop where
  bytes_eq : bytes = bodies.flatMap frameOf
  carries : List.Forall₂ Carries bodies records

/-! ### One frame -/

@[simp] theorem length_frameOf (body : Bytes) : (frameOf body).length = 4 + body.length := by
  simp [frameOf]

/-- A record that stands in a frame is read from it, whatever else is in the frame. -/
theorem Carries.decode_eq (h : Carries body record) : decode body = .ok record := by
  have hframed : record.IsFramed := Nat.lt_of_le_of_lt h.record.length_le h.fits
  exact decode_eq_ok_iff.mpr ⟨hframed.imagesFit, h.record⟩

/-- A frame can be cut off where its length and its body are there in full. -/
theorem splitFrame_eq_ok_iff : splitFrame bytes = .ok (body, rest) ↔
    bytes = frameOf body ++ rest ∧ body.length < UInt32.size := by
  constructor
  · intro h
    unfold splitFrame at h
    cases hsize : bytes.split? 4 with
    | none =>
      rw [hsize] at h
      cases h
    | some cut =>
      obtain ⟨size, after⟩ := cut
      simp only [hsize] at h
      cases hbody : after.split? (Bytes.ofLE size) with
      | none =>
        rw [hbody] at h
        cases h
      | some frame =>
        rw [hbody] at h
        cases h
        obtain ⟨rfl, hfour⟩ := Bytes.split?_eq_some_iff.mp hsize
        obtain ⟨rfl, hlength⟩ := Bytes.split?_eq_some_iff.mp hbody
        have hwritten : Bytes.le 4 (Bytes.ofLE size) = size := by
          rw [← hfour, Bytes.le_ofLE]
        have hlt : Bytes.ofLE size < UInt32.size := by
          have hvalue := Bytes.ofLE_le 4 (Bytes.ofLE size)
          rw [hwritten] at hvalue
          rw [hvalue]
          exact Nat.mod_lt _ (by decide)
        refine ⟨?_, by rw [hlength]; exact hlt⟩
        rw [frameOf, hlength, hwritten, List.append_assoc]
  · rintro ⟨rfl, hlt⟩
    exact splitFrame_frameOf hlt rest

/-- Where no frame can be cut off, the bytes end inside the length or inside the body. -/
theorem splitFrame_error {error : LogError} (h : splitFrame bytes = .error error) :
    error = .shortRead ∨ error = .invalidFormat := by
  unfold splitFrame at h
  split at h
  · cases h
    exact .inl rfl
  · split at h
    · cases h
      exact .inr rfl
    · cases h

/-- Nothing short of a frame can be cut off as one. -/
theorem splitFrame_take {n : Nat} (hlt : body.length < UInt32.size) (hn : n < (frameOf body).length)
    (rest : Bytes) :
    ∃ error, splitFrame ((frameOf body ++ rest).take n) = .error error := by
  cases hsplit : splitFrame ((frameOf body ++ rest).take n) with
  | error error => exact ⟨error, rfl⟩
  | ok cut =>
    exfalso
    obtain ⟨body', rest'⟩ := cut
    obtain ⟨hbytes, hlt'⟩ := splitFrame_eq_ok_iff.mp hsplit
    -- What was cut off would be cut off from the whole, too.
    have hwhole : splitFrame (frameOf body ++ rest) =
        .ok (body', rest' ++ (frameOf body ++ rest).drop n) := by
      rw [splitFrame_eq_ok_iff]
      refine ⟨?_, hlt'⟩
      rw [← List.append_assoc, ← hbytes, List.take_append_drop]
    rw [splitFrame_frameOf hlt rest] at hwhole
    obtain ⟨rfl, -⟩ := Prod.mk.inj (Except.ok.inj hwhole)
    have hlength := congrArg List.length hbytes
    rw [List.length_take, List.length_append, List.length_append] at hlength
    omega

/-! ### All frames of a file -/

theorem readFrames_of_error {error : LogError} (hne : bytes ≠ []) (h : splitFrame bytes = .error error) :
    readFrames bytes = .error error := by
  have hfull : bytes.isEmpty = false := by simpa using hne
  rw [readFrames, hfull, if_neg Bool.false_ne_true]
  split
  · rename_i error' herror
    rw [h] at herror
    cases herror
    rfl
  · rename_i body rest hsplit
    rw [h] at hsplit
    cases hsplit

theorem Carries.readFrames_eq (h : Carries body record) (rest : Bytes) :
    readFrames (frameOf body ++ rest) = (readFrames rest).map (record :: ·) := by
  rw [readFrames_of_splitFrame (splitFrame_frameOf h.fits rest), h.decode_eq]

theorem Frames.readFrames_eq (h : Frames bytes bodies records) : readFrames bytes = .ok records := by
  obtain ⟨rfl, hcarries⟩ := h
  induction hcarries with
  | nil => exact readFrames_nil
  | cons hfirst _ ih =>
    rw [List.flatMap_cons, hfirst.readFrames_eq, ih]
    rfl

/-- The reader goes from frame to frame, so it accepts nothing but frames. -/
theorem exists_frames_of_readFrames (h : readFrames bytes = .ok records) :
    ∃ bodies, Frames bytes bodies records := by
  induction hn : bytes.length using Nat.strong_induction_on generalizing bytes records with
  | h n ih =>
    subst hn
    by_cases hempty : bytes = []
    · subst hempty
      rw [readFrames_nil] at h
      cases h
      exact ⟨[], rfl, .nil⟩
    · cases hsplit : splitFrame bytes with
      | error error =>
        rw [readFrames_of_error hempty hsplit] at h
        cases h
      | ok cut =>
        obtain ⟨body, rest⟩ := cut
        rw [readFrames_of_splitFrame hsplit] at h
        cases hdecode : decode body with
        | error error =>
          rw [hdecode] at h
          cases h
        | ok record =>
          rw [hdecode] at h
          obtain ⟨hbytes, hlt⟩ := splitFrame_eq_ok_iff.mp hsplit
          cases hrest : readFrames rest with
          | error error =>
            simp only [hrest] at h
            cases h
          | ok others =>
            simp only [hrest] at h
            cases h
            obtain ⟨bodies, heq, hcarries⟩ := ih rest.length (length_of_splitFrame hsplit) hrest rfl
            refine ⟨body :: bodies, ?_, .cons ⟨hlt, (encode_prefix_of_decode hdecode).2⟩ hcarries⟩
            rw [List.flatMap_cons, ← heq, hbytes]

theorem readFrames_eq_ok_iff : readFrames bytes = .ok records ↔ ∃ bodies, Frames bytes bodies records :=
  ⟨exists_frames_of_readFrames, fun ⟨_, hframes⟩ => hframes.readFrames_eq⟩

/-- What the reader of a file can fail with. -/
def LogError.IsOfReader : LogError → Prop
  | .shortRead | .invalidFormat | .record _ => True
  | _ => False

/-- The reader ends on every file, with records or with one of three errors. -/
theorem readFrames_error {error : LogError} (h : readFrames bytes = .error error) : error.IsOfReader := by
  induction hn : bytes.length using Nat.strong_induction_on generalizing bytes with
  | h n ih =>
    subst hn
    by_cases hempty : bytes = []
    · subst hempty
      rw [readFrames_nil] at h
      cases h
    · cases hsplit : splitFrame bytes with
      | error error' =>
        rw [readFrames_of_error hempty hsplit] at h
        cases h
        rcases splitFrame_error hsplit with rfl | rfl <;> trivial
      | ok cut =>
        obtain ⟨body, rest⟩ := cut
        rw [readFrames_of_splitFrame hsplit] at h
        cases hdecode : decode body with
        | error error' =>
          rw [hdecode] at h
          cases h
          trivial
        | ok record =>
          rw [hdecode] at h
          cases hrest : readFrames rest with
          | ok others =>
            simp only [hrest] at h
            cases h
          | error error' =>
            simp only [hrest] at h
            cases h
            exact ih rest.length (length_of_splitFrame hsplit) hrest rfl

/-! ### Files that were cut short -/

/-- Where the frame of a number begins, or the file ends. -/
def frameStart (bodies : List Bytes) (k : Nat) : Nat := ((bodies.take k).flatMap frameOf).length

theorem frameStart_succ (body : Bytes) (bodies : List Bytes) (k : Nat) :
    frameStart (body :: bodies) (k + 1) = (frameOf body).length + frameStart bodies k := by
  simp [frameStart]

/-- A file that is cut where a frame begins has the frames ahead of it. -/
theorem take_frameStart (bodies : List Bytes) (k : Nat) :
    (bodies.flatMap frameOf).take (frameStart bodies k) = (bodies.take k).flatMap frameOf := by
  have hsplit : bodies.flatMap frameOf =
      (bodies.take k).flatMap frameOf ++ (bodies.drop k).flatMap frameOf := by
    rw [← List.flatMap_append, List.take_append_drop]
  rw [hsplit, frameStart, List.take_left]

theorem Frames.take (h : Frames bytes bodies records) (k : Nat) :
    Frames (bytes.take (frameStart bodies k)) (bodies.take k) (records.take k) where
  bytes_eq := by rw [h.bytes_eq, take_frameStart]
  carries := List.forall₂_take k h.carries

/-- A file that is cut elsewhere is not read, because the frame that was cut through is not. -/
theorem readFrames_take (h : Frames bytes bodies records) {n : Nat} (hle : n ≤ bytes.length)
    (hinside : ∀ k, n ≠ frameStart bodies k) :
    readFrames (bytes.take n) = .error .shortRead ∨ readFrames (bytes.take n) = .error .invalidFormat := by
  obtain ⟨rfl, hcarries⟩ := h
  induction hcarries generalizing n with
  | nil =>
    have hzero : n = 0 := by simpa using hle
    exact absurd hzero (hinside 0)
  | @cons body record bodies records hfirst _ ih =>
    rw [List.flatMap_cons] at hle ⊢
    by_cases hlt : n < (frameOf body).length
    · have hpos : 0 < n := Nat.pos_of_ne_zero (hinside 0)
      have hne : (frameOf body ++ bodies.flatMap frameOf).take n ≠ [] := by
        rw [Ne, List.take_eq_nil_iff]
        rintro (hzero | hnil)
        · omega
        · have hlength := congrArg List.length hnil
          simp at hlength
      obtain ⟨error, herror⟩ := splitFrame_take hfirst.fits hlt (bodies.flatMap frameOf)
      rw [readFrames_of_error hne herror]
      rcases splitFrame_error herror with rfl | rfl
      · exact .inl rfl
      · exact .inr rfl
    · obtain ⟨m, rfl⟩ := Nat.exists_eq_add_of_le (Nat.le_of_not_lt hlt)
      rw [List.take_length_add_append, hfirst.readFrames_eq]
      have hm : m ≤ (bodies.flatMap frameOf).length := by
        rw [List.length_append] at hle
        omega
      have hrest := ih (fun k heq => hinside (k + 1) (by rw [frameStart_succ, heq])) hm
      rcases hrest with hrest | hrest
      · exact .inl (by rw [hrest]; rfl)
      · exact .inr (by rw [hrest]; rfl)

/-- A log with a valid header is not opened for the fault in its frames. -/
theorem ofFile_of_readRecords (config : LogConfig) {file : Bytes} {header : LogHeader} {error : LogError}
    (hne : file ≠ []) (hheader : LogHeader.read? file = some header) (hvalid : header.isValid = true)
    (h : readRecords file = .error error) : Log.ofFile config file = .error error := by
  simp only [Log.ofFile, Log.startFile_of_ne_nil hne, hheader, hvalid, h]
  rfl

/-- A log whose frames cannot be read is not opened. -/
theorem ofFile_error_of_readRecords (config : LogConfig) {file : Bytes} {error : LogError}
    (hne : file ≠ []) (h : readRecords file = .error error) :
    ∃ error', Log.ofFile config file = .error error' := by
  cases hopen : Log.ofFile config file with
  | error error' => exact ⟨error', rfl⟩
  | ok log =>
    obtain ⟨_, _, _, hread, _⟩ := Log.ofFile_eq_ok_iff.mp hopen
    rw [Log.startFile_of_ne_nil hne, h] at hread
    cases hread

/-- The reader of a log accepts exactly the files that consist of frames behind their header, and ends on all
others with one of three errors.  Of a log that is cut anywhere behind its header it gives the records of the
frames ahead of the cut, if the cut is where a frame begins or the log ends; otherwise it gives no records,
and the log is not opened.  So it never gives a record that was not written. -/
theorem log_reader_exact :
    (∀ (header bytes : Bytes) (records : List LogRecord), header.length = LogHeader.size →
      (readRecords (header ++ bytes) = .ok records ↔ ∃ bodies, Frames bytes bodies records)) ∧
    (∀ (file : Bytes) (error : LogError), readRecords file = .error error → error.IsOfReader) ∧
    ∀ (header bytes : Bytes) (bodies : List Bytes) (records : List LogRecord),
      header.length = LogHeader.size → Frames bytes bodies records →
      ∀ n ≤ bytes.length,
        (∀ k, n = frameStart bodies k →
          readRecords ((header ++ bytes).take (LogHeader.size + n)) = .ok (records.take k)) ∧
        ((∀ k, n ≠ frameStart bodies k) →
          (readRecords ((header ++ bytes).take (LogHeader.size + n)) = .error .shortRead ∨
            readRecords ((header ++ bytes).take (LogHeader.size + n)) = .error .invalidFormat) ∧
          ∀ config, ∃ error,
            Log.ofFile config ((header ++ bytes).take (LogHeader.size + n)) = .error error) ∧
        ∀ found, readRecords ((header ++ bytes).take (LogHeader.size + n)) = .ok found →
          found <+: records := by
  have hread : ∀ {header : Bytes} (bytes : Bytes), header.length = LogHeader.size →
      readRecords (header ++ bytes) = readFrames bytes := by
    intro header bytes hsize
    rw [readRecords, ← hsize, List.drop_left]
  refine ⟨fun header bytes records hsize => ?_, fun file error => readFrames_error, ?_⟩
  · rw [hread bytes hsize]
    exact readFrames_eq_ok_iff
  · intro header bytes bodies records hsize hframes n hle
    have hcut : (header ++ bytes).take (LogHeader.size + n) = header ++ bytes.take n := by
      rw [← hsize, List.take_length_add_append]
    rw [hcut, hread _ hsize]
    have hstart : ∀ k, n = frameStart bodies k → readFrames (bytes.take n) = .ok (records.take k) := by
      rintro k rfl
      exact (hframes.take k).readFrames_eq
    refine ⟨hstart, fun hinside => ?_, fun found hfound => ?_⟩
    · have herror := readFrames_take hframes hle hinside
      refine ⟨herror, fun config => ?_⟩
      have hne : header ++ bytes.take n ≠ [] := by
        intro hnil
        rw [(List.append_eq_nil_iff.mp hnil).1] at hsize
        cases hsize
      rcases herror with herror | herror
      · exact ofFile_error_of_readRecords config hne ((hread _ hsize).trans herror)
      · exact ofFile_error_of_readRecords config hne ((hread _ hsize).trans herror)
    · by_cases hinside : ∀ k, n ≠ frameStart bodies k
      · rcases readFrames_take hframes hle hinside with herror | herror
        · rw [herror] at hfound
          cases hfound
        · rw [herror] at hfound
          cases hfound
      · obtain ⟨k, hk⟩ := not_forall_not.mp hinside
        rw [hstart k hk] at hfound
        cases hfound
        exact List.take_prefix k records

/-- The statement at a log of two records, the first in a frame with a byte to spare: it is read as it is; cut
behind the first frame it gives the first record, and cut one byte earlier none. -/
theorem log_reader_exact_two_records :
    let first : LogRecord := { lsn := 1, txn := 1, prev := 0, kind := .begin, content := .control 5 }
    let second : LogRecord := { lsn := 2, txn := 1, prev := 1, kind := .commit, content := .control 6 }
    let bodies : List Bytes := [first.encode ++ [9], second.encode]
    let file : Bytes := LogHeader.encode { firstLsn := 1 } ++ bodies.flatMap frameOf
    readRecords file = .ok [first, second] ∧ readRecords (file.take 57) = .ok [first] ∧
      (readRecords (file.take 56) = .error .shortRead ∨ readRecords (file.take 56) = .error .invalidFormat) := by
  intro first second bodies file
  have hsize : (LogHeader.encode { firstLsn := 1 }).length = LogHeader.size := by decide
  have hframes : Frames (bodies.flatMap frameOf) bodies [first, second] :=
    ⟨rfl, .cons ⟨by decide, List.prefix_append _ _⟩ (.cons ⟨by decide, List.prefix_rfl⟩ .nil)⟩
  refine ⟨(log_reader_exact.1 _ _ _ hsize).mpr ⟨bodies, hframes⟩, ?_, ?_⟩
  · exact (log_reader_exact.2.2 _ _ _ _ hsize hframes 41 (by decide)).1 1 (by decide)
  · refine ((log_reader_exact.2.2 _ _ _ _ hsize hframes 40 (by decide)).2.1 fun k => ?_).1
    match k with
    | 0 => decide
    | 1 => decide
    | k + 2 =>
      rw [frameStart_succ, frameStart_succ]
      have hfirst : (frameOf (first.encode ++ [9])).length = 41 := by decide
      rw [hfirst]
      omega

end NoWait
