import Mathlib.Data.List.Infix
import NoWait.Proofs.LogCodec

/-!
# What is read was written

Reading a record gives back what was written; this is the converse.  Whatever a reader accepts begins with
the written form of the value that it makes, so nothing but a written record is ever read as one, and every
record has one written form.

* `LogRecord.eq_le_of_readNumber` to `LogRecord.eq_encode_of_read` go through the parts of a record;
* `LogRecord.Starves` says that a reader runs out of bytes on everything short of what it needs, and
  `Starves.bind` puts two readers together; `starves_encode` is a record that was cut short;
* `LogRecord.Malformed` lists the bytes that begin like a record and go on as none does;
* `codec_exact` is all of this about one record.
-/

namespace NoWait

namespace LogRecord

variable {α β : Type} {reader : Reader α} {bytes bytes' rest : Bytes} {value : α} {result : β}
  {error : DecodeError}

/-! ### Whatever is accepted was written -/

/-- Two readers succeed one after the other if the second does on what the first has left. -/
theorem bind_eq_ok {next : α → Reader β} : (reader >>= next) bytes = .ok (result, rest) ↔
    ∃ value mid, reader bytes = .ok (value, mid) ∧ next value mid = .ok (result, rest) := by
  show (reader bytes >>= fun (value, mid) => next value mid) = _ ↔ _
  cases reader bytes with
  | error error => simp [bind, Except.bind]
  | ok read =>
    obtain ⟨value, mid⟩ := read
    simp [bind, Except.bind]

theorem pure_eq_ok {value' : α} :
    (pure value : Reader α) bytes = .ok (value', rest) ↔ value = value' ∧ bytes = rest := by
  show Except.ok (value, bytes) = Except.ok (value', rest) ↔ _
  rw [Except.ok.injEq, Prod.mk.injEq]

theorem throw_ne_ok (error : DecodeError) : (throw error : Reader α) bytes ≠ .ok (value, rest) :=
  nofun

theorem readBytes_eq_ok_iff {n : Nat} {front : Bytes} :
    readBytes n bytes = .ok (front, rest) ↔ bytes = front ++ rest ∧ front.length = n := by
  rw [← Bytes.split?_eq_some_iff]
  unfold readBytes
  cases bytes.split? n with
  | none => simp
  | some cut =>
    obtain ⟨front', rest'⟩ := cut
    simp

theorem eq_le_of_readNumber {width n : Nat} (h : readNumber width bytes = .ok (n, rest)) :
    bytes = Bytes.le width n ++ rest ∧ n < Nat.pow 256 width := by
  obtain ⟨front, mid, hfront, hn⟩ := bind_eq_ok.mp h
  obtain ⟨rfl, hlength⟩ := readBytes_eq_ok_iff.mp hfront
  obtain ⟨rfl, rfl⟩ := pure_eq_ok.mp hn
  have hwritten : Bytes.le width (Bytes.ofLE front) = front := by
    rw [← hlength, Bytes.le_ofLE]
  refine ⟨by rw [hwritten], ?_⟩
  have hvalue := Bytes.ofLE_le width (Bytes.ofLE front)
  rw [hwritten] at hvalue
  rw [hvalue]
  exact Nat.mod_lt _ (Nat.pow_pos (by decide))

theorem eq_le_of_readU32 {n : UInt32} (h : readU32 bytes = .ok (n, rest)) :
    bytes = Bytes.le 4 n.toNat ++ rest := by
  obtain ⟨value, mid, hvalue, hn⟩ := bind_eq_ok.mp h
  obtain ⟨hbytes, hlt⟩ := eq_le_of_readNumber hvalue
  obtain ⟨rfl, rfl⟩ := pure_eq_ok.mp hn
  have hn : (UInt32.ofNat value).toNat = value := UInt32.toNat_ofNat_of_lt hlt
  rw [hbytes, hn]

theorem eq_le_of_readU64 {n : UInt64} (h : readU64 bytes = .ok (n, rest)) :
    bytes = Bytes.le 8 n.toNat ++ rest := by
  obtain ⟨value, mid, hvalue, hn⟩ := bind_eq_ok.mp h
  obtain ⟨hbytes, hlt⟩ := eq_le_of_readNumber hvalue
  obtain ⟨rfl, rfl⟩ := pure_eq_ok.mp hn
  have hn : (UInt64.ofNat value).toNat = value := UInt64.toNat_ofNat_of_lt hlt
  rw [hbytes, hn]

theorem eq_le_of_readKind {kind : RecordKind} (h : readKind bytes = .ok (kind, rest)) :
    bytes = Bytes.le 4 kind.index ++ rest := by
  obtain ⟨value, mid, hvalue, hkind⟩ := bind_eq_ok.mp h
  obtain ⟨hbytes, -⟩ := eq_le_of_readNumber hvalue
  cases hget : RecordKind.all[value]? with
  | none =>
    simp only [hget] at hkind
    exact absurd hkind (throw_ne_ok _)
  | some kind' =>
    simp only [hget] at hkind
    obtain ⟨rfl, rfl⟩ := pure_eq_ok.mp hkind
    rw [hbytes, RecordKind.getElem?_all_eq_some_iff.mp hget]

theorem eq_encode_of_readImage {image : Option Bytes} (h : readImage bytes = .ok (image, rest)) :
    bytes = encodeImage image ++ rest ∧ ∀ bytes ∈ image, bytes.length < UInt64.size := by
  obtain ⟨tag, mid, htag, himage⟩ := bind_eq_ok.mp h
  obtain ⟨hbytes, -⟩ := eq_le_of_readNumber htag
  split at himage
  · rename_i hzero
    obtain ⟨rfl, rfl⟩ := pure_eq_ok.mp himage
    exact ⟨by rw [hbytes, hzero]; rfl, nofun⟩
  · split at himage
    · rename_i hone
      obtain ⟨size, mid₁, hsize, hfilled⟩ := bind_eq_ok.mp himage
      obtain ⟨rfl, hlt⟩ := eq_le_of_readNumber hsize
      obtain ⟨front, mid₂, hfront, hmade⟩ := bind_eq_ok.mp hfilled
      obtain ⟨rfl, rfl⟩ := readBytes_eq_ok_iff.mp hfront
      obtain ⟨rfl, rfl⟩ := pure_eq_ok.mp hmade
      refine ⟨?_, ?_⟩
      · rw [hbytes, hone, encodeImage, List.cons_append, List.append_assoc]
        rfl
      · intro bytes hmem
        rwa [← Option.mem_some_iff.mp hmem]
    · exact absurd himage (throw_ne_ok _)

theorem eq_encode_of_readChange {change : RowChange} (h : readChange bytes = .ok (change, rest)) :
    bytes = encodeChange change ++ rest ∧
      ∀ image ∈ (RecordContent.data change).images, image.length < UInt64.size := by
  obtain ⟨table, mid₁, htable, h₁⟩ := bind_eq_ok.mp h
  obtain ⟨page, mid₂, hpage, h₂⟩ := bind_eq_ok.mp h₁
  obtain ⟨slot, mid₃, hslot, h₃⟩ := bind_eq_ok.mp h₂
  obtain ⟨before, mid₄, hbefore, h₄⟩ := bind_eq_ok.mp h₃
  obtain ⟨after, mid₅, hafter, h₅⟩ := bind_eq_ok.mp h₄
  obtain ⟨hbeforeBytes, hbeforeFits⟩ := eq_encode_of_readImage hbefore
  obtain ⟨hafterBytes, hafterFits⟩ := eq_encode_of_readImage hafter
  obtain ⟨rfl, rfl⟩ := pure_eq_ok.mp h₅
  refine ⟨?_, fun image hmem => ?_⟩
  · rw [eq_le_of_readU32 htable, eq_le_of_readU32 hpage, eq_le_of_readU32 hslot, hbeforeBytes, hafterBytes]
    simp only [encodeChange, List.append_assoc]
  · rw [RecordContent.images, List.mem_append, Option.mem_toList, Option.mem_toList] at hmem
    exact hmem.elim (hbeforeFits image) (hafterFits image)

theorem eq_encode_of_readContent {content : RecordContent}
    (h : readContent bytes = .ok (content, rest)) :
    bytes = encodeContent content ++ rest ∧ ∀ image ∈ content.images, image.length < UInt64.size := by
  obtain ⟨tag, mid, htag, hcontent⟩ := bind_eq_ok.mp h
  obtain ⟨hbytes, -⟩ := eq_le_of_readNumber htag
  split at hcontent
  · rename_i hzero
    obtain ⟨change, mid₁, hchange, hmade⟩ := bind_eq_ok.mp hcontent
    obtain ⟨hchangeBytes, hfits⟩ := eq_encode_of_readChange hchange
    obtain ⟨rfl, rfl⟩ := pure_eq_ok.mp hmade
    exact ⟨by rw [hbytes, hzero, hchangeBytes, encodeContent, List.append_assoc], hfits⟩
  · split at hcontent
    · rename_i hone
      obtain ⟨timestamp, mid₁, htimestamp, hmade⟩ := bind_eq_ok.mp hcontent
      have htimeBytes := eq_le_of_readU64 htimestamp
      obtain ⟨rfl, rfl⟩ := pure_eq_ok.mp hmade
      exact ⟨by rw [hbytes, hone, htimeBytes, encodeContent, List.append_assoc],
        fun image hmem => by cases hmem⟩
    · exact absurd hcontent (throw_ne_ok _)

/-- Whatever is read as a record begins with the written form of the record. -/
theorem eq_encode_of_read {record : LogRecord} (h : read bytes = .ok (record, rest)) :
    bytes = record.encode ++ rest ∧ record.ImagesFit := by
  obtain ⟨lsn, mid₁, hlsn, h₁⟩ := bind_eq_ok.mp h
  obtain ⟨txn, mid₂, htxn, h₂⟩ := bind_eq_ok.mp h₁
  obtain ⟨prev, mid₃, hprev, h₃⟩ := bind_eq_ok.mp h₂
  obtain ⟨kind, mid₄, hkind, h₄⟩ := bind_eq_ok.mp h₃
  obtain ⟨content, mid₅, hcontent, h₅⟩ := bind_eq_ok.mp h₄
  obtain ⟨hcontentBytes, hfits⟩ := eq_encode_of_readContent hcontent
  obtain ⟨rfl, rfl⟩ := pure_eq_ok.mp h₅
  refine ⟨?_, hfits⟩
  rw [eq_le_of_readU64 hlsn, eq_le_of_readU32 htxn, eq_le_of_readU64 hprev, eq_le_of_readKind hkind,
    hcontentBytes]
  simp only [encode, List.append_assoc]

theorem encode_prefix_of_decode {record : LogRecord} (h : decode bytes = .ok record) :
    record.ImagesFit ∧ record.encode <+: bytes := by
  have hread : (read bytes).map (·.1) = .ok record := h
  cases hrun : read bytes with
  | error error =>
    rw [hrun] at hread
    cases hread
  | ok result =>
    obtain ⟨record', rest⟩ := result
    rw [hrun] at hread
    cases hread
    obtain ⟨hbytes, hfits⟩ := eq_encode_of_read hrun
    exact ⟨hfits, rest, hbytes.symm⟩

/-- The front of some bytes is read as a record exactly if it is the written form of it. -/
theorem decode_eq_ok_iff {record : LogRecord} :
    decode bytes = .ok record ↔ record.ImagesFit ∧ record.encode <+: bytes := by
  refine ⟨encode_prefix_of_decode, ?_⟩
  rintro ⟨hfits, rest, rfl⟩
  exact decode_encode hfits rest

/-! ### Records that were cut short -/

/-- Whether a reader runs out of bytes on everything short of the given ones. -/
def Starves (reader : Reader α) (bytes : Bytes) : Prop :=
  ∀ front, front <+: bytes → front ≠ bytes → reader front = .error .unexpectedEnd

theorem bind_eq_error {next : α → Reader β} (h : reader bytes = .error error) :
    (reader >>= next) bytes = .error error := by
  show (reader bytes >>= fun (value, mid) => next value mid) = _
  rw [h]
  rfl

/-- Where one reader is served, the next one meets the fault in what is left. -/
theorem Reads.bind_eq {next : α → Reader β} (h : Reads reader bytes value) (rest : Bytes) :
    (reader >>= next) (bytes ++ rest) = next value rest := by
  show (reader (bytes ++ rest) >>= fun (value, mid) => next value mid) = _
  rw [h]
  rfl

theorem starves_nil (reader : Reader α) : Starves reader [] :=
  fun _ hfront hne => absurd (List.prefix_nil.mp hfront) hne

/-- What is short of the bytes of two readers is short of those of the first, or it has them and is short
of those of the second. -/
theorem Starves.bind {next : α → Reader β} (h : Starves reader bytes) (hread : Reads reader bytes value)
    (hnext : Starves (next value) bytes') : Starves (reader >>= next) (bytes ++ bytes') := by
  intro front hfront hne
  rcases List.prefix_or_prefix_of_prefix hfront (List.prefix_append bytes bytes') with hshort | hlong
  · by_cases heq : front = bytes
    · subst heq
      have hend : (reader >>= next) (front ++ []) = next value [] := hread.bind_eq []
      rw [List.append_nil] at hend
      rw [hend]
      refine hnext [] (List.nil_prefix) fun hnil => hne ?_
      rw [← hnil, List.append_nil]
    · exact bind_eq_error (h front hshort heq)
  · obtain ⟨back, rfl⟩ := hlong
    rw [hread.bind_eq]
    refine hnext back ((List.prefix_append_right_inj bytes).mp hfront) ?_
    rintro rfl
    exact hne rfl

theorem Starves.map (h : Starves reader bytes) (hread : Reads reader bytes value) (f : α → β) :
    Starves (do return f (← reader)) bytes := by
  have hpure : Starves (do return f (← reader)) (bytes ++ []) := h.bind hread (starves_nil _)
  rwa [List.append_nil] at hpure

theorem starves_bytes (bytes : Bytes) : Starves (readBytes bytes.length) bytes := by
  intro front hfront hne
  have hlt : front.length < bytes.length :=
    Nat.lt_of_le_of_ne hfront.length_le fun heq => hne (hfront.eq_of_length heq)
  have htake : (front.take bytes.length).length < bytes.length := by
    rw [List.length_take]
    omega
  rw [readBytes, Bytes.split?, if_pos htake]

theorem starves_number (width n : Nat) : Starves (readNumber width) (Bytes.le width n) := by
  have hread := reads_bytes (Bytes.le width n)
  have hstarves := starves_bytes (Bytes.le width n)
  rw [Bytes.length_le] at hread hstarves
  exact hstarves.map hread Bytes.ofLE

theorem starves_u32 (n : UInt32) : Starves readU32 (Bytes.le 4 n.toNat) :=
  (starves_number 4 n.toNat).map (reads_number n.toNat_lt) UInt32.ofNat

theorem starves_u64 (n : UInt64) : Starves readU64 (Bytes.le 8 n.toNat) :=
  (starves_number 8 n.toNat).map (reads_number n.toNat_lt) UInt64.ofNat

theorem starves_kind (kind : RecordKind) : Starves readKind (Bytes.le 4 kind.index) := by
  have hindex : kind.index < Nat.pow 256 4 := by cases kind <;> decide
  have hstarves : Starves readKind (Bytes.le 4 kind.index ++ []) :=
    (starves_number 4 kind.index).bind (reads_number hindex) (starves_nil _)
  rwa [List.append_nil] at hstarves

theorem starves_image {image : Option Bytes} (h : ∀ bytes ∈ image, bytes.length < UInt64.size) :
    Starves readImage (encodeImage image) := by
  cases image with
  | none =>
    have htag : Reads (readNumber 1) (Bytes.le 1 0) 0 := reads_number (by decide)
    exact (starves_number 1 0).bind htag (starves_nil _)
  | some image =>
    have hsize : image.length < Nat.pow 256 8 := h image rfl
    have htag : Reads (readNumber 1) (Bytes.le 1 1) 1 := reads_number (by decide)
    have hrest : Starves
        (readNumber 8 >>= fun size => readBytes size >>= fun image => pure (some image))
        (Bytes.le 8 image.length ++ image) :=
      (starves_number 8 image.length).bind (reads_number hsize)
        ((starves_bytes image).map (reads_bytes image) some)
    exact (starves_number 1 1).bind htag hrest

theorem starves_change {change : RowChange}
    (h : ∀ image ∈ (RecordContent.data change).images, image.length < UInt64.size) :
    Starves readChange (encodeChange change) := by
  have hbefore : ∀ bytes ∈ change.before, bytes.length < UInt64.size := fun bytes hmem =>
    h bytes (List.mem_append_left _ (Option.mem_toList.mpr hmem))
  have hafter : ∀ bytes ∈ change.after, bytes.length < UInt64.size := fun bytes hmem =>
    h bytes (List.mem_append_right _ (Option.mem_toList.mpr hmem))
  refine (starves_u32 change.table).bind (reads_u32 _) ((starves_u32 change.rid.page).bind (reads_u32 _)
    ((starves_u32 change.rid.slot).bind (reads_u32 _) ?_))
  exact (starves_image hbefore).bind (reads_image hbefore) ((starves_image hafter).map (reads_image hafter) _)

theorem starves_content {content : RecordContent}
    (h : ∀ image ∈ content.images, image.length < UInt64.size) :
    Starves readContent (encodeContent content) := by
  cases content with
  | data change =>
    have htag : Reads (readNumber 4) (Bytes.le 4 0) 0 := reads_number (by decide)
    exact (starves_number 4 0).bind htag ((starves_change h).map (reads_change h) RecordContent.data)
  | control timestamp =>
    have htag : Reads (readNumber 4) (Bytes.le 4 1) 1 := reads_number (by decide)
    exact (starves_number 4 1).bind htag
      ((starves_u64 timestamp).map (reads_u64 timestamp) RecordContent.control)

/-- A record that was cut short ends before it is read. -/
theorem starves_encode {record : LogRecord} (h : record.ImagesFit) : Starves read record.encode := by
  refine (starves_u64 record.lsn).bind (reads_u64 _) ((starves_u32 record.txn).bind (reads_u32 _)
    ((starves_u64 record.prev).bind (reads_u64 _) ((starves_kind record.kind).bind (reads_kind _) ?_)))
  exact (starves_content h).map (reads_content h) _

theorem decode_eq_error (h : read bytes = .error error) : decode bytes = .error error := by
  show (read bytes).map (·.1) = .error error
  rw [h]
  rfl

/-! ### Bytes that no record has -/

/-- Bytes that stand where an image is to begin, and are the front of none: the first byte is neither of the
two that an image can begin with, or the image ends before its length is reached. -/
inductive MalformedImage : Bytes → DecodeError → Prop where
  | tag (tag : UInt8) (rest : Bytes) : 1 < tag.toNat →
    MalformedImage (tag :: rest) (.badOptionTag tag.toNat)
  | length (n : Nat) (rest : Bytes) : rest.length < n → n < UInt64.size →
    MalformedImage (1 :: (Bytes.le 8 n ++ rest)) .unexpectedEnd

/-- Bytes that begin like a record and go on as no record does. -/
inductive Malformed (lsn prev : Lsn) (txn : TxnId) : Bytes → DecodeError → Prop where
  | kind (n : Nat) (rest : Bytes) : RecordKind.all.length ≤ n → n < UInt32.size →
    Malformed lsn prev txn (Bytes.le 8 lsn.toNat ++ (Bytes.le 4 txn.toNat ++ (Bytes.le 8 prev.toNat ++
      (Bytes.le 4 n ++ rest)))) (.unknownVariant n RecordKind.all.length)
  | content (kind : RecordKind) (n : Nat) (rest : Bytes) : 2 ≤ n → n < UInt32.size →
    Malformed lsn prev txn (Bytes.le 8 lsn.toNat ++ (Bytes.le 4 txn.toNat ++ (Bytes.le 8 prev.toNat ++
      (Bytes.le 4 kind.index ++ (Bytes.le 4 n ++ rest))))) (.unknownVariant n 2)
  | before (kind : RecordKind) (table : TableId) (rid : Rid) {bytes : Bytes} {error : DecodeError} :
    MalformedImage bytes error →
    Malformed lsn prev txn (Bytes.le 8 lsn.toNat ++ (Bytes.le 4 txn.toNat ++ (Bytes.le 8 prev.toNat ++
      (Bytes.le 4 kind.index ++ (Bytes.le 4 0 ++ (Bytes.le 4 table.toNat ++ (Bytes.le 4 rid.page.toNat ++
        (Bytes.le 4 rid.slot.toNat ++ bytes)))))))) error
  | after (kind : RecordKind) (table : TableId) (rid : Rid) (before : Option Bytes) {bytes : Bytes}
      {error : DecodeError} : (∀ image ∈ before, image.length < UInt64.size) →
    MalformedImage bytes error →
    Malformed lsn prev txn (Bytes.le 8 lsn.toNat ++ (Bytes.le 4 txn.toNat ++ (Bytes.le 8 prev.toNat ++
      (Bytes.le 4 kind.index ++ (Bytes.le 4 0 ++ (Bytes.le 4 table.toNat ++ (Bytes.le 4 rid.page.toNat ++
        (Bytes.le 4 rid.slot.toNat ++ (encodeImage before ++ bytes))))))))) error

theorem MalformedImage.readImage_eq (h : MalformedImage bytes error) :
    readImage bytes = .error error := by
  cases h with
  | tag tag rest hlt =>
    have hbyte : Bytes.le 1 tag.toNat = [tag] := by
      simp [Bytes.le]
    have hread : Reads (readNumber 1) [tag] tag.toNat := hbyte ▸ reads_number tag.toNat_lt
    show readImage ([tag] ++ rest) = _
    rw [readImage, hread.bind_eq, if_neg (by omega), if_neg (by omega)]
    rfl
  | length n rest hshort hlt =>
    have htag : Reads (readNumber 1) (Bytes.le 1 1) 1 := reads_number (by decide)
    have hsize : Reads (readNumber 8) (Bytes.le 8 n) n := reads_number hlt
    show readImage (Bytes.le 1 1 ++ (Bytes.le 8 n ++ rest)) = _
    rw [readImage, htag.bind_eq, if_neg (by decide), if_pos rfl, hsize.bind_eq]
    refine bind_eq_error ?_
    have htake : (rest.take n).length < n := by
      rw [List.length_take]
      omega
    rw [readBytes, Bytes.split?, if_pos htake]

/-- The fault in malformed bytes is found. -/
theorem Malformed.decode_eq {lsn prev : Lsn} {txn : TxnId} (h : Malformed lsn prev txn bytes error) :
    decode bytes = .error error := by
  have hfields : ∀ {rest : Bytes}, (do
      let kind ← readKind
      let content ← readContent
      return { lsn, txn, prev, kind, content } : Reader LogRecord) rest = .error error →
      decode (Bytes.le 8 lsn.toNat ++ (Bytes.le 4 txn.toNat ++ (Bytes.le 8 prev.toNat ++ rest))) =
        .error error := by
    intro rest hrest
    apply decode_eq_error
    rw [read, (reads_u64 lsn).bind_eq, (reads_u32 txn).bind_eq, (reads_u64 prev).bind_eq]
    exact hrest
  have hdata : ∀ {kind : RecordKind} {table : TableId} {rid : Rid} {rest : Bytes}, (do
      let before ← readImage
      let after ← readImage
      return { table, rid, before, after } : Reader RowChange) rest = .error error →
      decode (Bytes.le 8 lsn.toNat ++ (Bytes.le 4 txn.toNat ++ (Bytes.le 8 prev.toNat ++
        (Bytes.le 4 kind.index ++ (Bytes.le 4 0 ++ (Bytes.le 4 table.toNat ++ (Bytes.le 4 rid.page.toNat ++
          (Bytes.le 4 rid.slot.toNat ++ rest)))))))) = .error error := by
    intro kind table rid rest hrest
    have htag : Reads (readNumber 4) (Bytes.le 4 0) 0 := reads_number (by decide)
    apply hfields
    rw [(reads_kind kind).bind_eq]
    refine bind_eq_error ?_
    rw [readContent, htag.bind_eq, if_pos rfl]
    refine bind_eq_error ?_
    rw [readChange, (reads_u32 table).bind_eq, (reads_u32 rid.page).bind_eq, (reads_u32 rid.slot).bind_eq]
    exact hrest
  cases h with
  | kind n rest hle hlt =>
    have hnone : RecordKind.all[n]? = none := List.getElem?_eq_none hle
    apply hfields
    have hread : Reads (readNumber 4) (Bytes.le 4 n) n := reads_number hlt
    refine bind_eq_error ?_
    rw [readKind, hread.bind_eq]
    simp only [hnone]
    rfl
  | content kind n rest hle hlt =>
    apply hfields
    have hread : Reads (readNumber 4) (Bytes.le 4 n) n := reads_number hlt
    rw [(reads_kind kind).bind_eq]
    refine bind_eq_error ?_
    rw [readContent, hread.bind_eq, if_neg (by omega), if_neg (by omega)]
    rfl
  | before kind table rid himage => exact hdata (bind_eq_error himage.readImage_eq)
  | after kind table rid before hfits himage =>
    apply hdata
    rw [(reads_image hfits).bind_eq]
    exact bind_eq_error himage.readImage_eq

end LogRecord

open LogRecord

/-! ### Both directions -/

/-- The bytes of a record say what the record is, and nothing else does.  A record whose images are not too
long is read from the front of its bytes, whatever follows them; whatever is read as a record begins with
its bytes; and where the bytes of a record were cut short, or go on as those of no record do, the fault is
reported. -/
theorem codec_exact :
    (∀ (record : LogRecord) (rest : Bytes), record.ImagesFit → decode (record.encode ++ rest) = .ok record) ∧
    (∀ (bytes : Bytes) (record : LogRecord), decode bytes = .ok record →
      record.ImagesFit ∧ record.encode <+: bytes) ∧
    (∀ (record : LogRecord) (front : Bytes), record.ImagesFit → front <+: record.encode →
      front ≠ record.encode → decode front = .error .unexpectedEnd) ∧
    ∀ (lsn prev : Lsn) (txn : TxnId) (bytes : Bytes) (error : DecodeError),
      Malformed lsn prev txn bytes error → decode bytes = .error error := by
  refine ⟨fun record rest hfits => decode_encode hfits rest, fun bytes record => encode_prefix_of_decode, ?_,
    fun lsn prev txn bytes error hmalformed => hmalformed.decode_eq⟩
  intro record front hfits hfront hne
  exact decode_eq_error (starves_encode hfits front hfront hne)

/-- The statement at an update of three bytes: it is read with a byte behind it, it is the only record with
its bytes, it is not read without its last byte, and not with an unknown kind. -/
theorem codec_exact_update :
    let record : LogRecord :=
      { lsn := 4, txn := 100, prev := 3, kind := .update
        content := .data { table := 1, rid := ⟨1, 1⟩, before := some [1, 2, 3], after := some [4, 5, 6] } }
    decode (record.encode ++ [7]) = .ok record ∧ record.encode <+: record.encode ++ [7] ∧
      decode record.encode.dropLast = .error .unexpectedEnd ∧
      decode (Bytes.le 8 4 ++ (Bytes.le 4 100 ++ (Bytes.le 8 3 ++ (Bytes.le 4 6 ++ [])))) =
        .error (.unknownVariant 6 6) := by
  intro record
  have hread := codec_exact.1 record [7] (by decide)
  exact ⟨hread, (codec_exact.2.1 _ record hread).2,
    codec_exact.2.2.1 record _ (by decide) (List.dropLast_prefix _) (by decide),
    codec_exact.2.2.2 4 3 100 _ _ (.kind 6 [] (by decide) (by decide))⟩

end NoWait
