import NoWait.Proofs.LogGrowth

/-!
# Doing the records of a log again

A record that carries a change can be done again where it finds the row that the change found: an insertion
needs an empty position, an update and a deletion the row that they had before them.  What becomes of a
position depends on the records at that position alone, so records are looked at one position at a time.

* `RowChange.redo?` is one change, `Images.redoAll?` does records one after another on all positions, and
  `redoAt?` on one; `Images.redoAll?_of_redoAt?` puts the positions together;
* `committedRecords` are the records of the transactions that have a commit record;
* `Traces` says that the records of a transaction at a position come last there, and where they lead to;
  `Traces.redoAt?_commit` is what its commit record makes of that;
* `Statement.exists_change?_of_effect` says that the change that a statement logs does again what the
  statement did to the row at its position, and `Statement.exists_change?_of_serial` says so of all rows.
-/

namespace NoWait

/-! ### Changes, records, logs -/

/-- The row at each position of each table, by the number of the table. -/
abbrev Images := TableId → Rid → Option Bytes

/-- The rows with another row, or none, at one position. -/
def Images.set (images : Images) (table : TableId) (rid : Rid) (row : Option Bytes) : Images :=
  fun table' rid' => if table = table' ∧ rid = rid' then row else images table' rid'

/-- Does a change again on a row.  An insertion needs to find no row, an update and a deletion exactly the
row from before. -/
def RowChange.redo? (change : RowChange) (kind : RecordKind) (row : Option Bytes) : Option (Option Bytes) :=
  match kind, change.before, change.after with
  | .insert, _, some after => if row = none then some (some after) else none
  | .update, some before, some after => if row = some before then some (some after) else none
  | .delete, some before, _ => if row = some before then some none else none
  | _, _, _ => none

namespace LogRecord

/-- Whether a record carries a change at a position. -/
def isAt (record : LogRecord) (table : TableId) (rid : Rid) : Bool :=
  match record.content with
  | .data change => change.table = table && change.rid = rid
  | .control _ => false

/-- Does the change of a record again on the row at its position; a record without a change does nothing. -/
def redoRow? (record : LogRecord) (row : Option Bytes) : Option (Option Bytes) :=
  match record.content with
  | .data change => change.redo? record.kind row
  | .control _ => some row

/-- Does a record again on the rows at all positions. -/
def redo? (record : LogRecord) (images : Images) : Option Images :=
  match record.content with
  | .data change =>
    (change.redo? record.kind (images change.table change.rid)).map (images.set change.table change.rid)
  | .control _ => some images

end LogRecord

/-- Does records again, one after another. -/
def Images.redoAll? (images : Images) (records : List LogRecord) : Option Images :=
  records.foldlM (fun images record => record.redo? images) images

/-- Does the records at one position again, on the row there. -/
def redoAt? (table : TableId) (rid : Rid) (row : Option Bytes) (records : List LogRecord) :
    Option (Option Bytes) :=
  (records.filter (·.isAt table rid)).foldlM (fun row record => record.redoRow? row) row

/-- Whether a transaction has a commit record. -/
def hasCommit (records : List LogRecord) (txn : TxnId) : Bool :=
  records.any fun record => record.kind = .commit && record.txn = txn

/-- The records of the transactions that have a commit record. -/
def committedRecords (records : List LogRecord) : List LogRecord :=
  records.filter fun record => hasCommit records record.txn

variable {table : TableId} {rid : Rid} {row first last : Option Bytes} {record : LogRecord}
  {records older newer added : List LogRecord} {txn : TxnId}

/-! ### One position -/

@[simp] theorem redoAt?_nil : redoAt? table rid row [] = some row := rfl

theorem redoAt?_cons_of_isAt (hat : record.isAt table rid = true) :
    redoAt? table rid row (record :: records) =
      (record.redoRow? row).bind fun row => redoAt? table rid row records := by
  simp only [redoAt?, List.filter_cons, hat, if_true]
  rfl

theorem redoAt?_cons_of_not_isAt (hat : record.isAt table rid = false) :
    redoAt? table rid row (record :: records) = redoAt? table rid row records := by
  simp [redoAt?, hat]

theorem redoAt?_append :
    redoAt? table rid row (older ++ newer) =
      (redoAt? table rid row older).bind fun row => redoAt? table rid row newer := by
  simp only [redoAt?, List.filter_append, List.foldlM_append]
  rfl

/-- Records elsewhere leave a position alone. -/
theorem redoAt?_of_not_isAt (hat : ∀ record ∈ records, record.isAt table rid = false) :
    redoAt? table rid row records = some row := by
  have hnone : records.filter (·.isAt table rid) = [] := by simpa using hat
  rw [redoAt?, hnone]
  rfl

/-- What becomes of a position does not depend on which records elsewhere are done again. -/
theorem redoAt?_filter_congr {keep keep' : LogRecord → Bool}
    (h : ∀ record ∈ records, record.isAt table rid = true → keep record = keep' record) :
    redoAt? table rid row (records.filter keep) = redoAt? table rid row (records.filter keep') := by
  have hsame : (records.filter keep).filter (·.isAt table rid) =
      (records.filter keep').filter (·.isAt table rid) := by
    rw [List.filter_filter, List.filter_filter]
    refine List.filter_congr fun record hmem => ?_
    cases hat : record.isAt table rid with
    | true => rw [h record hmem hat]
    | false => rfl
  rw [redoAt?, hsame, redoAt?]

theorem redoAt?_filter_of_all {keep : LogRecord → Bool}
    (h : ∀ record ∈ records, record.isAt table rid = true → keep record = true) :
    redoAt? table rid row (records.filter keep) = redoAt? table rid row records := by
  have hall : records.filter (fun _ => true) = records := List.filter_eq_self.mpr fun _ _ => rfl
  rw [redoAt?_filter_congr h, hall]

theorem redoAt?_filter_of_none {keep : LogRecord → Bool}
    (h : ∀ record ∈ records, record.isAt table rid = true → keep record = false) :
    redoAt? table rid row (records.filter keep) = some row := by
  have hnone : records.filter (fun _ => false) = [] := List.filter_eq_nil_iff.mpr fun _ _ => by simp
  rw [redoAt?_filter_congr h, hnone, redoAt?_nil]

namespace LogRecord

theorem isAt_of_control {timestamp : UInt64} (hcontent : record.content = .control timestamp)
    (table : TableId) (rid : Rid) : record.isAt table rid = false := by
  simp only [isAt, hcontent]

/-- A record that carries a change is at the position of the change alone, and does what the change does. -/
theorem redoAt?_of_data {change : RowChange} (hcontent : record.content = .data change)
    {table : TableId} {rid : Rid} (htable : change.table = table) (hrid : change.rid = rid)
    (row : Option Bytes) :
    (∀ table' rid', record.isAt table' rid' = true → table' = table ∧ rid' = rid) ∧
      redoAt? table rid row [record] = change.redo? record.kind row := by
  have hat : record.isAt table rid = true := by simp [isAt, hcontent, htable, hrid]
  refine ⟨fun table' rid' htrue => ?_, ?_⟩
  · simp only [isAt, hcontent, Bool.and_eq_true, decide_eq_true_eq] at htrue
    exact ⟨htrue.1.symm.trans htable, htrue.2.symm.trans hrid⟩
  · rw [redoAt?_cons_of_isAt hat]
    simp only [redoRow?, hcontent, redoAt?_nil]
    exact Option.bind_fun_some _

end LogRecord

/-- If the records can be done again at each position, they can be done again one after another. -/
theorem Images.redoAll?_of_redoAt? {images last : Images}
    (h : ∀ table rid, redoAt? table rid (images table rid) records = some (last table rid)) :
    images.redoAll? records = some last := by
  induction records generalizing images with
  | nil =>
    have heq : images = last := by
      funext table rid
      exact Option.some.inj (h table rid)
    rw [heq]
    rfl
  | cons record records ih =>
    -- The record can be done again on all positions, and then the rest can be at each of them.
    obtain ⟨mid, hrecord, hmid⟩ : ∃ mid, record.redo? images = some mid ∧
        ∀ table rid, redoAt? table rid (mid table rid) records = some (last table rid) := by
      cases hcontent : record.content with
      | control timestamp =>
        refine ⟨images, by simp only [LogRecord.redo?, hcontent], fun table rid => ?_⟩
        have hat : record.isAt table rid = false := by simp only [LogRecord.isAt, hcontent]
        rw [← h table rid, redoAt?_cons_of_not_isAt hat]
      | data change =>
        have hself := h change.table change.rid
        rw [redoAt?_cons_of_isAt (by simp [LogRecord.isAt, hcontent])] at hself
        simp only [LogRecord.redoRow?, hcontent] at hself
        obtain ⟨row, hrow, hrest⟩ := Option.bind_eq_some_iff.mp hself
        refine ⟨_, by simp only [LogRecord.redo?, hcontent, hrow]; rfl, fun table rid => ?_⟩
        by_cases hat : change.table = table ∧ change.rid = rid
        · obtain ⟨rfl, rfl⟩ := hat
          rw [Images.set, if_pos ⟨rfl, rfl⟩, hrest]
        · rw [Images.set, if_neg hat, ← h table rid, redoAt?_cons_of_not_isAt]
          simpa [LogRecord.isAt, hcontent] using hat
    have hrest : mid.redoAll? records = some last := ih hmid
    show (record.redo? images).bind (fun images => images.redoAll? records) = some last
    rw [hrecord, Option.bind_some, hrest]

/-! ### Committed transactions -/

theorem hasCommit_append :
    hasCommit (older ++ newer) txn = (hasCommit older txn || hasCommit newer txn) :=
  List.any_append

/-- Records of transactions without a commit record make no difference. -/
theorem redoAt?_committedRecords_append (hkind : ∀ record ∈ added, record.kind ≠ .commit)
    (hopen : ∀ record ∈ added, record.isAt table rid = true → hasCommit records record.txn = false) :
    redoAt? table rid row (committedRecords (records ++ added)) =
      redoAt? table rid row (committedRecords records) := by
  have hsame : ∀ txn, hasCommit (records ++ added) txn = hasCommit records txn := by
    intro txn
    have hnone : hasCommit added txn = false := by
      rw [hasCommit, List.any_eq_false]
      intro record hmem
      simp [hkind record hmem]
    rw [hasCommit_append, hnone, Bool.or_false]
  have hsplit : committedRecords (records ++ added) =
      committedRecords records ++ added.filter fun record => hasCommit records record.txn := by
    simp only [committedRecords, hsame, List.filter_append]
  rw [hsplit, redoAt?_append]
  cases redoAt? table rid row (committedRecords records) with
  | none => rfl
  | some row => exact redoAt?_filter_of_none hopen

/-- Whether the records of a transaction at a position come behind those of all others there, and lead from
one row to another. -/
def Traces (records : List LogRecord) (txn : TxnId) (table : TableId) (rid : Rid)
    (first last : Option Bytes) : Prop :=
  ∃ older newer, records = older ++ newer ∧
    (∀ record ∈ older, record.isAt table rid = true → record.txn ≠ txn) ∧
    (∀ record ∈ newer, record.isAt table rid = true → record.txn = txn) ∧
    redoAt? table rid first newer = some last

/-- A transaction without a record at a position leads nowhere. -/
theorem Traces.of_none (h : ∀ record ∈ records, record.isAt table rid = true → record.txn ≠ txn)
    (row : Option Bytes) : Traces records txn table rid row row :=
  ⟨records, [], by simp, h, by simp, rfl⟩

/-- Further records of the transaction itself. -/
theorem Traces.append {next : Option Bytes} (h : Traces records txn table rid first last)
    (hown : ∀ record ∈ added, record.isAt table rid = true → record.txn = txn)
    (hredo : redoAt? table rid last added = some next) :
    Traces (records ++ added) txn table rid first next := by
  obtain ⟨older, newer, rfl, holder, hnewer, hlast⟩ := h
  refine ⟨older, newer ++ added, List.append_assoc _ _ _, holder, fun record hmem hat => ?_, ?_⟩
  · rcases List.mem_append.mp hmem with hmem | hmem
    · exact hnewer record hmem hat
    · exact hown record hmem hat
  · rw [redoAt?_append, hlast, Option.bind_some, hredo]

/-- Further records elsewhere. -/
theorem Traces.append_of_not_isAt (h : Traces records txn table rid first last)
    (hat : ∀ record ∈ added, record.isAt table rid = false) :
    Traces (records ++ added) txn table rid first last := by
  refine h.append (fun record hmem htrue => ?_) (redoAt?_of_not_isAt hat)
  rw [hat record hmem] at htrue
  cases htrue

/-- The commit record of a transaction brings its records in, behind the committed ones that there were. -/
theorem Traces.redoAt?_commit (h : Traces records txn table rid first last)
    (hopen : hasCommit records txn = false)
    (hfirst : redoAt? table rid row (committedRecords records) = some first)
    (hkind : record.kind = .commit) (htxn : record.txn = txn) (hat : record.isAt table rid = false) :
    redoAt? table rid row (committedRecords (records ++ [record])) = some last := by
  obtain ⟨older, newer, rfl, holder, hnewer, hlast⟩ := h
  have hcommit : ∀ other, hasCommit (older ++ newer ++ [record]) other =
      (hasCommit (older ++ newer) other || decide (txn = other)) := by
    intro other
    rw [hasCommit_append]
    simp [hasCommit, hkind, htxn]
  -- Of the records at the position, the older ones are in as they were, and the newer ones come in.
  have hold : ∀ row, redoAt? table rid row
      (older.filter fun r => hasCommit (older ++ newer ++ [record]) r.txn) =
        redoAt? table rid row (older.filter fun r => hasCommit (older ++ newer) r.txn) := by
    intro row
    refine redoAt?_filter_congr fun r hmem hat => ?_
    rw [hcommit, decide_eq_false (holder r hmem hat).symm, Bool.or_false]
  have hbefore : redoAt? table rid row
      (older.filter fun r => hasCommit (older ++ newer) r.txn) = some first := by
    have hnone : ∀ row, redoAt? table rid row
        (newer.filter fun r => hasCommit (older ++ newer) r.txn) = some row :=
      fun row => redoAt?_filter_of_none fun r hmem hat => by rw [hnewer r hmem hat, hopen]
    rw [committedRecords, List.filter_append, redoAt?_append] at hfirst
    obtain ⟨mid, hmid, hrest⟩ := Option.bind_eq_some_iff.mp hfirst
    rw [hmid, ← hrest, hnone]
  have hnew : redoAt? table rid first
      (newer.filter fun r => hasCommit (older ++ newer ++ [record]) r.txn) = some last := by
    rw [redoAt?_filter_of_all fun r hmem hat => ?_, hlast]
    rw [hcommit, hnewer r hmem hat]
    simp
  have hend : redoAt? table rid last
      ([record].filter fun r => hasCommit (older ++ newer ++ [record]) r.txn) = some last := by
    refine redoAt?_of_not_isAt fun r hmem => ?_
    rw [List.mem_singleton.mp (List.mem_of_mem_filter hmem), hat]
  rw [committedRecords, List.filter_append, List.filter_append, redoAt?_append, redoAt?_append, hold,
    hbefore, Option.bind_some, hnew, Option.bind_some, hend]

/-! ### Statements -/

namespace Statement

variable {shapes : String → Option TableShape} {slot : Option Rid} {statement : Statement}
  {answer : Except StatementError Answer} {name : String}

/-- A statement that has changed a row has a change to log, which does again to the row at its position
what the statement did. -/
theorem exists_change?_of_effect {old new : Option Bytes}
    (heffect : statement.effect shapes slot old = (answer, new))
    (htarget : statement.target? answer = some (name, rid)) :
    statement.site? shapes slot = some (name, rid) ∧
      ∃ shape kind change, shapes name = some shape ∧
        statement.change? shapes answer = some (kind, change) ∧ change.table = shape.id ∧
        change.rid = rid ∧ kind ≠ .commit ∧ change.redo? kind old = some new := by
  cases statement with
  | insert table row =>
    simp only [effect] at heffect
    split at heffect
    · cases heffect
      cases htarget
    · cases heffect
      cases htarget
    · rename_i shape slot hshape
      split at heffect
      · cases heffect
        cases htarget
      · split at heffect
        · cases heffect
          cases htarget
        · cases heffect
          cases htarget
          refine ⟨by simp [site?, hshape], shape, .insert,
            { table := shape.id, rid, after := some row }, hshape, ?_, rfl, rfl, by simp, rfl⟩
          simp only [change?, hshape, Option.map_some]
  | update table rid row =>
    simp only [effect] at heffect
    split at heffect
    · cases heffect
      cases htarget
    · cases heffect
      cases htarget
    · rename_i shape before hshape
      split at heffect
      · cases heffect
        cases htarget
      · cases heffect
        cases htarget
        refine ⟨by simp [site?, hshape], shape, .update,
          { table := shape.id, rid, before := some before, after := some row }, hshape, ?_, rfl, rfl,
          by simp, if_pos rfl⟩
        simp only [change?, hshape, Option.map_some]
  | delete table rid =>
    simp only [effect] at heffect
    split at heffect
    · cases heffect
      cases htarget
    · cases heffect
      cases htarget
    · rename_i shape before hshape
      cases heffect
      cases htarget
      refine ⟨by simp [site?, hshape], shape, .delete, { table := shape.id, rid, before := some before },
        hshape, ?_, rfl, rfl, by simp, if_pos rfl⟩
      simp only [change?, hshape, Option.map_some]
  | read table rid => cases htarget
  | acquire resource mode => cases htarget

/-- On the map of rows, that change leads from the row that the statement found to the row that it left. -/
theorem exists_change?_of_serial {rows rows' : Rows}
    (hserial : statement.serial shapes rows slot = (answer, rows'))
    (htarget : statement.target? answer = some (name, rid)) :
    ∃ shape kind change, shapes name = some shape ∧ statement.change? shapes answer = some (kind, change) ∧
      change.table = shape.id ∧ change.rid = rid ∧ kind ≠ .commit ∧
      change.redo? kind (rows name rid) = some (rows' name rid) := by
  cases hsite : statement.site? shapes slot with
  | none =>
    have heffect : statement.effect shapes slot none =
        (answer, (statement.effect shapes slot none).2) := by
      have hanswer := congrArg Prod.fst hserial
      simp only [serial, hsite] at hanswer
      rw [← hanswer]
    have hsome := (exists_change?_of_effect heffect htarget).1
    rw [hsite] at hsome
    cases hsome
  | some site =>
    obtain ⟨table, position⟩ := site
    simp only [serial, hsite, Prod.mk.injEq] at hserial
    obtain ⟨hanswer, rfl⟩ := hserial
    obtain ⟨hsome, hchange⟩ := exists_change?_of_effect (Prod.ext hanswer rfl) htarget
    obtain ⟨rfl, rfl⟩ := Prod.mk.inj (Option.some.inj (hsite.symm.trans hsome))
    rw [Rows.set_self]
    exact hchange

end Statement

end NoWait
