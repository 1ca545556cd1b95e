import NoWait.Proofs.FrameLengths
import NoWait.Proofs.Redo
import NoWait.Proofs.Serializability

/-!
# The log determines the committed rows

Doing the records of the committed transactions again, in the order of the log, leads from empty tables to
what is left when all unfinished writes are taken back, and so, once no transaction is left unfinished, to
the rows that there are.  Records of different transactions alternate in the log, and those of transactions
that were rolled back are left out; but from its first change to a row on, a transaction has the row locked,
so that its records at that position come behind those of all others there.

* `Pending` says so of an active transaction, and that its commit would bring in exactly its changes;
* `Journal` says of the records of a log what they lead to, and the same of every active transaction;
  `Journal.of_quiet`, `Journal.of_arrived`, `Journal.of_wrote`, `Journal.of_committed` and
  `Journal.of_aborted` are the kinds of steps, `Journal.step` is any call;
* `log_determines_rows` is the result.
-/

namespace NoWait

open Database

/-- Whether no two tables have the same number. -/
def Catalog.DistinctNumbers (catalog : Catalog) : Prop :=
  ∀ name name' shape shape', catalog.shapes name = some shape → catalog.shapes name' = some shape' →
    shape.id = shape'.id → name = name'

/-- Whether a transaction has an unfinished write at a position. -/
def Database.HasWritten (db : Database) (h : Handle) (name : String) (rid : Rid) : Prop :=
  ∃ write ∈ (db.txn h).writes, write.isAt name rid

instance (db : Database) (h : Handle) (name : String) (rid : Rid) : Decidable (db.HasWritten h name rid) :=
  inferInstanceAs (Decidable (∃ write ∈ (db.txn h).writes, write.isAt name rid))

/-- What the records of an active transaction have to do with its writes, when the rows settle to a map once
all unfinished writes are taken back: its commit is not recorded; where it has written, its records lead from
the settled row to the present one; and elsewhere it has no records. -/
structure Pending (db : Database) (records : List LogRecord) (rows : Rows) (h : Handle) : Prop where
  uncommitted : hasCommit records (db.txn h).id = false
  written : ∀ name shape rid, db.catalog.shapes name = some shape → db.HasWritten h name rid →
    Traces records (db.txn h).id shape.id rid (rows name rid) (db.catalog.rows name rid)
  unwritten : ∀ name shape rid, db.catalog.shapes name = some shape → ¬ db.HasWritten h name rid →
    ∀ record ∈ records, record.isAt shape.id rid = true → record.txn ≠ (db.txn h).id

/-- Whether all records are of transactions that there are, and those of changes at positions of tables that
there are. -/
structure Filed (db : Database) (records : List LogRecord) : Prop where
  txn : ∀ record ∈ records, ∃ h < db.transactions.size, (db.txn h).id = record.txn
  table : ∀ record ∈ records, ∀ table rid, record.isAt table rid = true →
    ∃ name shape, db.catalog.shapes name = some shape ∧ shape.id = table

/-- What the records of a log have to do with the database: those of the committed transactions lead from
empty tables to the map of rows that is left when all unfinished writes are taken back. -/
structure Journal (db : Database) (records : List LogRecord) (rows : Rows) : Prop where
  filed : Filed db records
  settled : db.Settled rows
  committed : ∀ name shape rid, db.catalog.shapes name = some shape →
    redoAt? shape.id rid none (committedRecords records) = some (rows name rid)
  pending : ∀ h < db.transactions.size, db.isActive h = true → Pending db records rows h

variable {start s : Session} {call : Call} {answer : Except StatementError Answer} {db mid db' : Database}
  {trace : List Event} {h h' : Handle} {rows rows' : Rows} {records added : List LogRecord}
  {record : LogRecord}

/-- Transactions and tables stay, so records stay filed. -/
theorem Filed.append (hf : Filed db records) (hk : KeepsIds db db')
    (hshapes : db'.catalog.shapes = db.catalog.shapes)
    (htxn : ∀ record ∈ added, ∃ h < db'.transactions.size, (db'.txn h).id = record.txn)
    (htable : ∀ record ∈ added, ∀ table rid, record.isAt table rid = true →
      ∃ name shape, db.catalog.shapes name = some shape ∧ shape.id = table) :
    Filed db' (records ++ added) where
  txn := by
    intro record hmem
    rcases List.mem_append.mp hmem with hmem | hmem
    · obtain ⟨h, hlt, hid⟩ := hf.txn record hmem
      exact ⟨h, Nat.lt_of_lt_of_le hlt hk.size, (hk.id h hlt).trans hid⟩
    · exact htxn record hmem
  table := by
    intro record hmem table rid hat
    rw [hshapes]
    rcases List.mem_append.mp hmem with hmem | hmem
    · exact hf.table record hmem table rid hat
    · exact htable record hmem table rid hat

/-! ### The records of one transaction -/

/-- A step that leaves the writes of a transaction and the rows under them alone, and that logs nothing on
its behalf and nothing at these rows. -/
theorem Pending.of_same (hp : Pending db records rows h) (hid : (db'.txn h).id = (db.txn h).id)
    (hwrites : (db'.txn h).writes = (db.txn h).writes) (hshapes : db'.catalog.shapes = db.catalog.shapes)
    (hrows : ∀ name rid, db.HasWritten h name rid →
      rows' name rid = rows name rid ∧ db'.catalog.rows name rid = db.catalog.rows name rid)
    (hadded : ∀ record ∈ added, record.txn ≠ (db.txn h).id)
    (hat : ∀ record ∈ added, ∀ name shape rid, db.catalog.shapes name = some shape →
      db.HasWritten h name rid → record.isAt shape.id rid = false) :
    Pending db' (records ++ added) rows' h where
  uncommitted := by
    rw [hasCommit_append, hid, hp.uncommitted, Bool.false_or, hasCommit, List.any_eq_false]
    intro record hmem
    simp [hadded record hmem]
  written := by
    intro name shape rid hshape hwritten
    have hwritten : db.HasWritten h name rid := by rwa [HasWritten, hwrites] at hwritten
    rw [hshapes] at hshape
    obtain ⟨hsettled, hcurrent⟩ := hrows name rid hwritten
    rw [hid, hsettled, hcurrent]
    exact (hp.written name shape rid hshape hwritten).append_of_not_isAt fun record hmem =>
      hat record hmem name shape rid hshape hwritten
  unwritten := by
    intro name shape rid hshape hnot record hmem hisAt
    rw [HasWritten, hwrites] at hnot
    rw [hshapes] at hshape
    rw [hid]
    rcases List.mem_append.mp hmem with hmem | hmem
    · exact hp.unwritten name shape rid hshape hnot record hmem hisAt
    · exact hadded record hmem

/-- Wherever a transaction has written or not, its records lead from the settled row to the one that its
commit would settle to. -/
theorem Pending.traces (hp : Pending db records rows h) {name : String} {shape : TableShape} (rid : Rid)
    (hshape : db.catalog.shapes name = some shape) :
    Traces records (db.txn h).id shape.id rid (rows name rid)
      (if db.HasWritten h name rid then db.catalog.rows name rid else rows name rid) := by
  split
  · rename_i hwritten
    exact hp.written name shape rid hshape hwritten
  · rename_i hnot
    exact .of_none (hp.unwritten name shape rid hshape hnot) _

/-- A transaction that has written nothing, and for which at most its beginning is recorded. -/
theorem Pending.of_unwritten (hwrites : (db.txn h).writes = [])
    (hrecords : ∀ record ∈ records, record.txn = (db.txn h).id →
      record.kind ≠ .commit ∧ ∀ table rid, record.isAt table rid = false) :
    Pending db records rows h where
  uncommitted := by
    rw [hasCommit, List.any_eq_false]
    intro record hmem
    by_cases htxn : record.txn = (db.txn h).id
    · simp [(hrecords record hmem htxn).1]
    · simp [htxn]
  written := by
    rintro name shape rid - ⟨write, hmem, -⟩
    rw [hwrites] at hmem
    cases hmem
  unwritten := by
    intro name shape rid _ _ record hmem hat htxn
    rw [(hrecords record hmem htxn).2] at hat
    cases hat

/-! ### Steps that log no change -/

/-- A quiet step of any transaction. -/
theorem Journal.of_quiet (hj : Journal db records rows) (hg : db.Guarded) (hq : Quiet h db db')
    (hids : db'.DistinctIds) : Journal db' records rows := by
  have hids₀ : db.DistinctIds := hq.toKeeps.keepsIds.distinctIds hids
  have hstep := hq.stepped hg hids₀
  have hrows := hq.rows hg.catalog
  refine ⟨?_, hj.settled.stepped hg hstep hids, hrows.shapes ▸ hj.committed, fun h' hlt hactive => ?_⟩
  · have hfiled : Filed db' (records ++ []) :=
      hj.filed.append hq.toKeeps.keepsIds hrows.shapes (by simp) (by simp)
    rwa [List.append_nil] at hfiled
  · rw [hq.size] at hlt
    have hactive₀ : db.isActive h' = true := by
      by_cases hh : h = h'
      · subst hh
        exact hstep.active hactive
      · rwa [isActive, hq.txn h' hh] at hactive
    have hwrites : (db'.txn h').writes = (db.txn h').writes := by
      by_cases hh : h = h'
      · subst hh
        exact hq.writes
      · rw [hq.txn h' hh]
    have hpending : Pending db' (records ++ []) rows h' := (hj.pending h' hlt hactive₀).of_same (hq.ids h')
      hwrites hrows.shapes (fun _ _ _ => ⟨rfl, by rw [hrows.rows]⟩) (by simp) (by simp)
    rwa [List.append_nil] at hpending

/-- The beginning of a transaction, which may be logged. -/
theorem Journal.of_arrived (hj : Journal db records rows) (harrived : Arrived db db')
    (hids : db'.DistinctIds)
    (hadded : ∀ record ∈ added, record.txn = (db'.txn db.nextHandle).id ∧ record.kind ≠ .commit ∧
      ∀ table rid, record.isAt table rid = false) : Journal db' (records ++ added) rows := by
  have hnext : db.nextHandle < db'.transactions.size := by
    rw [harrived.size]
    exact Nat.lt_succ_self _
  have hold : ∀ h < db.transactions.size, h < db'.transactions.size := by
    intro h hlt
    rw [harrived.size]
    omega
  have hnew : ∀ h < db.transactions.size, (db'.txn db.nextHandle).id ≠ (db.txn h).id := by
    intro h hlt heq
    rw [← harrived.txn h hlt] at heq
    have hsame := hids _ hnext h (hold h hlt) heq
    exact absurd hlt (hsame ▸ Nat.lt_irrefl db.transactions.size)
  have hnowhere : ∀ record ∈ added, ∀ table rid, record.isAt table rid ≠ true := by
    intro record hmem table rid
    simp [(hadded record hmem).2.2 table rid]
  have hkeeps : KeepsIds db db' :=
    ⟨Nat.le_of_lt hnext, fun h hlt => by rw [harrived.txn h hlt]⟩
  refine ⟨?_, hj.settled.arrived harrived, fun name shape rid hshape => ?_, fun h hlt hactive => ?_⟩
  · refine hj.filed.append hkeeps (by rw [harrived.catalog]) (fun record hmem => ?_)
      fun record hmem table rid hat => absurd hat (hnowhere record hmem _ _)
    exact ⟨db.nextHandle, hnext, (hadded record hmem).1.symm⟩
  · rw [harrived.catalog] at hshape
    rw [redoAt?_committedRecords_append (fun record hmem => (hadded record hmem).2.1)
      fun record hmem hat => absurd hat (hnowhere record hmem _ _)]
    exact hj.committed name shape rid hshape
  · by_cases hh : h < db.transactions.size
    · have htxn := harrived.txn h hh
      rw [isActive, htxn] at hactive
      refine (hj.pending h hh hactive).of_same (by rw [htxn]) (by rw [htxn]) (by rw [harrived.catalog])
        (fun _ _ _ => ⟨rfl, by rw [harrived.catalog]⟩) (fun record hmem => ?_) fun record hmem _ _ _ _ _ => ?_
      · rw [(hadded record hmem).1]
        exact hnew h hh
      · exact (hadded record hmem).2.2 _ _
    · -- The transaction is the new one, and nobody has used its number before.
      have hself : h = db.nextHandle := by
        rw [harrived.size] at hlt
        exact Nat.le_antisymm (Nat.le_of_lt_succ hlt) (Nat.le_of_not_lt hh)
      refine .of_unwritten (harrived.writes_eq_nil hlt hh) fun record hmem heq => ?_
      rcases List.mem_append.mp hmem with hmem | hmem
      · obtain ⟨h', hlt', hid⟩ := hj.filed.txn record hmem
        rw [hself] at heq
        exact absurd (heq.symm.trans hid.symm) (hnew h' hlt')
      · exact (hadded record hmem).2

/-! ### Writes -/

/-- The records of a transaction that has written, and has logged what it did to the row. -/
theorem Pending.of_wrote {write : WriteRecord} {row : Option Bytes} {shape : TableShape}
    (hp : Pending db records rows h) (hw : Wrote h write row db db') (hs : db.catalog.Sound)
    (hshape : db.catalog.shapes write.table = some shape)
    (hsettled : ¬ db.HasWritten h write.table write.rid → rows write.table write.rid = write.image)
    (hadded : ∀ record ∈ added, record.txn = (db.txn h).id ∧ record.kind ≠ .commit)
    (helse : ∀ record ∈ added, ∀ name shape rid, db.catalog.shapes name = some shape →
      ¬ write.isAt name rid → record.isAt shape.id rid = false)
    (hredo : redoAt? shape.id write.rid write.image added = some row) :
    Pending db' (records ++ added) rows h := by
  have hchange := hw.change hs
  have hwritten : ∀ name rid, db'.HasWritten h name rid ↔ write.isAt name rid ∨ db.HasWritten h name rid := by
    intro name rid
    simp [HasWritten, hw.writes]
  refine ⟨?_, fun name shape' rid hshape' hwrote => ?_, fun name shape' rid hshape' hnot record hmem hat => ?_⟩
  · rw [hasCommit_append, hw.id, hp.uncommitted, Bool.false_or, hasCommit, List.any_eq_false]
    intro record hmem
    simp [(hadded record hmem).2]
  · rw [hchange.shapes] at hshape'
    rw [hw.id]
    by_cases hat : write.isAt name rid
    · obtain ⟨rfl, rfl⟩ := hat
      rw [hshape] at hshape'
      cases hshape'
      have hbefore := hp.traces write.rid hshape
      have himage : (if db.HasWritten h write.table write.rid then db.catalog.rows write.table write.rid
          else rows write.table write.rid) = write.image := by
        split
        · exact hchange.image.symm
        · rename_i hnot
          exact hsettled hnot
      rw [himage] at hbefore
      rw [hchange.rows, Rows.set_self]
      exact hbefore.append (fun record hmem _ => (hadded record hmem).1) hredo
    · have hwrote : db.HasWritten h name rid := ((hwritten name rid).mp hwrote).resolve_left hat
      rw [hchange.rows, Rows.set_of_ne hat]
      exact (hp.written name shape' rid hshape' hwrote).append_of_not_isAt fun record hmem =>
        helse record hmem name shape' rid hshape' hat
  · rw [hchange.shapes] at hshape'
    obtain ⟨hnotAt, hnotBefore⟩ := not_or.mp (mt (hwritten name rid).mpr hnot)
    rw [hw.id]
    rcases List.mem_append.mp hmem with hmem | hmem
    · exact hp.unwritten name shape' rid hshape' hnotBefore record hmem hat
    · rw [helse record hmem name shape' rid hshape' hnotAt] at hat
      cases hat

/-- A write of a transaction that has logged what it did to the row. -/
theorem Journal.of_wrote {write : WriteRecord} {row : Option Bytes} {shape : TableShape}
    (hj : Journal db records rows) (hg : db.Guarded) (hw : Wrote h write row db db') (hids : db'.DistinctIds)
    (hnumbers : db.catalog.DistinctNumbers) (hshape : db.catalog.shapes write.table = some shape)
    (hadded : ∀ record ∈ added, record.txn = (db.txn h).id ∧ record.kind ≠ .commit)
    (hat : ∀ record ∈ added, ∀ table rid, record.isAt table rid = true →
      table = shape.id ∧ rid = write.rid)
    (hredo : redoAt? shape.id write.rid write.image added = some row) :
    Journal db' (records ++ added) rows := by
  have hids₀ : db.DistinctIds := hw.toKeeps.keepsIds.distinctIds hids
  have hstep := hw.stepped hg hids₀
  have hchange := hw.change hg.catalog
  have hlt := lt_of_isActive hw.active
  have hsettled := hj.settled.stepped hg hstep hids
  have hpending := hj.pending h hlt hw.active
  have helse : ∀ record ∈ added, ∀ name shape' rid, db.catalog.shapes name = some shape' →
      ¬ write.isAt name rid → record.isAt shape'.id rid = false := by
    intro record hmem name shape' rid hshape' hnot
    rw [Bool.eq_false_iff]
    intro htrue
    obtain ⟨hid, hrid⟩ := hat record hmem _ _ htrue
    exact hnot ⟨hnumbers _ _ _ _ hshape hshape' hid.symm, hrid.symm⟩
  refine ⟨?_, hsettled, fun name shape' rid hshape' => ?_, fun h' hlt' hactive => ?_⟩
  · refine hj.filed.append hw.toKeeps.keepsIds hchange.shapes (fun record hmem => ?_)
      fun record hmem table rid htrue => ?_
    · exact ⟨h, hw.size ▸ hlt, by rw [hw.id, (hadded record hmem).1]⟩
    · exact ⟨write.table, shape, hshape, (hat record hmem table rid htrue).1.symm⟩
  · rw [hchange.shapes] at hshape'
    rw [redoAt?_committedRecords_append (fun record hmem => (hadded record hmem).2) fun record hmem _ => by
      rw [(hadded record hmem).1, hpending.uncommitted]]
    exact hj.committed name shape' rid hshape'
  · by_cases hh : h = h'
    · subst hh
      refine hpending.of_wrote hw hg.catalog hshape (fun hnot => ?_) hadded helse hredo
      -- The write is the first one there, so the row that it found is the settled one.
      have hmem : write ∈ (db'.txn h).writes := by
        rw [hw.writes]
        exact List.mem_cons_self
      rw [hsettled.of_holdsRow hstep.guarded hids hlt' (hstep.guarded.holdsRow hlt' hmem ⟨rfl, rfl⟩),
        hstep.revert, hchange.image]
      exact Rows.revertAll_of_not_isAt fun old hold hisAt => hnot ⟨old, hold, hisAt⟩
    · rw [hw.size] at hlt'
      rw [isActive, hw.txn h' hh] at hactive
      have hholds : ∀ name rid, db.HasWritten h' name rid → db.HoldsRow h' name rid := by
        rintro name rid ⟨old, hold, hisAt⟩
        exact hg.holdsRow hlt' hold hisAt
      refine (hj.pending h' hlt' hactive).of_same (hw.ids h') (by rw [hw.txn h' hh]) hchange.shapes
        (fun name rid hwritten => ⟨rfl, ?_⟩) (fun record hmem => ?_)
        fun record hmem name shape' rid hshape' hwritten => ?_
      · exact hstep.rows h' hlt' hh name rid (hholds name rid hwritten)
      · rw [(hadded record hmem).1]
        exact fun heq => hh (hids₀ h hlt h' hlt' heq)
      · refine helse record hmem name shape' rid hshape' fun hisAt => hh ?_
        exact (hw.eq_of_holdsRow hg hids₀ hlt' hisAt (hholds name rid hwritten)).symm

/-! ### Ends -/

/-- A transaction that has committed and has logged its commit: its changes are settled now. -/
theorem Journal.of_committed (hj : Journal db records rows) (hg : db.Guarded)
    (hactive : db.isActive h = true) (hleft : LeftBehind h db db') (hids : db'.DistinctIds)
    (hover : db'.isActive h = false) (hkind : record.kind = .commit)
    (htxn : record.txn = (db.txn h).id) (hat : ∀ table rid, record.isAt table rid = false) :
    Journal db' (records ++ [record]) fun name rid =>
      if db.HasWritten h name rid then db.catalog.rows name rid else rows name rid := by
  have hids₀ : db.DistinctIds := hleft.keepsIds.distinctIds hids
  have hpending := hj.pending h hleft.lt hactive
  have hlast : ∀ record' ∈ [record], record' = record := fun record' hmem => List.mem_singleton.mp hmem
  refine ⟨?_, ?_, fun name shape rid hshape => ?_, fun h' hlt' hactive' => ?_⟩
  · refine hj.filed.append hleft.keepsIds (by rw [hleft.catalog]) (fun record' hmem => ?_)
      fun record' hmem table rid htrue => ?_
    · exact ⟨h, hleft.size ▸ hleft.lt, by rw [hleft.id, hlast record' hmem, htxn]⟩
    · rw [hlast record' hmem, hat] at htrue
      cases htrue
  · refine hj.settled.committed hg hids₀ hleft (fun name rid hholds => ?_) fun name rid hnot => ?_
    · split
      · rfl
      · rename_i hnot
        rw [hj.settled.of_holdsRow hg hids₀ hleft.lt hholds]
        exact Rows.revertAll_of_not_isAt fun write hmem hisAt => hnot ⟨write, hmem, hisAt⟩
    · rw [if_neg]
      rintro ⟨write, hmem, hisAt⟩
      exact hnot (hg.holdsRow hleft.lt hmem hisAt)
  · rw [hleft.catalog] at hshape
    exact (hpending.traces rid hshape).redoAt?_commit hpending.uncommitted
      (hj.committed name shape rid hshape) hkind htxn (hat _ _)
  · have hh : h ≠ h' := fun heq => by
      subst heq
      exact absurd (hover.symm.trans hactive') (by decide)
    rw [hleft.size] at hlt'
    rw [isActive, hleft.txn h' hh] at hactive'
    refine (hj.pending h' hlt' hactive').of_same (by rw [hleft.txn h' hh]) (by rw [hleft.txn h' hh])
      (by rw [hleft.catalog]) (fun name rid hwritten => ⟨?_, by rw [hleft.catalog]⟩) (fun record' hmem => ?_)
      fun record' hmem name shape rid _ _ => ?_
    · rw [if_neg]
      rintro ⟨write, hmem, hisAt⟩
      obtain ⟨other, hother, hisAt'⟩ := hwritten
      exact hh (hg.eq_of_holdsRow hids₀ hlt' hleft.lt hother hisAt' (hg.holdsRow hleft.lt hmem hisAt))
    · rw [hlast record' hmem, htxn]
      exact fun heq => hh (hids₀ h hleft.lt h' hlt' heq)
    · rw [hlast record' hmem, hat]

/-- A transaction that has been rolled back and has logged its abort. -/
theorem Journal.of_aborted {catalog : Catalog} (hj : Journal db records rows) (hg : db.Guarded)
    (hlt : h < db.transactions.size)
    (hundo : db.catalog.undoAll (db.txn h).writes = (.ok (), [], catalog))
    (hleft : LeftBehind h (db.rolledBack h [] catalog) db') (hids : db'.DistinctIds)
    (hover : db'.isActive h = false) (hkind : record.kind ≠ .commit)
    (htxn : record.txn = (db.txn h).id) (hat : ∀ table rid, record.isAt table rid = false) :
    Journal db' (records ++ [record]) rows := by
  have hids₁ : (db.rolledBack h [] catalog).DistinctIds := hleft.keepsIds.distinctIds hids
  have hids₀ : db.DistinctIds := (keeps_rolledBack h db [] catalog).keepsIds.distinctIds hids₁
  have hstep := stepped_rolledBack hg hids₀ hlt hundo
  have hkeeps := hstep.toKeeps.keepsIds.trans hleft.keepsIds
  have hsize : db'.transactions.size = db.transactions.size := hleft.size.trans hstep.size
  have hshapes : db'.catalog.shapes = db.catalog.shapes := by
    rw [hleft.catalog]
    exact hstep.shapes
  have hlast : ∀ record' ∈ [record], record' = record := fun record' hmem => List.mem_singleton.mp hmem
  refine ⟨?_, hj.settled.aborted hg hlt hundo hleft hids, fun name shape rid hshape => ?_,
    fun h' hlt' hactive => ?_⟩
  · refine hj.filed.append hkeeps hshapes (fun record' hmem => ?_) fun record' hmem table rid htrue => ?_
    · exact ⟨h, hsize ▸ hlt, by rw [hkeeps.id h hlt, hlast record' hmem, htxn]⟩
    · rw [hlast record' hmem, hat] at htrue
      cases htrue
  · rw [hshapes] at hshape
    rw [redoAt?_committedRecords_append]
    · exact hj.committed name shape rid hshape
    · intro record' hmem
      rwa [hlast record' hmem]
    · intro record' hmem htrue
      rw [hlast record' hmem, hat] at htrue
      cases htrue
  · have hh : h ≠ h' := fun heq => by
      subst heq
      exact absurd (hover.symm.trans hactive) (by decide)
    have htxn' : db'.txn h' = db.txn h' := (hleft.txn h' hh).trans (hstep.txn h' hh)
    rw [hsize] at hlt'
    rw [isActive, htxn'] at hactive
    refine (hj.pending h' hlt' hactive).of_same (by rw [htxn']) (by rw [htxn']) hshapes
      (fun name rid hwritten => ⟨rfl, ?_⟩) (fun record' hmem => ?_)
      fun record' hmem name shape rid _ _ => ?_
    · obtain ⟨write, hmem, hisAt⟩ := hwritten
      rw [hleft.catalog]
      exact hstep.rows h' hlt' hh name rid (hg.holdsRow hlt' hmem hisAt)
    · rw [hlast record' hmem, htxn]
      exact fun heq => hh (hids₀ h hlt h' hlt' heq)
    · rw [hlast record' hmem, hat]

/-! ### All positions together -/

/-- The records of the committed transactions can be done again on all tables at once, which leads to the
rows of the journal, and to none in tables that there are not. -/
theorem Journal.exists_images (hj : Journal db records rows) :
    ∃ images, Images.redoAll? (fun _ _ => none) (committedRecords records) = some images ∧
      (∀ name shape rid, db.catalog.shapes name = some shape → images shape.id rid = rows name rid) ∧
      ∀ table, (∀ name shape, db.catalog.shapes name = some shape → shape.id ≠ table) →
        ∀ rid, images table rid = none := by
  have hnowhere : ∀ table, (∀ name shape, db.catalog.shapes name = some shape → shape.id ≠ table) →
      ∀ rid, redoAt? table rid none (committedRecords records) = some none := by
    intro table hnone rid
    refine redoAt?_of_not_isAt fun record hmem => ?_
    rw [Bool.eq_false_iff]
    intro hat
    obtain ⟨name, shape, hshape, hid⟩ :=
      hj.filed.table record (List.mem_of_mem_filter hmem) table rid hat
    exact hnone name shape hshape hid
  have hsome : ∀ table rid, ∃ row, redoAt? table rid none (committedRecords records) = some row := by
    intro table rid
    by_cases htable : ∃ name shape, db.catalog.shapes name = some shape ∧ shape.id = table
    · obtain ⟨name, shape, hshape, rfl⟩ := htable
      exact ⟨_, hj.committed name shape rid hshape⟩
    · exact ⟨none, hnowhere table (fun name shape hshape hid => htable ⟨name, shape, hshape, hid⟩) rid⟩
  choose images himages using hsome
  refine ⟨images, Images.redoAll?_of_redoAt? himages, fun name shape rid hshape => ?_,
    fun table hnone rid => ?_⟩
  · exact Option.some.inj ((himages shape.id rid).symm.trans (hj.committed name shape rid hshape))
  · exact Option.some.inj ((himages table rid).symm.trans (hnowhere table hnone rid))

/-! ### Calls -/

/-- A statement of a transaction, which has logged what it has done to a row, if it has. -/
theorem Journal.of_statement {statement : Statement} (hj : Journal db records rows) (hg : db.Guarded)
    (houtcome : Statement.Outcome h statement answer db db') (hids : db'.DistinctIds)
    (hlog : Answer.isLogFailure answer = false) (hnumbers : db.catalog.DistinctNumbers)
    (hlogs : db.Logs db' ((Call.run h statement).toLog? db answer)) :
    ∃ added, db.log.Took db'.log added ∧ Journal db' (records ++ added) rows := by
  have hnothing : statement.target? answer = none → db.log.Took db'.log [] := by
    intro hnone
    rw [Call.toLog?, Statement.change?_eq_none hnone] at hlogs
    exact Log.took_nil hlogs
  cases houtcome.did with
  | quiet hq htarget =>
    refine ⟨[], hnothing htarget, ?_⟩
    rw [List.append_nil]
    exact hj.of_quiet hg hq hids
  | missed write hw _ htarget _ =>
    obtain ⟨shape, hshape, _⟩ := (hw.change hg.catalog).lock
    exact ⟨[], hnothing htarget, hj.of_wrote hg hw hids hnumbers hshape (by simp) (by simp) rfl⟩
  | wrote write row hw _ htarget _ =>
    have hchange := hw.change hg.catalog
    have hactive : db'.isActive h = true := by
      rw [isActive, hw.state]
      exact hw.active
    obtain ⟨slot, -, hserial, -⟩ := houtcome.serial hg.catalog hactive hlog
    obtain ⟨shape, kind, change, hshape, hentry, htable, hrid, hkind, hredo⟩ :=
      Statement.exists_change?_of_serial hserial (htarget hlog)
    rw [Call.toLog?, hentry] at hlogs
    obtain ⟨record, htook, htxn, rfl, hcontent⟩ := hlogs
    rw [hchange.rows, Rows.set_self, ← hchange.image] at hredo
    obtain ⟨hat, hsame⟩ := LogRecord.redoAt?_of_data hcontent htable hrid write.image
    refine ⟨[record], htook, hj.of_wrote hg hw hids hnumbers hshape ?_ ?_ (hsame.trans hredo)⟩
    · intro record' hmem
      rw [List.mem_singleton.mp hmem, htxn, hw.id]
      exact ⟨rfl, hkind⟩
    · intro record' hmem
      rw [List.mem_singleton.mp hmem]
      exact hat

/-- Every call of a run in which nothing is given up by hand, the log takes every record and updates bring
rows of the right size. -/
theorem Journal.step (hj : Journal s.db records rows) (hg : s.db.Guarded)
    (hids : (s.step call).2.db.DistinctIds) (hhand : call.isByHand = false)
    (hlog : (⟨s, call⟩ : Event).failsLog = false) (hsized : call.isSized s.db.catalog.shapes = true)
    (hnumbers : s.db.catalog.DistinctNumbers)
    (hundoable : ∀ h, Undoable s.db.catalog.shapes s.db.catalog.rows (s.db.txn h).writes) :
    ∃ added rows', s.db.log.Took (s.step call).2.db.log added ∧
      Journal (s.step call).2.db (records ++ added) rows' := by
  by_cases hbegin : call = .begin
  · subst hbegin
    rcases s.step_begin with hlost | ⟨_, harrived, record, htook, htxn, hkind, hcontent⟩
    · exact absurd (hlost.symm.trans hlog) (by decide)
    · refine ⟨[record], rows, htook, hj.of_arrived harrived hids fun record' hmem => ?_⟩
      rw [List.mem_singleton.mp hmem]
      exact ⟨htxn, by simp [hkind], LogRecord.isAt_of_control hcontent⟩
  · have hlogs := (s.step_logs call hg.catalog hsized).resolve_left fun hlost =>
      absurd (hlost.symm.trans hlog) (by decide)
    have heffect := s.step_effect call
    unfold Event.failsLog Event.answer at hlog
    generalize (s.step call).1 = answer at heffect hlogs hlog
    generalize (s.step call).2.db = db' at heffect hlogs hids ⊢
    -- A step without a record, after which the rows settle as before.
    have hsame : db'.log = s.db.log → Journal db' records rows →
        ∃ added rows', s.db.log.Took db'.log added ∧ Journal db' (records ++ added) rows' := by
      intro hlog hj
      exact ⟨[], rows, Log.took_nil hlog, by rwa [List.append_nil]⟩
    have heffect₀ := heffect
    cases heffect with
    | arrived harrived hcall =>
      obtain ⟨id, rfl⟩ := hcall.resolve_left hbegin
      refine hsame hlogs ?_
      have hj' : Journal db' (records ++ []) rows := hj.of_arrived harrived hids (by simp)
      rwa [List.append_nil] at hj'
    | untouched huntouched hends hrun =>
      rw [Call.toLog?_of_other s.db answer hbegin hends hrun] at hlogs
      have hq : Quiet 0 s.db db' := by
        refine .of_keeps (.of_eq 0 huntouched.transactions huntouched.locks huntouched.gaps) ?_ ?_
          huntouched.catalog
        · rw [huntouched.txn]
        · rw [huntouched.txn]
      exact hsame hlogs (hj.of_quiet hg hq hids)
    | ran houtcome =>
      obtain ⟨added, htook, hj'⟩ := hj.of_statement hg houtcome hids hlog hnumbers hlogs
      exact ⟨added, rows, htook, hj'⟩
    | quiet hq hends hrun =>
      rw [Call.toLog?_of_other s.db answer hbegin hends hrun] at hlogs
      exact hsame hlogs (hj.of_quiet hg hq hids)
    | commitRefused _ => exact hsame rfl hj
    | committed hactive hleft _ =>
      obtain ⟨record, htook, htxn, hkind, hcontent⟩ := hlogs
      have hover := heffect₀.over_of_ends rfl hlog (.inl rfl)
      exact ⟨[record], _, htook, hj.of_committed hg hactive hleft hids hover.inactive hkind
        (htxn.trans hleft.id) (LogRecord.isAt_of_control hcontent)⟩
    | commitLost _ hlost => exact absurd (hlost.symm.trans hlog) (by decide)
    | abortRefused _ => exact hsame rfl hj
    | abortStuck _ hundo =>
      obtain ⟨catalog', hall⟩ := Catalog.undoAll_of_undoable hg.catalog (hundoable _)
      rw [hundo] at hall
      cases hall
    | @aborted h catalog _ _ hlt hundo hleft hended =>
      rcases hended with ⟨rfl, _⟩ | hlost
      · obtain ⟨record, htook, htxn, hkind, hcontent⟩ := hlogs
        have hover := heffect₀.over_of_ends rfl hlog (.inr rfl)
        have hid : (db'.txn h).id = (s.db.txn h).id :=
          hleft.id.trans (keeps_rolledBack h s.db [] catalog).id
        exact ⟨[record], rows, htook, hj.of_aborted hg hlt hundo hleft hids hover.inactive (by simp [hkind])
          (htxn.trans hid) (LogRecord.isAt_of_control hcontent)⟩
      · exact absurd (hlost.symm.trans hlog) (by decide)
    | released _ => cases hhand
    | releasedAll _ => cases hhand
    | releasedGaps _ => cases hhand

/-! ### Runs -/

/-- What there is to a run from empty tables whose records decide what the tables hold: nobody has worked
on them, no two of them have the same number, nothing is given up by hand, the log takes every record, and
updates bring rows of the right size. -/
structure Recorded (start : Session) (trace : List Event) : Prop where
  fresh : start.IsFresh
  catalog : start.db.catalog.Sound
  empty : start.db.catalog.rows = fun _ _ => none
  numbers : start.db.catalog.DistinctNumbers
  managed : Managed trace
  sized : ∀ event ∈ trace, event.call.isSized start.db.catalog.shapes = true

theorem Recorded.of_append {rest : List Event} (hr : Recorded start (trace ++ rest)) :
    Recorded start trace where
  fresh := hr.fresh
  catalog := hr.catalog
  empty := hr.empty
  numbers := hr.numbers
  managed := fun event hmem => hr.managed event (List.mem_append_left _ hmem)
  sized := fun event hmem => hr.sized event (List.mem_append_left _ hmem)

/-- Unfinished writes are guarded throughout, in tables of the same shapes. -/
theorem Run.guarded_of_recorded (hrun : Run start trace s) (hr : Recorded start trace)
    (hids : s.db.DistinctIds) : s.db.Guarded ∧ s.db.catalog.shapes = start.db.catalog.shapes := by
  obtain ⟨hg, hguarded⟩ := hrun.guarded (hr.fresh.guarded hr.catalog) hids fun event hmem =>
    (hr.managed event hmem).1
  exact ⟨hg, (hrun.shapes hguarded).1⟩

/-- The log has taken records that lead to the rows that are left when all unfinished writes are taken
back. -/
theorem Run.journal (hrun : Run start trace s) (hr : Recorded start trace) (hids : s.db.DistinctIds) :
    ∃ records rows, start.db.log.Took s.db.log records ∧ Journal s.db records rows := by
  induction hrun with
  | nil =>
    have hnone : ∀ h, ¬ h < start.db.transactions.size := by
      intro h hlt
      rw [hr.fresh.transactions] at hlt
      exact Nat.not_lt_zero h hlt
    refine ⟨[], fun _ _ => none, Log.took_nil rfl, ⟨by simp, by simp⟩, ⟨fun name rid _ => ?_, ?_⟩,
      fun _ _ _ _ => rfl, ?_⟩
    · rw [hr.empty]
    · exact fun h hlt => absurd hlt (hnone h)
    · exact fun h hlt => absurd hlt (hnone h)
  | @snoc trace s call hrun ih =>
    have hids₀ : s.db.DistinctIds := (s.step_effect call).keepsIds.distinctIds hids
    have hr₀ := hr.of_append
    have hlast : (⟨s, call⟩ : Event) ∈ trace ++ [⟨s, call⟩] := by simp
    obtain ⟨hg, hshapes⟩ := hrun.guarded_of_recorded hr₀ hids₀
    obtain ⟨records, rows, htook, hj⟩ := ih hr₀ hids₀
    have hnumbers : s.db.catalog.DistinctNumbers := by
      unfold Catalog.DistinctNumbers
      rw [hshapes]
      exact hr.numbers
    obtain ⟨added, rows', htook', hj'⟩ := hj.step hg hids (hr.managed _ hlast).1 (hr.managed _ hlast).2
      (hshapes ▸ hr.sized _ hlast) hnumbers fun h =>
        hrun.undoable hr.fresh hr.catalog hids₀ hr₀.managed h
    exact ⟨records ++ added, rows', htook.trans htook', hj'⟩

/-- A transaction that is not over has not been committed or rolled back. -/
theorem Run.not_ended (hrun : Run start trace s) (hmanaged : Managed trace) (hnot : ¬ s.db.Over h) :
    ∀ event ∈ trace, event.commits h = false ∧ event.aborts h = false := by
  intro event hmem
  have hneither : ¬ (event.commits h = true ∨ event.aborts h = true) :=
    fun hends => hnot (hrun.over hmanaged ⟨event, hmem, hends⟩)
  simpa using hneither

/-- Whether some transaction has begun and has been neither committed nor rolled back. -/
def HasUnended (trace : List Event) (s : Session) : Prop :=
  ∃ h < s.db.transactions.size, ∀ event ∈ trace, event.commits h = false ∧ event.aborts h = false

/-- A transaction that has not ended before has not ended after a call that does not end it. -/
theorem HasUnended.snoc (hlt : h < (s.step call).2.db.transactions.size)
    (hbefore : ∀ event ∈ trace, event.commits h = false ∧ event.aborts h = false)
    (hnow : (⟨s, call⟩ : Event).commits h = false ∧ (⟨s, call⟩ : Event).aborts h = false) :
    HasUnended (trace ++ [⟨s, call⟩]) (s.step call).2 := by
  refine ⟨h, hlt, fun event hmem => ?_⟩
  rcases List.mem_append.mp hmem with hmem | hmem
  · exact hbefore event hmem
  · rw [List.mem_singleton.mp hmem]
    exact hnow

/-- A call that logs something and ends no transaction leaves one that has not ended. -/
theorem Run.hasUnended_of_entry (hrun : Run start trace s) (hmanaged : Managed trace)
    (hlog : Answer.isLogFailure (s.step call).1 = false)
    (hends : ∀ h, call ≠ .commit h ∧ call ≠ .abort h)
    (hentry : call.toLog? s.db (s.step call).1 ≠ none) :
    HasUnended (trace ++ [⟨s, call⟩]) (s.step call).2 := by
  have hnow : ∀ h, (⟨s, call⟩ : Event).commits h = false ∧ (⟨s, call⟩ : Event).aborts h = false := by
    intro h
    simp [Event.commits, Event.aborts, hends h]
  by_cases hbegin : call = .begin
  · subst hbegin
    rcases s.step_begin with hlost | ⟨_, harrived, _⟩
    · exact absurd (hlost.symm.trans hlog) (by decide)
    · have hlt : s.db.nextHandle < (s.step .begin).2.db.transactions.size := by
        rw [harrived.size]
        exact Nat.lt_succ_self _
      refine .snoc hlt (hrun.not_ended hmanaged fun hover => ?_) (hnow _)
      exact absurd hover.lt (Nat.lt_irrefl _)
  · by_cases hrunning : ∃ h statement, call = .run h statement
    · obtain ⟨h, statement, rfl⟩ := hrunning
      have hactive : s.db.isActive h = true := by
        by_contra hinactive
        exact hentry ((s.step_effect _).toLog?_of_inactive hlog (by simpa using hinactive))
      have hlt := Nat.lt_of_lt_of_le (lt_of_isActive hactive) (s.step_effect (.run h statement)).keepsIds.size
      refine .snoc hlt (hrun.not_ended hmanaged fun hover => ?_) (hnow h)
      exact absurd (hover.inactive.symm.trans hactive) (by decide)
    · refine absurd (Call.toLog?_of_other s.db _ hbegin hends fun h statement heq => ?_) hentry
      exact hrunning ⟨h, statement, heq⟩

/-- Records wait in the buffer only while some transaction has not ended. -/
theorem Run.flushed (hrun : Run start trace s) (hr : Recorded start trace) (hids : s.db.DistinctIds)
    (hbuffer : start.db.log.buffer.bytes = []) :
    s.db.log.buffer.bytes = [] ∨ HasUnended trace s := by
  induction hrun with
  | nil => exact .inl hbuffer
  | @snoc trace s call hrun ih =>
    have hkeeps := (s.step_effect call).keepsIds
    have hids₀ : s.db.DistinctIds := hkeeps.distinctIds hids
    have hr₀ := hr.of_append
    have hlast : (⟨s, call⟩ : Event) ∈ trace ++ [⟨s, call⟩] := by simp
    have hlog : Answer.isLogFailure (s.step call).1 = false := (hr.managed _ hlast).2
    have hkept : ¬ Answer.isLogFailure (s.step call).1 = true := by simp [hlog]
    obtain ⟨hg, hshapes⟩ := hrun.guarded_of_recorded hr₀ hids₀
    have hlogs := (s.step_logs call hg.catalog (hshapes ▸ hr.sized _ hlast)).resolve_left hkept
    -- A call that logs nothing leaves what waits as it was, and a call that logs something either writes
    -- everything out or leaves a transaction that has not ended.
    have hquiet : call.toLog? s.db (s.step call).1 = none →
        (∀ h, (⟨s, call⟩ : Event).commits h = false ∧ (⟨s, call⟩ : Event).aborts h = false) →
        (s.step call).2.db.log.buffer.bytes = [] ∨ HasUnended (trace ++ [⟨s, call⟩]) (s.step call).2 := by
      intro hnone hneither
      rw [hnone] at hlogs
      have hsame : (s.step call).2.db.log = s.db.log := hlogs
      rcases ih hr₀ hids₀ with hnil | ⟨h, hlt, hbefore⟩
      · exact .inl (hsame ▸ hnil)
      · exact .inr (.snoc (Nat.lt_of_lt_of_le hlt hkeeps.size) hbefore (hneither h))
    by_cases hends : ∃ h, call = .commit h ∨ call = .abort h
    · obtain ⟨h, hends⟩ := hends
      cases hok : (s.step call).1.isOk with
      | true => exact .inl (((s.step_end hends).resolve_left hkept).2 hok)
      | false =>
        refine hquiet ?_ fun h => by simp [Event.commits, Event.aborts, Event.answer, hok]
        cases hanswer : (s.step call).1 with
        | ok answer =>
          rw [hanswer] at hok
          cases hok
        | error error => rcases hends with rfl | rfl <;> rfl
    · have hneither : ∀ h, call ≠ .commit h ∧ call ≠ .abort h := fun h =>
        ⟨fun heq => hends ⟨h, .inl heq⟩, fun heq => hends ⟨h, .inr heq⟩⟩
      by_cases hentry : call.toLog? s.db (s.step call).1 = none
      · exact hquiet hentry fun h => by simp [Event.commits, Event.aborts, hneither h]
      · exact .inr (hrun.hasUnended_of_entry hr₀.managed hlog hneither hentry)

/-- A log that nothing has been written to yet: its file has a header and nothing else. -/
def Log.IsFresh (log : Log) : Prop :=
  log.file = LogHeader.encode { firstLsn := 1 } ∧ log.buffer.bytes = []

/-- A log that is opened on an empty file is one. -/
theorem Log.isFresh_of_ofFile {config : LogConfig} {log : Log} (hopen : Log.ofFile config [] = .ok log) :
    log.IsFresh := by
  obtain ⟨_, _, -, -, -, -, rfl⟩ := Log.ofFile_eq_ok_iff.mp hopen
  exact ⟨Trail.toBytes_ofBytes _, rfl⟩

theorem Session.oneTable_get?_of_ne {name : String} (hne : "t" ≠ name) :
    oneTable.db.catalog.get? name = none := by
  have hput : ∀ table : Table, table.name ≠ name → (({} : Catalog).put table).get? name = none := by
    intro table hne
    rw [Catalog.get?_put, if_neg hne]
    exact Std.ExtTreeMap.getElem?_empty
  exact hput _ hne

theorem Session.oneTable_numbers : oneTable.db.catalog.DistinctNumbers := by
  have hname : ∀ name shape, oneTable.db.catalog.shapes name = some shape → "t" = name := by
    intro name shape hshape
    by_contra hne
    rw [Catalog.shapes, oneTable_get?_of_ne hne] at hshape
    cases hshape
  intro name name' shape shape' hshape hshape' _
  rw [← hname name shape hshape, ← hname name' shape' hshape']

theorem Session.oneTable_rows : oneTable.db.catalog.rows = fun _ _ => none := by
  funext name rid
  by_cases hne : "t" = name
  · subst hne
    have hput : ∀ table : Table, table.heap.pages = [] →
        (({} : Catalog).put table).rows table.name rid = none := by
      intro table hpages
      have hget : (({} : Catalog).put table).get? table.name = some table := by
        rw [Catalog.get?_put, if_pos rfl]
      rw [Catalog.rows_of_get? hget, Heap.row?, hpages]
      rfl
    exact hput _ rfl
  · rw [Catalog.rows, oneTable_get?_of_ne hne]
    rfl

/-- When every transaction has ended, the log file consists of its header and the frames of records that tell
what the tables hold: doing the changes of the transactions with a commit record again, one after another
from empty tables, finds for every change the row that the change found, and leads to exactly the rows that
there are.  Reading the file gives these records back exactly when the length of each of them fits into the four
bytes of its frame, and so it always does behind a buffer that is too small for a record of 2³² bytes. -/
theorem log_determines_rows (hrun : Run start trace s) (hfresh : start.IsFresh)
    (hlog : start.db.log.IsFresh) (hcatalog : start.db.catalog.Sound)
    (hempty : start.db.catalog.rows = fun _ _ => none) (hnumbers : start.db.catalog.DistinctNumbers)
    (hids : s.db.DistinctIds) (hmanaged : Managed trace)
    (hsized : ∀ event ∈ trace, event.call.isSized start.db.catalog.shapes = true)
    (hended : ∀ h < s.db.transactions.size, ∃ event ∈ trace,
      event.commits h = true ∨ event.aborts h = true) :
    ∃ records,
      s.db.log.file = LogHeader.encode { firstLsn := 1 } ++ records.flatMap LogRecord.frame ∧
      (s.db.log.records = .ok records ↔ ∀ record ∈ records, record.IsFramed) ∧
      (start.db.log.buffer.config.bufferSize.toNat < UInt32.size + 4 → s.db.log.records = .ok records) ∧
      ∃ images, Images.redoAll? (fun _ _ => none) (committedRecords records) = some images ∧
        (∀ name shape rid, s.db.catalog.shapes name = some shape →
          images shape.id rid = s.db.catalog.rows name rid) ∧
        ∀ table, (∀ name shape, s.db.catalog.shapes name = some shape → shape.id ≠ table) →
          ∀ rid, images table rid = none := by
  have hr : Recorded start trace := ⟨hfresh, hcatalog, hempty, hnumbers, hmanaged, hsized⟩
  obtain ⟨records, rows, htook, hj⟩ := hrun.journal hr hids
  have hbuffer : s.db.log.buffer.bytes = [] := by
    refine (hrun.flushed hr hids hlog.2).resolve_right ?_
    rintro ⟨h, hlt, hopen⟩
    obtain ⟨event, hmem, hends⟩ := hended h hlt
    have hneither := hopen event hmem
    simp [hneither] at hends
  have hfile : s.db.log.file = LogHeader.encode { firstLsn := 1 } ++ records.flatMap LogRecord.frame := by
    have hbytes := htook.bytes
    rwa [Log.bytes, Log.bytes, hbuffer, hlog.1, hlog.2, List.append_nil, List.append_nil] at hbytes
  have hrows : ∀ name rid, rows name rid = s.db.catalog.rows name rid := by
    refine fun name rid => hj.settled.untouched name rid fun h hlt write hmem => ?_
    rw [(hrun.over hmanaged (hended h hlt)).writes] at hmem
    cases hmem
  have hreads : s.db.log.records = .ok records ↔ ∀ record ∈ records, record.IsFramed := by
    rw [Log.records, hfile]
    exact readRecords_eq_ok_iff _ fun _ hmem => htook.imagesFit hmem
  obtain ⟨images, hredo, himages, hnowhere⟩ := hj.exists_images
  refine ⟨records, hfile, hreads, fun hsize => hreads.mpr fun record hmem => ?_, images, hredo,
    fun name shape rid hshape => ?_, hnowhere⟩
  · have hfits := htook.fits record hmem
    show record.encode.length < UInt32.size
    omega
  · rw [himages name shape rid hshape, hrows]

/-- A transaction writes over a row of its own while another one is rolled back and a third one takes the
slot that this has left. -/
theorem log_determines_rows_slot_reused :
    let log : Log := {
      trail := .ofBytes (LogHeader.encode { firstLsn := 1 })
      buffer := { threshold := 1000 }
      nextLsn := 1
      flushedLsn := 0 }
    let start : Session := { db := { Session.oneTable.db with log } }
    let calls : List Call := [.begin, .begin, .run 0 (.insert "t" [5]), .run 1 (.insert "t" [6]),
      .abort 1, .begin, .run 0 (.update "t" ⟨0, 0⟩ [8]), .run 2 (.insert "t" [7]), .commit 2, .commit 0]
    let s := start.play calls
    ∃ records images, s.db.log.records = .ok records ∧
      Images.redoAll? (fun _ _ => none) (committedRecords records) = some images ∧
      images 1 ⟨0, 0⟩ = some [8] ∧ images 1 ⟨0, 1⟩ = some [7] := by
  intro log start calls s
  have hmanaged : Managed (start.trace calls) := by
    unfold Managed
    decide +kernel
  have hrun : Run start (start.trace calls) s := .of_calls _ calls
  have hids : s.db.DistinctIds := by decide +kernel
  have hsized : ∀ event ∈ start.trace calls, event.call.isSized start.db.catalog.shapes = true := by
    decide +kernel
  have hended : ∀ h < s.db.transactions.size, ∃ event ∈ start.trace calls,
      event.commits h = true ∨ event.aborts h = true := by decide +kernel
  obtain ⟨records, _, _, hrecords, images, hredo, himages, _⟩ := log_determines_rows hrun
    ⟨rfl, rfl, rfl, rfl⟩ ⟨Trail.toBytes_ofBytes _, rfl⟩ Session.oneTable_sound Session.oneTable_rows
    Session.oneTable_numbers hids hmanaged hsized hended
  have hshape : s.db.catalog.shapes "t" = some
      { name := "t", id := 1, config := { rowSize := 1, slotsPerPage := 2 }, key := some (0, 1) } := by
    decide +kernel
  refine ⟨records, images, hrecords (by decide), hredo, ?_, ?_⟩
  · rw [himages "t" _ ⟨0, 0⟩ hshape]
    decide +kernel
  · rw [himages "t" _ ⟨0, 1⟩ hshape]
    decide +kernel

end NoWait
