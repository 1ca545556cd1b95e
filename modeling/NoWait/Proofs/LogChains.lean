import Mathlib.Data.List.Chain
import NoWait.Proofs.LockSets
import NoWait.Proofs.LogGrowth

/-!
# The records of a transaction form a chain

Whatever becomes of a call, it has at most one record to log, on behalf of one transaction.  The record
names the last one of that transaction, which from then on it is itself; a record that the log refuses
leaves no trace but a number that is never given out again.

* `Database.Tried` is what an attempt to log a record leaves, and `Session.step_tried`,
  `Session.step_begin_tried` and `Session.step_end_tried` say which attempt a call makes;
* `Database.Chained` says that the records of every transaction are a chain from its first to its last
  number, with `Chained.tried` for one attempt and `Run.chained` for a whole run;
* `acknowledged_durable` is the result: the chains, and what is left when an end has been acknowledged.
-/

namespace NoWait

open Database

/-! ### At most one record -/

namespace Database

variable {h : Handle} {db mid db' : Database} {record? : Option LogRecord}

/-- What an attempt to log a record for a transaction leaves: if the log takes none, everything is as it
was, or a number has been used up; otherwise the record follows the last one of the transaction, and is
written out together with all others or waits with them. -/
inductive Tried (h : Handle) (db db' : Database) : Option LogRecord → Prop where
  | same : SameLog db db' → Tried h db db' none
  | refused : db'.log = { db.log with nextLsn := db.log.nextLsn + 1 } →
    (∀ h', (db'.txn h').span = (db.txn h').span) → Tried h db db' none
  | taken (record : LogRecord) : h < db'.transactions.size → record.lsn = db.log.nextLsn →
    record.txn = (db'.txn h).id → record.prev = (db.txn h).lastLsn →
    record.encode.length + 4 ≤ db.log.buffer.config.bufferSize.toNat →
    (db'.log = db.log.take record ∨ db'.log = (db.log.take record).flush) →
    (∀ h', h ≠ h' → (db'.txn h').span = (db.txn h').span) →
    (db'.txn h).span = ((db.txn h).recordLsn record.lsn).span → Tried h db db' (some record)

/-- What comes before an attempt may change anything but the log. -/
theorem Tried.of_sameLog (hsame : SameLog db mid) (htried : Tried h mid db' record?) :
    Tried h db db' record? := by
  obtain ⟨hlog, hspan⟩ := hsame
  cases htried with
  | same hsame' => exact .same (trans_of SameLog ⟨hlog, hspan⟩ hsame')
  | refused hlog' hspan' => exact .refused (hlog ▸ hlog') fun h' => (hspan' h').trans (hspan h')
  | taken record hlt hlsn htxn hprev hfits hlog' hothers hown =>
    have hfirst : (mid.txn h).firstLsn = (db.txn h).firstLsn := congrArg Prod.fst (hspan h)
    have hlast : (mid.txn h).lastLsn = (db.txn h).lastLsn := congrArg Prod.snd (hspan h)
    refine .taken record hlt (hlog ▸ hlsn) htxn (hprev.trans hlast) (hlog ▸ hfits) (hlog ▸ hlog')
      (fun h' hne => (hothers h' hne).trans (hspan h')) ?_
    rw [hown]
    simp only [Transaction.span, Transaction.recordLsn, hfirst]

/-- What comes after an attempt may change the tables. -/
theorem Tried.sameTxns (htried : Tried h db mid record?) (hsame : SameTxns mid db') :
    Tried h db db' record? := by
  have htxn := hsame.txn
  cases htried with
  | same hsame' => exact .same (trans_of SameLog hsame' hsame.sameLog)
  | refused hlog hspan => exact .refused (hsame.1.trans hlog) fun h' => by rw [htxn, hspan]
  | taken record hlt hlsn hid hprev hfits hlog hothers hown =>
    exact .taken record (hsame.2 ▸ hlt) hlsn (by rw [htxn, hid]) hprev hfits (by rwa [hsame.1])
      (fun h' hne => by rw [htxn, hothers h' hne]) (by rw [htxn, hown])

/-- Whether at most one record was to be logged. -/
def Tries (h : Handle) (db db' : Database) : Prop := ∃ record?, Tried h db db' record?

theorem SameLog.tries (hsame : SameLog db db') : Tries h db db' := ⟨none, .same hsame⟩

end Database

/-! ### Actions -/

namespace Action

variable {ε α β : Type} {action : Action ε α} {next : α → Action ε β} {h : Handle}

/-- An attempt that comes after other steps. -/
theorem Within.bind_tries (haction : action.Within SameLog) (hnext : ∀ value, (next value).Within (Tries h)) :
    (action >>= next).Within (Tries h) := by
  intro db
  refine haction.bind_ends (fun value mid hsame => ?_) fun _ _ hsame => hsame.tries
  exact (hnext value mid).mono (fun _ _ ⟨record?, htried⟩ => ⟨record?, htried.of_sameLog hsame⟩)
    fun _ _ ⟨record?, htried⟩ => ⟨record?, htried.of_sameLog hsame⟩

/-- An attempt that comes before other steps. -/
theorem Within.tries_bind (haction : action.Within (Tries h))
    (hnext : ∀ value, (next value).Within SameTxns) : (action >>= next).Within (Tries h) := by
  intro db
  refine haction.bind_ends (fun value mid htries => ?_) fun _ _ htries => htries
  obtain ⟨record?, htried⟩ := htries
  exact (hnext value mid).mono (fun _ _ hsame => ⟨record?, htried.sameTxns hsame⟩)
    fun _ _ hsame => ⟨record?, htried.sameTxns hsame⟩

end Action

namespace Database

variable {h : Handle} {db : Database}

/-- The log takes the record of a transaction, or it fails. -/
theorem logRecord_tried (hlt : h < db.transactions.size) (kind : RecordKind) (content : RecordContent) :
    (logRecord h kind content).Ends db
      (fun _ db' => ∃ record, record.kind = kind ∧ Tried h db db' (some record))
      fun _ db' => Tried h db db' none := by
  simp only [logRecord, Action.ends_bind, Action.ends_get]
  rcases db.log.append_cases (db.txn h).id (db.txn h).lastLsn kind content with happend | ⟨hfits, happend⟩
  · rw [happend]
    exact .refused rfl fun _ => rfl
  · rw [happend]
    simp only [Action.ends_set, Action.ends_ofExcept_ok, Action.ends_modify]
    have hself := fun log => txn_updateTxn_self ({ db with log } : Database)
      (·.recordLsn db.log.nextLsn) hlt
    refine ⟨_, rfl, .taken _ ?_ rfl ?_ rfl hfits ?_ ?_ ?_⟩
    · simpa [updateTxn] using hlt
    · rw [hself]
      rfl
    · show ite _ _ _ = _ ∨ ite _ _ _ = _
      split
      · exact .inr rfl
      · exact .inl rfl
    · intro h' hne
      rw [txn_updateTxn_of_ne _ _ hne]
      rfl
    · rw [hself]
      rfl

theorem enterWrite_tries (h : Handle) (write : WriteRecord) (after : Option Bytes) :
    (enterWrite h write after).Within (Tries h) := by
  refine ((table_within write.table).mono fun _ _ => SameStore.toSameLog).bind_tries fun table db => ?_
  simp only [addWrite, Action.ends_bind, Action.ends_mapError]
  apply (ensureActive_ends h db).mono
  · intro _ db' hensured
    obtain ⟨rfl, hactive⟩ := hensured
    rw [Action.ends_modify]
    have hadded := SameStore.updateTxn db' h (·.addWrite write) fun _ => rfl
    have hlt : h < (db'.updateTxn h (·.addWrite write)).transactions.size := by
      simpa [updateTxn] using lt_of_isActive hactive
    apply (logRecord_tried hlt _ _).mono
    · intro _ last hlogged
      obtain ⟨record, _, htried⟩ := hlogged
      exact ⟨_, htried.of_sameLog hadded.toSameLog⟩
    · intro _ last htried
      exact ⟨_, htried.of_sameLog hadded.toSameLog⟩
  · intro _ db' hstopped
    rw [hstopped.1]
    exact (refl_of SameLog db).tries

/-- A check of a key, if there is one, has nothing to log. -/
theorem checkKey_tries {α : Type} (h : Handle) (table : TableId) (key? : Option Bytes)
    {next : Action StatementError α} (hnext : next.Within (Tries h)) : (do
      if let some key := key? then (checkGap h table (.before key)).mapError .transaction
      next : Action StatementError α).Within (Tries h) := by
  intro db
  refine checkKey_bind_ends h table key? (fun mid hsame => ?_) fun _ _ hsame => hsame.toSameLog.tries
  apply (hnext mid).mono
  · rintro _ _ ⟨record?, htried⟩
    exact ⟨record?, htried.of_sameLog hsame.toSameLog⟩
  · rintro _ _ ⟨record?, htried⟩
    exact ⟨record?, htried.of_sameLog hsame.toSameLog⟩

/-- A statement has at most one record to log. -/
theorem perform_tries (h : Handle) (statement : Statement) : (statement.perform h).Within (Tries h) := by
  have hrow : ∀ (name : String) (rid : Rid) {next : Bytes → Action StatementError Bytes},
      (∀ before, (next before).Within (Tries h)) →
      (lockRow h name rid .exclusive >>= fun _ => rowAt name rid >>= next).Within (Tries h) := by
    intro name rid next hnext
    refine ((lockRow_within h name rid _).mono fun _ _ => SameStore.toSameLog).bind_tries fun _ => ?_
    exact ((rowAt_within name rid).mono fun _ _ => SameStore.toSameLog).bind_tries hnext
  cases statement with
  | insert name row =>
    refine Action.Within.tries_bind ?_ fun _ => Action.within_pure _
    refine ((table_within name).mono fun _ _ => SameStore.toSameLog).bind_tries fun table => ?_
    refine (((acquire_within h _ _).mapError _).mono fun _ _ => SameStore.toSameLog).bind_tries
      fun _ => checkKey_tries h table.id _ ?_
    refine (reserveSlot_sameLog h name).bind_tries fun rid => ?_
    refine (fillSlot_sameLog h name rid row).bind_tries fun _ => ?_
    exact (enterWrite_tries h _ _).tries_bind fun _ => Action.within_pure _
  | update name rid row =>
    refine Action.Within.tries_bind (hrow name rid fun before => ?_) fun _ => Action.within_pure _
    refine ((table_within name).mono fun _ _ => SameStore.toSameLog).bind_tries fun table =>
      checkKey_tries h table.id _ ?_
    exact (enterWrite_tries h _ _).tries_bind fun _ => onTable_sameTxns name _
  | delete name rid =>
    refine Action.Within.tries_bind (hrow name rid fun before => ?_) fun _ => Action.within_pure _
    exact (enterWrite_tries h _ _).tries_bind fun _ => onTable_sameTxns name _
  | read name rid =>
    refine Action.Within.tries_bind ?_ fun _ => Action.within_pure _
    exact (read_within h name rid).mono fun _ _ hsame => hsame.toSameLog.tries
  | acquire resource mode =>
    refine Action.Within.tries_bind ?_ fun _ => Action.within_pure _
    exact ((acquire_within h resource mode).mapError _).mono fun _ _ hsame => hsame.toSameLog.tries

/-- A transaction that begins has a record of that, which is its first. -/
theorem begin_tried (db : Database) :
    begin.Ends db
      (fun h db' => h = db.nextHandle ∧
        ∃ record, record.kind = .begin ∧ Tried db.nextHandle db db' (some record))
      fun _ db' => Tried db.nextHandle db db' none := by
  simp only [begin, Action.ends_bind, Action.ends_get]
  have hnone : db.txn db.nextHandle = { id := 0, state := .committed } := by
    simp [txn, nextHandle]
  rcases db.log.append_cases db.nextTxn 0 .begin (.control db.clock) with happend | ⟨hfits, happend⟩
  · rw [happend]
    simp only [Action.ends_set, Action.ends_mapError]
    exact .refused rfl fun _ => rfl
  · rw [happend]
    simp only [Action.ends_set, Action.ends_mapError, Action.ends_ofExcept_ok, Action.ends_modify,
      Action.ends_pure]
    have hself : ∀ (mid : Database) (t : Transaction), mid.transactions = db.transactions →
        (mid.addTxn t).txn db.nextHandle = t := by
      intro mid t htxns
      rw [nextHandle, ← htxns]
      exact txn_addTxn_self mid t
    refine ⟨rfl, _, rfl, .taken _ ?_ rfl ?_ ?_ hfits ?_ ?_ ?_⟩
    · simp [addTxn, nextHandle]
    · rw [hself]
      · rfl
      · rfl
    · rw [hnone]
    · show ite _ _ _ = _ ∨ ite _ _ _ = _
      split
      · exact .inr rfl
      · exact .inl rfl
    · intro h' hne
      have hsize : h' ≠ db.transactions.size := fun heq => hne heq.symm
      by_cases hlt : h' < db.transactions.size
      · simp [addTxn, txn, Array.getElem?_push, hsize]
      · simp [addTxn, txn, Array.getElem?_push, hsize, hlt]
    · rw [hnone]
      rw [hself]
      · rfl
      · rfl

/-- The end of a transaction is logged and written out with everything before it. -/
theorem finish_tried (hlt : h < db.transactions.size) (kind : RecordKind) (state : TransactionState) :
    (finish h kind state).Ends db
      (fun _ db' => db'.log.buffer.bytes = [] ∧
        ∃ record, record.kind = kind ∧ Tried h db db' (some record))
      fun _ db' => Tried h db db' none := by
  simp only [finish, Action.ends_bind, Action.ends_get, Action.ends_mapError]
  apply (logRecord_tried hlt kind _).mono
  · intro _ mid hlogged
    obtain ⟨record, hkind, htried⟩ := hlogged
    rw [Action.ends_modify]
    refine ⟨Log.buffer_flush mid.log, record, hkind, ?_⟩
    let flushed : Database :=
      { mid with log := mid.log.flush, active := mid.active.erase (mid.txn h).id }
    have hspan := (SameStore.updateTxn flushed h (fun t => { t with state }) fun _ => rfl).span
    have hkeeps : Keeps h flushed (flushed.setState h state) :=
      .updateTxn h flushed (fun _ => rfl) fun _ => rfl
    have hid := hkeeps.id
    cases htried with
    | taken _ hlt' hlsn htxn hprev hfits hlog hothers hown =>
      refine .taken record ?_ hlsn (htxn.trans hid.symm) hprev hfits (.inr ?_)
        (fun h' hne => (hspan h').trans (hothers h' hne)) ((hspan h).trans hown)
      · simpa [setState, updateTxn] using hlt'
      · show mid.log.flush = _
        rcases hlog with hlog | hlog
        · rw [hlog]
        · rw [hlog, Log.flush_of_nil (Log.buffer_flush _)]
  · intro _ db' htried
    exact htried

theorem letGo_sameLog (db : Database) (h : Handle) : db.SameLog (db.letGo h) := by
  have hwrites := SameStore.updateTxn db h (fun t => { t with writes := [] }) fun _ => rfl
  have hlocks := releaseAll_sameStore (db.updateTxn h fun t => { t with writes := [] }) h
  have hgaps : SameStore ((db.updateTxn h fun t => { t with writes := [] }).releaseAll h) (db.letGo h) :=
    .of_eq rfl rfl rfl
  exact (trans_of SameStore (trans_of SameStore hwrites hlocks) hgaps).toSameLog

theorem rolledBack_sameLog (db : Database) (h : Handle) (left : List WriteRecord) (catalog : Catalog) :
    db.SameLog (db.rolledBack h left catalog) :=
  ⟨rfl, (SameStore.updateTxn ({ db with catalog } : Database) h (fun t => { t with writes := left })
    fun _ => rfl).span⟩

/-- What becomes of the log at an end that succeeds, and at one that fails. -/
theorem commit_tried (h : Handle) (db : Database) :
    (commit h).Ends db
      (fun _ db' => db'.log.buffer.bytes = [] ∧ h < db.transactions.size ∧
        ∃ record, record.kind = .commit ∧ Tried h db db' (some record))
      fun _ db' => Tried h db db' none := by
  apply commit_ends_of
  · intro _
    exact .same (refl_of SameLog db)
  · intro hactive
    have hlt := lt_of_isActive hactive
    have hlt' : h < (db.letGo h).transactions.size := (letGo_spec hlt).size ▸ hlt
    apply (finish_tried hlt' .commit .committed).mono
    · intro _ last hfinished
      obtain ⟨hflushed, record, hkind, htried⟩ := hfinished
      exact ⟨hflushed, hlt, record, hkind, htried.of_sameLog (letGo_sameLog db h)⟩
    · intro _ last htried
      exact htried.of_sameLog (letGo_sameLog db h)

theorem abort_tried (h : Handle) (db : Database) :
    (abort h).Ends db
      (fun _ db' => db'.log.buffer.bytes = [] ∧ h < db.transactions.size ∧
        ∃ record, record.kind = .abort ∧ Tried h db db' (some record))
      fun _ db' => Tried h db db' none := by
  apply abort_ends_of
  · intro _
    exact .same (refl_of SameLog db)
  · intro _ left catalog _ _
    exact .same (rolledBack_sameLog db h left catalog)
  · intro catalog hlt _
    have hlt₁ : h < (db.rolledBack h [] catalog).transactions.size :=
      (keeps_rolledBack h db [] catalog).size ▸ hlt
    have hlt₂ : h < ((db.rolledBack h [] catalog).letGo h).transactions.size :=
      (letGo_spec hlt₁).size ▸ hlt₁
    have hsame := trans_of SameLog (rolledBack_sameLog db h [] catalog)
      (letGo_sameLog (db.rolledBack h [] catalog) h)
    apply (finish_tried hlt₂ .abort .aborted).mono
    · intro _ last hfinished
      obtain ⟨hflushed, record, hkind, htried⟩ := hfinished
      exact ⟨hflushed, hlt, record, hkind, htried.of_sameLog hsame⟩
    · intro _ last htried
      exact htried.of_sameLog hsame

end Database

/-! ### Calls -/

namespace Session

/-- A transaction begins with a record of its own, or does not begin. -/
theorem step_begin_tried (s : Session) :
    (Arrived s.db (s.step .begin).2.db ∧
      ∃ record, record.kind = .begin ∧ Tried s.db.nextHandle s.db (s.step .begin).2.db (some record)) ∨
    (Untouched s.db (s.step .begin).2.db ∧ Tried s.db.nextHandle s.db (s.step .begin).2.db none) := by
  refine act_spec (P := fun _ db' => (Arrived s.db db' ∧
    ∃ record, record.kind = .begin ∧ Tried s.db.nextHandle s.db db' (some record)) ∨
      (Untouched s.db db' ∧ Tried s.db.nextHandle s.db db' none)) ?_
  rw [Action.ends_bind, Action.ends_mapError]
  apply ((begin_ends s.db).and (begin_tried s.db)).mono
  · intro h db' hbegun
    obtain ⟨⟨_, harrived⟩, _, hrecord⟩ := hbegun
    exact .inl ⟨harrived, hrecord⟩
  · intro error db' hrefused
    exact .inr ⟨hrefused.1.1, hrefused.2⟩

/-- An end that succeeds is logged as what it is, and everything is written out. -/
theorem step_end_tried (s : Session) {call : Call} {h : Handle} {kind : RecordKind}
    (hcall : call = .commit h ∧ kind = .commit ∨ call = .abort h ∧ kind = .abort) :
    ((s.step call).1.isOk = true ∧ (s.step call).2.db.log.buffer.bytes = [] ∧ h < s.db.transactions.size ∧
      ∃ record, record.kind = kind ∧ Tried h s.db (s.step call).2.db (some record)) ∨
    ((s.step call).1.isOk = false ∧ Tried h s.db (s.step call).2.db none) := by
  apply step_end_spec (P := fun answer db' => (answer.isOk = true ∧ db'.log.buffer.bytes = [] ∧
    h < s.db.transactions.size ∧ ∃ record, record.kind = kind ∧ Tried h s.db db' (some record)) ∨
      (answer.isOk = false ∧ Tried h s.db db' none)) (hcall.imp And.left And.left)
  · intro hcommit
    obtain rfl : kind = .commit := by
      obtain ⟨_, hkind⟩ | ⟨habort, _⟩ := hcall
      · exact hkind
      · cases hcommit.symm.trans habort
    exact (commit_tried h s.db).mono (fun _ _ hended => .inl ⟨rfl, hended⟩) fun _ _ htried => .inr ⟨rfl, htried⟩
  · intro habort
    obtain rfl : kind = .abort := by
      obtain ⟨hcommit, _⟩ | ⟨_, hkind⟩ := hcall
      · cases hcommit.symm.trans habort
      · exact hkind
    exact (abort_tried h s.db).mono (fun _ _ hended => .inl ⟨rfl, hended⟩) fun _ _ htried => .inr ⟨rfl, htried⟩

/-- Every call has at most one record to log. -/
theorem step_tried (s : Session) (call : Call) : ∃ h, Tries h s.db (s.step call).2.db := by
  cases hsparing : call.isSparing with
  | true => exact ⟨0, (step_sameStore hsparing).toSameLog.tries⟩
  | false =>
    cases call with
    | begin =>
      rcases s.step_begin_tried with ⟨_, record, _, htried⟩ | ⟨_, htried⟩
      · exact ⟨_, _, htried⟩
      · exact ⟨_, _, htried⟩
    | run h statement => exact ⟨h, act_within (perform_tries h statement)⟩
    | commit h =>
      rcases s.step_end_tried (.inl ⟨rfl, rfl⟩) with ⟨_, _, _, record, _, htried⟩ | ⟨_, htried⟩
      · exact ⟨h, _, htried⟩
      · exact ⟨h, _, htried⟩
    | abort h =>
      rcases s.step_end_tried (.inr ⟨rfl, rfl⟩) with ⟨_, _, _, record, _, htried⟩ | ⟨_, htried⟩
      · exact ⟨h, _, htried⟩
      · exact ⟨h, _, htried⟩
    | adopt | lockGap | checkGap | lockRange | openScan | initScan | nextScan | release | releaseAll
      | releaseGaps => cases hsparing

end Session

/-! ### Chains -/

/-- The records of one transaction, oldest first. -/
def LogLedger.recordsOf (ledger : LogLedger) (txn : TxnId) : List LogRecord :=
  ledger.records.filter fun record => record.txn = txn

theorem LogLedger.recordsOf_append {ledger ledger' : LogLedger} {new : List LogRecord}
    (hrecords : ledger'.records = ledger.records ++ new) (txn : TxnId) :
    ledger'.recordsOf txn = ledger.recordsOf txn ++ new.filter fun record => record.txn = txn := by
  rw [recordsOf, recordsOf, hrecords, List.filter_append]

/-- Whether records begin with that of a beginning, each of the others names the one before it, and the
numbers of the first and of the last one are the given ones. -/
structure ChainOver (span : Lsn × Lsn) (records : List LogRecord) : Prop where
  head : ∃ first rest, records = first :: rest ∧ first.kind = .begin ∧ first.prev = 0 ∧ first.lsn = span.1
  linked : records.IsChain fun older newer => newer.prev = older.lsn
  last : lastLsn records = span.2

theorem ChainOver.single {record : LogRecord} (hkind : record.kind = .begin) (hprev : record.prev = 0) :
    ChainOver (record.lsn, record.lsn) [record] :=
  ⟨⟨record, [], rfl, hkind, hprev, rfl⟩, .singleton _, rfl⟩

/-- A record that names the last one of a chain goes on with it. -/
theorem ChainOver.concat {span : Lsn × Lsn} {records : List LogRecord} {record : LogRecord}
    (hc : ChainOver span records) (hprev : record.prev = span.2) :
    ChainOver (span.1, record.lsn) (records ++ [record]) where
  head := by
    obtain ⟨first, rest, rfl, hfirst⟩ := hc.head
    exact ⟨first, rest ++ [record], rfl, hfirst⟩
  linked := by
    rw [List.isChain_append]
    refine ⟨hc.linked, .singleton _, fun older holder newer hnewer => ?_⟩
    obtain rfl : record = newer := by simpa using hnewer
    rw [hprev, ← hc.last, lastLsn, Option.mem_def.mp holder]
    rfl
  last := lastLsn_concat

namespace Database

variable {h : Handle} {db db' : Database} {record? : Option LogRecord} {ledger : LogLedger}

/-- Whether the log of a database has the records of an account, in which those of each transaction are a
chain, from the transaction's first number to its last. -/
structure Chained (db : Database) (ledger : LogLedger) : Prop where
  holds : db.log.Holds ledger
  started : db.log.nextLsn ≠ 0
  numbered : ∀ record ∈ ledger.records, record.lsn ≠ 0
  owned : ∀ record ∈ ledger.records, ∃ h < db.transactions.size, (db.txn h).id = record.txn
  chains : ∀ h < db.transactions.size, ChainOver (db.txn h).span (ledger.recordsOf (db.txn h).id)

/-- An attempt uses up one number at most. -/
theorem Tried.nextLsn (htried : Tried h db db' record?) :
    db'.log.nextLsn = db.log.nextLsn ∧ record? = none ∨ db'.log.nextLsn = db.log.nextLsn + 1 := by
  cases htried with
  | same hsame => exact .inl ⟨by rw [hsame.log], rfl⟩
  | refused hlog _ => exact .inr (by rw [hlog])
  | taken record _ _ _ _ _ hlog _ _ =>
    right
    rcases hlog with hlog | hlog
    · rw [hlog]
      rfl
    · rw [hlog, Log.nextLsn_flush]
      rfl

/-- The log keeps an account of what it has taken. -/
theorem Tried.holds (htried : Tried h db db' record?) (hholds : db.log.Holds ledger)
    (hroom : db.log.nextLsn.toNat + 1 < UInt64.size) :
    ∃ ledger', db'.log.Holds ledger' ∧ ledger'.records = ledger.records ++ record?.toList := by
  cases htried with
  | same hsame => exact ⟨ledger, hsame.log ▸ hholds, by simp⟩
  | refused hlog _ => exact ⟨ledger, hlog ▸ hholds.refuse hroom, by simp⟩
  | taken record _ hlsn _ _ hfits hlog _ _ =>
    have htaken := hholds.take hroom hlsn hfits
    have hrecords : ({ ledger with waiting := ledger.waiting ++ [record] } : LogLedger).records =
        ledger.records ++ [record] := (List.append_assoc _ _ _).symm
    rcases hlog with hlog | hlog
    · exact ⟨_, hlog ▸ htaken, hrecords⟩
    · refine ⟨_, hlog ▸ htaken.flush, ?_⟩
      rw [LogLedger.flush, LogLedger.records, List.append_nil]
      exact hrecords

/-- The log goes on giving out numbers that are not zero. -/
theorem Tried.started (htried : Tried h db db' record?) (hroom : db.log.nextLsn.toNat + 1 < UInt64.size)
    (hstarted : db.log.nextLsn ≠ 0) : db'.log.nextLsn ≠ 0 := by
  obtain ⟨hsame, _⟩ | hnext := htried.nextLsn
  · rw [hsame]
    exact hstarted
  · intro hzero
    have hsucc : (db.log.nextLsn + 1).toNat = db.log.nextLsn.toNat + 1 := by
      rw [UInt64.toNat_add]
      exact Nat.mod_eq_of_lt hroom
    rw [← hnext, hzero] at hsucc
    cases hsucc

/-- What is taken is a record of the transaction of the attempt, with the number that was next. -/
theorem Tried.taken_of_mem {record : LogRecord} (htried : Tried h db db' record?) (hmem : record ∈ record?) :
    h < db'.transactions.size ∧ record.lsn = db.log.nextLsn ∧ record.txn = (db'.txn h).id := by
  cases htried with
  | same | refused => cases hmem
  | taken record' hlt hlsn htxn _ _ _ _ _ =>
    obtain rfl : record' = record := Option.some.inj hmem
    exact ⟨hlt, hlsn, htxn⟩

/-- Where each record is of a transaction that is there, one that comes later has none. -/
theorem filter_txn_eq_nil {records : List LogRecord} (hkeeps : KeepsIds db db') (hids : db'.DistinctIds)
    (hnew : ¬ h < db.transactions.size) (hlt : h < db'.transactions.size)
    (howned : ∀ record ∈ records, ∃ i < db.transactions.size, record.txn = (db.txn i).id) :
    (records.filter fun record => record.txn = (db'.txn h).id) = [] := by
  rw [List.filter_eq_nil_iff]
  intro record hmem
  obtain ⟨i, hi, htxn⟩ := howned record hmem
  have hdistinct : (db'.txn i).id ≠ (db'.txn h).id := by
    intro heq
    have hsame : i = h := hids i (Nat.lt_of_lt_of_le hi hkeeps.size) h hlt heq
    exact hnew (hsame ▸ hi)
  rw [hkeeps.id i hi, ← htxn] at hdistinct
  simpa using hdistinct

namespace Chained

/-- Nobody who has come since has a record yet. -/
theorem recordsOf_new (hc : Chained db ledger) (hkeeps : KeepsIds db db') (hids : db'.DistinctIds)
    (hnew : ¬ h < db.transactions.size) (hlt : h < db'.transactions.size) :
    ledger.recordsOf (db'.txn h).id = [] :=
  filter_txn_eq_nil hkeeps hids hnew hlt fun record hmem => (hc.owned record hmem).imp fun _ => .imp_right Eq.symm

/-- The first number of a transaction is not zero. -/
theorem firstLsn_ne_zero (hc : Chained db ledger) (hlt : h < db.transactions.size) : (db.txn h).firstLsn ≠ 0 := by
  obtain ⟨first, rest, hfirst, _, _, hlsn⟩ := (hc.chains h hlt).head
  have hmem : first ∈ ledger.recordsOf (db.txn h).id := by simp [hfirst]
  rw [show (db.txn h).firstLsn = first.lsn from hlsn.symm]
  exact hc.numbered first (List.mem_of_mem_filter hmem)

/-- The records of a transaction that has another one go on with it, or begin with it if it is the first. -/
theorem chain_taken (hc : Chained db ledger) (hkeeps : KeepsIds db db') (hids : db'.DistinctIds)
    (hlt : h < db'.transactions.size) {record : LogRecord} (hprev : record.prev = (db.txn h).lastLsn)
    (hown : (db'.txn h).span = ((db.txn h).recordLsn record.lsn).span)
    (hnew : ¬ h < db.transactions.size → record.kind = .begin) :
    ChainOver (db'.txn h).span (ledger.recordsOf (db'.txn h).id ++ [record]) := by
  rw [hown]
  by_cases hold : h < db.transactions.size
  · have hnext : ChainOver _ (ledger.recordsOf (db.txn h).id ++ [record]) := (hc.chains h hold).concat hprev
    rw [hkeeps.id h hold]
    simpa [Transaction.span, Transaction.recordLsn, hc.firstLsn_ne_zero hold] using hnext
  · have hfresh : db.txn h = { id := 0, state := .committed } := by simp [txn, hold]
    rw [hfresh] at hprev ⊢
    rw [hc.recordsOf_new hkeeps hids hold hlt, List.nil_append]
    exact .single (hnew hold) hprev

/-- The records of a transaction that has no other one stay a chain. -/
theorem chain_kept (hc : Chained db ledger) (hkeeps : KeepsIds db db') (hlt : h < db.transactions.size)
    (hspan : (db'.txn h).span = (db.txn h).span) :
    ChainOver (db'.txn h).span (ledger.recordsOf (db'.txn h).id) := by
  rw [hspan, hkeeps.id h hlt]
  exact hc.chains h hlt

/-- An attempt for a transaction keeps all chains, if a transaction that is new begins with it. -/
theorem chains_tried (hc : Chained db ledger) (htried : Tried h db db' record?) (hkeeps : KeepsIds db db')
    (hids : db'.DistinctIds) (hnew : ∀ h' < db'.transactions.size, ¬ h' < db.transactions.size →
      h' = h ∧ ∃ record, record? = some record ∧ record.kind = .begin) {h' : Handle}
    (hlt : h' < db'.transactions.size) :
    ChainOver (db'.txn h').span (ledger.recordsOf (db'.txn h').id ++
      record?.toList.filter fun record => record.txn = (db'.txn h').id) := by
  cases htried with
  | same hsame =>
    have hold : h' < db.transactions.size := by
      by_contra hge
      obtain ⟨_, _, hsome, _⟩ := hnew h' hlt hge
      cases hsome
    rw [Option.toList_none, List.filter_nil, List.append_nil]
    exact hc.chain_kept hkeeps hold (hsame.span h')
  | refused _ hspan =>
    have hold : h' < db.transactions.size := by
      by_contra hge
      obtain ⟨_, _, hsome, _⟩ := hnew h' hlt hge
      cases hsome
    rw [Option.toList_none, List.filter_nil, List.append_nil]
    exact hc.chain_kept hkeeps hold (hspan h')
  | taken record hlt₀ hlsn htxn hprev _ _ hothers hown =>
    rw [Option.toList_some]
    by_cases hh : h = h'
    · subst hh
      rw [List.filter_singleton, decide_eq_true htxn]
      apply hc.chain_taken hkeeps hids hlt hprev hown
      intro hge
      obtain ⟨_, record', hsome, hkind⟩ := hnew h hlt hge
      cases hsome
      exact hkind
    · have hold : h' < db.transactions.size := by
        by_contra hge
        exact hh (hnew h' hlt hge).1.symm
      have hne : record.txn ≠ (db'.txn h').id := by
        rw [htxn]
        exact fun heq => hh (hids h hlt₀ h' hlt heq)
      rw [List.filter_singleton, decide_eq_false hne, Bool.cond_false, List.append_nil]
      exact hc.chain_kept hkeeps hold (hothers h' hh)

/-- So the log of what an attempt leaves has an account like that again. -/
theorem tried (hc : Chained db ledger) (htried : Tried h db db' record?)
    (hroom : db.log.nextLsn.toNat + 1 < UInt64.size) (hkeeps : KeepsIds db db') (hids : db'.DistinctIds)
    (hnew : ∀ h' < db'.transactions.size, ¬ h' < db.transactions.size →
      h' = h ∧ ∃ record, record? = some record ∧ record.kind = .begin) :
    ∃ ledger', Chained db' ledger' ∧ ledger'.records = ledger.records ++ record?.toList := by
  obtain ⟨ledger', hholds, hrecords⟩ := htried.holds hc.holds hroom
  refine ⟨ledger', ⟨hholds, htried.started hroom hc.started, ?_, ?_, ?_⟩, hrecords⟩
  · intro record hmem
    rw [hrecords] at hmem
    obtain hmem | hmem := List.mem_append.mp hmem
    · exact hc.numbered record hmem
    · rw [(htried.taken_of_mem (Option.mem_toList.mp hmem)).2.1]
      exact hc.started
  · intro record hmem
    rw [hrecords] at hmem
    obtain hmem | hmem := List.mem_append.mp hmem
    · obtain ⟨h', hlt, hid⟩ := hc.owned record hmem
      exact ⟨h', Nat.lt_of_lt_of_le hlt hkeeps.size, (hkeeps.id h' hlt).trans hid⟩
    · obtain ⟨hlt, _, htxn⟩ := htried.taken_of_mem (Option.mem_toList.mp hmem)
      exact ⟨h, hlt, htxn.symm⟩
  · intro h' hlt
    rw [LogLedger.recordsOf_append hrecords]
    exact hc.chains_tried htried hkeeps hids hnew hlt

end Chained

end Database

variable {start s : Session} {call : Call} {answer : Except StatementError Answer} {db' : Database}
  {trace : List Event} {ledger : LogLedger}

/-! ### Runs -/

/-- Transactions come by beginning or being taken in, and never go. -/
theorem Effect.size_eq (heffect : Effect s call answer db') (hbegin : call ≠ .begin)
    (hadopt : ∀ id, call ≠ .adopt id) : db'.transactions.size = s.db.transactions.size := by
  cases heffect with
  | arrived _ hcall =>
    rcases hcall with rfl | ⟨id, rfl⟩
    · exact absurd rfl hbegin
    · exact absurd rfl (hadopt id)
  | untouched huntouched _ _ => rw [huntouched.transactions]
  | ran houtcome => exact houtcome.keeps.size
  | quiet hquiet _ _ => exact hquiet.size
  | commitRefused _ => rfl
  | committed _ hleft _ => exact hleft.size
  | commitLost hleft _ => exact hleft.size
  | abortRefused _ => rfl
  | abortStuck _ _ => exact (keeps_rolledBack _ s.db _ _).size
  | aborted _ _ hleft _ => exact hleft.size.trans (keeps_rolledBack _ s.db _ _).size
  | released _ => simp [Database.release, updateTxn]
  | releasedAll _ => simp [Database.releaseAll, updateTxn]
  | releasedGaps _ => rfl

/-- Every call keeps the chains, unless it takes in a transaction whose beginning is not logged. -/
theorem Database.Chained.step (hc : s.db.Chained ledger) (hids : (s.step call).2.db.DistinctIds)
    (hadopt : ∀ id, call ≠ .adopt id) (hroom : s.db.log.nextLsn.toNat + 1 < UInt64.size) :
    ∃ ledger', (s.step call).2.db.Chained ledger' := by
  have heffect := s.step_effect call
  by_cases hbegin : call = .begin
  · subst hbegin
    rcases s.step_begin_tried with ⟨harrived, record, hkind, htried⟩ | ⟨huntouched, htried⟩
    · have hnew : ∀ h < (s.step .begin).2.db.transactions.size, ¬ h < s.db.transactions.size →
          h = s.db.nextHandle ∧ ∃ r, some record = some r ∧ r.kind = .begin := by
        intro h hlt hge
        have hsize := harrived.size
        exact ⟨show h = s.db.transactions.size by omega, record, rfl, hkind⟩
      obtain ⟨ledger', hc', _⟩ := hc.tried htried hroom heffect.keepsIds hids hnew
      exact ⟨ledger', hc'⟩
    · obtain ⟨ledger', hc', _⟩ := hc.tried htried hroom heffect.keepsIds hids fun h hlt hge =>
        absurd (huntouched.transactions ▸ hlt) hge
      exact ⟨ledger', hc'⟩
  · obtain ⟨h, record?, htried⟩ := s.step_tried call
    obtain ⟨ledger', hc', _⟩ := hc.tried htried hroom heffect.keepsIds hids fun h hlt hge =>
      absurd (heffect.size_eq hbegin hadopt ▸ hlt) hge
    exact ⟨ledger', hc'⟩

/-- What a log has to be that has been opened on an empty file and has taken nothing yet. -/
theorem Log.holds_of_ofFile {config : LogConfig} {log : Log}
    (hconfig : config.bufferSize.toNat < UInt32.size) (hopen : Log.ofFile config [] = .ok log) :
    log.Holds {} ∧ log.nextLsn = 1 := by
  obtain ⟨log', hopen', hholds, _, hnext, _⟩ := FileHolds.of_nil.ofFile hconfig
  obtain rfl : log = log' := Except.ok.inj (hopen.symm.trans hopen')
  exact ⟨hholds, hnext⟩

/-- The records of every transaction are a chain after every run in which all transactions have begun with
a record and the numbers have not run out. -/
theorem Run.chained (hrun : Run start trace s) (hfresh : start.IsFresh) (hlog : start.db.log.Holds {})
    (hfirst : start.db.log.nextLsn = 1) (hids : s.db.DistinctIds)
    (hadopt : ∀ event ∈ trace, ∀ id, event.call ≠ .adopt id)
    (hroom : ∀ event ∈ trace, event.before.db.log.nextLsn.toNat + 1 < UInt64.size) :
    ∃ ledger, s.db.Chained ledger := by
  induction hrun with
  | nil =>
    refine ⟨{}, hlog, ?_, ?_, ?_, fun h hlt => ?_⟩
    · rw [hfirst]
      decide
    · simp [LogLedger.records]
    · simp [LogLedger.records]
    · rw [hfresh.transactions] at hlt
      exact absurd hlt (Nat.not_lt_zero h)
  | @snoc trace s call hrun ih =>
    have hids₀ : s.db.DistinctIds := (s.step_effect call).keepsIds.distinctIds hids
    have hlast : (⟨s, call⟩ : Event) ∈ trace ++ [⟨s, call⟩] := by simp
    obtain ⟨ledger, hc⟩ := ih hids₀ (fun event hmem => hadopt event (List.mem_append_left _ hmem))
      fun event hmem => hroom event (List.mem_append_left _ hmem)
    exact hc.step hids (hadopt _ hlast) (hroom _ hlast)

/-- Whatever the account of a log that has just acknowledged an end, nothing waits, and the last of all
records is that of the transaction which says how it ended. -/
theorem Database.Chained.ended (hc : s.db.Chained ledger) {h : Handle} {kind : RecordKind}
    (hcall : call = .commit h ∧ kind = .commit ∨ call = .abort h ∧ kind = .abort)
    (hok : (s.step call).1.isOk = true) (hids : (s.step call).2.db.DistinctIds)
    (hroom : s.db.log.nextLsn.toNat + 1 < UInt64.size) {ledger' : LogLedger}
    (hc' : (s.step call).2.db.Chained ledger') :
    h < (s.step call).2.db.transactions.size ∧ ledger'.waiting = [] ∧
      ∃ last, ledger'.records.getLast? = some last ∧
        (ledger'.recordsOf ((s.step call).2.db.txn h).id).getLast? = some last ∧ last.kind = kind := by
  rcases s.step_end_tried hcall with ⟨_, hflushed, hlt, record, hkind, htried⟩ | ⟨hfails, _⟩
  · have hneither : call ≠ .begin ∧ ∀ id, call ≠ .adopt id := by
      rcases hcall with ⟨rfl, _⟩ | ⟨rfl, _⟩ <;> simp
    have heffect := s.step_effect call
    obtain ⟨ledger₁, hc₁, hrecords₁⟩ := hc.tried htried hroom heffect.keepsIds hids fun h hlt hge =>
      absurd (heffect.size_eq hneither.1 hneither.2 ▸ hlt) hge
    have hnothing : ∀ account : LogLedger, (s.step call).2.db.log.Holds account → account.waiting = [] :=
      fun account hholds => flatMap_frame_eq_nil.mp (hholds.buffer.symm.trans hflushed)
    -- The file can be read in one way only, so the given account is the one from before and the record.
    have hrecords : ledger'.records = ledger.records ++ [record] := by
      have hwritten := hc'.holds.fileHolds.readRecords_eq.symm.trans hc₁.holds.fileHolds.readRecords_eq
      rw [LogLedger.records, hnothing ledger' hc'.holds, List.append_nil, Except.ok.inj hwritten]
      rwa [LogLedger.records, hnothing ledger₁ hc₁.holds, List.append_nil] at hrecords₁
    cases htried with
    | taken _ hlt' _ htxn _ _ _ _ _ =>
      refine ⟨hlt', hnothing ledger' hc'.holds, record, by rw [hrecords]; simp, ?_, hkind⟩
      rw [LogLedger.recordsOf, hrecords, List.filter_append]
      simp [htxn]
  · rw [hfails] at hok
    cases hok

/-- In every run from a fresh log, of transactions with numbers of their own that begin with a record,
whatever their statements come to and wherever the buffer is written out: the records of each transaction
in the file and behind it in the buffer begin with that of its beginning, which names none before it; every
other names the one of the transaction before it; and the transaction knows the numbers of its first and of
its last one.  When the run has come to an acknowledged end of a transaction, nothing waits in the buffer,
the log knows the number of that end as the last one in its file, and opening the file again gives all
records, in which those of the transaction close with its commit or abort. -/
theorem acknowledged_durable (hrun : Run start trace s) (hfresh : start.IsFresh)
    (hlog : start.db.log.Holds {}) (hfirst : start.db.log.nextLsn = 1) (hids : s.db.DistinctIds)
    (hadopt : ∀ event ∈ trace, ∀ id, event.call ≠ .adopt id)
    (hroom : ∀ event ∈ trace, event.before.db.log.nextLsn.toNat + 1 < UInt64.size) :
    ∃ ledger : LogLedger,
      s.db.log.records = .ok ledger.written ∧
      s.db.log.buffer.bytes = ledger.waiting.flatMap LogRecord.frame ∧
      (∀ h < s.db.transactions.size,
        (∃ first rest, ledger.recordsOf (s.db.txn h).id = first :: rest ∧ first.kind = .begin ∧
          first.prev = 0 ∧ (s.db.txn h).firstLsn = first.lsn) ∧
        (ledger.recordsOf (s.db.txn h).id).IsChain (fun older newer => newer.prev = older.lsn) ∧
        (s.db.txn h).lastLsn = lastLsn (ledger.recordsOf (s.db.txn h).id)) ∧
      ∀ event, trace.getLast? = some event → ∀ h, event.commits h = true ∨ event.aborts h = true →
        s.db.log.buffer.bytes = [] ∧ s.db.log.flushedLsn = (s.db.txn h).lastLsn ∧
        (∃ last, (ledger.recordsOf (s.db.txn h).id).getLast? = some last ∧
          last.kind = if event.commits h then .commit else .abort) ∧
        ∀ config : LogConfig, config.bufferSize.toNat < UInt32.size →
          ∃ log, Log.ofFile config s.db.log.file = .ok log ∧ log.records = .ok ledger.records := by
  obtain ⟨ledger, hc⟩ := hrun.chained hfresh hlog hfirst hids hadopt hroom
  refine ⟨ledger, hc.holds.fileHolds.readRecords_eq, hc.holds.buffer, fun h hlt => ?_, ?_⟩
  · have hchain := hc.chains h hlt
    obtain ⟨first, rest, hrecords, hkind, hprev, hlsn⟩ := hchain.head
    exact ⟨⟨first, rest, hrecords, hkind, hprev, hlsn.symm⟩, hchain.linked, hchain.last.symm⟩
  · intro event hevent h hends
    cases hrun with
    | nil => cases hevent
    | @snoc trace s call hrun =>
      obtain rfl : (⟨s, call⟩ : Event) = event := by simpa using hevent
      have hids₀ : s.db.DistinctIds := (s.step_effect call).keepsIds.distinctIds hids
      have hroom₀ : s.db.log.nextLsn.toNat + 1 < UInt64.size := hroom ⟨s, call⟩ (by simp)
      obtain ⟨before, hc₀⟩ := hrun.chained hfresh hlog hfirst hids₀
        (fun event hmem => hadopt event (List.mem_append_left _ hmem))
        fun event hmem => hroom event (List.mem_append_left _ hmem)
      have hcall : (call = .commit h ∧
            (if (⟨s, call⟩ : Event).commits h then RecordKind.commit else .abort) = .commit ∨
          call = .abort h ∧
            (if (⟨s, call⟩ : Event).commits h then RecordKind.commit else .abort) = .abort) ∧
          (s.step call).1.isOk = true := by
        rcases hends with hcommits | haborts
        · rw [hcommits]
          have hsplit := hcommits
          simp only [Event.commits, Event.answer, Bool.and_eq_true, decide_eq_true_eq] at hsplit
          exact ⟨.inl ⟨hsplit.1, rfl⟩, hsplit.2⟩
        · simp only [Event.aborts, Event.answer, Bool.and_eq_true, decide_eq_true_eq] at haborts
          obtain ⟨rfl, hok⟩ := haborts
          exact ⟨.inr ⟨rfl, by simp [Event.commits]⟩, hok⟩
      obtain ⟨hlt, hwaiting, last, hlast, hown, hkind⟩ := hc₀.ended hcall.1 hcall.2 hids hroom₀ hc
      have hrecords : ledger.records = ledger.written := by
        rw [LogLedger.records, hwaiting, List.append_nil]
      refine ⟨?_, ?_, ⟨last, hown, hkind⟩, fun config hconfig => ?_⟩
      · rw [hc.holds.buffer, hwaiting]
        rfl
      · have hspan : lastLsn (ledger.recordsOf ((s.step call).2.db.txn h).id) =
            ((s.step call).2.db.txn h).lastLsn := (hc.chains h hlt).last
        rw [hc.holds.flushed, ← hspan, ← hrecords, lastLsn, lastLsn, hlast, hown]
      · have hfile := hc.holds.fileHolds
        have hstart : FileHolds (Log.startFile (s.step call).2.db.log.file) ledger.written :=
          hfile.startFile_eq.symm ▸ hfile
        obtain ⟨log, hopen, hholds, _⟩ := hstart.ofFile hconfig
        exact ⟨log, hopen, hrecords ▸ hholds.fileHolds.readRecords_eq⟩

/-- Two transactions share a log that is written out at every other record; it refuses the update of one of
them, which burns a number between the records that it has taken. -/
theorem acknowledged_durable_refused :
    let log : Log := {
      trail := .ofBytes (LogHeader.encode { firstLsn := 1 })
      buffer := { config := { bufferSize := 60 }, threshold := 50 }
      nextLsn := 1
      flushedLsn := 0 }
    let start : Session := { db := { Session.oneTable.db with log } }
    let calls : List Call := [.begin, .begin, .run 0 (.insert "t" [5]),
      .run 0 (.update "t" ⟨0, 0⟩ [6]), .run 1 (.insert "t" [7]), .commit 0]
    let s := start.play calls
    (start.trace calls).map (·.failsLog) = [false, false, false, true, false, false] ∧
    s.db.log.flushedLsn = 6 ∧ ∃ ledger : LogLedger, s.db.log.records = .ok ledger.written ∧
      lastLsn (ledger.recordsOf 1) = 6 ∧ lastLsn (ledger.recordsOf 2) = 5 ∧
      ∃ log, Log.ofFile {} s.db.log.file = .ok log ∧ log.records = .ok ledger.records := by
  intro log start calls s
  have hrun : Run start (start.trace calls) s := .of_calls _ calls
  have hlog : log.Holds {} := by
    refine ⟨.nil, ?_, rfl, by decide, rfl, by simp [LogLedger.records], rfl⟩
    exact Trail.toBytes_ofBytes _
  have hids : s.db.DistinctIds := by decide +kernel
  have hadopt : ∀ event ∈ start.trace calls, ∀ id, event.call ≠ .adopt id :=
    Run.forall_trace start (P := fun call => ∀ id, call ≠ .adopt id) (by simp [calls])
  have hroom : ∀ event ∈ start.trace calls, event.before.db.log.nextLsn.toNat + 1 < UInt64.size := by
    decide +kernel
  obtain ⟨ledger, hrecords, _, hchains, hended⟩ := acknowledged_durable hrun ⟨rfl, rfl, rfl, rfl⟩
    hlog rfl hids hadopt hroom
  have hfirst : (s.db.txn 0).id = 1 ∧ (s.db.txn 0).lastLsn = 6 := by decide +kernel
  have hsecond : (s.db.txn 1).id = 2 ∧ (s.db.txn 1).lastLsn = 5 := by decide +kernel
  have hlast : ∃ event, (start.trace calls).getLast? = some event ∧ event.commits 0 = true := by
    refine ⟨_, List.getLast?_eq_some_getLast (by simp [calls, Session.trace]), ?_⟩
    decide +kernel
  obtain ⟨event, hevent, hcommits⟩ := hlast
  obtain ⟨_, hflushed, _, hreopened⟩ := hended event hevent 0 (.inl hcommits)
  have hown := (hchains 0 (by decide +kernel)).2.2
  have hother := (hchains 1 (by decide +kernel)).2.2
  rw [hfirst.1, hfirst.2] at hown
  rw [hsecond.1, hsecond.2] at hother
  exact ⟨by decide +kernel, hflushed.trans hfirst.2, ledger, hrecords, hown.symm, hother.symm,
    hreopened {} (by decide)⟩

end NoWait
