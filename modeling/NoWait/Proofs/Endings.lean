import NoWait.Proofs.Scans

/-!
# How transactions begin and end

* `Arrived` is what a transaction finds that has just begun;
* `LeftBehind` is what a transaction leaves that has let go of everything: its locks and gaps are given
  up and its writes forgotten, and nothing of anyone else has changed;
* `commit_ends_of` and `abort_ends_of` take what is to be shown of a commit and an abort apart into their steps;
* `commit_ends` and `abort_ends` say how far a commit and an abort come, whether or not the log fails.
-/

namespace NoWait

namespace Database

variable {h : Handle} {db mid db' : Database}

/-- What is there when a further transaction has begun: it holds nothing and has written nothing, and
everything else is as it was. -/
structure Arrived (db db' : Database) : Prop where
  size : db'.transactions.size = db.transactions.size + 1
  txn : ∀ h < db.transactions.size, db'.txn h = db.txn h
  active : db'.isActive db.nextHandle = true
  writes : (db'.txn db.nextHandle).writes = []
  lockSet : (db'.txn db.nextHandle).locks = {}
  locks : db'.locks = db.locks
  gaps : db'.gaps = db.gaps
  catalog : db'.catalog = db.catalog

/-- What is left when nobody's transaction has been touched. -/
structure Untouched (db db' : Database) : Prop where
  transactions : db'.transactions = db.transactions
  locks : db'.locks = db.locks
  gaps : db'.gaps = db.gaps
  catalog : db'.catalog = db.catalog

theorem Untouched.refl (db : Database) : Untouched db db := ⟨rfl, rfl, rfl, rfl⟩

theorem Arrived.of_addTxn (hu : Untouched db mid) {t : Transaction} (hstate : t.state = .growing)
    (hwrites : t.writes = []) (hlocks : t.locks = {}) : Arrived db (mid.addTxn t) := by
  have hself : (mid.addTxn t).txn db.nextHandle = t := by
    have hnext : db.nextHandle = mid.nextHandle := by simp [nextHandle, hu.transactions]
    rw [hnext, txn_addTxn_self]
  refine ⟨?_, ?_, ?_, ?_, ?_, hu.locks, hu.gaps, hu.catalog⟩
  · simp [addTxn, hu.transactions]
  · intro h hlt
    simp [Database.txn, addTxn, hu.transactions, Array.getElem?_push, Nat.ne_of_lt hlt]
  · rw [isActive, hself, hstate]
    rfl
  · rw [hself, hwrites]
  · rw [hself, hlocks]

theorem adopt_spec (db : Database) (id : TxnId) : Arrived db (db.adopt id).2 :=
  .of_addTxn (.refl db) rfl rfl rfl

/-- A transaction that is refused a record in the log does not begin. -/
theorem begin_ends (db : Database) :
    begin.Ends db (fun h db' => h = db.nextHandle ∧ Arrived db db')
      fun error db' => Untouched db db' ∧ (StatementError.transaction error).isLogFailure = true := by
  simp only [begin, Action.ends_bind, Action.ends_get]
  generalize db.log.append db.nextTxn 0 .begin (.control db.clock) = appended
  obtain ⟨result, log⟩ := appended
  simp only [Action.ends_set, Action.ends_mapError]
  cases result with
  | error error => exact ⟨⟨rfl, rfl, rfl, rfl⟩, rfl⟩
  | ok lsn =>
    simp only [Action.ends_ofExcept_ok, Action.ends_modify, Action.ends_pure]
    have hregistered : Untouched db { db with
        log, nextTxn := db.nextTxn + 1, active := db.active.insert db.nextTxn db.nextHandle } :=
      ⟨rfl, rfl, rfl, rfl⟩
    exact ⟨rfl, .of_addTxn hregistered rfl rfl rfl⟩

/-- What a transaction leaves behind that has let go of everything. -/
structure LeftBehind (h : Handle) (db db' : Database) : Prop where
  lt : h < db.transactions.size
  size : db'.transactions.size = db.transactions.size
  txn : ∀ h', h ≠ h' → db'.txn h' = db.txn h'
  id : (db'.txn h).id = (db.txn h).id
  writes : (db'.txn h).writes = []
  lockSet : (db'.txn h).locks = {}
  locks : db'.locks = db.locks.releaseAll (db.txn h).id (db.txn h).locks.toList
  gaps : db'.gaps = db.gaps.release (db.txn h).id
  catalog : db'.catalog = db.catalog

theorem txn_releaseAll (hlt : h < db.transactions.size) :
    (db.releaseAll h).txn h = { db.txn h with locks := {} } :=
  txn_updateTxn_self
    ({ db with locks := db.locks.releaseAll (db.txn h).id (db.txn h).locks.toList } : Database) _ hlt

theorem txn_letGo (hlt : h < db.transactions.size) :
    (db.letGo h).txn h = { db.txn h with writes := [], locks := {} } := by
  have hlt' : h < (db.updateTxn h fun t => { t with writes := [] }).transactions.size := by
    simpa [updateTxn] using hlt
  show ((db.updateTxn h fun t => { t with writes := [] }).releaseAll h).txn h = _
  rw [txn_releaseAll hlt', txn_updateTxn_self db (fun t => { t with writes := [] }) hlt]

theorem letGo_spec (hlt : h < db.transactions.size) : LeftBehind h db (db.letGo h) := by
  have hself := txn_letGo hlt
  have hwrites := txn_updateTxn_self db (fun t => { t with writes := [] }) hlt
  refine ⟨hlt, by simp [letGo, releaseGaps, releaseAll, updateTxn], fun h' hne => ?_, by rw [hself],
    by rw [hself], by rw [hself], ?_, ?_, rfl⟩
  · show ((db.updateTxn h fun t => { t with writes := [] }).releaseAll h).txn h' = _
    rw [releaseAll, txn_updateTxn_of_ne _ _ hne]
    exact txn_updateTxn_of_ne db _ hne
  · show db.locks.releaseAll ((db.updateTxn h fun t => { t with writes := [] }).txn h).id
      ((db.updateTxn h fun t => { t with writes := [] }).txn h).locks.toList = _
    rw [hwrites]
  · show db.gaps.release
      (((db.updateTxn h fun t => { t with writes := [] }).releaseAll h).txn h).id = _
    have hid : ((db.updateTxn h fun t => { t with writes := [] }).releaseAll h).txn h =
        (db.letGo h).txn h := rfl
    rw [hid, hself]

/-- What is logged afterwards changes nothing of what is left. -/
theorem LeftBehind.logged (hl : LeftBehind h db mid) (hlog : Logged h mid db') : LeftBehind h db db' where
  lt := hl.lt
  size := hlog.size.trans hl.size
  txn := fun h' hne => (hlog.txn h' hne).trans (hl.txn h' hne)
  id := hlog.id.trans hl.id
  writes := hlog.writes.trans hl.writes
  lockSet := hlog.lockSet.trans hl.lockSet
  locks := hlog.locks.trans hl.locks
  gaps := hlog.gaps.trans hl.gaps
  catalog := hlog.catalog.trans hl.catalog

/-- A transaction that has let go ends in its last state, unless the log refuses the record of the end.
-/
theorem finish_ends (hl : LeftBehind h db mid) (kind : RecordKind) (state : TransactionState) :
    (finish h kind state).Ends mid
      (fun _ db' => LeftBehind h db db' ∧ (db'.txn h).state = state)
      fun error db' => LeftBehind h db db' ∧
        (StatementError.transaction error).isLogFailure = true := by
  simp only [finish, Action.ends_bind, Action.ends_get, Action.ends_mapError]
  refine (logRecord_ends h kind _ mid).mono ?_ fun _ db' hlog => ⟨hl.logged hlog, rfl⟩
  rintro _ db' hlog
  have hleft := hl.logged hlog
  have hlt : h < db'.transactions.size := by rw [hleft.size]; exact hl.lt
  rw [Action.ends_modify]
  have hself := txn_updateTxn_self
    ({ db' with log := db'.log.flush, active := db'.active.erase (db'.txn h).id } : Database)
    (fun t => { t with state }) hlt
  refine ⟨⟨hl.lt, ?_, fun h' hne => ?_, ?_, ?_, ?_, hleft.locks, hleft.gaps, hleft.catalog⟩, ?_⟩
  · simpa [setState, updateTxn] using hleft.size
  · rw [setState, txn_updateTxn_of_ne _ _ hne]
    exact hleft.txn h' hne
  · rw [setState, hself]
    exact hleft.id
  · rw [setState, hself]
    exact hleft.writes
  · rw [setState, hself]
    exact hleft.lockSet
  · rw [setState, hself]

/-- A commit is refused, or lets go and ends. -/
theorem commit_ends_of {Q : Unit → Database → Prop} {E : TransactionError → Database → Prop}
    (hrefused : db.isActive h = false → E (.finished (db.txn h).id) db)
    (hfinish : db.isActive h = true → (finish h .commit .committed).Ends (db.letGo h) Q E) :
    (commit h).Ends db Q E := by
  simp only [commit, Action.ends_bind]
  refine (ensureActive_ends h db).mono ?_ ?_
  · rintro _ db ⟨rfl, hactive⟩
    rw [Action.ends_modify]
    exact hfinish hactive
  · rintro error db ⟨rfl, hstop, rfl⟩
    exact hrefused hstop.inactive

/-- A commit goes through for an active transaction, and then fails only in the log. -/
theorem commit_ends (h : Handle) (db : Database) :
    (commit h).Ends db
      (fun _ db' => db.isActive h = true ∧ LeftBehind h db db' ∧ (db'.txn h).state = .committed)
      fun error db' => (db' = db ∧ db.isActive h = false ∧ error = .finished (db.txn h).id) ∨
        (LeftBehind h db db' ∧ (StatementError.transaction error).isLogFailure = true) := by
  refine commit_ends_of (fun hinactive => .inl ⟨rfl, hinactive, rfl⟩) fun hactive => ?_
  refine (finish_ends (letGo_spec (lt_of_isActive hactive)) .commit .committed).mono ?_ ?_
  · rintro _ db' ⟨hleft, hstate⟩
    exact ⟨hactive, hleft, hstate⟩
  · rintro error db' hleft
    exact .inr hleft

/-- The database in which a transaction's writes have been taken back as far as they could be. -/
def rolledBack (db : Database) (h : Handle) (left : List WriteRecord) (catalog : Catalog) : Database :=
  ({ db with catalog } : Database).updateTxn h fun t => { t with writes := left }

theorem txn_rolledBack (hlt : h < db.transactions.size) (left : List WriteRecord) (catalog : Catalog) :
    (db.rolledBack h left catalog).txn h = { db.txn h with writes := left } :=
  txn_updateTxn_self ({ db with catalog } : Database) _ hlt

theorem keeps_rolledBack (h : Handle) (db : Database) (left : List WriteRecord) (catalog : Catalog) :
    Keeps h db (db.rolledBack h left catalog) := by
  have hcatalog : Keeps h db { db with catalog } := .of_eq h rfl rfl rfl
  unfold rolledBack
  exact hcatalog.trans (.updateTxn h _ (fun _ => rfl) fun _ => rfl)

/-- An abort is refused, gets stuck at a write, or takes back all writes, lets go and ends. -/
theorem abort_ends_of {Q : Unit → Database → Prop} {E : TransactionError → Database → Prop}
    (hrefused : (db.txn h).state = .committed → E (.finished (db.txn h).id) db)
    (hstuck : ∀ error left catalog, h < db.transactions.size →
      db.catalog.undoAll (db.txn h).writes = (.error error, left, catalog) →
      E error (db.rolledBack h left catalog))
    (hfinish : ∀ catalog, h < db.transactions.size →
      db.catalog.undoAll (db.txn h).writes = (.ok (), [], catalog) →
      (finish h .abort .aborted).Ends ((db.rolledBack h [] catalog).letGo h) Q E) :
    (abort h).Ends db Q E := by
  simp only [abort, Action.ends_bind, Action.ends_get]
  split
  · rename_i hcommitted
    exact hrefused hcommitted
  · rename_i hgoing
    have hlt : h < db.transactions.size := by
      by_contra hge
      exact hgoing (by simp [Database.txn, hge])
    simp only [rollback, Action.ends_bind, Action.ends_get]
    cases hundo : db.catalog.undoAll (db.txn h).writes with
    | mk result rest =>
      obtain ⟨left, catalog⟩ := rest
      simp only [Action.ends_set]
      cases result with
      | error error => exact hstuck error left catalog hlt hundo
      | ok _ =>
        obtain rfl := Catalog.undoAll_left hundo
        simp only [Action.ends_ofExcept_ok, Action.ends_modify]
        exact hfinish catalog hlt hundo

/-- An abort takes back all writes before anything is let go of, and fails after that only in the log;
if a write cannot be taken back, nothing is let go of. -/
theorem abort_ends (h : Handle) (db : Database) :
    (abort h).Ends db
      (fun _ db' => h < db.transactions.size ∧ ∃ catalog,
        db.catalog.undoAll (db.txn h).writes = (.ok (), [], catalog) ∧
        LeftBehind h (db.rolledBack h [] catalog) db' ∧ (db'.txn h).state = .aborted)
      fun error db' =>
        (db' = db ∧ (db.txn h).state = .committed ∧ error = .finished (db.txn h).id) ∨
        (h < db.transactions.size ∧ ∃ left catalog,
          db.catalog.undoAll (db.txn h).writes = (.error error, left, catalog) ∧
          db' = db.rolledBack h left catalog) ∨
        (h < db.transactions.size ∧ ∃ catalog,
          db.catalog.undoAll (db.txn h).writes = (.ok (), [], catalog) ∧
          LeftBehind h (db.rolledBack h [] catalog) db' ∧
          (StatementError.transaction error).isLogFailure = true) := by
  refine abort_ends_of (fun hcommitted => .inl ⟨rfl, hcommitted, rfl⟩)
    (fun error left catalog hlt hundo => .inr (.inl ⟨hlt, left, catalog, hundo, rfl⟩))
    fun catalog hlt hundo => ?_
  have hlt' : h < (db.rolledBack h [] catalog).transactions.size := by
    simpa [rolledBack, updateTxn] using hlt
  refine (finish_ends (letGo_spec hlt') .abort .aborted).mono ?_ ?_
  · rintro _ db' ⟨hleft, hstate⟩
    exact ⟨hlt, catalog, hundo, hleft, hstate⟩
  · rintro error db' ⟨hleft, hlog⟩
    exact .inr (.inr ⟨hlt, catalog, hundo, hleft, hlog⟩)

end Database

end NoWait
