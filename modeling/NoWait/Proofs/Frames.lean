import Mathlib.Order.Defs.Unbundled
import NoWait.Proofs.Calls

/-!
# What leaves the log and the tables alone

Most of what a transaction does on its way to a row touches neither the log nor the tables, however it
ends, and nothing but writing a row touches the tables.

* `Action.Within` says that an action, however it ends, leaves a database that is related to the one that
  it finds; actions that are composed of such actions are such actions;
* `LockFrame` and `GapFrame` are the relations that take no notice of locks, and of gaps: requests for
  locks, reads and scans keep them all;
* `Database.SameLog`, `Database.SameStore` and `Database.SameTables` are such relations about the log and
  the tables; entering a write keeps the tables;
* `Session.step_sameStore` says which calls keep both.
-/

namespace NoWait

/-! ### Related databases -/

namespace Action

variable {ε ε' α β : Type} {action : Action ε α} {R R' : Database → Database → Prop}

/-- Whether an action leaves a database that is related to the one that it finds, however it ends. -/
def Within (action : Action ε α) (R : Database → Database → Prop) : Prop :=
  ∀ db, action.Ends db (fun _ db' => R db db') fun _ db' => R db db'

theorem Within.mono (h : action.Within R) (hR : ∀ db db', R db db' → R' db db') : action.Within R' :=
  fun db => (h db).mono (fun _ db' => hR db db') fun _ db' => hR db db'

theorem Within.mapError (h : action.Within R) (f : ε → ε') : (action.mapError f).Within R :=
  fun db => ends_mapError.mpr (h db)

theorem within_modify {change : Database → Database} (h : ∀ db, R db (change db)) :
    (modify change : Action ε PUnit).Within R := h

/-- What comes after such an action begins with a related database. -/
theorem Within.bind_ends {next : α → Action ε β} {db : Database} {ok : β → Database → Prop}
    {err : ε → Database → Prop} (h : action.Within R)
    (hnext : ∀ value mid, R db mid → (next value).Ends mid ok err)
    (herr : ∀ error mid, R db mid → err error mid) : (action >>= next).Ends db ok err :=
  ends_bind.mpr ((h db).mono (fun value mid hmid => hnext value mid hmid) herr)

variable [IsPreorder Database R]

theorem within_pure (value : α) : (pure value : Action ε α).Within R := refl_of R

theorem within_throw (error : ε) : (throw error : Action ε α).Within R := refl_of R

theorem within_get : (get : Action ε Database).Within R := refl_of R

theorem within_ofExcept (result : Except ε α) : (ofExcept result).Within R := by
  cases result with
  | ok value => exact within_pure value
  | error error => exact within_throw error

theorem Within.bind {next : α → Action ε β} (h : action.Within R) (hnext : ∀ value, (next value).Within R) :
    (action >>= next).Within R := by
  intro db
  rw [ends_bind]
  refine (h db).mono (fun value mid hmid => ?_) fun _ _ hmid => hmid
  exact (hnext value mid).mono (fun _ _ => trans_of R hmid) fun _ _ => trans_of R hmid

end Action

/-- The numbers of a transaction's first and last record in the log. -/
def Transaction.span (txn : Transaction) : Lsn × Lsn := (txn.firstLsn, txn.lastLsn)

namespace Database

/-- Whether a database has the log of another, and every transaction has the same records there. -/
structure SameLog (db db' : Database) : Prop where
  log : db'.log = db.log
  span : ∀ h, (db'.txn h).span = (db.txn h).span

/-- Whether a database has the log and the tables of another. -/
structure SameStore (db db' : Database) : Prop extends SameLog db db' where
  catalog : db'.catalog = db.catalog

/-- Whether a database has the tables of another. -/
def SameTables (db db' : Database) : Prop := db'.catalog = db.catalog

instance : IsPreorder Database SameLog where
  refl _ := ⟨rfl, fun _ => rfl⟩
  trans _ _ _ h h' := ⟨h'.log.trans h.log, fun i => (h'.span i).trans (h.span i)⟩

instance : IsPreorder Database SameStore where
  refl _ := ⟨refl_of SameLog _, rfl⟩
  trans _ _ _ h h' := ⟨trans_of SameLog h.toSameLog h'.toSameLog, h'.catalog.trans h.catalog⟩

instance : IsPreorder Database SameTables where
  refl _ := rfl
  trans _ _ _ h h' := h'.trans h

/-- What changes neither the log nor the tables nor a transaction keeps log and tables. -/
theorem SameStore.of_eq {db db' : Database} (hlog : db'.log = db.log)
    (htxns : db'.transactions = db.transactions) (hcatalog : db'.catalog = db.catalog) :
    db.SameStore db' :=
  ⟨⟨hlog, fun h => by rw [txn, txn, htxns]⟩, hcatalog⟩

/-- A transaction may change anything of its own but its place in the log. -/
theorem SameStore.updateTxn (db : Database) (h : Handle) (change : Transaction → Transaction)
    (hspan : ∀ t, (change t).span = t.span) : db.SameStore (db.updateTxn h change) := by
  refine ⟨⟨rfl, fun h' => ?_⟩, rfl⟩
  by_cases hh : h = h'
  · subst hh
    by_cases hlt : h < db.transactions.size
    · rw [txn_updateTxn_self db change hlt, hspan]
    · simp [txn, Database.updateTxn, hlt]
  · rw [txn_updateTxn_of_ne db change hh]

/-! ### Locks, gaps and access to the rows -/

/-- Whether databases stay related when a transaction gets a lock, or is marked aborted because it has not
got one. -/
class LockFrame (R : Database → Database → Prop) : Prop extends IsPreorder Database R where
  locks : ∀ db locks, R db { db with locks }
  addLock : ∀ db h resource, R db (db.updateTxn h (·.addLock resource))
  refused : ∀ db h, R db (db.setState h .aborted)

/-- Whether databases stay related, besides, when a transaction gets a gap. -/
class GapFrame (R : Database → Database → Prop) : Prop extends LockFrame R where
  gaps : ∀ db table gap gaps, db.gaps.lock? table gap = some gaps → R db { db with gaps }

instance : GapFrame SameStore where
  locks _ _ := .of_eq rfl rfl rfl
  addLock db h resource := .updateTxn db h (·.addLock resource) fun _ => rfl
  refused db h := .updateTxn db h _ fun _ => rfl
  gaps _ _ _ _ _ := .of_eq rfl rfl rfl

section LockFrame

variable {R : Database → Database → Prop} [LockFrame R]

theorem ensureActive_frame (h : Handle) : (ensureActive h).Within R := by
  refine Action.within_get.bind fun db => ?_
  simp only
  split
  · exact Action.within_throw _
  · exact Action.within_pure _

theorem refuse_frame {α : Type} (h : Handle) (reason : AbortReason) :
    (refuse h reason : Action TransactionError α).Within R :=
  Action.within_get.bind fun _ =>
    (Action.within_modify fun db => LockFrame.refused db h).bind fun _ => Action.within_throw _

theorem lockResource_frame (h : Handle) (resource : Resource) (mode : Mode) :
    (lockResource h resource mode).Within R := by
  intro db
  simp only [lockResource, Action.ends_bind, Action.ends_get]
  cases db.locks.request (db.txn h).id resource mode with
  | error reason => exact refuse_frame h reason db
  | ok locks =>
    simp only [Action.ends_bind, Action.ends_set]
    have hlocks : R db { db with locks } := LockFrame.locks db locks
    split
    · rw [Action.ends_modify]
      exact trans_of R hlocks (LockFrame.addLock _ h resource)
    · exact hlocks

theorem acquire_frame (h : Handle) (resource : Resource) (mode : Mode) :
    (acquire h resource mode).Within R := by
  refine (ensureActive_frame h).bind fun _ => ?_
  cases resource with
  | table id => exact lockResource_frame h (.table id) mode
  | record id rid =>
    simp only
    split
    · exact (Action.within_throw _).bind fun _ => (lockResource_frame h _ _).bind fun _ =>
        lockResource_frame h _ _
    · exact (lockResource_frame h _ _).bind fun _ => lockResource_frame h _ _

theorem checkGap_frame (h : Handle) (table : TableId) (position : Position) :
    (checkGap h table position).Within R := by
  refine (ensureActive_frame h).bind fun _ => Action.within_get.bind fun db => ?_
  split
  · exact refuse_frame h _
  · exact Action.within_pure _

theorem table_frame (name : String) : (table name).Within R := by
  refine Action.within_get.bind fun db => ?_
  split
  · exact Action.within_pure _
  · exact Action.within_throw _

theorem rowAt_frame (name : String) (rid : Rid) : (rowAt name rid).Within R :=
  (table_frame name).bind fun _ => (Action.within_ofExcept _).mapError _

theorem lockRow_frame (h : Handle) (name : String) (rid : Rid) (mode : Mode) :
    (lockRow h name rid mode).Within R :=
  (table_frame name).bind fun _ => (acquire_frame h _ mode).mapError _

theorem read_frame (h : Handle) (name : String) (rid : Rid) : (read h name rid).Within R :=
  (lockRow_frame h name rid _).bind fun _ => rowAt_frame name rid

end LockFrame

section GapFrame

variable {R : Database → Database → Prop} [GapFrame R]

theorem lockGap_frame (h : Handle) (table : TableId) (start stop : Position) :
    (lockGap h table start stop).Within R := by
  refine (ensureActive_frame h).bind fun _ db => ?_
  simp only [Action.ends_bind, Action.ends_get]
  split
  · rename_i gaps hlock
    exact GapFrame.gaps db _ _ gaps hlock
  · exact refl_of R db

theorem lockRange_frame (h : Handle) (name : String) (range : KeyRange) :
    (lockRange h name range).Within R := by
  refine (table_frame name).bind fun table => ?_
  have hrest : (do
      let granted ← (lockGap h table.id range.start range.stop).mapError .transaction
      if !granted then (refuse h .gapConflict).mapError .transaction
      return (range.start, range.stop) : Action StatementError (Position × Position)).Within R := by
    refine ((lockGap_frame h _ _ _).mapError _).bind fun granted => ?_
    split
    · exact ((refuse_frame h _).mapError _).bind fun _ => Action.within_pure _
    · exact Action.within_pure _
  split
  · exact (Action.within_throw _).bind fun _ => hrest
  · exact hrest

end GapFrame

theorem acquire_within (h : Handle) (resource : Resource) (mode : Mode) :
    (acquire h resource mode).Within SameStore := acquire_frame h resource mode

theorem table_within (name : String) : (table name).Within SameStore := table_frame name

theorem rowAt_within (name : String) (rid : Rid) : (rowAt name rid).Within SameStore := rowAt_frame name rid

theorem lockRow_within (h : Handle) (name : String) (rid : Rid) (mode : Mode) :
    (lockRow h name rid mode).Within SameStore := lockRow_frame h name rid mode

theorem read_within (h : Handle) (name : String) (rid : Rid) : (read h name rid).Within SameStore :=
  read_frame h name rid

/-- What comes after a gap may have been checked begins with the same log and the same tables. -/
theorem checkKey_bind_ends {α : Type} (h : Handle) (table : TableId) (key? : Option Bytes) {db : Database}
    {next : Action StatementError α} {ok : α → Database → Prop} {err : StatementError → Database → Prop}
    (hnext : ∀ mid, db.SameStore mid → next.Ends mid ok err)
    (herr : ∀ error mid, db.SameStore mid → err (.transaction error) mid) :
    (do
      if let some key := key? then (checkGap h table (.before key)).mapError .transaction
      next : Action StatementError α).Ends db ok err := by
  cases key? with
  | none => exact hnext db (refl_of SameStore db)
  | some key =>
    rw [Action.ends_bind, Action.ends_mapError]
    exact (checkGap_frame h _ _ db).mono (fun _ mid hmid => hnext mid hmid) herr

/-- A statement that may check a gap first. -/
theorem checkKey_within {α : Type} {R : Database → Database → Prop} [IsPreorder Database R]
    (hR : ∀ db db', SameStore db db' → R db db') (h : Handle) (table : TableId) (key? : Option Bytes)
    {next : Action StatementError α} (hnext : next.Within R) :
    (do
      if let some key := key? then (checkGap h table (.before key)).mapError .transaction
      next : Action StatementError α).Within R := by
  refine fun db => checkKey_bind_ends h table key? (fun mid hmid => ?_) fun _ mid hmid => hR db mid hmid
  exact (hnext mid).mono (fun _ _ => trans_of R (hR db mid hmid)) fun _ _ => trans_of R (hR db mid hmid)

end Database

open Database

/-! ### Scans -/

namespace Scan

variable {R : Database → Database → Prop}

theorem positions_frame [GapFrame R] (scan : Scan) : scan.positions.Within R := by
  unfold positions
  split
  · refine (table_frame _).bind fun table => ((acquire_frame _ _ _).mapError _).bind fun _ => ?_
    exact (table_frame _).bind fun _ => Action.within_pure _
  · refine (lockRange_frame _ _ _).bind fun ends => (table_frame _).bind fun table => ?_
    split
    · exact Action.within_pure _
    · exact Action.within_throw _

theorem visit_frame [LockFrame R] (scan : Scan) (rid : Rid) : (scan.visit rid).Within R := by
  unfold visit
  split
  · exact (rowAt_frame _ _).bind fun _ => Action.within_pure _
  · refine (lockRow_frame _ _ _ _).bind fun _ => (table_frame _).bind fun table => ?_
    split
    · exact Action.within_pure _
    · exact Action.within_pure _
    · exact Action.within_throw _

/-- Handing out a tuple leaves a related database, however many positions are visited on the way. -/
theorem nextFrom_frame [LockFrame R] (scan : Scan) (db : Database) (pending : List Rid) :
    match scan.nextFrom db pending with
    | .ok _ (db', _) => R db db'
    | .error _ (db', _) => R db db' := by
  induction pending generalizing db with
  | nil => exact refl_of R db
  | cons rid rest ih =>
    have hvisit := visit_frame (R := R) scan rid db
    unfold Action.Ends at hvisit
    unfold nextFrom
    cases hrun : scan.visit rid db with
    | error error mid =>
      rw [hrun] at hvisit
      exact hvisit
    | ok row mid =>
      rw [hrun] at hvisit
      cases row with
      | some row => exact hvisit
      | none =>
        have hrest := ih mid
        show match scan.nextFrom mid rest with
          | .ok _ (db', _) => R db db'
          | .error _ (db', _) => R db db'
        cases hnext : scan.nextFrom mid rest with
        | ok tuple last =>
          rw [hnext] at hrest
          exact trans_of R hvisit hrest
        | error error last =>
          rw [hnext] at hrest
          exact trans_of R hvisit hrest

end Scan

/-! ### Writes, beginnings and ends -/

namespace Database

/-- A transaction that has been taken in has no record in the log yet. -/
theorem span_adopt (db : Database) (id : TxnId) (h : Handle) :
    ((db.adopt id).2.txn h).span = (db.txn h).span := by
  rcases Nat.lt_trichotomy h db.transactions.size with hlt | rfl | hgt
  · rw [(adopt_spec db id).txn h hlt]
  · simp [adopt, addTxn, txn, Transaction.span]
  · have hne : h ≠ db.transactions.size := Nat.ne_of_gt hgt
    have hge : db.transactions.size ≤ h := Nat.le_of_lt hgt
    simp [adopt, addTxn, txn, Array.getElem?_push, hne, hge]

theorem release_sameStore (db : Database) (h : Handle) (resource : Resource) :
    db.SameStore (db.release h resource) := by
  have hlocks : db.SameStore { db with locks := db.locks.release (db.txn h).id resource } :=
    .of_eq rfl rfl rfl
  exact trans_of SameStore hlocks (.updateTxn _ h (·.removeLock resource) fun _ => rfl)

theorem releaseAll_sameStore (db : Database) (h : Handle) : db.SameStore (db.releaseAll h) := by
  have hlocks : db.SameStore
      { db with locks := db.locks.releaseAll (db.txn h).id (db.txn h).locks.toList } := .of_eq rfl rfl rfl
  exact trans_of SameStore hlocks (.updateTxn _ h (fun t => { t with locks := {} }) fun _ => rfl)

theorem SameStore.sameTables {db db' : Database} (h : db.SameStore db') : db.SameTables db' := h.catalog

/-- Entering a write touches the log alone. -/
theorem enterWrite_within (h : Handle) (write : WriteRecord) (after : Option Bytes) :
    (enterWrite h write after).Within SameTables := by
  refine ((table_within write.table).mono fun _ _ => SameStore.sameTables).bind fun table => ?_
  have hadd : (addWrite h write).Within SameTables :=
    ((ensureActive_frame h).mono fun _ _ => SameStore.sameTables).bind fun _ =>
      Action.within_modify fun _ => rfl
  refine (hadd.mapError _).bind fun _ => Action.Within.mapError (fun db => ?_) _
  exact (logRecord_ends h _ _ db).mono (fun _ _ hlogged => hlogged.catalog) fun _ _ hlogged =>
    hlogged.catalog

theorem begin_within : begin.Within SameTables :=
  fun db => (begin_ends db).mono (fun _ _ hbegun => hbegun.2.catalog) fun _ _ hrefused =>
    hrefused.1.catalog

theorem commit_within (h : Handle) : (commit h).Within SameTables := by
  refine fun db => (commit_ends h db).mono (fun _ _ hcommitted => hcommitted.2.1.catalog) ?_
  rintro _ db' (⟨rfl, _⟩ | ⟨hleft, _⟩)
  · exact refl_of SameTables _
  · exact hleft.catalog

end Database

/-! ### Calls -/

/-- Whether a call comes nowhere near the log and the tables. -/
def Call.isSparing : Call → Bool
  | .run _ (.read ..) | .run _ (.acquire ..) => true
  | .run .. | .begin | .commit _ | .abort _ => false
  | .adopt _ | .lockGap .. | .checkGap .. | .lockRange .. | .openScan .. | .initScan _ | .nextScan _
  | .release .. | .releaseAll _ | .releaseGaps _ => true

namespace Session

variable {s : Session}

theorem act_within {R : Database → Database → Prop} {action : Action StatementError Answer}
    (h : action.Within R) : R s.db (s.act action).2.db :=
  act_spec (P := fun _ db' => R s.db db') (h s.db)

theorem giveUp_frame {R : Database → Database → Prop} [IsPreorder Database R] (h : Handle)
    {change : Database → Database} (hchange : R s.db (change s.db)) :
    R s.db (s.giveUp h change).2.db := by
  unfold giveUp
  split
  · exact hchange
  · exact refl_of R s.db

theorem initScan_frame {R : Database → Database → Prop} [GapFrame R] (s : Session) (i : Nat) :
    R s.db (s.step (.initScan i)).2.db := by
  cases hscan : s.scans[i]? with
  | none =>
    rw [show s.step (.initScan i) = (.ok .done, s) from actOnScan_of_none hscan _]
    exact refl_of R s.db
  | some scan =>
    have hends := scan.positions_frame (R := R) s.db
    unfold Action.Ends at hends
    rw [step_initScan hscan]
    cases hrun : scan.positions s.db with
    | ok pending db' =>
      rw [hrun] at hends
      exact hends
    | error error db' =>
      rw [hrun] at hends
      exact hends

theorem nextScan_frame {R : Database → Database → Prop} [LockFrame R] (s : Session) (i : Nat) :
    R s.db (s.step (.nextScan i)).2.db := by
  cases hscan : s.scans[i]? with
  | none =>
    rw [show s.step (.nextScan i) = (.ok .done, s) from actOnScan_of_none hscan _]
    exact refl_of R s.db
  | some scan =>
    have hnext := scan.nextFrom_frame (R := R) s.db scan.pending
    rw [step_nextScan hscan]
    cases hrun : scan.nextFrom s.db scan.pending with
    | ok tuple last =>
      rw [hrun] at hnext
      exact hnext
    | error error last =>
      rw [hrun] at hnext
      exact hnext

/-- Sparing calls keep the log and the tables. -/
theorem step_sameStore {call : Call} (hcall : call.isSparing = true) :
    s.db.SameStore (s.step call).2.db := by
  cases call with
  | begin => cases hcall
  | commit h => cases hcall
  | abort h => cases hcall
  | run h statement =>
    cases statement with
    | insert name row => cases hcall
    | update name rid row => cases hcall
    | delete name rid => cases hcall
    | read name rid => exact act_within ((read_within h name rid).bind fun _ => Action.within_pure _)
    | acquire resource mode =>
      exact act_within (((acquire_within h resource mode).mapError _).bind fun _ =>
        Action.within_pure _)
  | adopt id => exact ⟨⟨rfl, span_adopt s.db id⟩, rfl⟩
  | lockGap h table start stop =>
    exact act_within (((lockGap_frame h _ _ _).mapError _).bind fun _ => Action.within_pure _)
  | checkGap h table position =>
    exact act_within (((checkGap_frame h _ _).mapError _).bind fun _ => Action.within_pure _)
  | lockRange h table range =>
    exact act_within ((lockRange_frame h _ _).bind fun _ => Action.within_pure _)
  | openScan owner table plan => exact refl_of SameStore s.db
  | initScan i => exact s.initScan_frame i
  | nextScan i => exact s.nextScan_frame i
  | release h resource => exact giveUp_frame h (release_sameStore s.db h resource)
  | releaseAll h => exact giveUp_frame h (releaseAll_sameStore s.db h)
  | releaseGaps h => exact giveUp_frame h (.of_eq rfl rfl rfl)

end Session

end NoWait
