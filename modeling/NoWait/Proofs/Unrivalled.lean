import NoWait.Proofs.Finished

/-!
# A transaction that nobody rivals is not refused

A request is refused for what others hold and for nothing else.  Where only one transaction holds anything, its
requests for locks and gaps are granted, so nothing marks it aborted.

* `Database.Unrivalled` says that nobody but a transaction holds a lock or a gap; `Keeps.unrivalled` that it
  stays so whatever the transaction does before it ends;
* `Calm` is what a transaction does without being stopped, and `Action.Undisturbed` says of an action that it
  is calm, and does not fail with a refusal, for a transaction that nobody rivals or that cannot go on;
* `acquire_undisturbed`, `lockRange_undisturbed`, `Statement.perform_undisturbed` and the like say so of all
  that a transaction can ask for, and `Session.step_undisturbed` of all calls on its behalf.
-/

namespace NoWait

open Database

namespace Database

variable {h : Handle} {db mid db' : Database}

/-! ### Nothing but what one transaction holds -/

/-- Whether nobody but a transaction holds a lock or a gap. -/
structure Unrivalled (db : Database) (h : Handle) : Prop where
  modes : ∀ other r, (db.txn h).id ≠ other → db.locks.heldMode other r = none
  gaps : ∀ entry ∈ db.gaps.entries, entry.2.txn = (db.txn h).id

/-- Whatever a transaction does before it ends, nobody else gets anything by it. -/
theorem Keeps.unrivalled (hk : Keeps h db db') (hsole : db.Unrivalled h) : db'.Unrivalled h where
  modes := by
    intro other r hne
    rw [hk.id] at hne
    rw [hk.modes other r hne, hsole.modes other r hne]
  gaps := by
    intro entry hmem
    rw [hk.id]
    by_contra hne
    exact hne (hsole.gaps entry (hk.otherGaps entry hmem hne))

namespace Unrivalled

/-- Every request in a queue is the transaction's. -/
theorem requests (hsole : db.Unrivalled h) (r : Resource) :
    ∀ request ∈ db.locks.requests r, request.txn = (db.txn h).id := by
  intro request hmem
  by_contra hne
  exact Queue.heldMode_eq_none_iff.mp (hsole.modes request.txn r (Ne.symm hne)) request hmem rfl

theorem lockedByOther (hsole : db.Unrivalled h) (r : Resource) :
    db.locks.lockedByOther (db.txn h).id r = false := by
  rw [Bool.eq_false_iff]
  intro hother
  obtain ⟨request, hmem, hne⟩ := List.any_eq_true.mp hother
  exact of_decide_eq_true hne (hsole.requests r request hmem)

/-- Every request for a lock is granted. -/
theorem exists_request (hsole : db.Unrivalled h) (r : Resource) (mode : Mode) :
    ∃ locks, db.locks.request (db.txn h).id r mode = .ok locks := by
  have hfree : ∀ mode, (db.locks.queue r).conflicts (db.txn h).id mode = false := fun mode =>
    Queue.not_conflicts_iff.mpr fun request hmem _ hne => absurd (hsole.requests r request hmem) hne
  simp only [LockTable.request, hfree]
  split
  · split
    · exact ⟨_, rfl⟩
    · exact ⟨_, rfl⟩
  · exact ⟨_, rfl⟩

/-- No position is blocked. -/
theorem blocks (hsole : db.Unrivalled h) (table : TableId) (position : Position) :
    db.gaps.blocks (db.txn h).id table position = false := by
  rw [Bool.eq_false_iff]
  intro hblocks
  obtain ⟨gap, hmem, hne, -⟩ := GapTable.blocks_iff.mp hblocks
  exact hne (hsole.gaps _ hmem)

/-- Every request for a gap is granted. -/
theorem exists_lock? (hsole : db.Unrivalled h) (table : TableId) (start stop : Position) :
    ∃ gaps, db.gaps.lock? table { txn := (db.txn h).id, start, stop } = some gaps := by
  refine ⟨_, if_neg fun hany => ?_⟩
  obtain ⟨gap, hmem, hheld⟩ := List.any_eq_true.mp hany
  obtain ⟨entry, hentry, heq⟩ := List.mem_filterMap.mp hmem
  split at heq
  · cases heq
    simp [hsole.gaps entry hentry] at hheld
  · cases heq

end Unrivalled

/-! ### Calm steps -/

/-- What a transaction does before it ends without being stopped. -/
structure Calm (h : Handle) (db db' : Database) : Prop extends Keeps h db db' where
  state : (db'.txn h).state = (db.txn h).state

namespace Calm

theorem refl (h : Handle) (db : Database) : Calm h db db := ⟨.refl h db, rfl⟩

theorem trans (hc : Calm h db mid) (hc' : Calm h mid db') : Calm h db db' :=
  ⟨hc.toKeeps.trans hc'.toKeeps, hc'.state.trans hc.state⟩

theorem isActive_eq (hc : Calm h db db') : db'.isActive h = db.isActive h := by
  rw [isActive, hc.state, isActive]

/-- Who was unrivalled, if he could go on, is so after a calm step. -/
theorem unrivalled (hc : Calm h db db') (hsole : db.isActive h = true → db.Unrivalled h) :
    db'.isActive h = true → db'.Unrivalled h :=
  fun hactive => hc.toKeeps.unrivalled (hsole (hc.isActive_eq ▸ hactive))

/-- A calm step marks nobody aborted. -/
theorem state_eq (hc : Calm h db db') (h' : Handle) : (db'.txn h').state = (db.txn h').state := by
  by_cases hh : h = h'
  · rw [← hh, hc.state]
  · rw [hc.txn h' hh]

end Calm

theorem Granted.calm (hgranted : Granted h db db') : Calm h db db' := ⟨hgranted.toKeeps, hgranted.state_eq⟩

theorem Logged.calm (hlogged : Logged h db db') : Calm h db db' := ⟨hlogged.keeps, hlogged.state⟩

theorem calm_putTable (h : Handle) (db : Database) (table : Table) : Calm h db (db.putTable table) :=
  ⟨keeps_putTable h db table, rfl⟩

end Database

/-! ### Actions that are not refused -/

namespace Action

variable {ε ε' α β : Type} {action : Action ε α} {db : Database} {h : Handle}
  {reason? : ε → Option AbortReason} {reason?' : ε' → Option AbortReason}

/-- Whether an action is calm and does not fail with a refusal, wherever nobody rivals the transaction, if it
can go on at all. -/
def Undisturbed (action : Action ε α) (h : Handle) (reason? : ε → Option AbortReason) : Prop :=
  ∀ db, (db.isActive h = true → db.Unrivalled h) →
    action.Ends db (fun _ db' => Calm h db db') fun error db' => Calm h db db' ∧ reason? error = none

theorem undisturbed_pure (value : α) : (pure value : Action ε α).Undisturbed h reason? :=
  fun db _ => Calm.refl h db

theorem undisturbed_throw {error : ε} (herror : reason? error = none) :
    (throw error : Action ε α).Undisturbed h reason? :=
  fun db _ => ⟨.refl h db, herror⟩

theorem undisturbed_modify {change : Database → Database} (hcalm : ∀ db, Calm h db (change db)) :
    (modify change : Action ε PUnit).Undisturbed h reason? :=
  fun db _ => hcalm db

theorem Undisturbed.mapError (haction : action.Undisturbed h reason?) {f : ε → ε'}
    (hf : ∀ error, reason? error = none → reason?' (f error) = none) :
    (action.mapError f).Undisturbed h reason?' :=
  fun db hsole => ends_mapError.mpr ((haction db hsole).mono (fun _ _ hcalm => hcalm)
    fun error _ ⟨hcalm, herror⟩ => ⟨hcalm, hf error herror⟩)

/-- What comes next begins where nobody rivals the transaction, either. -/
theorem Undisturbed.bind_ends {next : α → Action ε β} (haction : action.Undisturbed h reason?)
    (hsole : db.isActive h = true → db.Unrivalled h)
    (hnext : ∀ value mid, Calm h db mid → (mid.isActive h = true → mid.Unrivalled h) →
      (next value).Ends mid (fun _ db' => Calm h mid db')
        fun error db' => Calm h mid db' ∧ reason? error = none) :
    (action >>= next).Ends db (fun _ db' => Calm h db db')
      fun error db' => Calm h db db' ∧ reason? error = none := by
  rw [ends_bind]
  refine (haction db hsole).mono (fun value mid hcalm => ?_) fun _ _ hfails => hfails
  refine (hnext value mid hcalm (hcalm.unrivalled hsole)).mono (fun _ _ hcalm' => hcalm.trans hcalm') ?_
  rintro _ _ ⟨hcalm', herror⟩
  exact ⟨hcalm.trans hcalm', herror⟩

theorem Undisturbed.bind {next : α → Action ε β} (haction : action.Undisturbed h reason?)
    (hnext : ∀ value, (next value).Undisturbed h reason?) : (action >>= next).Undisturbed h reason? :=
  fun _ hsole => haction.bind_ends hsole fun value mid _ => hnext value mid

theorem Undisturbed.onFailure (haction : action.Undisturbed h reason?) {repair : Database → Database}
    (hcalm : ∀ db, Calm h db (repair db)) : (action.onFailure repair).Undisturbed h reason? :=
  fun db hsole => ends_onFailure.mpr ((haction db hsole).mono (fun _ _ hcalm => hcalm)
    fun _ mid ⟨hcalm', herror⟩ => ⟨hcalm'.trans (hcalm mid), herror⟩)

/-- What is refused to a transaction that cannot go on, for that reason, is to be shown for one that can. -/
theorem undisturbed_of_active
    (hinactive : ∀ db : Database, db.isActive h = false → action.Fails db fun error => reason? error = none)
    (hactive : ∀ db : Database, db.isActive h = true → db.Unrivalled h →
      action.Ends db (fun _ db' => Calm h db db') fun error db' => Calm h db db' ∧ reason? error = none) :
    action.Undisturbed h reason? := by
  intro db hsole
  cases hgoing : db.isActive h with
  | true => exact hactive db hgoing (hsole hgoing)
  | false =>
    refine Ends.mono (hinactive db hgoing) (fun _ _ hfalse => False.elim hfalse) ?_
    rintro _ _ ⟨rfl, herror⟩
    exact ⟨.refl h _, herror⟩

end Action

namespace Database

variable {h : Handle} {db : Database} {name : String} {rid : Rid}

/-! ### Locks and gaps -/

/-- What is no refusal of a lock is none of a statement. -/
theorem undisturbed_transaction {α : Type} {action : Action TransactionError α}
    (haction : action.Undisturbed h TransactionError.abortReason?) :
    (action.mapError StatementError.transaction).Undisturbed h StatementError.abortReason? :=
  haction.mapError fun _ herror => herror

/-- That a transaction cannot go on is no refusal. -/
theorem Turned.abortReason?_eq_none {error : TransactionError} (hturned : db.Turned h (.transaction error)) :
    error.abortReason? = none := by
  rw [Turned, StatementError.transaction.injEq] at hturned
  rw [hturned]
  rfl

/-- A mode on a resource is granted to a transaction that nobody rivals. -/
theorem lockResource_succeeds (hactive : db.isActive h = true) (hsole : db.Unrivalled h) (resource : Resource)
    (mode : Mode) (hannounced : ∀ table rid, resource = .record table rid →
      db.locks.Announced (db.txn h).id table mode) :
    (lockResource h resource mode).Succeeds db fun _ db' => Granted h db db' ∧ ∃ held,
      db'.locks.heldMode (db.txn h).id resource = some held ∧ held.covers mode = true := by
  obtain ⟨locks, hrequest⟩ := hsole.exists_request resource mode
  have hok : (lockResource h resource mode).Succeeds db fun _ _ => True := by
    simp only [Action.Succeeds, lockResource, Action.ends_bind, Action.ends_get, hrequest, Action.ends_set]
    split <;> trivial
  exact (hok.and (lockResource_ends hactive resource mode hannounced)).mono fun _ _ hended => hended.2

/-- So is a lock; only a mode that is none for a record is turned down. -/
theorem acquire_granted (hactive : db.isActive h = true) (hsole : db.Unrivalled h) (resource : Resource)
    (mode : Mode) :
    (acquire h resource mode).Ends db (fun _ db' => Granted h db db')
      fun error db' => db' = db ∧ resource.rid?.isSome = true ∧ (mode ≠ .shared ∧ mode ≠ .exclusive) ∧
        error = .recordMode mode := by
  refine (ensureActive_succeeds hactive).bind_ends ?_
  rintro _ db rfl
  cases resource with
  | table id =>
    exact (lockResource_succeeds hactive hsole (.table id) mode (by simp)).ends fun _ _ hended => hended.1
  | record id rid =>
    simp only
    split
    · rename_i hmode
      exact ⟨rfl, rfl, hmode, rfl⟩
    · rename_i hmode
      have hkind : mode = .shared ∨ mode = .exclusive := by
        by_contra hneither
        exact hmode (not_or.mp hneither)
      refine (lockResource_succeeds hactive hsole _ _ (by simp [Resource.parent])).bind_ends ?_
      rintro _ mid ⟨hparent, held, hheld, hcovers⟩
      -- The record comes after its table, on which the mode is announced by now.
      refine (lockResource_succeeds hparent.active (hparent.toKeeps.unrivalled hsole) (.record id rid) mode
        ?_).ends fun _ _ hended => hparent.trans hended.1
      intro table rid' heq
      cases heq
      rw [hparent.id]
      exact ⟨hkind, held, hheld, hcovers⟩

theorem acquire_undisturbed (h : Handle) (resource : Resource) (mode : Mode) :
    (acquire h resource mode).Undisturbed h TransactionError.abortReason? := by
  refine Action.undisturbed_of_active
    (fun db hinactive => (acquire_fails hinactive resource mode).mono fun _ => Turned.abortReason?_eq_none)
    fun db hactive hsole => ?_
  refine (acquire_granted hactive hsole resource mode).mono (fun _ _ hgranted => hgranted.calm) ?_
  rintro _ _ ⟨rfl, -, -, rfl⟩
  exact ⟨.refl h _, rfl⟩

/-- A gap is granted to a transaction that nobody rivals. -/
theorem lockGap_succeeds (hactive : db.isActive h = true) (hsole : db.Unrivalled h) (table : TableId)
    (start stop : Position) :
    (lockGap h table start stop).Succeeds db fun granted db' => granted = true ∧ Granted h db db' := by
  obtain ⟨gaps, hlock⟩ := hsole.exists_lock? table start stop
  have hok : (lockGap h table start stop).Succeeds db fun granted _ => granted = true := by
    refine (ensureActive_succeeds hactive).bind ?_
    rintro _ _ rfl
    simp only [Action.Succeeds, Action.ends_bind, Action.ends_get, hlock]
    rfl
  exact (hok.and (lockGap_ends h table start stop db)).mono fun _ _ hboth => ⟨hboth.1, hboth.2.2.1⟩

theorem lockGap_undisturbed (h : Handle) (table : TableId) (start stop : Position) :
    (lockGap h table start stop).Undisturbed h TransactionError.abortReason? := by
  refine Action.undisturbed_of_active
    (fun db hinactive => (lockGap_fails hinactive table start stop).mono fun _ => Turned.abortReason?_eq_none)
    fun db hactive hsole => ?_
  exact (lockGap_succeeds hactive hsole table start stop).ends fun _ _ hended => hended.2.calm

/-- A write of a transaction that nobody rivals goes into nobody's gap. -/
theorem checkGap_undisturbed (h : Handle) (table : TableId) (position : Position) :
    (checkGap h table position).Undisturbed h TransactionError.abortReason? := by
  refine Action.undisturbed_of_active
    (fun db hinactive => (checkGap_fails hinactive table position).mono fun _ => Turned.abortReason?_eq_none)
    fun db hactive hsole => ?_
  refine (checkGap_succeeds hactive (hsole.blocks table position)).ends ?_
  rintro _ _ rfl
  exact .refl h _

/-! ### Access to the rows -/

/-- What comes of the rows, or of the storage that refuses it, is no refusal of a lock. -/
theorem undisturbed_storage {α : Type} (result : Except StorageError α) :
    ((Action.ofExcept result).mapError StatementError.storage).Undisturbed h StatementError.abortReason? := by
  intro db _
  cases result with
  | ok value => exact .refl h db
  | error error => exact ⟨.refl h db, rfl⟩

theorem table_undisturbed (h : Handle) (name : String) :
    (table name).Undisturbed h StatementError.abortReason? := by
  refine fun db _ => (table_ends name db).mono ?_ ?_
  · rintro _ _ ⟨rfl, -⟩
    exact .refl h _
  · rintro _ _ ⟨rfl, -, rfl⟩
    exact ⟨.refl h _, rfl⟩

theorem rowAt_undisturbed (h : Handle) (name : String) (rid : Rid) :
    (rowAt name rid).Undisturbed h StatementError.abortReason? :=
  (table_undisturbed h name).bind fun _ => undisturbed_storage _

theorem lockRow_undisturbed (h : Handle) (name : String) (rid : Rid) (mode : Mode) :
    (lockRow h name rid mode).Undisturbed h StatementError.abortReason? :=
  (table_undisturbed h name).bind fun _ => undisturbed_transaction (acquire_undisturbed h _ mode)

theorem lockRange_undisturbed (h : Handle) (name : String) (range : KeyRange) :
    (lockRange h name range).Undisturbed h StatementError.abortReason? := by
  refine (table_undisturbed h name).bind fun table => ?_
  have hrest : (do
      let granted ← (lockGap h table.id range.start range.stop).mapError .transaction
      if !granted then (refuse h .gapConflict).mapError .transaction
      return (range.start, range.stop) : Action StatementError (Position × Position)).Undisturbed h
        StatementError.abortReason? := by
    refine Action.undisturbed_of_active (fun db hinactive => ?_) fun db hactive hsole => ?_
    · exact .bind (.mapError ((lockGap_fails hinactive _ _ _).mono fun _ => Turned.abortReason?_eq_none))
    · refine ((lockGap_succeeds hactive hsole _ _ _).mapError _).bind_ends ?_
      rintro _ mid ⟨rfl, hgranted⟩
      exact hgranted.calm
  split
  · exact (Action.undisturbed_throw rfl).bind fun _ => hrest
  · exact hrest

/-- A check of a key, if there is one, and what comes after it. -/
theorem checkKey_undisturbed {α : Type} (h : Handle) (table : TableId) (key? : Option Bytes)
    {next : Action StatementError α} (hnext : next.Undisturbed h StatementError.abortReason?) :
    (do
      if let some key := key? then (checkGap h table (.before key)).mapError .transaction
      next : Action StatementError α).Undisturbed h StatementError.abortReason? := by
  cases key? with
  | none => exact hnext
  | some key =>
    exact (undisturbed_transaction (checkGap_undisturbed h table _)).bind fun _ => hnext

theorem onTable_undisturbed {α : Type} (h : Handle) (name : String)
    (operation : Table → Except StorageError (α × Table)) :
    (onTable name operation).Undisturbed h StatementError.abortReason? := by
  refine (table_undisturbed h name).bind fun table => (undisturbed_storage _).bind fun result => ?_
  exact (Action.undisturbed_modify fun db => calm_putTable h db _).bind fun _ => Action.undisturbed_pure _

/-! ### Statements -/

theorem enterWrite_undisturbed (h : Handle) (write : WriteRecord) (after : Option Bytes) :
    (enterWrite h write after).Undisturbed h StatementError.abortReason? := by
  refine (table_undisturbed h write.table).bind fun table => ?_
  refine Action.Undisturbed.bind (undisturbed_transaction ?_) fun _ db _ => ?_
  · refine Action.undisturbed_of_active (fun db hinactive =>
      .bind ((ensureActive_fails hinactive).mono fun _ => Turned.abortReason?_eq_none)) fun db hactive _ => ?_
    refine (ensureActive_succeeds hactive).bind_ends ?_
    rintro _ db rfl
    rw [Action.ends_modify]
    refine ⟨.updateTxn h db (fun _ => rfl) fun _ => rfl, ?_⟩
    rw [txn_updateTxn_self db _ (lt_of_isActive hactive)]
    rfl
  · rw [Action.ends_mapError]
    exact (logRecord_ends h _ _ db).mono (fun _ _ hlogged => hlogged.calm)
      fun _ _ hlogged => ⟨hlogged.calm, rfl⟩

theorem reserveSlot_undisturbed (h : Handle) (name : String) :
    (reserveSlot h name).Undisturbed h StatementError.abortReason? := by
  refine (table_undisturbed h name).bind fun table db _ => ?_
  simp only [Action.ends_bind, Action.ends_get]
  cases table.heap.reserveNamed fun rid => db.locks.lockedByOther (db.txn h).id (.record table.id rid) with
  | mk result heap =>
    rw [Action.ends_set, Action.ends_mapError]
    cases result with
    | ok rid => exact calm_putTable h db _
    | error error => exact ⟨calm_putTable h db _, rfl⟩

theorem calm_cancel (h : Handle) (name : String) (rid : Rid) (db : Database) :
    Calm h db (db.updateHeap name (·.cancel rid)) := by
  obtain ⟨hquiet, htxn⟩ := quiet_cancel h name rid db
  exact ⟨hquiet.toKeeps, by rw [htxn]⟩

theorem fillSlot_undisturbed (h : Handle) (name : String) (rid : Rid) (row : Bytes) :
    (fillSlot h name rid row).Undisturbed h StatementError.abortReason? :=
  ((lockRow_undisturbed h name rid _).bind fun _ => onTable_undisturbed h name _).onFailure
    (calm_cancel h name rid)

theorem insert_undisturbed (h : Handle) (name : String) (row : Bytes) :
    (insert h name row).Undisturbed h StatementError.abortReason? := by
  refine (table_undisturbed h name).bind fun table => ?_
  refine (undisturbed_transaction (acquire_undisturbed h _ _)).bind fun _ => ?_
  refine checkKey_undisturbed h table.id _ ((reserveSlot_undisturbed h name).bind fun rid => ?_)
  refine (fillSlot_undisturbed h name rid row).bind fun _ => ?_
  exact (enterWrite_undisturbed h _ _).bind fun _ => Action.undisturbed_pure rid

theorem delete_undisturbed (h : Handle) (name : String) (rid : Rid) :
    (delete h name rid).Undisturbed h StatementError.abortReason? := by
  refine (lockRow_undisturbed h name rid _).bind fun _ => (rowAt_undisturbed h name rid).bind fun before => ?_
  exact (enterWrite_undisturbed h _ _).bind fun _ => onTable_undisturbed h name _

theorem update_undisturbed (h : Handle) (name : String) (rid : Rid) (row : Bytes) :
    (update h name rid row).Undisturbed h StatementError.abortReason? := by
  refine (lockRow_undisturbed h name rid _).bind fun _ => (rowAt_undisturbed h name rid).bind fun before => ?_
  refine (table_undisturbed h name).bind fun table => checkKey_undisturbed h table.id _ ?_
  exact (enterWrite_undisturbed h _ _).bind fun _ => onTable_undisturbed h name _

theorem read_undisturbed (h : Handle) (name : String) (rid : Rid) :
    (read h name rid).Undisturbed h StatementError.abortReason? :=
  (lockRow_undisturbed h name rid _).bind fun _ => rowAt_undisturbed h name rid

end Database

/-- No statement of a transaction that nobody rivals is refused. -/
theorem Statement.perform_undisturbed (h : Handle) (statement : Statement) :
    (statement.perform h).Undisturbed h StatementError.abortReason? := by
  cases statement with
  | insert name row => exact (insert_undisturbed h name row).bind fun _ => Action.undisturbed_pure _
  | update name rid row => exact (update_undisturbed h name rid row).bind fun _ => Action.undisturbed_pure _
  | delete name rid => exact (delete_undisturbed h name rid).bind fun _ => Action.undisturbed_pure _
  | read name rid => exact (read_undisturbed h name rid).bind fun _ => Action.undisturbed_pure _
  | acquire resource mode =>
    exact (undisturbed_transaction (acquire_undisturbed h resource mode)).bind fun _ =>
      Action.undisturbed_pure _

/-! ### Scans -/

namespace Scan

theorem positions_undisturbed (scan : Scan) :
    scan.positions.Undisturbed scan.owner StatementError.abortReason? := by
  unfold positions
  split
  · refine (table_undisturbed _ _).bind fun table => ?_
    refine (undisturbed_transaction (acquire_undisturbed _ _ _)).bind fun _ => ?_
    exact (table_undisturbed _ _).bind fun _ => Action.undisturbed_pure _
  · refine (lockRange_undisturbed _ _ _).bind fun ends => (table_undisturbed _ _).bind fun table => ?_
    split
    · exact Action.undisturbed_pure _
    · exact Action.undisturbed_throw rfl

theorem visit_undisturbed (scan : Scan) (rid : Rid) :
    (scan.visit rid).Undisturbed scan.owner StatementError.abortReason? := by
  unfold visit
  split
  · exact (rowAt_undisturbed _ _ _).bind fun _ => Action.undisturbed_pure _
  · refine (lockRow_undisturbed _ _ _ _).bind fun _ => (table_undisturbed _ _).bind fun table => ?_
    split
    · exact Action.undisturbed_pure _
    · exact Action.undisturbed_pure _
    · exact Action.undisturbed_throw rfl

/-- A scan is not refused a row, however many positions it visits on the way to one. -/
theorem nextFrom_undisturbed (scan : Scan) {db : Database}
    (hsole : db.isActive scan.owner = true → db.Unrivalled scan.owner) (pending : List Rid) :
    match scan.nextFrom db pending with
    | .ok _ (db', _) => Calm scan.owner db db'
    | .error error (db', _) => Calm scan.owner db db' ∧ error.abortReason? = none := by
  induction pending generalizing db with
  | nil => exact .refl _ db
  | cons rid rest ih =>
    have hvisit := scan.visit_undisturbed rid db hsole
    unfold Action.Ends at hvisit
    unfold nextFrom
    cases hrun : scan.visit rid db with
    | error error mid =>
      rw [hrun] at hvisit
      exact hvisit
    | ok row mid =>
      rw [hrun] at hvisit
      cases row with
      | some row => exact hvisit
      | none =>
        have hcalm : Calm scan.owner db mid := hvisit
        have hrest := ih (hcalm.unrivalled hsole)
        simp only
        cases hnext : scan.nextFrom mid rest with
        | ok tuple last =>
          rw [hnext] at hrest
          exact hcalm.trans hrest
        | error error last =>
          rw [hnext] at hrest
          exact ⟨hcalm.trans hrest.1, hrest.2⟩

end Scan

/-! ### Calls -/

/-- Whether what a call gave back says that its request was refused, so that its transaction is to be rolled
back. -/
def Answer.isRefusal : Except StatementError Answer → Bool
  | .ok _ => false
  | .error error => error.abortReason?.isSome

namespace Session

variable {s : Session} {call : Call} {h : Handle}

theorem act_undisturbed {action : Action StatementError Answer}
    (haction : action.Undisturbed h StatementError.abortReason?)
    (hsole : s.db.isActive h = true → s.db.Unrivalled h) :
    Calm h s.db (s.act action).2.db ∧ Answer.isRefusal (s.act action).1 = false := by
  refine act_spec (P := fun answer db' => Calm h s.db db' ∧ Answer.isRefusal answer = false) ?_
  refine (haction s.db hsole).mono (fun _ _ hcalm => ⟨hcalm, rfl⟩) ?_
  rintro error _ ⟨hcalm, herror⟩
  exact ⟨hcalm, by rw [Answer.isRefusal, herror]; rfl⟩

/-- Whatever is asked for on behalf of a transaction that nobody rivals, if it can go on at all, marks nobody
aborted and is not refused. -/
theorem step_undisturbed (hasks : s.asker? call = some h)
    (hsole : s.db.isActive h = true → s.db.Unrivalled h) (hends : call ≠ .commit h ∧ call ≠ .abort h)
    (hhand : call.isByHand = false) :
    Calm h s.db (s.step call).2.db ∧ Answer.isRefusal (s.step call).1 = false := by
  cases call with
  | run h' statement =>
    obtain rfl := Option.some.inj hasks
    exact act_undisturbed (statement.perform_undisturbed h') hsole
  | lockGap h' table start stop =>
    obtain rfl := Option.some.inj hasks
    exact act_undisturbed ((undisturbed_transaction (lockGap_undisturbed h' _ _ _)).bind
      fun _ => Action.undisturbed_pure _) hsole
  | checkGap h' table position =>
    obtain rfl := Option.some.inj hasks
    exact act_undisturbed ((undisturbed_transaction (checkGap_undisturbed h' _ _)).bind
      fun _ => Action.undisturbed_pure _) hsole
  | lockRange h' name range =>
    obtain rfl := Option.some.inj hasks
    exact act_undisturbed ((lockRange_undisturbed h' name range).bind fun _ => Action.undisturbed_pure _) hsole
  | initScan i =>
    obtain ⟨scan, hscan, rfl⟩ := Option.map_eq_some_iff.mp hasks
    have hpositions := scan.positions_undisturbed s.db hsole
    unfold Action.Ends at hpositions
    rw [step_initScan hscan]
    cases hrun : scan.positions s.db with
    | ok pending db' =>
      rw [hrun] at hpositions
      exact ⟨hpositions, rfl⟩
    | error error db' =>
      rw [hrun] at hpositions
      exact ⟨hpositions.1, by rw [Answer.isRefusal, hpositions.2]; rfl⟩
  | nextScan i =>
    obtain ⟨scan, hscan, rfl⟩ := Option.map_eq_some_iff.mp hasks
    have hnext := scan.nextFrom_undisturbed hsole scan.pending
    rw [step_nextScan hscan]
    cases hrun : scan.nextFrom s.db scan.pending with
    | ok tuple last =>
      rw [hrun] at hnext
      exact ⟨hnext, rfl⟩
    | error error last =>
      rw [hrun] at hnext
      exact ⟨hnext.1, by rw [Answer.isRefusal, hnext.2]; rfl⟩
  | commit h' => exact absurd (congrArg Call.commit (Option.some.inj hasks)) hends.1
  | abort h' => exact absurd (congrArg Call.abort (Option.some.inj hasks)) hends.2
  | begin | adopt | openScan => cases hasks
  | release | releaseAll | releaseGaps => cases hhand

end Session

end NoWait
