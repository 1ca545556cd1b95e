import NoWait.Proofs.LockSets

/-!
# When a lock is granted

A request is checked against the requests of the other transactions one by one, and never against their join.
Both come to the same, since what goes with the join of several modes is what goes with each of them.

* `LockTable.others` is the join of the modes that the others hold on a resource, and `LockTable.Admits` asks
  whether it goes with what a transaction would hold; `LockTable.Sound.request_cases` says that a sound table
  grants a request under this condition and under no other;
* `Database.SparesHolders` is what a request leaves alone, `Database.Took` what a grant on one resource changes,
  and `Database.lockResource_cases` that there is nothing else;
* `Database.Acquired` is what a granted request changes, its intention on the table included;
* `acquire_exact` is the result.
-/

namespace NoWait

/-! ### What a join admits -/

theorem GroupMode.admits_join (group : GroupMode) (a b : Mode) :
    (group.join a).admits b = (group.admits b && a.compatible b) := by
  cases group with
  | none => rfl
  | some mode => exact Mode.join_compatible mode a b

theorem GroupMode.admits_foldl_join (modes : List Mode) (group : GroupMode) (mode : Mode) :
    (modes.foldl join group).admits mode = (group.admits mode && modes.all (·.compatible mode)) := by
  induction modes generalizing group with
  | nil => simp
  | cons a modes ih => rw [List.foldl_cons, ih, admits_join, List.all_cons, Bool.and_assoc]

/-- What goes with the join of several modes is what goes with each of them. -/
theorem Mode.admits_joinAll (modes : List Mode) (mode : Mode) :
    (joinAll modes).admits mode = modes.all (·.compatible mode) := by
  rw [joinAll, GroupMode.admits_foldl_join]
  rfl

/-- Strengthening the request of a transaction leaves the requests of the others as they are. -/
theorem Queue.filter_setMode (txn : TxnId) (mode : Mode) (requests : List Request) :
    (setMode txn mode requests).filter (·.txn ≠ txn) = requests.filter (·.txn ≠ txn) := by
  induction requests with
  | nil => rfl
  | cons r rest ih =>
    by_cases h : r.txn = txn
    · simp [setMode, h]
    · simp only [setMode, if_neg h, List.filter_cons, ih]

namespace LockTable

variable {locks locks' : LockTable} {txn : TxnId} {resource r : Resource} {mode held : Mode}

/-! ### The condition for a grant -/

/-- The join of the modes that the transactions other than `txn` hold on a resource. -/
def others (locks : LockTable) (txn : TxnId) (resource : Resource) : GroupMode :=
  Mode.joinAll (((locks.requests resource).filter (·.txn ≠ txn)).map (·.mode))

/-- Whether the others admit what a transaction would hold on a resource with a further mode. -/
def Admits (locks : LockTable) (txn : TxnId) (resource : Resource) (mode : Mode) : Prop :=
  (locks.others txn resource).admits (locks.strengthened txn resource mode) = true

instance (locks : LockTable) (txn : TxnId) (resource : Resource) (mode : Mode) :
    Decidable (locks.Admits txn resource mode) :=
  inferInstanceAs (Decidable (_ = true))

/-- Why a request is refused: for a mode that is held already, or for a first one. -/
def refusal (locks : LockTable) (txn : TxnId) (resource : Resource) : AbortReason :=
  if (locks.heldMode txn resource).isSome then .upgradeConflict else .deadlockPrevention

theorem others_admits_iff : (locks.others txn resource).admits mode = true ↔
    ∀ request ∈ locks.requests resource, request.txn ≠ txn → request.mode.compatible mode = true := by
  simp [others, Mode.admits_joinAll, or_iff_not_imp_left]

/-- A conflict with one of the others is one with their join. -/
theorem Sound.conflicts_eq_false_iff (h : locks.Sound) :
    (locks.queue resource).conflicts txn mode = false ↔
      (locks.others txn resource).admits mode = true := by
  rw [Queue.not_conflicts_iff, others_admits_iff]
  exact forall₂_congr fun request hmem => ⟨fun hfree => hfree ((h.queue resource).granted request hmem),
    fun hfree _ => hfree⟩

/-- Who holds nothing on a resource has the whole group against him. -/
theorem Sound.others_eq_groupMode (h : locks.Sound) (hnone : locks.heldMode txn resource = none) :
    locks.others txn resource = locks.groupMode resource := by
  have hall : (locks.requests resource).filter (·.txn ≠ txn) = locks.requests resource :=
    Queue.filter_eq_self_of_heldMode hnone
  rw [others, hall, groupMode, (h.queue resource).group_eq, requests]

/-- What a transaction holds goes with what the others hold. -/
theorem Sound.others_admits_held (h : locks.Sound) (hheld : locks.heldMode txn resource = some held) :
    (locks.others txn resource).admits held = true := by
  obtain ⟨own, hown, rfl, rfl⟩ := Queue.exists_of_heldMode hheld
  exact others_admits_iff.mpr fun request hmem hne => (h.queue resource).compatible request hmem own hown hne

/-- A request is granted if the others admit what its transaction would hold then, and is refused if not. -/
theorem Sound.request_cases (h : locks.Sound) (txn : TxnId) (resource : Resource) (mode : Mode) :
    (locks.Admits txn resource mode ∧ ∃ locks', locks.request txn resource mode = .ok locks') ∨
      (¬ locks.Admits txn resource mode ∧
        locks.request txn resource mode = .error (locks.refusal txn resource)) := by
  unfold Admits
  cases hheld : locks.heldMode txn resource with
  | none =>
    have hstrengthened : locks.strengthened txn resource mode = mode := by rw [strengthened, hheld]
    have hqueue : (locks.queue resource).heldMode txn = none := hheld
    rw [hstrengthened, ← h.conflicts_eq_false_iff, refusal, hheld]
    simp only [LockTable.request, hqueue]
    cases (locks.queue resource).conflicts txn mode with
    | false => exact .inl ⟨rfl, _, rfl⟩
    | true => exact .inr ⟨by decide, rfl⟩
  | some held =>
    have hstrengthened : locks.strengthened txn resource mode = held.join mode := by
      rw [strengthened, hheld]
    have hqueue : (locks.queue resource).heldMode txn = some held := hheld
    rw [hstrengthened, refusal, hheld]
    simp only [LockTable.request, hqueue]
    by_cases hcovers : held.covers mode = true
    · have hjoin : held.join mode = held := by simpa [Mode.covers] using hcovers
      rw [if_pos hcovers, hjoin]
      exact .inl ⟨h.others_admits_held hheld, _, rfl⟩
    · rw [if_neg hcovers, ← h.conflicts_eq_false_iff]
      cases (locks.queue resource).conflicts txn (held.join mode) with
      | false => exact .inl ⟨rfl, _, rfl⟩
      | true => exact .inr ⟨by decide, rfl⟩

/-- A granted request leaves the requests of the others as they are, in the order in which they came. -/
theorem filter_requests_request (h : locks.request txn resource mode = .ok locks') (r : Resource) :
    (locks'.requests r).filter (·.txn ≠ txn) = (locks.requests r).filter (·.txn ≠ txn) := by
  have hset : ∀ queue : Queue, queue.requests.filter (·.txn ≠ txn) =
      (locks.requests resource).filter (·.txn ≠ txn) →
      ((locks.setQueue resource queue).requests r).filter (·.txn ≠ txn) =
        (locks.requests r).filter (·.txn ≠ txn) := by
    intro queue hqueue
    rw [requests, queue_setQueue]
    split
    · rename_i heq
      rw [hqueue, heq]
    · rfl
  unfold request at h
  simp only at h
  split at h
  · split at h
    · cases h
      rfl
    · split at h
      · cases h
      · cases h
        exact hset _ (Queue.filter_setMode ..)
  · split at h
    · cases h
    · cases h
      exact hset _ (by simp [Queue.grant, requests])

/-- Who asks for what he holds gets it, and nothing changes. -/
theorem request_eq_self (hheld : locks.heldMode txn resource = some held)
    (hcovers : held.covers mode = true) : locks.request txn resource mode = .ok locks := by
  have hqueue : (locks.queue resource).heldMode txn = some held := hheld
  simp only [request, hqueue, if_pos hcovers]

end LockTable

namespace Database

variable {h : Handle} {db mid db' : Database} {resource : Resource} {mode : Mode} {table : TableId} {rid : Rid}

/-! ### What a grant changes -/

/-- What a request leaves alone, granted or not: the other transactions, their requests in the order in which
they came, and everything but locks and transactions. -/
structure SparesHolders (h : Handle) (db db' : Database) : Prop where
  id : (db'.txn h).id = (db.txn h).id
  txn : ∀ h', h ≠ h' → db'.txn h' = db.txn h'
  requests : ∀ r, (db'.locks.requests r).filter (·.txn ≠ (db.txn h).id) =
    (db.locks.requests r).filter (·.txn ≠ (db.txn h).id)
  rest : ∃ locks transactions, db' = { db with locks, transactions }

theorem SparesHolders.refl (h : Handle) (db : Database) : SparesHolders h db db :=
  ⟨rfl, fun _ _ => rfl, fun _ => rfl, db.locks, db.transactions, rfl⟩

theorem SparesHolders.trans (hs : SparesHolders h db mid) (hs' : SparesHolders h mid db') :
    SparesHolders h db db' where
  id := hs'.id.trans hs.id
  txn := fun h' hne => (hs'.txn h' hne).trans (hs.txn h' hne)
  requests := fun r => (hs.id ▸ hs'.requests r).trans (hs.requests r)
  rest := by
    obtain ⟨_, _, rfl⟩ := hs.rest
    obtain ⟨locks, transactions, rfl⟩ := hs'.rest
    exact ⟨locks, transactions, rfl⟩

/-- Nobody else notices when a transaction is marked aborted. -/
theorem SparesHolders.aborted (h : Handle) (db : Database) : SparesHolders h db (db.setState h .aborted) where
  id := (Quiet.setState_aborted h db).id
  txn := (Quiet.setState_aborted h db).txn
  requests := fun _ => rfl
  rest := ⟨_, _, rfl⟩

/-- What is left when a transaction has got a mode on one resource: it holds the join of what it held and what
it asked for, and has the resource in its lock-set. -/
structure Took (h : Handle) (resource : Resource) (mode : Mode) (db db' : Database) : Prop
    extends SparesHolders h db db' where
  modes : ∀ r, db'.locks.heldMode (db.txn h).id r = if resource = r then
    some (db.locks.strengthened (db.txn h).id resource mode) else db.locks.heldMode (db.txn h).id r
  self : db'.txn h = (db.txn h).addLock resource

theorem Took.of_request (hlt : h < db.transactions.size) {locks : LockTable}
    (hrequest : db.locks.request (db.txn h).id resource mode = .ok locks) :
    Took h resource mode db (({ db with locks } : Database).updateTxn h (·.addLock resource)) := by
  have hself : (({ db with locks } : Database).updateTxn h (·.addLock resource)).txn h =
      (db.txn h).addLock resource := txn_updateTxn_self ({ db with locks } : Database) _ hlt
  exact
    { id := by rw [hself]; rfl
      txn := fun h' hne => txn_updateTxn_of_ne ({ db with locks } : Database) _ hne
      requests := LockTable.filter_requests_request hrequest
      rest := ⟨_, _, rfl⟩
      modes := fun r => by
        show locks.heldMode _ r = _
        simp only [LockTable.heldMode_request hrequest, true_and]
      self := hself }

/-- Whether a transaction has every resource in its lock-set on which it holds a mode. -/
def LockSetComplete (db : Database) (h : Handle) : Prop :=
  ∀ r, db.locks.heldMode (db.txn h).id r ≠ none → (db.txn h).holdsLock r = true

theorem LockSetExact.complete (hexact : db.LockSetExact h) : db.LockSetComplete h := fun r => (hexact r).mpr

theorem holdsLock_addLock (t : Transaction) (resource r : Resource) :
    (t.addLock resource).holdsLock r = true ↔ resource = r ∨ t.holdsLock r = true := by
  simp [Transaction.holdsLock, Transaction.addLock]

theorem Took.lockSetComplete (htook : Took h resource mode db db') (hcomplete : db.LockSetComplete h) :
    db'.LockSetComplete h := by
  intro r hheld
  rw [htook.id, htook.modes] at hheld
  rw [htook.self, holdsLock_addLock]
  by_cases heq : resource = r
  · exact .inl heq
  · rw [if_neg heq] at hheld
    exact .inr (hcomplete r hheld)

theorem addLock_eq_self {t : Transaction} (hholds : t.holdsLock resource = true) :
    t.addLock resource = t := by
  have hlocks : t.locks.insert resource = t.locks := by
    refine Std.ExtTreeSet.ext_contains fun r => ?_
    rw [Std.ExtTreeSet.contains_insert]
    by_cases heq : resource = r
    · subst heq
      simpa [Transaction.holdsLock] using hholds
    · simp [heq]
  rw [Transaction.addLock, hlocks]

/-- What becomes of a request for one resource is for the lock table to say. -/
theorem lockResource_eq (h : Handle) (resource : Resource) (mode : Mode) (db : Database) :
    lockResource h resource mode db =
      match db.locks.request (db.txn h).id resource mode with
      | .error reason => .error (.aborted (db.txn h).id reason) (db.setState h .aborted)
      | .ok locks => .ok () (if (db.locks.heldMode (db.txn h).id resource).isNone then
          ({ db with locks } : Database).updateTxn h (·.addLock resource) else { db with locks }) := by
  unfold lockResource
  rw [Action.get_bind_eq]
  cases db.locks.request (db.txn h).id resource mode with
  | error reason => rfl
  | ok locks =>
    simp only
    split <;> rfl

/-- A resource is granted to a transaction whose lock-set is complete if and only if the others admit it;  a
refusal marks the transaction aborted, and that is all. -/
theorem lockResource_cases (hs : db.locks.Sound) (hcomplete : db.LockSetComplete h)
    (hlt : h < db.transactions.size) (resource : Resource) (mode : Mode) :
    (db.locks.Admits (db.txn h).id resource mode ∧
      ∃ db', lockResource h resource mode db = .ok () db' ∧ Took h resource mode db db') ∨
    (¬ db.locks.Admits (db.txn h).id resource mode ∧ lockResource h resource mode db =
      .error (.aborted (db.txn h).id (db.locks.refusal (db.txn h).id resource)) (db.setState h .aborted)) := by
  rw [lockResource_eq]
  rcases hs.request_cases (db.txn h).id resource mode with ⟨hadmits, locks, hrequest⟩ | ⟨hadmits, hrequest⟩
  · refine .inl ⟨hadmits, _, ?_, .of_request hlt hrequest⟩
    rw [hrequest]
    simp only
    split
    · rfl
    · -- Whoever held the resource has it in his lock-set already.
      rename_i hsome
      have hholds : (db.txn h).holdsLock resource = true := hcomplete resource (by simpa using hsome)
      have hsame : (({ db with locks } : Database).txn h).addLock resource =
          ({ db with locks } : Database).txn h := addLock_eq_self hholds
      rw [updateTxn_eq_self hsame]
  · refine .inr ⟨hadmits, ?_⟩
    rw [hrequest]

/-- Who asks for one resource that he holds gets it, and nothing changes. -/
theorem lockResource_eq_self {held : Mode} (hheld : db.locks.heldMode (db.txn h).id resource = some held)
    (hcovers : held.covers mode = true) : lockResource h resource mode db = .ok () db := by
  rw [lockResource_eq, LockTable.request_eq_self hheld hcovers, hheld]
  rfl

/-- What is asked of one resource is as it was after a grant of another. -/
theorem Took.admits_iff (htook : Took h resource mode db mid) {r : Resource} (hne : resource ≠ r)
    (mode' : Mode) : mid.locks.Admits (db.txn h).id r mode' ↔ db.locks.Admits (db.txn h).id r mode' := by
  have hheld := htook.modes r
  rw [if_neg hne] at hheld
  rw [LockTable.Admits, LockTable.Admits, LockTable.others, LockTable.others, htook.requests,
    LockTable.strengthened, LockTable.strengthened, hheld]

/-! ### Requests on tables and on records -/

/-- What is left when a transaction has got a mode on a table or a record: it holds the join of what it held
and what it asked for, likewise on the table of the record with the intention, and has both in its lock-set. -/
structure Acquired (h : Handle) (resource : Resource) (mode : Mode) (db db' : Database) : Prop
    extends SparesHolders h db db' where
  modes : ∀ r, db'.locks.heldMode (db.txn h).id r =
    if resource = r then some (db.locks.strengthened (db.txn h).id resource mode)
    else if resource.parent = r then
      some (db.locks.strengthened (db.txn h).id resource.parent mode.intention)
    else db.locks.heldMode (db.txn h).id r
  self : db'.txn h = ((db.txn h).addLock resource.parent).addLock resource

theorem Took.acquired_table (htook : Took h (.table table) mode db db') :
    Acquired h (.table table) mode db db' where
  toSparesHolders := htook.toSparesHolders
  modes := by
    intro r
    rw [htook.modes]
    by_cases heq : Resource.table table = r
    · rw [if_pos heq, if_pos heq]
    · rw [if_neg heq, if_neg heq, if_neg (show (Resource.table table).parent ≠ r from heq)]
  self := by
    rw [htook.self]
    exact (addLock_eq_self ((holdsLock_addLock _ _ _).mpr (.inl rfl))).symm

theorem Took.acquired_record (htable : Took h (.table table) mode.intention db mid)
    (hrecord : Took h (.record table rid) mode mid db') : Acquired h (.record table rid) mode db db' where
  toSparesHolders := htable.toSparesHolders.trans hrecord.toSparesHolders
  modes := by
    intro r
    have hheld := htable.modes (.record table rid)
    rw [if_neg (by simp)] at hheld
    rw [← htable.id, hrecord.modes, htable.id, htable.modes, LockTable.strengthened, hheld]
    rfl
  self := by rw [hrecord.self, htable.self]; rfl

theorem acquire_table_eq (hactive : db.isActive h = true) (table : TableId) (mode : Mode) :
    acquire h (.table table) mode db = lockResource h (.table table) mode db := by
  unfold acquire
  rw [Action.bind_eq_of_ok (ensureActive_eq hactive)]

/-- A request on a record is one on its table, and then one on the record. -/
theorem acquire_record_eq (hactive : db.isActive h = true) (table : TableId) (rid : Rid)
    (hmode : mode = .shared ∨ mode = .exclusive) :
    acquire h (.record table rid) mode db =
      match acquire h (.table table) mode.intention db with
      | .ok _ mid => lockResource h (.record table rid) mode mid
      | .error error mid => .error error mid := by
  have hkind : ¬ (mode ≠ .shared ∧ mode ≠ .exclusive) := fun hneither => hmode.elim hneither.1 hneither.2
  unfold acquire
  rw [Action.bind_eq_of_ok (ensureActive_eq hactive), Action.bind_eq_of_ok (ensureActive_eq hactive)]
  simp only [if_neg hkind, Resource.parent, Resource.tableId]
  cases hparent : lockResource h (.table table) mode.intention db with
  | ok _ mid => rw [Action.bind_eq_of_ok hparent]
  | error error mid => rw [Action.bind_eq_of_error hparent]

/-- No other mode can be had on a record. -/
theorem acquire_record_illegal (hactive : db.isActive h = true) (table : TableId) (rid : Rid)
    (hmode : mode ≠ .shared ∧ mode ≠ .exclusive) :
    acquire h (.record table rid) mode db = .error (.recordMode mode) db := by
  unfold acquire
  rw [Action.bind_eq_of_ok (ensureActive_eq hactive)]
  simp only [if_pos hmode]
  rfl

/-- A request on a table is granted if and only if the others admit it. -/
theorem acquire_table_cases (hs : db.locks.Sound) (hcomplete : db.LockSetComplete h)
    (hactive : db.isActive h = true) (table : TableId) (mode : Mode) :
    (db.locks.Admits (db.txn h).id (.table table) mode ∧
      ∃ db', acquire h (.table table) mode db = .ok () db' ∧ Took h (.table table) mode db db') ∨
    (¬ db.locks.Admits (db.txn h).id (.table table) mode ∧ acquire h (.table table) mode db =
      .error (.aborted (db.txn h).id (db.locks.refusal (db.txn h).id (.table table)))
        (db.setState h .aborted)) := by
  rw [acquire_table_eq hactive]
  exact lockResource_cases hs hcomplete (lt_of_isActive hactive) _ _

/-- A request on a record is granted if and only if the others admit the intention on the table and the mode on
the record; if they admit no more than the intention, that is what is left of it. -/
theorem acquire_record_cases (hs : db.locks.Sound) (hcomplete : db.LockSetComplete h)
    (hactive : db.isActive h = true) (table : TableId) (rid : Rid)
    (hmode : mode = .shared ∨ mode = .exclusive) :
    (db.locks.Admits (db.txn h).id (.table table) mode.intention ∧
      db.locks.Admits (db.txn h).id (.record table rid) mode ∧
      ∃ db', acquire h (.record table rid) mode db = .ok () db' ∧
        Acquired h (.record table rid) mode db db') ∨
    (¬ db.locks.Admits (db.txn h).id (.table table) mode.intention ∧
      acquire h (.record table rid) mode db =
        .error (.aborted (db.txn h).id (db.locks.refusal (db.txn h).id (.table table)))
          (db.setState h .aborted)) ∨
    (db.locks.Admits (db.txn h).id (.table table) mode.intention ∧
      ¬ db.locks.Admits (db.txn h).id (.record table rid) mode ∧
      ∃ mid, acquire h (.table table) mode.intention db = .ok () mid ∧
        Took h (.table table) mode.intention db mid ∧
        acquire h (.record table rid) mode db =
          .error (.aborted (db.txn h).id (db.locks.refusal (db.txn h).id (.record table rid)))
            (mid.setState h .aborted)) := by
  have hne : Resource.table table ≠ .record table rid := by simp
  rcases acquire_table_cases hs hcomplete hactive table mode.intention with
    ⟨hadmits, mid, htable, htook⟩ | ⟨hadmits, htable⟩
  · have hgranted : Granted h db mid := by
      have hends := lockResource_ends hactive (.table table) mode.intention (by simp)
      rw [Action.Ends, ← acquire_table_eq hactive, htable] at hends
      exact hends.1
    rw [acquire_record_eq hactive table rid hmode, htable]
    rcases lockResource_cases (hgranted.locks hs) (htook.lockSetComplete hcomplete)
        (lt_of_isActive hgranted.active) (.record table rid) mode with
      ⟨hrecord, db', hlock, htook'⟩ | ⟨hrecord, hlock⟩
    · rw [htook.id, htook.admits_iff hne] at hrecord
      exact .inl ⟨hadmits, hrecord, db', hlock, htook.acquired_record htook'⟩
    · have hheld := htook.modes (.record table rid)
      rw [if_neg hne] at hheld
      rw [htook.id, htook.admits_iff hne] at hrecord
      rw [htook.id, LockTable.refusal, hheld] at hlock
      exact .inr (.inr ⟨hadmits, hrecord, mid, rfl, htook, hlock⟩)
  · refine .inr (.inl ⟨hadmits, ?_⟩)
    rw [acquire_record_eq hactive table rid hmode, htable]

/-- A transaction that asks again for what it has got gets it, and nothing changes. -/
theorem Acquired.again (hacquired : Acquired h resource mode db db') (hactive : db.isActive h = true)
    (hmode : resource.rid?.isSome = true → mode = .shared ∨ mode = .exclusive) :
    acquire h resource mode db' = .ok () db' := by
  have hactive' : db'.isActive h = true := by
    rw [isActive, hacquired.self]
    exact hactive
  have hheld := hacquired.modes resource
  rw [if_pos rfl, ← hacquired.id] at hheld
  cases resource with
  | table table =>
    rw [acquire_table_eq hactive']
    exact lockResource_eq_self hheld LockTable.covers_strengthened
  | record table rid =>
    have hparent := hacquired.modes (.table table)
    rw [if_neg (by simp), if_pos (by rfl), ← hacquired.id] at hparent
    rw [acquire_record_eq hactive' table rid (hmode rfl), acquire_table_eq hactive',
      lockResource_eq_self hparent LockTable.covers_strengthened]
    exact lockResource_eq_self hheld LockTable.covers_strengthened

/-- What a request leaves, granted or not. -/
theorem acquire_spares (hs : db.locks.Sound) (hcomplete : db.LockSetComplete h)
    (hactive : db.isActive h = true) (resource : Resource) (mode : Mode) :
    (acquire h resource mode).Ends db
      (fun _ db' => Acquired h resource mode db db' ∧
        (resource.rid?.isSome = true → mode = .shared ∨ mode = .exclusive))
      fun _ db' => SparesHolders h db db' := by
  unfold Action.Ends
  cases resource with
  | table table =>
    rcases acquire_table_cases hs hcomplete hactive table mode with ⟨-, db', hrun, htook⟩ | ⟨-, hrun⟩
    · rw [hrun]
      exact ⟨htook.acquired_table, by simp [Resource.rid?]⟩
    · rw [hrun]
      exact .aborted h db
  | record table rid =>
    by_cases hmode : mode = .shared ∨ mode = .exclusive
    · rcases acquire_record_cases hs hcomplete hactive table rid hmode with
        ⟨-, -, db', hrun, hacquired⟩ | ⟨-, hrun⟩ | ⟨-, -, mid, -, htook, hrun⟩
      · rw [hrun]
        exact ⟨hacquired, fun _ => hmode⟩
      · rw [hrun]
        exact .aborted h db
      · rw [hrun]
        exact htook.toSparesHolders.trans (.aborted h mid)
    · rw [acquire_record_illegal hactive table rid (not_or.mp hmode)]
      exact .refl h db

end Database

open Database

variable {start s : Session} {trace : List Event} {h : Handle}

/-- In every state that transactions with numbers of their own can bring the locks to, a request of one that
can go on is granted if and only if the join of what the others hold admits the join of what it holds and what
it asks for: on a table that mode, on a record first the intention on the table and then the mode.  It then
holds that join, and asking again changes nothing.  Otherwise it is marked aborted, with the reason that tells
whether it had a mode on the resource already; the intention on the table is all that may be left of the
request.  The others keep all that is theirs. -/
theorem acquire_exact (hrun : Run start trace s) (hfresh : start.IsFresh) (hids : s.db.DistinctIds)
    (hactive : s.db.isActive h = true) :
    (∀ (table : TableId) (mode : Mode),
      ((∃ db', acquire h (.table table) mode s.db = .ok () db') ↔
        s.db.locks.Admits (s.db.txn h).id (.table table) mode) ∧
      (s.db.locks.heldMode (s.db.txn h).id (.table table) = none →
        ((∃ db', acquire h (.table table) mode s.db = .ok () db') ↔
          (s.db.locks.groupMode (.table table)).admits mode = true)) ∧
      (¬ s.db.locks.Admits (s.db.txn h).id (.table table) mode →
        acquire h (.table table) mode s.db =
          .error (.aborted (s.db.txn h).id (s.db.locks.refusal (s.db.txn h).id (.table table)))
            (s.db.setState h .aborted))) ∧
    (∀ (table : TableId) (rid : Rid) (mode : Mode), mode = .shared ∨ mode = .exclusive →
      ((∃ db', acquire h (.record table rid) mode s.db = .ok () db') ↔
        s.db.locks.Admits (s.db.txn h).id (.table table) mode.intention ∧
          s.db.locks.Admits (s.db.txn h).id (.record table rid) mode) ∧
      (¬ s.db.locks.Admits (s.db.txn h).id (.table table) mode.intention →
        acquire h (.record table rid) mode s.db =
          .error (.aborted (s.db.txn h).id (s.db.locks.refusal (s.db.txn h).id (.table table)))
            (s.db.setState h .aborted)) ∧
      (s.db.locks.Admits (s.db.txn h).id (.table table) mode.intention →
        ¬ s.db.locks.Admits (s.db.txn h).id (.record table rid) mode →
        ∃ mid, acquire h (.table table) mode.intention s.db = .ok () mid ∧
          acquire h (.record table rid) mode s.db =
            .error (.aborted (s.db.txn h).id (s.db.locks.refusal (s.db.txn h).id (.record table rid)))
              (mid.setState h .aborted))) ∧
    ∀ (resource : Resource) (mode : Mode),
      (∀ db', acquire h resource mode s.db = .ok () db' →
        Acquired h resource mode s.db db' ∧ acquire h resource mode db' = .ok () db') ∧
      ∀ error db', acquire h resource mode s.db = .error error db' → SparesHolders h s.db db' := by
  have hl : s.db.LocksExact := hrun.locksExact hfresh hids
  have hcomplete : s.db.LockSetComplete h := (hl.exact h (lt_of_isActive hactive)).complete
  refine ⟨fun table mode => ?_, fun table rid mode hmode => ?_, fun resource mode => ?_⟩
  · have hgroup : s.db.locks.heldMode (s.db.txn h).id (.table table) = none →
        (s.db.locks.Admits (s.db.txn h).id (.table table) mode ↔
          (s.db.locks.groupMode (.table table)).admits mode = true) := by
      intro hnone
      rw [LockTable.Admits, hl.sound.others_eq_groupMode hnone, LockTable.strengthened, hnone]
    rcases acquire_table_cases hl.sound hcomplete hactive table mode with
      ⟨hadmits, db', hrun, -⟩ | ⟨hadmits, hrun⟩
    · have hyes : ∃ db', acquire h (.table table) mode s.db = .ok () db' := ⟨db', hrun⟩
      exact ⟨iff_of_true hyes hadmits, fun hnone => iff_of_true hyes ((hgroup hnone).mp hadmits),
        fun hnot => absurd hadmits hnot⟩
    · have hno : ¬ ∃ db', acquire h (.table table) mode s.db = .ok () db' := by simp [hrun]
      exact ⟨iff_of_false hno hadmits, fun hnone => iff_of_false hno (mt (hgroup hnone).mpr hadmits),
        fun _ => hrun⟩
  · rcases acquire_record_cases hl.sound hcomplete hactive table rid hmode with
      ⟨htable, hrecord, db', hrun, -⟩ | ⟨htable, hrun⟩ | ⟨htable, hrecord, mid, hparent, -, hrun⟩
    · exact ⟨iff_of_true ⟨db', hrun⟩ ⟨htable, hrecord⟩, fun hnot => absurd htable hnot,
        fun _ hnot => absurd hrecord hnot⟩
    · have hno : ¬ ∃ db', acquire h (.record table rid) mode s.db = .ok () db' := by simp [hrun]
      exact ⟨iff_of_false hno fun hboth => htable hboth.1, fun _ => hrun, fun hadmits => absurd hadmits htable⟩
    · have hno : ¬ ∃ db', acquire h (.record table rid) mode s.db = .ok () db' := by simp [hrun]
      exact ⟨iff_of_false hno fun hboth => hrecord hboth.2, fun hnot => absurd htable hnot,
        fun _ _ => ⟨mid, hparent, hrun⟩⟩
  · have hends := acquire_spares hl.sound hcomplete hactive resource mode
    unfold Action.Ends at hends
    cases hrun : acquire h resource mode s.db with
    | ok _ db' =>
      rw [hrun] at hends
      refine ⟨?_, fun error last herror => by cases herror⟩
      rintro _ ⟨⟩
      exact ⟨hends.1, hends.1.again hactive hends.2⟩
    | error error db' =>
      rw [hrun] at hends
      refine ⟨fun last hok => (by cases hok), ?_⟩
      rintro _ _ ⟨⟩
      exact hends

/-- A transaction reads a table as a whole, and another one a record of it.  The first is let in to write a part
of the table, too; the second is not, and all that is left of its wish is that it is marked aborted. -/
theorem acquire_exact_reader_writes :
    let s := Session.oneTable.play [.adopt 1, .adopt 2, .run 0 (.acquire (.table 1) .shared),
      .run 1 (.acquire (.record 1 ⟨0, 0⟩) .shared)]
    s.db.DistinctIds ∧ s.db.isActive 0 = true ∧ s.db.isActive 1 = true ∧
    (∃ db', acquire 0 (.table 1) .intentionExclusive s.db = .ok () db' ∧
      db'.locks.heldMode 1 (.table 1) = some .sharedIntentionExclusive) ∧
    acquire 1 (.record 1 ⟨0, 0⟩) .exclusive s.db =
      .error (.aborted 2 .upgradeConflict) (s.db.setState 1 .aborted) := by
  intro s
  have hids : s.db.DistinctIds := by decide +kernel
  have hfirst : s.db.isActive 0 = true := by decide +kernel
  have hsecond : s.db.isActive 1 = true := by decide +kernel
  obtain ⟨htables, -, hends⟩ := acquire_exact (.of_calls _ _) Session.oneTable_isFresh hids hfirst
  obtain ⟨-, hrecords, -⟩ := acquire_exact (.of_calls _ _) Session.oneTable_isFresh hids hsecond
  refine ⟨hids, hfirst, hsecond, ?_, ?_⟩
  · obtain ⟨db', hrun⟩ := (htables 1 .intentionExclusive).1.mpr (by decide +kernel)
    have hheld := ((hends _ _).1 db' hrun).1.modes (.table 1)
    exact ⟨db', hrun, hheld.trans (by decide +kernel)⟩
  · rw [(hrecords 1 ⟨0, 0⟩ .exclusive (.inr rfl)).2.1 (by decide +kernel)]
    have hid : (s.db.txn 1).id = 2 := by decide +kernel
    have hrefusal : s.db.locks.refusal (s.db.txn 1).id (.table 1) = .upgradeConflict := by decide +kernel
    rw [hrefusal, hid]

end NoWait
