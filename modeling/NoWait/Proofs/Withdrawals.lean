import NoWait.Proofs.LockSets

/-!
# Giving up all locks

A transaction gives up its locks one by one, and each withdrawal changes both the lock table and the lock-set
from which the next one is taken.  Since a lock-set has exactly the resources on which its transaction has a
request, nothing of the transaction is left in the end, in whatever order the lock-set is gone through.

* `Queue.without` and `LockTable.without` say what is left without a transaction: `requests_without`,
  `groupMode_without` and `mem_queues_without`;
* `LockTable.Sound.getElem?_release` is one withdrawal, `LockTable.Sound.getElem?_releaseAll` a list of them;
* `Database.foldl_release` brings the lock-set along;
* `releaseAll_exact` is the result.
-/

namespace NoWait

/-! ### A queue without a transaction -/

namespace Queue

variable {queue : Queue} {txn : TxnId}

/-- The queue without the requests of a transaction, or nothing when there are no others. -/
def without (queue : Queue) (txn : TxnId) : Option Queue :=
  let requests := queue.requests.filter (·.txn ≠ txn)
  if requests = [] then none else some { requests, group := Mode.joinAll (requests.map (·.mode)) }

theorem without_eq_none_iff : queue.without txn = none ↔ ∀ request ∈ queue.requests, request.txn = txn := by
  simp [without]

/-- Taking a transaction's first request out of a sound queue takes the transaction out. -/
theorem Sound.without_eq (h : queue.Sound) : queue.without txn =
    if (queue.remove txn).requests = [] then none else some (queue.remove txn) := by
  have hsound : (queue.remove txn).Sound := h.remove
  have hgroup := hsound.group_eq
  rw [h.requests_remove] at hgroup
  cases hremove : queue.remove txn with
  | mk requests group =>
    have hrequests : requests = queue.requests.filter (·.txn ≠ txn) := by
      rw [← h.requests_remove, hremove]
    rw [hremove] at hgroup
    simp only at hgroup
    rw [without, hgroup, hrequests]

theorem without_without (queue : Queue) (txn : TxnId) :
    (queue.without txn).bind (·.without txn) = queue.without txn := by
  by_cases hnil : queue.requests.filter (·.txn ≠ txn) = []
  · simp only [without, if_pos hnil, Option.bind_none]
  · simp only [without, if_neg hnil, Option.bind_some, List.filter_filter, Bool.and_self]

/-- Where a transaction has no request there is nothing to take out. -/
theorem Sound.without_eq_self (h : queue.Sound) (hne : queue.requests ≠ []) (hnone : queue.heldMode txn = none) :
    queue.without txn = some queue := by
  simp only [without, filter_eq_self_of_heldMode hnone, if_neg hne, ← h.group_eq]

end Queue

/-! ### A lock table without a transaction -/

namespace LockTable

variable {locks : LockTable} {txn : TxnId} {resource r : Resource}

/-- The lock table without the requests of a transaction. -/
def without (locks : LockTable) (txn : TxnId) : LockTable :=
  ⟨locks.queues.filterMap fun _ queue => queue.without txn⟩

theorem getElem?_without : (locks.without txn).queues[r]? = locks.queues[r]?.bind (·.without txn) :=
  Std.ExtTreeMap.getElem?_filterMap'

theorem queue_without : (locks.without txn).queue r = ((locks.queue r).without txn).getD {} := by
  rw [queue, getElem?_without, queue]
  cases locks.queues[r]? <;> rfl

/-- The others keep their requests, in the order in which they came. -/
theorem requests_without (locks : LockTable) (txn : TxnId) (r : Resource) :
    (locks.without txn).requests r = (locks.requests r).filter (·.txn ≠ txn) := by
  rw [requests, queue_without, Queue.without, requests]
  split
  · rename_i hnil
    exact hnil.symm
  · rfl

theorem groupMode_without (locks : LockTable) (txn : TxnId) (r : Resource) :
    (locks.without txn).groupMode r = Mode.joinAll (((locks.without txn).requests r).map (·.mode)) := by
  rw [groupMode, requests, queue_without, Queue.without]
  split <;> rfl

/-- There is a queue where somebody else has a request. -/
theorem mem_queues_without (locks : LockTable) (txn : TxnId) (r : Resource) :
    r ∈ (locks.without txn).queues ↔ ∃ request ∈ locks.requests r, request.txn ≠ txn := by
  rw [Std.ExtTreeMap.mem_iff_isSome_getElem?, getElem?_without, requests, queue]
  cases locks.queues[r]? with
  | none => simp
  | some queue => simp [Option.isSome_iff_ne_none, Queue.without_eq_none_iff]

/-! ### Withdrawals one after another -/

/-- A withdrawal from one resource takes the transaction out of its queue. -/
theorem Sound.getElem?_release (h : locks.Sound) : (locks.release txn resource).queues[r]? =
    if resource = r then locks.queues[r]?.bind (·.without txn) else locks.queues[r]? := by
  unfold LockTable.release
  cases hqueue : locks.queues[resource]? with
  | none =>
    simp only
    split
    · rename_i heq
      rw [← heq, hqueue]
      rfl
    · rfl
  | some queue =>
    have hwithout : queue.without txn = _ := (h.of_getElem? hqueue).without_eq
    by_cases heq : resource = r
    · subst heq
      rw [if_pos rfl, hqueue, Option.bind_some, hwithout]
      simp only [List.isEmpty_iff]
      split <;> simp [LockTable.setQueue]
    · rw [if_neg heq]
      simp only
      split <;> simp [LockTable.setQueue, Std.ExtTreeMap.getElem?_erase, Std.ExtTreeMap.getElem?_insert, heq]

/-- Withdrawals from several resources take the transaction out of their queues. -/
theorem Sound.getElem?_releaseAll (h : locks.Sound) (resources : List Resource) :
    (locks.releaseAll txn resources).queues[r]? =
      if r ∈ resources then locks.queues[r]?.bind (·.without txn) else locks.queues[r]? := by
  induction resources generalizing locks with
  | nil => simp [LockTable.releaseAll]
  | cons first rest ih =>
    have hfirst : (locks.release txn first).Sound := h.release
    show ((locks.release txn first).releaseAll txn rest).queues[r]? = _
    rw [ih hfirst, h.getElem?_release]
    by_cases heq : first = r
    · subst heq
      -- A second withdrawal from the resource finds nothing to take out.
      have hagain : (locks.queues[first]?.bind (·.without txn)).bind (·.without txn) =
          locks.queues[first]?.bind (·.without txn) := by
        rw [Option.bind_assoc]
        simp only [Queue.without_without]
      simp [hagain]
    · simp [heq, Ne.symm heq]

/-- Withdrawals that leave out no resource on which the transaction has a request take it out of the table. -/
theorem Sound.releaseAll_eq_without (h : locks.Sound) {resources : List Resource}
    (hall : ∀ r, locks.heldMode txn r ≠ none → r ∈ resources) :
    locks.releaseAll txn resources = locks.without txn := by
  have hqueues : (locks.releaseAll txn resources).queues = (locks.without txn).queues := by
    refine Std.ExtTreeMap.ext_getElem? fun r => ?_
    rw [h.getElem?_releaseAll, getElem?_without]
    split
    · rfl
    · rename_i hnot
      have hnone : locks.heldMode txn r = none := by
        by_contra hheld
        exact hnot (hall r hheld)
      cases hqueue : locks.queues[r]? with
      | none => rfl
      | some queue =>
        have hnone : queue.heldMode txn = none := by
          rwa [heldMode, LockTable.queue, hqueue] at hnone
        exact ((h.of_getElem? hqueue).without_eq_self (h.nonempty r queue hqueue) hnone).symm
  exact congrArg LockTable.mk hqueues

end LockTable

/-! ### The lock-set goes along -/

namespace Database

variable {h : Handle} {db : Database}

theorem foldl_release (h : Handle) (order : List Resource) (db : Database) :
    order.foldl (fun db resource => db.release h resource) db =
      ({ db with locks := db.locks.releaseAll (db.txn h).id order } : Database).updateTxn h
        fun t => { t with locks := order.foldl (fun locks resource => locks.erase resource) t.locks } := by
  induction order generalizing db with
  | nil => exact (updateTxn_eq_self rfl).symm
  | cons first rest ih =>
    have hid : ((db.release h first).txn h).id = (db.txn h).id := by
      by_cases hlt : h < db.transactions.size
      · exact (keepsIds_release h first db).id h hlt
      · simp [release, Database.txn, updateTxn, hlt]
    rw [List.foldl_cons, ih, hid]
    exact updateTxn_updateTxn
      ({ db with locks := db.locks.releaseAll (db.txn h).id (first :: rest) } : Database) h (·.removeLock first) _

theorem contains_foldl_erase (locks : Std.ExtTreeSet Resource) (order : List Resource) (r : Resource) :
    (order.foldl (fun locks resource => locks.erase resource) locks).contains r = true ↔
      r ∉ order ∧ locks.contains r = true := by
  induction order generalizing locks with
  | nil => simp
  | cons first rest ih =>
    rw [List.foldl_cons, ih, Std.ExtTreeSet.contains_erase]
    by_cases heq : first = r
    · simp [heq]
    · simp [heq, Ne.symm heq]

/-- The database in which a transaction has no locks any more. -/
def withdrawn (db : Database) (h : Handle) : Database :=
  ({ db with locks := db.locks.without (db.txn h).id } : Database).updateTxn h fun t => { t with locks := {} }

/-- Whoever gives up every resource of an exact lock-set has no locks any more, in whatever order he does. -/
theorem LocksExact.foldl_release (hl : db.LocksExact) (hlt : h < db.transactions.size) {order : List Resource}
    (horder : ∀ r, r ∈ order ↔ (db.txn h).holdsLock r = true) :
    order.foldl (fun db resource => db.release h resource) db = db.withdrawn h := by
  have hlocks : db.locks.releaseAll (db.txn h).id order = db.locks.without (db.txn h).id :=
    hl.sound.releaseAll_eq_without fun r hheld => (horder r).mpr ((hl.exact h hlt r).mpr hheld)
  have hempty : order.foldl (fun locks resource => locks.erase resource) (db.txn h).locks = {} := by
    refine Std.ExtTreeSet.eq_empty_iff_forall_contains.mpr fun r => ?_
    rw [Bool.eq_false_iff, Ne, contains_foldl_erase, horder]
    exact fun hboth => hboth.1 hboth.2
  rw [Database.foldl_release, hlocks, withdrawn]
  exact updateTxn_congr (congrArg (fun locks => ({ db.txn h with locks } : Transaction)) hempty)

theorem LocksExact.releaseAll_eq (hl : db.LocksExact) (hlt : h < db.transactions.size) :
    db.releaseAll h = db.withdrawn h := by
  have hlocks : db.locks.releaseAll (db.txn h).id (db.txn h).locks.toList = db.locks.without (db.txn h).id := by
    refine hl.sound.releaseAll_eq_without fun r hheld => ?_
    have hholds := (hl.exact h hlt r).mpr hheld
    simpa [Transaction.holdsLock] using hholds
  rw [Database.releaseAll, hlocks, withdrawn]

end Database

open Database

variable {start s : Session} {trace : List Event} {h : Handle}

/-- In every state that transactions with numbers of their own can bring the locks to, one of them gives up all its
locks with the same effect in whatever order its lock-set is gone through: its requests are gone, those of the
others are there in the order in which they came, every group is the join of the modes that are left, there are
queues for the resources on which somebody else has a request and for no others, the lock-set is empty, and nothing
else has changed. -/
theorem releaseAll_exact (hrun : Run start trace s) (hfresh : start.IsFresh) (hids : s.db.DistinctIds)
    (hlt : h < s.db.transactions.size) {order : List Resource}
    (horder : ∀ r, r ∈ order ↔ (s.db.txn h).holdsLock r = true) :
    let db' := order.foldl (fun db resource => db.release h resource) s.db
    db' = s.db.releaseAll h ∧
    (∀ r, db'.locks.requests r = (s.db.locks.requests r).filter (·.txn ≠ (s.db.txn h).id)) ∧
    (∀ r, db'.locks.groupMode r = Mode.joinAll ((db'.locks.requests r).map (·.mode))) ∧
    (∀ r, r ∈ db'.locks.queues ↔ ∃ request ∈ s.db.locks.requests r, request.txn ≠ (s.db.txn h).id) ∧
    db'.txn h = { s.db.txn h with locks := {} } ∧
    (∀ h', h ≠ h' → db'.txn h' = s.db.txn h') ∧
    { db' with locks := s.db.locks, transactions := s.db.transactions } = s.db := by
  intro db'
  have hl : s.db.LocksExact := hrun.locksExact hfresh hids
  have hlast : db' = s.db.withdrawn h := hl.foldl_release hlt horder
  rw [hlast]
  exact ⟨(hl.releaseAll_eq hlt).symm, s.db.locks.requests_without _, s.db.locks.groupMode_without _,
    s.db.locks.mem_queues_without _, txn_updateTxn_self ({ s.db with locks := _ } : Database) _ hlt,
    fun h' hne => txn_updateTxn_of_ne ({ s.db with locks := _ } : Database) _ hne, rfl⟩

/-- A transaction that reads a table and writes a record of it gives up the record first.  The other reader of the
table keeps its request, and the group falls back to that. -/
theorem releaseAll_exact_shared_table :
    let s := Session.oneTable.play [.adopt 1, .adopt 2, .run 0 (.acquire (.table 1) .shared),
      .run 1 (.acquire (.record 1 ⟨0, 0⟩) .shared), .run 0 (.acquire (.record 1 ⟨0, 1⟩) .exclusive)]
    let order : List Resource := [.record 1 ⟨0, 1⟩, .table 1]
    let db' := order.foldl (fun db resource => db.release 0 resource) s.db
    s.db.DistinctIds ∧ (∀ r, r ∈ order ↔ (s.db.txn 0).holdsLock r = true) ∧
    s.db.locks.groupMode (.table 1) = some .sharedIntentionExclusive ∧
    db'.locks.requests (.table 1) = [{ txn := 2, mode := .intentionShared }] ∧
    db'.locks.groupMode (.table 1) = some .intentionShared ∧ .record 1 ⟨0, 1⟩ ∉ db'.locks.queues := by
  intro s order db'
  have hids : s.db.DistinctIds := by decide +kernel
  have hlist : (s.db.txn 0).locks.toList = [.table 1, .record 1 ⟨0, 1⟩] := by decide +kernel
  have horder : ∀ r, r ∈ order ↔ (s.db.txn 0).holdsLock r = true := by
    intro r
    rw [Transaction.holdsLock, ← Std.ExtTreeSet.mem_iff_contains, ← Std.ExtTreeSet.mem_toList, hlist]
    simp [order, or_comm]
  obtain ⟨-, hrequests, hgroup, hqueues, -⟩ :=
    releaseAll_exact (.of_calls _ _) Session.oneTable_isFresh hids (by decide +kernel) horder
  have htable : db'.locks.requests (.table 1) = [{ txn := 2, mode := .intentionShared }] :=
    (hrequests (.table 1)).trans (by decide +kernel)
  refine ⟨hids, horder, by decide +kernel, htable, ?_, ?_⟩
  · rw [hgroup, htable]
    rfl
  · rw [hqueues]
    decide +kernel

end NoWait
