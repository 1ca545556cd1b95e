import NoWait.AbortReason
import NoWait.Lock.Queue
import Std.Data.ExtTreeMap

/-!
# The lock table

The lock table keeps a queue for every resource on which some transaction has a request.  It knows
nothing of transactions but their numbers.

* `LockTable.request` grants a mode on the spot or gives the reason for its refusal; a transaction
  that already holds a mode asks for the join of the two;
* `LockTable.release` withdraws a transaction's request and drops a queue that runs empty;
* `heldMode`, `groupMode` and `lockedByOther` are the views that callers ask for.
-/

namespace NoWait

/-- A queue of requests for every locked resource. -/
structure LockTable where
  queues : Std.ExtTreeMap Resource Queue := {}
  deriving Inhabited, Repr

namespace LockTable

/-- The queue of a resource, empty when nobody has a request on it. -/
def queue (locks : LockTable) (resource : Resource) : Queue :=
  locks.queues[resource]?.getD {}

/-- The requests on a resource, in the order in which they came. -/
def requests (locks : LockTable) (resource : Resource) : List Request :=
  (locks.queue resource).requests

/-- The join of the modes granted on a resource. -/
def groupMode (locks : LockTable) (resource : Resource) : GroupMode :=
  (locks.queue resource).group

/-- The mode that a transaction holds on a resource. -/
def heldMode (locks : LockTable) (txn : TxnId) (resource : Resource) : Option Mode :=
  (locks.queue resource).heldMode txn

/-- Whether a transaction other than `txn` has a request on the resource. -/
def lockedByOther (locks : LockTable) (txn : TxnId) (resource : Resource) : Bool :=
  (locks.queue resource).hasOther txn

/-- The number of resources with a queue. -/
def size (locks : LockTable) : Nat := locks.queues.size

/-- The table with a new queue for a resource. -/
def setQueue (locks : LockTable) (resource : Resource) (queue : Queue) : LockTable :=
  ⟨locks.queues.insert resource queue⟩

/-- Grants `mode` on a resource to a transaction, or says why not.  A held mode that covers the request
is left alone; any other is strengthened to the join, which must suit the other holders. -/
def request (locks : LockTable) (txn : TxnId) (resource : Resource) (mode : Mode) :
    Except AbortReason LockTable :=
  let queue := locks.queue resource
  match queue.heldMode txn with
  | some held =>
    if held.covers mode then .ok locks
    else if queue.conflicts txn (held.join mode) then .error .upgradeConflict
    else .ok (locks.setQueue resource (queue.upgrade txn (held.join mode)))
  | none =>
    if queue.conflicts txn mode then .error .deadlockPrevention
    else .ok (locks.setQueue resource (queue.grant txn mode))

/-- Withdraws a transaction's request on a resource, if it has one. -/
def release (locks : LockTable) (txn : TxnId) (resource : Resource) : LockTable :=
  match locks.queues[resource]? with
  | none => locks
  | some queue =>
    let rest := queue.remove txn
    if rest.requests.isEmpty then ⟨locks.queues.erase resource⟩ else locks.setQueue resource rest

/-- Withdraws a transaction's requests on all the given resources. -/
def releaseAll (locks : LockTable) (txn : TxnId) (resources : List Resource) : LockTable :=
  resources.foldl (fun locks resource => locks.release txn resource) locks

/-! ### Views after an operation -/

theorem queue_setQueue (locks : LockTable) (r r' : Resource) (queue : Queue) :
    (locks.setQueue r queue).queue r' = if r = r' then queue else locks.queue r' := by
  by_cases h : r = r' <;> simp [LockTable.queue, setQueue, Std.ExtTreeMap.getElem?_insert, h]

/-- A release changes no queue but that of its resource. -/
theorem queue_release_of_ne (locks : LockTable) (txn : TxnId) {r r' : Resource} (h : r ≠ r') :
    (locks.release txn r).queue r' = locks.queue r' := by
  unfold release
  split
  · rfl
  · simp only
    split
    · simp [LockTable.queue, Std.ExtTreeMap.getElem?_erase, h]
    · rw [queue_setQueue, if_neg h]

end LockTable

end NoWait
