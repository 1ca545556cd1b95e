import NoWait.Lock.Mode
import NoWait.Lock.Resource

/-!
# The requests on one resource

A queue lists the requests that transactions have made on a resource, in the order in which they
came, and keeps the join of the granted modes beside them.  A grant joins its mode to the group; modes
do not come apart again, so an upgrade and a removal fold the group afresh.
-/

namespace NoWait

/-- One transaction's request on a resource. -/
structure Request where
  txn : TxnId
  mode : Mode
  granted : Bool := true
  deriving DecidableEq, Inhabited, Repr

/-- The requests on one resource and the join of the granted ones. -/
structure Queue where
  requests : List Request := []
  group : GroupMode := none
  deriving DecidableEq, Inhabited, Repr

namespace Queue

/-- The join of the granted modes in a list of requests. -/
def groupOf (requests : List Request) : GroupMode :=
  (requests.filter (·.granted)).foldl (fun group r => GroupMode.join group r.mode) none

/-- The mode in the first request of a transaction. -/
def heldMode (queue : Queue) (txn : TxnId) : Option Mode :=
  (queue.requests.find? (·.txn = txn)).map (·.mode)

/-- Whether a transaction other than `txn` has a granted mode that `mode` cannot stand beside. -/
def conflicts (queue : Queue) (txn : TxnId) (mode : Mode) : Bool :=
  queue.requests.any fun r => r.granted && r.txn ≠ txn && !r.mode.compatible mode

/-- Whether a transaction other than `txn` has a request here. -/
def hasOther (queue : Queue) (txn : TxnId) : Bool := queue.requests.any (·.txn ≠ txn)

/-- The queue with a further granted request at its end. -/
def grant (queue : Queue) (txn : TxnId) (mode : Mode) : Queue where
  requests := queue.requests ++ [{ txn, mode }]
  group := GroupMode.join queue.group mode

/-- Gives the first request of a transaction a new mode, in place. -/
def setMode (txn : TxnId) (mode : Mode) : List Request → List Request
  | [] => []
  | r :: rest => if r.txn = txn then { r with mode } :: rest else r :: setMode txn mode rest

/-- The queue with the transaction's request strengthened to `mode`, where it stands. -/
def upgrade (queue : Queue) (txn : TxnId) (mode : Mode) : Queue :=
  let requests := setMode txn mode queue.requests
  { requests, group := groupOf requests }

/-- The queue without the first request of a transaction. -/
def remove (queue : Queue) (txn : TxnId) : Queue :=
  let requests := queue.requests.eraseP (·.txn = txn)
  { requests, group := groupOf requests }

/-! ### Who is in a queue after each operation -/

theorem map_txn_setMode (txn : TxnId) (mode : Mode) (requests : List Request) :
    (setMode txn mode requests).map (·.txn) = requests.map (·.txn) := by
  induction requests with
  | nil => rfl
  | cons r rest ih =>
    by_cases h : r.txn = txn
    · simp [setMode, h]
    · simp [setMode, h, ih]

/-- A strengthened request is found with its new mode; the others keep theirs. -/
theorem find?_setMode (txn other : TxnId) (mode : Mode) (requests : List Request) :
    ((setMode txn mode requests).find? (·.txn = other)).map (·.mode) =
      if txn = other then ((requests.find? (·.txn = other)).map fun _ => mode)
      else (requests.find? (·.txn = other)).map (·.mode) := by
  induction requests with
  | nil => simp [setMode]
  | cons r rest ih =>
    by_cases h : r.txn = txn
    · by_cases h' : txn = other <;> simp_all [setMode]
    · by_cases h' : r.txn = other
      · subst h'
        have hne : ¬ txn = r.txn := fun e => h e.symm
        simp [setMode, h, hne]
      · simp [setMode, h, h', ih]

end Queue

end NoWait
