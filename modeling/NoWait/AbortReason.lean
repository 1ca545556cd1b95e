/-!
# Why a refused request ends its transaction

Nothing waits for a lock here: a request that cannot be granted on the spot is refused, and its
transaction has to be rolled back.  The reason tells the three kinds of refusal apart.
-/

namespace NoWait

/-- Why a transaction was marked aborted by one of its requests. -/
inductive AbortReason where
  /-- A new request conflicts with a mode that another transaction holds. -/
  | deadlockPrevention
  /-- A held mode cannot be strengthened beside the modes of the others. -/
  | upgradeConflict
  /-- A write or a range lock meets a gap that another transaction holds. -/
  | gapConflict
  deriving DecidableEq, Inhabited, Repr

/-- The words for a reason. -/
def AbortReason.text : AbortReason → String
  | .deadlockPrevention => "deadlock prevention"
  | .upgradeConflict => "lock upgrade conflict"
  | .gapConflict => "gap lock conflict"

end NoWait
