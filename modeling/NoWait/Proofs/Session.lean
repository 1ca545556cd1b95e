import NoWait.Database.Scan

/-!
# Sessions: many transactions at work on one database

A session is a database with the scans that were opened on it.  Transactions take turns on it call by
call; whatever order the calls come in is a run.

* `Statement` is what a transaction can ask for, `Call` whatever anyone can; `Session.step` makes a call;
* `Run` is a sequence of calls from a first session to a last, each an `Event` that knows the session it
  was made on;
* `Session.IsFresh` says that a session has seen no transaction yet, as `Session.oneTable` has not;
* `Database.DistinctIds` says that no two transactions have the same number.
-/

namespace NoWait

/-! ### Calls -/

/-- What a transaction asks for. -/
inductive Statement where
  | insert (table : String) (row : Bytes)
  | update (table : String) (rid : Rid) (row : Bytes)
  | delete (table : String) (rid : Rid)
  | read (table : String) (rid : Rid)
  | acquire (resource : Resource) (mode : Mode)
  deriving DecidableEq, Inhabited, Repr

/-- What a call gives back. -/
inductive Answer where
  | done
  | handle (h : Handle)
  | scan (i : Nat)
  | position (rid : Rid)
  | row (row : Bytes)
  | granted (isGranted : Bool)
  | ends (start stop : Position)
  | tuple (tuple : Option (Rid × Bytes))
  deriving DecidableEq, Inhabited, Repr

/-- What anyone can do to a session. -/
inductive Call where
  | begin
  | adopt (id : TxnId)
  | run (h : Handle) (statement : Statement)
  | lockGap (h : Handle) (table : TableId) (start stop : Position)
  | checkGap (h : Handle) (table : TableId) (position : Position)
  | lockRange (h : Handle) (table : String) (range : KeyRange)
  | openScan (owner : Handle) (table : String) (plan : ScanPlan)
  | initScan (i : Nat)
  | nextScan (i : Nat)
  | commit (h : Handle)
  | abort (h : Handle)
  | release (h : Handle) (resource : Resource)
  | releaseAll (h : Handle)
  | releaseGaps (h : Handle)
  deriving DecidableEq, Inhabited, Repr

/-- Whether the call gives up a lock or a gap by hand, ahead of the end of the transaction. -/
def Call.isByHand : Call → Bool
  | .release .. | .releaseAll _ | .releaseGaps _ => true
  | _ => false

/-- Whether the error comes from the log. -/
def StatementError.isLogFailure : StatementError → Bool
  | .log _ | .transaction (.log _) => true
  | _ => false

/-- Whether what a call gave back is an error that comes from the log. -/
def Answer.isLogFailure : Except StatementError Answer → Bool
  | .ok _ => false
  | .error error => error.isLogFailure

/-- A statement as an action of a transaction. -/
def Statement.perform (h : Handle) : Statement → Action StatementError Answer
  | .insert table row => return .position (← Database.insert h table row)
  | .update table rid row => return .row (← Database.update h table rid row)
  | .delete table rid => return .row (← Database.delete h table rid)
  | .read table rid => return .row (← Database.read h table rid)
  | .acquire resource mode => do
    (Database.acquire h resource mode).mapError .transaction
    return .done

/-! ### Sessions -/

/-- A database and the scans that were opened on it. -/
structure Session where
  db : Database
  scans : Array Scan := #[]
  deriving Inhabited, Repr

namespace Session

/-- Runs an action on the database, and goes on with the database that it leaves. -/
def act (s : Session) (action : Action StatementError Answer) :
    Except StatementError Answer × Session :=
  match action s.db with
  | .ok answer db => (.ok answer, { s with db })
  | .error error db => (.error error, { s with db })

/-- Runs a step of a scan, and goes on with the database and the scan that it leaves.  Where there is no
such scan nothing happens. -/
def actOnScan (s : Session) (i : Nat) (step : ScanAction Answer) :
    Except StatementError Answer × Session :=
  match s.scans[i]? with
  | none => (.ok .done, s)
  | some scan =>
    match step (s.db, scan) with
    | .ok answer (db, scan) => (.ok answer, { db, scans := s.scans.setIfInBounds i scan })
    | .error error (db, scan) => (.error error, { db, scans := s.scans.setIfInBounds i scan })

/-- Gives something up by hand; there has to be a transaction to give it up. -/
def giveUp (s : Session) (h : Handle) (change : Database → Database) :
    Except StatementError Answer × Session :=
  (.ok .done, if h < s.db.transactions.size then { s with db := change s.db } else s)

/-- Makes a call. -/
def step (s : Session) : Call → Except StatementError Answer × Session
  | .begin => s.act do return .handle (← Database.begin.mapError .transaction)
  | .adopt id => (.ok (.handle (s.db.adopt id).1), { s with db := (s.db.adopt id).2 })
  | .run h statement => s.act (statement.perform h)
  | .lockGap h table start stop =>
    s.act do return .granted (← (Database.lockGap h table start stop).mapError .transaction)
  | .checkGap h table position => s.act do
    (Database.checkGap h table position).mapError .transaction
    return .done
  | .lockRange h table range => s.act do
    let (start, stop) ← Database.lockRange h table range
    return .ends start stop
  | .openScan owner table plan =>
    (.ok (.scan s.scans.size), { s with scans := s.scans.push { owner, table, plan } })
  | .initScan i => s.actOnScan i do
    Scan.init
    return .done
  | .nextScan i => s.actOnScan i do return .tuple (← Scan.next)
  | .commit h => s.act do
    (Database.commit h).mapError .transaction
    return .done
  | .abort h => s.act do
    (Database.abort h).mapError .transaction
    return .done
  | .release h resource => s.giveUp h fun db => db.release h resource
  | .releaseAll h => s.giveUp h fun db => db.releaseAll h
  | .releaseGaps h => s.giveUp h fun db => db.releaseGaps h

/-- Nobody has worked on the session yet.  Its catalog may hold tables, and these may hold rows. -/
structure IsFresh (s : Session) : Prop where
  transactions : s.db.transactions = #[]
  locks : s.db.locks = {}
  gaps : s.db.gaps = {}
  scans : s.scans = #[]

/-- A session that nobody has worked on yet, with a table of one-byte rows, two on a page, that are
indexed as they are. -/
def oneTable : Session where
  db :=
    { log := { trail := .empty, buffer := { threshold := 1000 }, nextLsn := 1, flushedLsn := 0 }
      catalog := ({} : Catalog).put
        { name := "t", heap := { table := 1, config := { rowSize := 1, slotsPerPage := 2 } },
          index := some { offset := 0, length := 1 } } }

theorem oneTable_isFresh : oneTable.IsFresh := ⟨rfl, rfl, rfl, rfl⟩

end Session

/-- Whether no two transactions have the same number. -/
def Database.DistinctIds (db : Database) : Prop :=
  ∀ h < db.transactions.size, ∀ h' < db.transactions.size, (db.txn h).id = (db.txn h').id → h = h'

instance (db : Database) : Decidable db.DistinctIds :=
  inferInstanceAs (Decidable (∀ h < _, ∀ h' < _, _ → h = h'))

/-- Whether a transaction can go on: it was begun, and is neither committed nor marked aborted. -/
def Database.isActive (db : Database) (h : Handle) : Bool := !(db.txn h).state.isFinished

/-! ### Runs -/

/-- A call and the session that it is made on. -/
structure Event where
  before : Session
  call : Call

namespace Event

/-- What the call gives back. -/
def answer (event : Event) : Except StatementError Answer := (event.before.step event.call).1

/-- The session that the call leaves. -/
def after (event : Event) : Session := (event.before.step event.call).2

/-- Whether the call fails because the log refuses a record. -/
def failsLog (event : Event) : Bool := Answer.isLogFailure event.answer

/-- Whether the call commits the transaction of a handle. -/
def commits (event : Event) (h : Handle) : Bool := event.call = .commit h && event.answer.isOk

/-- Whether the call rolls the transaction of a handle back. -/
def aborts (event : Event) (h : Handle) : Bool := event.call = .abort h && event.answer.isOk

end Event

/-- A session, the calls made from there on, and the session that they leave. -/
inductive Run (start : Session) : List Event → Session → Prop where
  | nil : Run start [] start
  | snoc {trace : List Event} {s : Session} (call : Call) :
    Run start trace s → Run start (trace ++ [⟨s, call⟩]) (s.step call).2

/-- The run in which the given calls are made one after the other. -/
def Session.trace (s : Session) : List Call → List Event
  | [] => []
  | call :: calls => ⟨s, call⟩ :: Session.trace (s.step call).2 calls

/-- The session that the given calls leave. -/
def Session.play (s : Session) (calls : List Call) : Session :=
  calls.foldl (fun s call => (s.step call).2) s

namespace Run

variable {start s s' : Session} {trace rest : List Event}

/-- Two runs, the second from where the first ends, make one. -/
theorem append (h : Run start trace s) (h' : Run s rest s') : Run start (trace ++ rest) s' := by
  induction h' with
  | nil => rwa [List.append_nil]
  | snoc call _ ih =>
    rw [← List.append_assoc]
    exact .snoc call ih

theorem cons (call : Call) (h : Run (s.step call).2 trace s') : Run s (⟨s, call⟩ :: trace) s' := by
  have hfirst : Run s [⟨s, call⟩] (s.step call).2 := .snoc call .nil
  exact hfirst.append h

/-- Any calls make a run. -/
theorem of_calls (s : Session) (calls : List Call) : Run s (s.trace calls) (s.play calls) := by
  induction calls generalizing s with
  | nil => exact .nil
  | cons call calls ih => exact cons call (ih (s.step call).2)

/-- What holds of all of the given calls holds of all calls of the run. -/
theorem forall_trace {P : Call → Prop} (s : Session) {calls : List Call} (h : ∀ call ∈ calls, P call) :
    ∀ event ∈ s.trace calls, P event.call := by
  induction calls generalizing s with
  | nil => simp [Session.trace]
  | cons call calls ih =>
    rw [List.forall_mem_cons] at h
    rw [Session.trace, List.forall_mem_cons]
    exact ⟨h.1, ih _ h.2⟩

/-- What holds at first and is kept by every call of a run holds at its end. -/
theorem invariant (h : Run start trace s) (inv : Session → Prop) (hstart : inv start)
    (hstep : ∀ event ∈ trace, inv event.before → inv event.after) : inv s := by
  induction h with
  | nil => exact hstart
  | @snoc trace s call _ ih =>
    have hs : inv s := ih fun event hmem => hstep event (List.mem_append_left _ hmem)
    exact hstep ⟨s, call⟩ (List.mem_append_right _ (List.mem_singleton_self _)) hs

/-- A run goes through the session that each of its calls is made on. -/
theorem split (h : Run start trace s) {event : Event} (hmem : event ∈ trace) :
    ∃ before rest, trace = before ++ event :: rest ∧ Run start before event.before ∧
      Run event.after rest s := by
  induction h with
  | nil => cases hmem
  | @snoc trace s call hrun ih =>
    rcases List.mem_append.mp hmem with hmem | hmem
    · obtain ⟨before, rest, htrace, hbefore, hrest⟩ := ih hmem
      exact ⟨before, rest ++ [⟨s, call⟩], by rw [htrace]; simp, hbefore, .snoc call hrest⟩
    · obtain rfl := List.mem_singleton.mp hmem
      exact ⟨trace, [], rfl, hrun, .nil⟩

/-- What holds at first and is kept by every call of a run holds before each of them. -/
theorem invariant_before (h : Run start trace s) (inv : Session → Prop) (hstart : inv start)
    (hstep : ∀ event ∈ trace, inv event.before → inv event.after) :
    ∀ event ∈ trace, inv event.before := by
  intro event hmem
  obtain ⟨before, rest, rfl, hbefore, -⟩ := h.split hmem
  exact hbefore.invariant inv hstart fun event hmem => hstep event (List.mem_append_left _ hmem)

end Run

end NoWait
