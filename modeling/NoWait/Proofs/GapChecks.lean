import NoWait.Proofs.LockedRanges

/-!
# Gap checks are exact

A write that brings a key into an index is refused exactly if some other transaction has locked a range that
admits the key, and has not let go of it.

* `Action.FailsOnly` says with what errors an action fails: only locks and gaps are refused, and all that
  statements are made of fail for other reasons than a gap, but for the check itself;
* `FailsForGap` says that an action fails for a gap under a condition and under no other, and `GapRefused` what
  it leaves then;
* `insert_failsForGap` and `update_failsForGap` are the conditions for the two statements that check gaps;
* `gap_check_exact` is the result.
-/

namespace NoWait

open Database

variable {start s : Session} {trace : List Event} {h : Handle} {name : String} {rid : Rid} {row : Bytes}
  {db mid db' : Database}

/-! ### Actions that do not fail for a gap -/

/-- Why a lock is refused: never for a gap. -/
theorem LockTable.request_error {locks : LockTable} {txn : TxnId} {resource : Resource} {mode : Mode}
    {reason : AbortReason} (h : locks.request txn resource mode = .error reason) :
    reason ≠ .gapConflict := by
  rintro rfl
  unfold LockTable.request at h
  grind

/-- Whether a request fails for another reason than a gap. -/
def TransactionError.IsNoGapConflict (error : TransactionError) : Prop :=
  error.abortReason? ≠ some .gapConflict

/-- Whether a statement fails for another reason than a gap. -/
def StatementError.IsNoGapConflict (error : StatementError) : Prop :=
  error.abortReason? ≠ some .gapConflict

/-- Whether a transaction fails for nothing that has it rolled back. -/
def TransactionError.IsNoRefusal (error : TransactionError) : Prop := error.abortReason? = none

/-- Whether a statement fails for nothing that has the transaction rolled back. -/
def StatementError.IsNoRefusal (error : StatementError) : Prop := error.abortReason? = none

theorem TransactionError.IsNoRefusal.isNoGapConflict {error : TransactionError} (h : error.IsNoRefusal) :
    error.IsNoGapConflict := by
  rw [IsNoGapConflict, show error.abortReason? = none from h]
  exact nofun

theorem StatementError.isNoRefusal_storage (error : StorageError) : (storage error).IsNoRefusal := rfl

theorem StatementError.isNoRefusal_log (error : LogError) : (log error).IsNoRefusal := rfl

theorem StatementError.IsNoRefusal.isNoGapConflict {error : StatementError} (h : error.IsNoRefusal) :
    error.IsNoGapConflict := by
  rw [IsNoGapConflict, show error.abortReason? = none from h]
  exact nofun

namespace Action

variable {ε ε' α β : Type} {action : Action ε α} {E E' : ε → Prop}

/-- Whether an action fails with errors of one kind only. -/
def FailsOnly (action : Action ε α) (E : ε → Prop) : Prop :=
  ∀ db, action.Ends db (fun _ _ => True) fun error _ => E error

theorem failsOnly_pure (value : α) : (pure value : Action ε α).FailsOnly E := fun _ => trivial

theorem failsOnly_throw {error : ε} (h : E error) : (throw error : Action ε α).FailsOnly E := fun _ => h

theorem FailsOnly.mono (h : action.FailsOnly E) (hE : ∀ error, E error → E' error) : action.FailsOnly E' :=
  fun db => (h db).mono (fun _ _ _ => trivial) fun error _ herror => hE error herror

/-- An action all of whose errors are turned into errors of a kind. -/
theorem failsOnly_mapError {f : ε → ε'} {E : ε' → Prop} (h : ∀ error, E (f error)) :
    (action.mapError f).FailsOnly E := by
  intro db
  rw [ends_mapError]
  unfold Ends
  cases action db with
  | ok => trivial
  | error error => exact h error

theorem FailsOnly.bind {next : α → Action ε β} (h : action.FailsOnly E)
    (hnext : ∀ value, (next value).FailsOnly E) : (action >>= next).FailsOnly E := by
  intro db
  rw [ends_bind]
  exact (h db).mono (fun value mid _ => hnext value mid) fun _ _ herror => herror

theorem FailsOnly.mapError {f : ε → ε'} {E : ε' → Prop} (h : action.FailsOnly fun error => E (f error)) :
    (action.mapError f).FailsOnly E := fun db => ends_mapError.mpr (h db)

theorem FailsOnly.onFailure (h : action.FailsOnly E) (repair : Database → Database) :
    (action.onFailure repair).FailsOnly E := fun db => ends_onFailure.mpr (h db)

end Action

namespace Database

theorem ensureActive_unrefused (h : Handle) : (ensureActive h).FailsOnly TransactionError.IsNoRefusal := by
  refine fun db => (ensureActive_ends h db).mono (fun _ _ _ => trivial) ?_
  rintro _ _ ⟨-, -, rfl⟩
  rfl

theorem lockResource_passes (h : Handle) (resource : Resource) (mode : Mode) :
    (lockResource h resource mode).FailsOnly TransactionError.IsNoGapConflict := by
  intro db
  simp only [lockResource, Action.ends_bind, Action.ends_get]
  cases hrequest : db.locks.request (db.txn h).id resource mode with
  | error reason =>
    refine (refuse_ends h reason db).mono (fun _ _ hfalse => hfalse) ?_
    rintro _ _ ⟨-, rfl⟩
    exact fun hgap => LockTable.request_error hrequest (Option.some.inj hgap)
  | ok locks =>
    simp only [Action.ends_bind, Action.ends_set]
    split
    · trivial
    · trivial

theorem acquire_passes (h : Handle) (resource : Resource) (mode : Mode) :
    (acquire h resource mode).FailsOnly TransactionError.IsNoGapConflict := by
  refine ((ensureActive_unrefused h).mono fun _ herror => herror.isNoGapConflict).bind fun _ => ?_
  cases resource with
  | table id => exact lockResource_passes h (.table id) mode
  | record id rid =>
    have hboth := (lockResource_passes h (Resource.record id rid).parent mode.intention).bind fun _ =>
      lockResource_passes h (.record id rid) mode
    simp only
    split
    · exact (Action.failsOnly_throw (E := TransactionError.IsNoGapConflict)
        fun hgap => by cases hgap).bind fun _ => hboth
    · exact hboth

theorem table_unrefused (name : String) : (table name).FailsOnly StatementError.IsNoRefusal := by
  refine fun db => (table_ends name db).mono (fun _ _ _ => trivial) ?_
  rintro _ _ ⟨-, -, rfl⟩
  rfl

theorem rowAt_unrefused (name : String) (rid : Rid) : (rowAt name rid).FailsOnly StatementError.IsNoRefusal :=
  (table_unrefused name).bind fun _ => Action.failsOnly_mapError StatementError.isNoRefusal_storage

theorem onTable_unrefused {α : Type} (name : String) (operation : Table → Except StorageError (α × Table)) :
    (onTable name operation).FailsOnly StatementError.IsNoRefusal :=
  (table_unrefused name).bind fun _ =>
    (Action.failsOnly_mapError StatementError.isNoRefusal_storage).bind fun _ _ => trivial

theorem enterWrite_unrefused (h : Handle) (write : WriteRecord) (after : Option Bytes) :
    (enterWrite h write after).FailsOnly StatementError.IsNoRefusal := by
  have hadd : (addWrite h write).FailsOnly TransactionError.IsNoRefusal :=
    (ensureActive_unrefused h).bind fun _ _ => trivial
  refine (table_unrefused write.table).bind fun table => ?_
  exact (Action.FailsOnly.mapError (E := StatementError.IsNoRefusal) hadd).bind fun _ =>
    Action.failsOnly_mapError StatementError.isNoRefusal_log

theorem reserveSlot_unrefused (h : Handle) (name : String) :
    (reserveSlot h name).FailsOnly StatementError.IsNoRefusal := by
  refine (table_unrefused name).bind fun table db => ?_
  exact Action.failsOnly_mapError StatementError.isNoRefusal_storage _

/-- What fails for no refusal fails for no gap. -/
theorem passes_of_unrefused {α : Type} {action : Action StatementError α}
    (h : action.FailsOnly StatementError.IsNoRefusal) : action.FailsOnly StatementError.IsNoGapConflict :=
  h.mono fun _ herror => herror.isNoGapConflict

theorem lockRow_passes (h : Handle) (name : String) (rid : Rid) (mode : Mode) :
    (lockRow h name rid mode).FailsOnly StatementError.IsNoGapConflict :=
  (passes_of_unrefused (table_unrefused name)).bind fun _ => .mapError (acquire_passes h _ mode)

theorem fillSlot_passes (h : Handle) (name : String) (rid : Rid) (row : Bytes) :
    (fillSlot h name rid row).FailsOnly StatementError.IsNoGapConflict :=
  ((lockRow_passes h name rid .exclusive).bind fun _ => passes_of_unrefused (onTable_unrefused name _)).onFailure _

/-! ### The checks of a statement -/

/-- What is left of a statement that was refused because of a gap: the transaction is marked aborted and may
have got locks, and everything else is as it was. -/
structure GapRefused (h : Handle) (db db' : Database) : Prop where
  aborted : (db'.txn h).isAborted = true
  catalog : db'.catalog = db.catalog
  gaps : db'.gaps = db.gaps
  log : db'.log = db.log
  writes : (db'.txn h).writes = (db.txn h).writes

theorem GapRefused.of_setState (hlt : h < db.transactions.size) :
    GapRefused h db (db.setState h .aborted) := by
  have hself := txn_updateTxn_self db (fun t => { t with state := .aborted }) hlt
  refine ⟨?_, rfl, rfl, rfl, ?_⟩
  · rw [setState, hself]
    rfl
  · rw [setState, hself]

/-- Whether an action fails because of a gap under a condition, and under no other. -/
def FailsForGap {α : Type} (action : Action StatementError α) (h : Handle) (db : Database)
    (blocked : Prop) : Prop :=
  action.Ends db (fun _ _ => ¬ blocked) fun error db' =>
    (blocked ∧ error = .transaction (.aborted (db.txn h).id .gapConflict) ∧ GapRefused h db db') ∨
      (¬ blocked ∧ error.IsNoGapConflict)

/-- Whether a check of a key, if there is one, would meet a gap of another transaction. -/
def Blocked (db : Database) (h : Handle) (table : TableId) (key? : Option Bytes) : Prop :=
  ∃ key, key? = some key ∧ db.gaps.blocks (db.txn h).id table (.before key) = true

/-- An action that first checks a key fails for a gap if the check does. -/
theorem checkKey_failsForGap {α : Type} {next : Action StatementError α}
    (hnext : next.FailsOnly StatementError.IsNoGapConflict) (hactive : db.isActive h = true)
    (table : TableId) (key? : Option Bytes) :
    FailsForGap (do
      if let some key := key? then (checkGap h table (.before key)).mapError .transaction
      next : Action StatementError α) h db (db.Blocked h table key?) := by
  have hlater : ¬ db.Blocked h table key? → next.Ends db (fun _ _ => ¬ db.Blocked h table key?)
      fun error db' => (db.Blocked h table key? ∧ error = .transaction
          (.aborted (db.txn h).id .gapConflict) ∧ GapRefused h db db') ∨
        (¬ db.Blocked h table key? ∧ error.IsNoGapConflict) :=
    fun hfree => (hnext db).mono (fun _ _ _ => hfree) fun _ _ herror => .inr ⟨hfree, herror⟩
  unfold FailsForGap
  cases key? with
  | none => exact hlater fun ⟨_, hkey, _⟩ => by cases hkey
  | some key =>
    simp only [Action.ends_bind, Action.ends_mapError, checkGap]
    apply (ensureActive_ends h db).mono
    · intro _ db hgoing
      obtain ⟨rfl, -⟩ := hgoing
      rw [Action.ends_get]
      split
      · rename_i hblocks
        exact .inl ⟨⟨key, rfl, hblocks⟩, rfl, .of_setState (lt_of_isActive hactive)⟩
      · rename_i hfree
        refine hlater ?_
        rintro ⟨_, hkey, hblocks⟩
        cases hkey
        exact hfree hblocks
    · rintro _ _ ⟨rfl, hstopped, -⟩
      have hinactive := hstopped.inactive
      rw [hactive] at hinactive
      cases hinactive

/-- An action that first takes a lock fails for a gap if it gets the lock and what comes then, with the gaps as
they were, fails for a gap. -/
theorem acquire_bind_failsForGap {α : Type} {next : Action StatementError α} {resource : Resource}
    {mode : Mode} {blocked : Prop}
    (hnext : ∀ mid, mid.isActive h = true → mid.catalog = db.catalog →
      (∀ table key?, mid.Blocked h table key? ↔ db.Blocked h table key?) →
      FailsForGap next h mid blocked) :
    FailsForGap (do (acquire h resource mode).mapError .transaction; next) h db
      ((∃ mid, acquire h resource mode db = .ok () mid) ∧ blocked) := by
  have hends := ((acquire_ends h resource mode db).and (acquire_frame (R := SameStore) h resource mode db)).and
    (acquire_frame (R := SameGaps) h resource mode db)
  have hpasses := acquire_passes h resource mode db
  unfold FailsForGap
  rw [Action.ends_bind, Action.ends_mapError]
  unfold Action.Ends at hends hpasses ⊢
  cases hacquire : acquire h resource mode db with
  | error error mid =>
    rw [hacquire] at hpasses
    exact .inr ⟨fun ⟨⟨_, hok⟩, _⟩ => (by cases hok), hpasses⟩
  | ok _ mid =>
    rw [hacquire] at hends
    obtain ⟨⟨⟨-, hgranted, -⟩, hsame⟩, hgaps⟩ := hends
    have hgaps : mid.gaps = db.gaps := hgaps
    have hblocked : ∀ table key?, mid.Blocked h table key? ↔ db.Blocked h table key? := by
      intro table key?
      rw [Blocked, Blocked, hgaps, hgranted.id]
    have hfails := hnext mid hgranted.active hsame.catalog hblocked
    unfold FailsForGap at hfails
    refine hfails.mono (fun _ _ hfree hboth => hfree hboth.2) ?_
    rintro error db' (⟨hb, rfl, hrefused⟩ | ⟨hfree, herror⟩)
    · refine .inl ⟨⟨⟨mid, rfl⟩, hb⟩, by rw [hgranted.id], hrefused.aborted, ?_, ?_, ?_, ?_⟩
      · rw [hrefused.catalog, hsame.catalog]
      · rw [hrefused.gaps, hgaps]
      · rw [hrefused.log, hsame.log]
      · rw [hrefused.writes, hgranted.writes]
    · exact .inr ⟨fun hboth => hfree hboth.2, herror⟩

/-- An insertion fails for a gap if and only if it gets its lock on the table and the key of the row is in a
gap of another transaction. -/
theorem insert_failsForGap {table : Table} (hget : db.catalog.get? name = some table) :
    FailsForGap (insert h name row) h db
      ((∃ mid, acquire h (.table table.id) .intentionExclusive db = .ok () mid) ∧
        db.Blocked h table.id (table.keyOf? row)) := by
  unfold FailsForGap insert
  refine (table_succeeds hget).bind_ends ?_
  rintro table db ⟨rfl, rfl⟩
  refine acquire_bind_failsForGap fun mid hactive _ hblocked => ?_
  rw [← hblocked]
  refine checkKey_failsForGap ?_ hactive table.id (table.keyOf? row)
  exact (passes_of_unrefused (reserveSlot_unrefused h name)).bind fun rid =>
    (fillSlot_passes h name rid row).bind fun _ =>
      (passes_of_unrefused (enterWrite_unrefused h _ _)).bind fun _ => Action.failsOnly_pure _

/-- An update fails for a gap if and only if it gets its lock on the record, there is a row, and its new key,
if that is another one, is in a gap of another transaction. -/
theorem update_failsForGap {table : Table} (hget : db.catalog.get? name = some table) :
    FailsForGap (update h name rid row) h db
      ((∃ mid, acquire h (.record table.id rid) .exclusive db = .ok () mid) ∧
        ∃ before, table.heap.row? rid = some before ∧
          db.Blocked h table.id (table.newKey? before row)) := by
  unfold FailsForGap update lockRow
  simp only [Action.ends_bind]
  refine (table_succeeds hget).ends ?_
  rintro table db ⟨rfl, rfl⟩
  simp only [← Action.ends_bind]
  refine acquire_bind_failsForGap fun mid hactive hcatalog hblocked => ?_
  have hmid : mid.catalog.get? name = some table := by rw [hcatalog, hget]
  unfold FailsForGap
  rw [Action.ends_bind]
  apply (rowAt_ends hmid rid).mono
  · intro before mid hrow
    obtain ⟨rfl, hrow⟩ := hrow
    have hnewKey : (∃ before, table.heap.row? rid = some before ∧
        db.Blocked h table.id (table.newKey? before row)) ↔
        mid.Blocked h table.id (table.newKey? before row) := by
      rw [hblocked, hrow]
      simp
    rw [hnewKey]
    refine (table_succeeds hmid).bind_ends ?_
    rintro table mid ⟨rfl, rfl⟩
    refine checkKey_failsForGap ?_ hactive table.id (table.newKey? before row)
    exact passes_of_unrefused ((enterWrite_unrefused h _ _).bind fun _ => onTable_unrefused name _)
  · intro error last hmissing
    obtain ⟨rfl, hnone, rfl⟩ := hmissing
    refine .inr ⟨?_, fun hgap => by cases hgap⟩
    rintro ⟨before, hrow, -⟩
    rw [hnone] at hrow
    cases hrow

theorem delete_passes (h : Handle) (name : String) (rid : Rid) :
    (delete h name rid).FailsOnly StatementError.IsNoGapConflict :=
  (lockRow_passes h name rid _).bind fun _ => passes_of_unrefused <|
    (rowAt_unrefused name rid).bind fun _ => (enterWrite_unrefused h _ _).bind fun _ => onTable_unrefused name _

/-- A deletion never fails for a gap. -/
theorem delete_failsForGap (h : Handle) (name : String) (rid : Rid) (db : Database) :
    FailsForGap (delete h name rid) h db False :=
  (delete_passes h name rid db).mono (fun _ _ _ => not_false) fun _ _ herror => .inr ⟨not_false, herror⟩

/-- What an action fails for does not depend on what is made of its result. -/
theorem FailsForGap.bind_pure {α β : Type} {action : Action StatementError α} {blocked : Prop}
    (hfails : FailsForGap action h db blocked) (f : α → β) :
    FailsForGap (do return f (← action)) h db blocked := by
  unfold FailsForGap
  rw [Action.ends_bind]
  exact hfails

end Database

/-! ### Statements that are refused -/

namespace Session

/-- A statement that fails for a gap under a condition is refused under that condition. -/
theorem run_failsForGap (s : Session) (statement : Statement) {blocked : Prop}
    (hfails : FailsForGap (statement.perform h) h s.db blocked) :
    ((s.step (.run h statement)).1 =
        .error (.transaction (.aborted (s.db.txn h).id .gapConflict)) ↔ blocked) ∧
      (blocked → GapRefused h s.db (s.step (.run h statement)).2.db) := by
  refine act_spec (P := fun answer db' =>
    (answer = .error (.transaction (.aborted (s.db.txn h).id .gapConflict)) ↔ blocked) ∧
      (blocked → GapRefused h s.db db')) (hfails.mono ?_ ?_)
  · intro answer db' hfree
    exact ⟨iff_of_false nofun hfree, fun hblocked => absurd hblocked hfree⟩
  · rintro error db' (⟨hblocked, rfl, hrefused⟩ | ⟨hfree, herror⟩)
    · exact ⟨iff_of_true rfl hblocked, fun _ => hrefused⟩
    · refine ⟨iff_of_false (fun heq => herror ?_) hfree, fun hblocked => absurd hblocked hfree⟩
      cases heq
      rfl

/-- A request for a lock is answered with a grant if and only if it goes through. -/
theorem run_acquire_iff {resource : Resource} {mode : Mode} :
    (s.step (.run h (.acquire resource mode))).1 = .ok .done ↔
      ∃ mid, acquire h resource mode s.db = .ok () mid := by
  show (s.act (do (acquire h resource mode).mapError .transaction; return .done)).1 = .ok .done ↔ _
  unfold act
  cases hacquire : acquire h resource mode s.db with
  | ok _ mid => simp [Action.mapError, EStateM.adaptExcept, bind, EStateM.bind, hacquire, pure, EStateM.pure]
  | error error mid => simp [Action.mapError, EStateM.adaptExcept, bind, EStateM.bind, hacquire]

end Session

/-- Where gaps are taken for ranges only and given up at the end of their transaction only, an insertion that
gets its lock on the table is refused for a gap if and only if some other transaction has locked a range on
the table that admits the key of the row, and has not let go of it.  An update that gets its lock on the record
and finds a row there is refused if and only if the key changes and such a range admits the new key.  What is
refused leaves tables, log, gaps and writes as they were, and the transaction marked aborted. -/
theorem gap_check_exact (hrun : Run start trace s) (hfresh : start.IsFresh)
    (hcatalog : start.db.catalog.Sound) (hnumbers : start.db.catalog.DistinctNumbers)
    (hranges : ∀ event ∈ trace, event.call.isByRange = true) {shape : TableShape}
    (hshape : s.db.catalog.shapes name = some shape) (h : Handle) :
    (∀ row, (s.step (.run h (.insert name row))).1 =
        .error (.transaction (.aborted (s.db.txn h).id .gapConflict)) ↔
      (s.step (.run h (.acquire (.table shape.id) .intentionExclusive))).1 = .ok .done ∧
        ∃ key, s.db.catalog.keyOf? name row = some key ∧
          OthersAdmit trace (s.db.txn h).id name key) ∧
    (∀ rid row, (s.step (.run h (.update name rid row))).1 =
        .error (.transaction (.aborted (s.db.txn h).id .gapConflict)) ↔
      (s.step (.run h (.acquire (.record shape.id rid) .exclusive))).1 = .ok .done ∧
        ∃ before, s.db.catalog.rows name rid = some before ∧
          ∃ key, s.db.catalog.keyOf? name row = some key ∧ s.db.catalog.keyOf? name before ≠ some key ∧
            OthersAdmit trace (s.db.txn h).id name key) ∧
    ∀ statement, statement.written? = some name → (s.step (.run h statement)).1 =
        .error (.transaction (.aborted (s.db.txn h).id .gapConflict)) →
      GapRefused h s.db (s.step (.run h statement)).2.db := by
  obtain ⟨table, hget, rfl⟩ := Option.map_eq_some_iff.mp hshape
  have hblocked : ∀ key?, s.db.Blocked h table.id key? ↔
      ∃ key, key? = some key ∧ OthersAdmit trace (s.db.txn h).id name key := fun key? => by
    simp only [Blocked, ← hrun.blocks_iff hfresh hcatalog hnumbers hranges hshape]
    rfl
  have hkeyOf : s.db.catalog.keyOf? name = table.keyOf? := Catalog.keyOf?_of_get? hget
  have hinsert := fun row => s.run_failsForGap (.insert name row)
    ((insert_failsForGap (h := h) hget).bind_pure Answer.position)
  have hupdate := fun rid row => s.run_failsForGap (.update name rid row)
    ((update_failsForGap (h := h) hget).bind_pure Answer.row)
  refine ⟨fun row => ?_, fun rid row => ?_, fun statement hwritten hanswer => ?_⟩
  · rw [(hinsert row).1, Session.run_acquire_iff, hblocked, hkeyOf]
    rfl
  · rw [(hupdate rid row).1, Session.run_acquire_iff, hkeyOf, Catalog.rows_of_get? hget]
    simp only [hblocked, Table.newKey?, Option.filter_eq_some_iff, decide_eq_true_eq, and_assoc]
    rfl
  · cases statement with
    | insert name' row =>
      cases hwritten
      exact (hinsert row).2 ((hinsert row).1.mp hanswer)
    | update name' rid row =>
      cases hwritten
      exact (hupdate rid row).2 ((hupdate rid row).1.mp hanswer)
    | delete name' rid =>
      have hdelete := s.run_failsForGap (.delete name' rid)
        ((delete_failsForGap h name' rid s.db).bind_pure Answer.row)
      exact (hdelete.1.mp hanswer).elim
    | read => cases hwritten
    | acquire => cases hwritten

/-- A transaction has locked the range from behind one key to another; an insertion of a key in between is
refused, and one of the key that is excluded is not. -/
theorem gap_check_exact_excluded_end :
    let calls : List Call := [.begin, .begin, .lockRange 0 "t" { lower := .excluded [5], upper := .included [9] }]
    let s := Session.oneTable.play calls
    (s.step (.run 1 (.insert "t" [7]))).1 = .error (.transaction (.aborted 2 .gapConflict)) ∧
      GapRefused 1 s.db (s.step (.run 1 (.insert "t" [7]))).2.db ∧
      (s.step (.run 1 (.insert "t" [5]))).1 ≠ .error (.transaction (.aborted 2 .gapConflict)) := by
  intro calls s
  have hrun : Run Session.oneTable (Session.oneTable.trace calls) s := .of_calls _ calls
  have hshape : s.db.catalog.shapes "t" =
      some { name := "t", id := 1, config := { rowSize := 1, slotsPerPage := 2 }, key := some (0, 1) } := by
    decide +kernel
  obtain ⟨hinsert, -, hrefused⟩ := gap_check_exact hrun Session.oneTable_isFresh Session.oneTable_sound
    Session.oneTable_numbers (by decide +kernel) hshape 1
  have hid : (s.db.txn 1).id = 2 := by decide +kernel
  rw [hid] at hinsert hrefused
  have hblocked : (s.step (.run 1 (.insert "t" [7]))).1 = .error (.transaction (.aborted 2 .gapConflict)) :=
    (hinsert [7]).mpr ⟨by decide +kernel, [7], by decide +kernel, by decide +kernel⟩
  refine ⟨hblocked, hrefused _ rfl hblocked, fun hanswer => ?_⟩
  obtain ⟨-, key, hkey, hadmit⟩ := (hinsert [5]).mp hanswer
  have hfive : s.db.catalog.keyOf? "t" [5] = some [5] := by decide +kernel
  obtain rfl : [5] = key := Option.some.inj (hfive.symm.trans hkey)
  have hfree : ¬ OthersAdmit (Session.oneTable.trace calls) 2 "t" [5] := by decide +kernel
  exact hfree hadmit

end NoWait
