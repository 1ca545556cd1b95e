import NoWait.Proofs.Granularity
import NoWait.Proofs.Turns

/-!
# Rows that are handed out are locked

A row is handed out to a transaction by a read and by the two kinds of scans.  A read and a range scan lock
the row on the way; a sequential scan relies on the lock on the whole table that it took when it was opened.
Nothing keeps a sequential scan from going on after its transaction has ended and let go of that lock.

* `HandsOut` says that a call hands out a row, `Database.Protects` that a transaction has it locked;
* `leftSinceOpened` says that the owner of a scan has let go since the scan was opened, `Run.holdsTable` that
  it has the table locked until then;
* `isUncommitted` says that a row was altered by a transaction that has not let go since, `Run.holdsWritten`
  that the row is locked exclusively until then;
* `handed_out_row_is_locked` is the result.
-/

namespace NoWait

open Database

/-! ### What is handed out and what is locked -/

/-- Whether a call hands out a row of a table to a transaction. -/
inductive HandsOut (s : Session) : Call → Handle → String → Rid → Bytes → Prop where
  | read {h : Handle} {name : String} {rid : Rid} {row : Bytes} :
    (s.step (.run h (.read name rid))).1 = .ok (.row row) →
    HandsOut s (.run h (.read name rid)) h name rid row
  | next {i : Nat} {scan : Scan} {rid : Rid} {row : Bytes} : s.scans[i]? = some scan →
    (s.step (.nextScan i)).1 = .ok (.tuple (some (rid, row))) →
    HandsOut s (.nextScan i) scan.owner scan.table rid row

/-- Whether a transaction has a record locked in shared or exclusive mode, or its table in a mode that
includes the shared one. -/
def Database.Protects (db : Database) (h : Handle) (name : String) (rid : Rid) : Prop :=
  ∃ shape, db.catalog.shapes name = some shape ∧
    ((∃ mode, db.locks.heldMode (db.txn h).id (.record shape.id rid) = some mode ∧
        (mode = .shared ∨ mode = .exclusive)) ∨
      ∃ mode, db.locks.heldMode (db.txn h).id (.table shape.id) = some mode ∧
        (mode = .shared ∨ mode = .sharedIntentionExclusive ∨ mode = .exclusive))

/-- Whether a transaction holds at least a shared lock on a table. -/
def Database.HoldsTable (db : Database) (h : Handle) (name : String) : Prop :=
  ∃ shape held, db.catalog.shapes name = some shape ∧
    db.locks.heldMode (db.txn h).id (.table shape.id) = some held ∧ held.covers .shared = true

/-- Whether a transaction has the lock of a writer on a position. -/
def Database.HoldsWritten (db : Database) (h : Handle) (name : String) (rid : Rid) : Prop :=
  ∃ shape, db.catalog.shapes name = some shape ∧
    db.locks.heldMode (db.txn h).id (.record shape.id rid) = some .exclusive

/-- Whether a call opens a scan, for the first time or anew. -/
def Event.opens (event : Event) (i : Nat) : Bool := event.call = .initScan i && event.answer.isOk

/-- Whether a transaction has let go of everything since a scan was last opened. -/
def leftSinceOpened (trace : List Event) (i : Nat) (h : Handle) : Bool :=
  trace.foldl (fun left event => if event.opens i then false else left || event.letsGo h) false

/-- Whether a transaction has altered the row at a position and has not let go of it since. -/
def isUncommitted (trace : List Event) (h : Handle) (name : String) (rid : Rid) : Bool :=
  trace.foldl (fun altered event => if event.letsGo h then false else altered || event.alters h name rid)
    false

variable {start s : Session} {call : Call} {answer : Except StatementError Answer} {db db' : Database}
  {trace : List Event} {h h' : Handle} {i : Nat} {name : String} {rid : Rid} {row : Bytes} {scan : Scan}

@[simp] theorem leftSinceOpened_snoc (trace : List Event) (event : Event) (i : Nat) (h : Handle) :
    leftSinceOpened (trace ++ [event]) i h =
      if event.opens i then false else leftSinceOpened trace i h || event.letsGo h := by
  simp [leftSinceOpened]

@[simp] theorem isUncommitted_snoc (trace : List Event) (event : Event) (h : Handle) (name : String)
    (rid : Rid) : isUncommitted (trace ++ [event]) h name rid =
      if event.letsGo h then false else isUncommitted trace h name rid || event.alters h name rid := by
  simp [isUncommitted]

namespace Database

theorem Protects.of_holdsRow (hi : db.locks.Intended) (hholds : db.HoldsRow h name rid) :
    db.Protects h name rid := by
  obtain ⟨shape, mode, hshape, hheld, _⟩ := hholds
  exact ⟨shape, hshape, .inl ⟨mode, hheld, (hi _ _ _ _ hheld).1⟩⟩

theorem Protects.of_holdsTable (hholds : db.HoldsTable h name) : db.Protects h name rid := by
  obtain ⟨shape, mode, hshape, hheld, hcovers⟩ := hholds
  refine ⟨shape, hshape, .inr ⟨mode, hheld, ?_⟩⟩
  cases mode with
  | shared => exact .inl rfl
  | sharedIntentionExclusive => exact .inr (.inl rfl)
  | exclusive => exact .inr (.inr rfl)
  | intentionShared | intentionExclusive => cases hcovers

/-- A row that a transaction has locked is locked exclusively by nobody else. -/
theorem Protects.eq_of_holdsWritten (hprotects : db.Protects h name rid) (hi : db.locks.Intended)
    (hs : db.locks.Sound) (hids : db.DistinctIds) (hlt : h < db.transactions.size)
    (hlt' : h' < db.transactions.size) (hwritten : db.HoldsWritten h' name rid) : h' = h := by
  obtain ⟨shape, hshape, hlocked⟩ := hprotects
  obtain ⟨shape', hshape', hexclusive⟩ := hwritten
  obtain rfl : shape = shape' := Option.some.inj (hshape.symm.trans hshape')
  rcases hlocked with ⟨mode, hheld, _⟩ | ⟨mode, hheld, hwhole⟩
  · exact hids h' hlt' h hlt (hs.eq_of_exclusive hexclusive hheld).symm
  · by_contra hne
    have hother := hi.not_whole hs hexclusive hheld fun heq => hne (hids h' hlt' h hlt heq)
    rcases hwhole with rfl | rfl | rfl
    · exact hother.1 rfl
    · exact hother.2.1 rfl
    · exact hother.2.2 rfl

/-- A row that is read is locked, and it is the one at its position. -/
theorem read_locks (h : Handle) (name : String) (rid : Rid) (db : Database) :
    (read h name rid).Ends db
      (fun row db' => db.isActive h = true ∧ db'.HoldsRow h name rid ∧
        db'.catalog.rows name rid = some row) fun _ _ => True := by
  simp only [read, Action.ends_bind]
  apply (lockRow_ends h name rid (.inl rfl) db).mono
  · intro _ mid hlocked
    obtain ⟨table, hget, hactive, hgranted, held, hheld, hcovers⟩ := hlocked
    have hmid : mid.catalog.get? name = some table := by rw [hgranted.catalog, hget]
    apply (rowAt_ends hmid rid).mono
    · intro row db' hfound
      obtain ⟨rfl, hrow⟩ := hfound
      exact ⟨hactive, .of_heldMode hmid hgranted.id hheld hcovers, by rw [Catalog.rows_of_get? hmid, hrow]⟩
    · intro _ _ _
      trivial
  · intro _ _ _
    trivial

end Database

/-! ### Sequential scans -/

namespace Scan

/-- A sequential scan that is opened has the table locked. -/
theorem positions_locks (hplan : scan.plan = .sequential) (db : Database) :
    scan.positions.Ends db
      (fun _ db' => db.isActive scan.owner = true ∧ db'.HoldsTable scan.owner scan.table)
      fun _ _ => True := by
  unfold positions
  rw [hplan]
  simp only [Action.ends_bind]
  apply (table_ends scan.table db).mono
  · intro table db hfound
    obtain ⟨rfl, hget⟩ := hfound
    rw [Action.ends_mapError]
    apply (acquire_ends scan.owner (.table table.id) .shared db).mono
    · intro _ mid hlocked
      obtain ⟨hactive, hgranted, _, held, hheld, hcovers⟩ := hlocked
      apply (table_ends scan.table mid).mono
      · intro _ last hfound'
        obtain ⟨rfl, _⟩ := hfound'
        have hshape : last.catalog.shapes scan.table = some table.shape := by
          rw [hgranted.catalog]
          exact Catalog.shapes_of_get? hget
        exact ⟨hactive, table.shape, held, hshape, hgranted.id ▸ hheld, hcovers⟩
      · intro _ _ _
        trivial
    · intro _ _ _
      trivial
  · intro _ _ _
    trivial

/-- A visit of a sequential scan finds the row at the position, and leaves the database as it is. -/
theorem visit_sequential (hplan : scan.plan = .sequential) (rid : Rid) (db : Database) :
    (scan.visit rid).Ends db
      (fun row db' => db' = db ∧ row.isSome = true ∧ db.catalog.rows scan.table rid = row)
      fun _ db' => db' = db := by
  unfold visit
  rw [hplan]
  simp only [rowAt, Action.ends_bind]
  apply (table_ends scan.table db).mono
  · intro table db hfound
    obtain ⟨rfl, hget⟩ := hfound
    cases hrow : table.heap.row? rid with
    | some row =>
      simp only [Heap.get_eq, hrow]
      exact ⟨rfl, rfl, by rw [Catalog.rows_of_get? hget, hrow]⟩
    | none =>
      simp only [Heap.get_eq, hrow]
      rfl
  · intro _ _ hmissing
    exact hmissing.1

/-- A sequential scan hands out the row at its next position, and leaves the database as it is. -/
theorem nextFrom_sequential (hplan : scan.plan = .sequential) (db : Database) (pending : List Rid) :
    match scan.nextFrom db pending with
    | .ok tuple (db', scan') => db' = db ∧ scan' = { scan with pending := pending.tail } ∧
      ∀ rid row, tuple = some (rid, row) → pending ≠ [] ∧ db.catalog.rows scan.table rid = some row
    | .error _ (db', scan') => db' = db ∧ scan' = { scan with pending := pending.tail } := by
  cases pending with
  | nil => exact ⟨rfl, rfl, fun _ _ hsome => by cases hsome⟩
  | cons rid rest =>
    have hvisit := visit_sequential hplan rid db
    unfold Action.Ends at hvisit
    unfold nextFrom
    cases hrun : scan.visit rid db with
    | error error mid =>
      rw [hrun] at hvisit
      exact ⟨hvisit, rfl⟩
    | ok row mid =>
      rw [hrun] at hvisit
      obtain ⟨rfl, hsome, hrow⟩ := hvisit
      cases row with
      | none => cases hsome
      | some row =>
        refine ⟨rfl, rfl, fun rid' row' heq => ?_⟩
        cases heq
        exact ⟨List.cons_ne_nil _ _, hrow⟩

end Scan

/-! ### Locks that last until their transaction lets go -/

/-- A transaction that does not let go keeps the lock of a table. -/
theorem Turn.holdsTable (hturn : Turn h s call (s.step call).1 (s.step call).2.db)
    (hshapes : (s.step call).2.db.catalog.shapes = s.db.catalog.shapes)
    (hgoes : (⟨s, call⟩ : Event).letsGo h = false) (hholds : s.db.HoldsTable h name) :
    (s.step call).2.db.HoldsTable h name := by
  obtain ⟨shape, held, hshape, hheld, hcovers⟩ := hholds
  obtain ⟨hid, hmodes⟩ := hturn.heldMode (Event.not_over_of_letsGo hgoes)
  obtain ⟨held', hheld', hcovers'⟩ := hmodes _ held hheld
  exact ⟨shape, held', hshapes ▸ hshape, hid ▸ hheld', Mode.covers_trans hcovers' hcovers⟩

/-- A transaction that does not let go keeps the lock of a writer. -/
theorem Turn.holdsWritten (hturn : Turn h s call (s.step call).1 (s.step call).2.db)
    (hshapes : (s.step call).2.db.catalog.shapes = s.db.catalog.shapes)
    (hgoes : (⟨s, call⟩ : Event).letsGo h = false) (hholds : s.db.HoldsWritten h name rid) :
    (s.step call).2.db.HoldsWritten h name rid := by
  obtain ⟨shape, hshape, hheld⟩ := hholds
  obtain ⟨hid, hmodes⟩ := hturn.heldMode (Event.not_over_of_letsGo hgoes)
  obtain ⟨held', hheld', hcovers⟩ := hmodes _ _ hheld
  rw [Mode.eq_exclusive_of_covers hcovers] at hheld'
  exact ⟨shape, hshapes ▸ hshape, hid ▸ hheld'⟩

/-- A statement that alters a row has the lock of a writer on it. -/
theorem Statement.Outcome.holdsWritten {statement : Statement}
    (houtcome : Statement.Outcome h statement answer db db') (hs : db.catalog.Sound)
    (halters : db'.catalog.rows name rid ≠ db.catalog.rows name rid) :
    h < db.transactions.size ∧ db'.HoldsWritten h name rid := by
  have hwrote : ∀ {write : WriteRecord} {row : Option Bytes}, Wrote h write row db db' →
      h < db.transactions.size ∧ db'.HoldsWritten h name rid := by
    intro write row hw
    have hchange := hw.change hs
    have hat : write.isAt name rid := by
      by_contra hat
      exact halters (by rw [hchange.rows, Rows.set_of_ne hat])
    obtain ⟨rfl, rfl⟩ := hat
    obtain ⟨shape, hshape, hheld, _⟩ := hchange.lock
    exact ⟨lt_of_isActive hw.active, shape, hchange.shapes ▸ hshape, hw.id ▸ hheld⟩
  cases houtcome.did with
  | quiet hquiet _ => exact absurd (by rw [(hquiet.rows hs).rows]) halters
  | wrote _ _ hw _ _ _ => exact hwrote hw
  | missed _ hw _ _ _ => exact hwrote hw

/-- A row that a transaction has altered stays locked exclusively until the transaction lets go. -/
theorem Run.holdsWritten (hrun : Run start trace s) (hstart : start.db.Guarded)
    (hids : s.db.DistinctIds) (hhand : ∀ event ∈ trace, event.call.isByHand = false)
    (hopen : isUncommitted trace h name rid = true) :
    h < s.db.transactions.size ∧ s.db.HoldsWritten h name rid := by
  induction hrun with
  | nil => cases hopen
  | @snoc trace s call hrun ih =>
    have heffect := s.step_effect call
    obtain ⟨hg, hids₀, hhand₀, hnow⟩ := hrun.before_last hstart hids hhand
    rw [isUncommitted_snoc] at hopen
    split at hopen
    · cases hopen
    · rename_i hgoes
      rcases Bool.or_eq_true_iff.mp hopen with hopen | halters
      · obtain ⟨hlt, hholds⟩ := ih hids₀ hhand₀ hopen
        have hturn := heffect.turn hg hids hnow hlt
        refine ⟨Nat.lt_of_lt_of_le hlt heffect.keepsIds.size, ?_⟩
        exact hturn.holdsWritten (heffect.shapes hg) (by simpa using hgoes) hholds
      · have hran : ∃ statement, call = .run h statement := by
          by_contra hnone
          rw [Event.alters_of_ne_run fun statement hcall => hnone ⟨statement, hcall⟩] at halters
          cases halters
        obtain ⟨statement, rfl⟩ := hran
        obtain ⟨hlt, hholds⟩ :=
          (s.step_outcome h statement).holdsWritten hg.catalog (Event.alters_run_iff.mp halters)
        exact ⟨Nat.lt_of_lt_of_le hlt heffect.keepsIds.size, hholds⟩

/-! ### Scans that have something left to hand out -/

namespace Session

/-- What is left of a scan that is opened: the positions that it has listed, or the scan as it was. -/
theorem initScan_scan {scan' : Scan} (hscan : (s.step (.initScan i)).2.scans[i]? = some scan') :
    ∃ scan, s.scans[i]? = some scan ∧
      ((⟨s, .initScan i⟩ : Event).opens i = false ∧ scan' = scan ∨
        scan'.plan = scan.plan ∧ scan'.owner = scan.owner ∧ scan'.table = scan.table ∧
          (scan.plan = .sequential → s.db.isActive scan.owner = true ∧
            (s.step (.initScan i)).2.db.HoldsTable scan.owner scan.table)) := by
  cases hold : s.scans[i]? with
  | none =>
    rw [show s.step (.initScan i) = (.ok .done, s) from actOnScan_of_none hold _, hold] at hscan
    cases hscan
  | some scan =>
    obtain ⟨hlt, -⟩ := Array.getElem?_eq_some_iff.mp hold
    refine ⟨scan, rfl, ?_⟩
    have hstep := step_initScan hold
    cases hrun : scan.positions s.db with
    | error error db =>
      simp only [hrun] at hstep
      rw [hstep, Array.getElem?_setIfInBounds_self_of_lt hlt] at hscan
      exact .inl ⟨by simp [Event.opens, Event.answer, hstep, Except.isOk, Except.toBool],
        (Option.some.inj hscan).symm⟩
    | ok pending db =>
      simp only [hrun] at hstep
      rw [hstep, Array.getElem?_setIfInBounds_self_of_lt hlt] at hscan
      cases hscan
      refine .inr ⟨rfl, rfl, rfl, fun hplan => ?_⟩
      have hlocks := Scan.positions_locks hplan s.db
      unfold Action.Ends at hlocks
      rw [hrun] at hlocks
      rw [hstep]
      exact hlocks

/-- What is left of a scan that is asked for a tuple has fewer positions pending, if it is sequential. -/
theorem nextScan_scan {scan' : Scan} (hscan : (s.step (.nextScan i)).2.scans[i]? = some scan') :
    ∃ scan, s.scans[i]? = some scan ∧ scan'.plan = scan.plan ∧ scan'.owner = scan.owner ∧
      scan'.table = scan.table ∧ (scan.plan = .sequential → scan'.pending = scan.pending.tail) := by
  cases hold : s.scans[i]? with
  | none =>
    rw [show s.step (.nextScan i) = (.ok .done, s) from actOnScan_of_none hold _, hold] at hscan
    cases hscan
  | some scan =>
    obtain ⟨hlt, -⟩ := Array.getElem?_eq_some_iff.mp hold
    refine ⟨scan, rfl, ?_⟩
    have hstep := step_nextScan hold
    have hspec := scan.nextFrom_spec s.db scan.pending
    cases hrun : scan.nextFrom s.db scan.pending with
    | error error last =>
      rw [hrun] at hspec
      obtain ⟨_, rest, hlast⟩ := hspec
      simp only [hrun] at hstep
      rw [hstep, Array.getElem?_setIfInBounds_self_of_lt hlt, hlast] at hscan
      cases hscan
      refine ⟨rfl, rfl, rfl, fun hplan => ?_⟩
      have hnext := Scan.nextFrom_sequential hplan s.db scan.pending
      rw [hrun] at hnext
      rw [← hlast, hnext.2]
    | ok tuple last =>
      rw [hrun] at hspec
      obtain ⟨_, rest, hlast, _⟩ := hspec
      simp only [hrun] at hstep
      rw [hstep, Array.getElem?_setIfInBounds_self_of_lt hlt, hlast] at hscan
      cases hscan
      refine ⟨rfl, rfl, rfl, fun hplan => ?_⟩
      have hnext := Scan.nextFrom_sequential hplan s.db scan.pending
      rw [hrun] at hnext
      rw [← hlast, hnext.2.1]

end Session

/-- While a sequential scan has positions pending, its owner has the table locked, unless it has let go
since the scan was opened. -/
theorem Run.holdsTable (hrun : Run start trace s) (hfresh : start.IsFresh)
    (hcatalog : start.db.catalog.Sound) (hids : s.db.DistinctIds)
    (hhand : ∀ event ∈ trace, event.call.isByHand = false) (hscan : s.scans[i]? = some scan)
    (hplan : scan.plan = .sequential) (hpending : scan.pending ≠ [])
    (hheld : leftSinceOpened trace i scan.owner = false) :
    scan.owner < s.db.transactions.size ∧ s.db.HoldsTable scan.owner scan.table := by
  induction hrun generalizing scan with
  | nil =>
    rw [hfresh.scans] at hscan
    cases hscan
  | @snoc trace s call hrun ih =>
    have heffect := s.step_effect call
    obtain ⟨hg, hids₀, hhand₀, hnow⟩ := hrun.before_last (hfresh.guarded hcatalog) hids hhand
    rw [leftSinceOpened_snoc] at hheld
    -- A scan that had positions pending before the call keeps what it is.
    have hkept : ∀ {scan₀ : Scan}, s.scans[i]? = some scan₀ → scan₀.pending ≠ [] →
        scan.plan = scan₀.plan → scan.owner = scan₀.owner → scan.table = scan₀.table →
        (⟨s, call⟩ : Event).opens i = false →
        scan.owner < (s.step call).2.db.transactions.size ∧
          (s.step call).2.db.HoldsTable scan.owner scan.table := by
      intro scan₀ hold hmore hplan₀ howner htable hopens
      rw [hopens, if_neg (by decide), Bool.or_eq_false_iff] at hheld
      obtain ⟨hlt, hholds⟩ := ih hids₀ hhand₀ hold (hplan₀ ▸ hplan) hmore (howner ▸ hheld.1)
      rw [← howner] at hlt hholds
      have hturn := heffect.turn hg hids hnow hlt
      refine ⟨Nat.lt_of_lt_of_le hlt heffect.keepsIds.size, ?_⟩
      exact htable ▸ hturn.holdsTable (heffect.shapes hg) hheld.2 hholds
    by_cases hinit : call = .initScan i
    · subst hinit
      obtain ⟨scan₀, hold, hcase⟩ := Session.initScan_scan hscan
      rcases hcase with ⟨hopens, rfl⟩ | ⟨hplan₀, howner, htable, hlocks⟩
      · exact hkept hold hpending rfl rfl rfl hopens
      · obtain ⟨hactive, hholds⟩ := hlocks (hplan₀ ▸ hplan)
        rw [howner, htable]
        exact ⟨Nat.lt_of_lt_of_le (lt_of_isActive hactive) heffect.keepsIds.size, hholds⟩
    · have hopens : (⟨s, call⟩ : Event).opens i = false := by simp [Event.opens, hinit]
      by_cases hnext : call = .nextScan i
      · subst hnext
        obtain ⟨scan₀, hold, hplan₀, howner, htable, hrest⟩ := Session.nextScan_scan hscan
        refine hkept hold (fun hnil => hpending ?_) hplan₀ howner htable hopens
        rw [hrest (hplan₀ ▸ hplan), hnil, List.tail_nil]
      · rcases s.step_scans_cases hinit hnext with hsame | ⟨_, hnew⟩
        · exact hkept (hsame ▸ hscan) hpending rfl rfl rfl hopens
        · exact absurd (hnew scan hscan) hpending

/-! ### Rows that are handed out -/

/-- A row that a sequential scan hands out is the one at its position, and was on its list. -/
theorem Session.nextScan_sequential (hscan : s.scans[i]? = some scan) (hplan : scan.plan = .sequential)
    (hanswer : (s.step (.nextScan i)).1 = .ok (.tuple (some (rid, row)))) :
    (s.step (.nextScan i)).2.db = s.db ∧ scan.pending ≠ [] ∧
      s.db.catalog.rows scan.table rid = some row := by
  have hstep := step_nextScan hscan
  have hnext := Scan.nextFrom_sequential hplan s.db scan.pending
  cases hrun : scan.nextFrom s.db scan.pending with
  | error error last =>
    simp only [hrun] at hstep
    rw [hstep] at hanswer
    cases hanswer
  | ok tuple last =>
    rw [hrun] at hnext
    simp only [hrun] at hstep
    rw [hstep] at hanswer
    cases hanswer
    exact ⟨by rw [hstep]; exact hnext.1, hnext.2.2 rid row rfl⟩

/-- A range scan that hands out a row has visited positions at the front of its list, at one of which it has
found the row. -/
theorem Session.nextScan_visited {range : KeyRange} (hscan : s.scans[i]? = some scan)
    (hplan : scan.plan = .range range)
    (hanswer : (s.step (.nextScan i)).1 = .ok (.tuple (some (rid, row)))) :
    ∃ visited rest, scan.pending = visited ++ rest ∧ rid ∈ visited ∧
      s.db.catalog.rows scan.table rid = some row ∧
      scan.Visited visited (some (rid, row)) s.db (s.step (.nextScan i)).2.db := by
  have hstep := step_nextScan hscan
  have hnext := scan.nextFrom_spec s.db scan.pending
  cases hrun : scan.nextFrom s.db scan.pending with
  | error error last =>
    simp only [hrun] at hstep
    rw [hstep] at hanswer
    cases hanswer
  | ok tuple last =>
    rw [hrun] at hnext
    simp only [hrun] at hstep
    rw [hstep] at hanswer
    cases hanswer
    obtain ⟨_, rest, _, hrange⟩ := hnext
    obtain ⟨visited, hpending, hvisited, _⟩ := hrange range hplan
    have hmem : (rid, row) ∈ Scan.tuplesAt s.db.catalog.rows scan.table visited := by
      rw [← hvisited.tuple]
      simp
    obtain ⟨hvisit, hrow⟩ := Scan.mem_tuplesAt.mp hmem
    exact ⟨visited, rest, hpending, hvisit, hrow, by rw [hstep]; exact hvisited⟩

/-- A row that a range scan hands out is the one at its position, which its owner has locked. -/
theorem Session.nextScan_range {range : KeyRange} (hscan : s.scans[i]? = some scan)
    (hplan : scan.plan = .range range)
    (hanswer : (s.step (.nextScan i)).1 = .ok (.tuple (some (rid, row)))) :
    s.db.isActive scan.owner = true ∧ (s.step (.nextScan i)).2.db.HoldsRow scan.owner scan.table rid ∧
      (s.step (.nextScan i)).2.db.catalog.rows scan.table rid = some row := by
  obtain ⟨visited, _, _, hvisit, hrow, hvisited⟩ := Session.nextScan_visited hscan hplan hanswer
  exact ⟨hvisited.active (List.ne_nil_of_mem hvisit), hvisited.holds rid hvisit,
    by rw [hvisited.catalog]; exact hrow⟩

/-- A row that is read is the one at its position, which the reader has locked. -/
theorem Session.read_handsOut (hanswer : (s.step (.run h (.read name rid))).1 = .ok (.row row)) :
    s.db.isActive h = true ∧ (s.step (.run h (.read name rid))).2.db.HoldsRow h name rid ∧
      (s.step (.run h (.read name rid))).2.db.catalog.rows name rid = some row := by
  refine act_spec (P := fun answer db' => answer = .ok (.row row) →
    s.db.isActive h = true ∧ db'.HoldsRow h name rid ∧ db'.catalog.rows name rid = some row) ?_ hanswer
  simp only [Statement.perform, Action.ends_bind]
  apply (read_locks h name rid s.db).mono
  · intro row' db' hread hsome
    cases hsome
    exact hread
  · intro _ _ _ hsome
    cases hsome

/-- A row that is handed out to a transaction is the one at its position, and the transaction has it locked,
or its table as a whole.  So it is no other transaction's uncommitted write.  The exception is a sequential
scan whose transaction has let go of the table since the scan was opened. -/
theorem handed_out_row_is_locked (hrun : Run start trace s) (hfresh : start.IsFresh)
    (hcatalog : start.db.catalog.Sound) (hids : (s.step call).2.db.DistinctIds)
    (hhand : ∀ event ∈ trace, event.call.isByHand = false) (hout : HandsOut s call h name rid row)
    (hopen : ∀ i scan, call = .nextScan i → s.scans[i]? = some scan → scan.plan = .sequential →
      leftSinceOpened trace i h = false) :
    (s.step call).2.db.Protects h name rid ∧
      (s.step call).2.db.catalog.rows name rid = some row ∧
      ∀ h', h' ≠ h → isUncommitted (trace ++ [⟨s, call⟩]) h' name rid = false := by
  have heffect := s.step_effect call
  have hids₀ : s.db.DistinctIds := heffect.keepsIds.distinctIds hids
  have hcall : call.isByHand = false := by cases hout <;> rfl
  have hhand' : ∀ event ∈ trace ++ [⟨s, call⟩], event.call.isByHand = false :=
    List.forall_mem_append.mpr ⟨hhand, List.forall_mem_singleton.mpr hcall⟩
  have hrun' : Run start (trace ++ [⟨s, call⟩]) (s.step call).2 := .snoc call hrun
  have hg := (hrun'.guarded (hfresh.guarded hcatalog) hids hhand').1
  have hi : (s.step call).2.db.locks.Intended := by
    apply hrun'.intended hfresh hids
    intro event hmem h' table heq
    have hsafe := hhand' event hmem
    rw [heq] at hsafe
    cases hsafe
  obtain ⟨hlt, hprotects, hrow⟩ : h < (s.step call).2.db.transactions.size ∧
      (s.step call).2.db.Protects h name rid ∧ (s.step call).2.db.catalog.rows name rid = some row := by
    cases hout with
    | read hanswer =>
      obtain ⟨hactive, hholds, hrow⟩ := Session.read_handsOut hanswer
      exact ⟨Nat.lt_of_lt_of_le (lt_of_isActive hactive) heffect.keepsIds.size, .of_holdsRow hi hholds, hrow⟩
    | @next i scan _ _ hscan hanswer =>
      cases hplan : scan.plan with
      | sequential =>
        obtain ⟨hdb, hpending, hrow⟩ := Session.nextScan_sequential hscan hplan hanswer
        obtain ⟨hlt, hholds⟩ := hrun.holdsTable hfresh hcatalog hids₀ hhand hscan hplan hpending
          (hopen i scan rfl hscan hplan)
        rw [hdb]
        exact ⟨hlt, .of_holdsTable hholds, hrow⟩
      | range range =>
        obtain ⟨hactive, hholds, hrow⟩ := Session.nextScan_range hscan hplan hanswer
        exact ⟨Nat.lt_of_lt_of_le (lt_of_isActive hactive) heffect.keepsIds.size, .of_holdsRow hi hholds,
          hrow⟩
  refine ⟨hprotects, hrow, fun h' hne => ?_⟩
  rw [Bool.eq_false_iff]
  intro hopen'
  obtain ⟨hlt', hwritten⟩ := hrun'.holdsWritten (hfresh.guarded hcatalog) hids hhand' hopen'
  exact hne (hprotects.eq_of_holdsWritten hi hg.sound hids hlt hlt' hwritten)

/-- A sequential scan hands out a row that another transaction has tried to write meanwhile, and was refused
for the lock on the table. -/
theorem handed_out_row_is_locked_sequential :
    let calls : List Call := [.begin, .run 0 (.insert "t" [5]), .commit 0, .begin,
      .openScan 1 "t" .sequential, .initScan 0, .begin, .run 2 (.update "t" ⟨0, 0⟩ [9])]
    let s := Session.oneTable.play calls
    (s.step (.nextScan 0)).1 = .ok (.tuple (some (⟨0, 0⟩, [5]))) ∧
      (s.step (.nextScan 0)).2.db.Protects 1 "t" ⟨0, 0⟩ ∧
      isUncommitted (Session.oneTable.trace calls ++ [⟨s, .nextScan 0⟩]) 2 "t" ⟨0, 0⟩ = false := by
  intro calls s
  have hrun : Run Session.oneTable (Session.oneTable.trace calls) s := .of_calls _ calls
  have hscan : s.scans[0]? = some { owner := 1, table := "t", plan := .sequential, pending := [⟨0, 0⟩] } := by
    decide +kernel
  have hanswer : (s.step (.nextScan 0)).1 = .ok (.tuple (some (⟨0, 0⟩, [5]))) := by decide +kernel
  have hopen : ∀ i scan, Call.nextScan 0 = .nextScan i → s.scans[i]? = some scan →
      scan.plan = .sequential → leftSinceOpened (Session.oneTable.trace calls) i 1 = false := by
    intro i scan hcall _ _
    cases hcall
    decide +kernel
  obtain ⟨hprotects, _, huncommitted⟩ := handed_out_row_is_locked hrun Session.oneTable_isFresh
    Session.oneTable_sound (by decide +kernel) (by decide +kernel) (.next hscan hanswer) hopen
  exact ⟨hanswer, hprotects, huncommitted 2 (by decide)⟩

/-- A transaction opens a sequential scan and commits; the scan then hands out a row to it that another
transaction has just written and not committed, and on which the first one has no lock. -/
theorem row_handed_out_after_commit :
    ∃ (trace : List Event) (s : Session), Run Session.oneTable trace s ∧
      (∀ event ∈ trace, event.call.isByHand = false) ∧ (s.step (.nextScan 0)).2.db.DistinctIds ∧
      HandsOut s (.nextScan 0) 1 "t" ⟨0, 0⟩ [9] ∧
      ¬ (s.step (.nextScan 0)).2.db.Protects 1 "t" ⟨0, 0⟩ ∧
      isUncommitted (trace ++ [⟨s, .nextScan 0⟩]) 2 "t" ⟨0, 0⟩ = true := by
  let calls : List Call := [.begin, .run 0 (.insert "t" [5]), .commit 0, .begin,
    .openScan 1 "t" .sequential, .initScan 0, .commit 1, .begin, .run 2 (.update "t" ⟨0, 0⟩ [9])]
  let s := Session.oneTable.play calls
  have hrun : Run Session.oneTable (Session.oneTable.trace calls) s := .of_calls _ calls
  have hscan : s.scans[0]? = some { owner := 1, table := "t", plan := .sequential, pending := [⟨0, 0⟩] } := by
    decide +kernel
  have hanswer : (s.step (.nextScan 0)).1 = .ok (.tuple (some (⟨0, 0⟩, [9]))) := by decide +kernel
  have hshape : ((s.step (.nextScan 0)).2.db.catalog.shapes "t").map (·.id) = some 1 := by decide +kernel
  have hfree : (s.step (.nextScan 0)).2.db.locks.heldMode ((s.step (.nextScan 0)).2.db.txn 1).id
      (.record 1 ⟨0, 0⟩) = none ∧ (s.step (.nextScan 0)).2.db.locks.heldMode
        ((s.step (.nextScan 0)).2.db.txn 1).id (.table 1) = none := by decide +kernel
  refine ⟨_, s, hrun, by decide +kernel, by decide +kernel, .next hscan hanswer, ?_, by decide +kernel⟩
  intro hprotects
  obtain ⟨shape, hshape', hlocked⟩ := hprotects
  have hid : shape.id = 1 := by simpa [hshape'] using hshape
  rw [hid] at hlocked
  rcases hlocked with ⟨_, hheld, _⟩ | ⟨_, hheld, _⟩
  · rw [hfree.1] at hheld
    cases hheld
  · rw [hfree.2] at hheld
    cases hheld

end NoWait
