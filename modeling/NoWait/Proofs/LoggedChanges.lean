import NoWait.Proofs.Guard
import NoWait.Proofs.LogGrowth

/-!
# What is logged is what is done

A statement that succeeds has changed one row, brought the index in step, and logged the row from before and the
row from after.  A statement that fails has done none of that, with two exceptions: an update is logged before
its row is known to have the right size, and an insertion is done before the log has taken its record.

* `Catalog.Rewritten` says that tables differ in one row and the index entry for it, `Catalog.Unwritten` that
  they do not differ; both follow from the rows, by `Rewritten.of_rows` and `Unwritten.of_rows`;
* `Database.TookChange` says that the log has taken the record of such a change;
* `Statement.Outcome.rewritten` and `Statement.Outcome.unwritten` say what a statement does to the tables,
  `Statement.perform_takes` what it does to the log;
* `logged_iff_done` is the result, with both exceptions.
-/

namespace NoWait

/-! ### Tables before and after -/

namespace Catalog

variable {catalog catalog' : Catalog} {name : String} {rid : Rid} {row : Option Bytes}

/-- Tables that differ from others in the row at one position, and in the index entries for it: there is one for
the key of the new row, and no other. -/
structure Rewritten (catalog : Catalog) (name : String) (rid : Rid) (row : Option Bytes) (catalog' : Catalog) :
    Prop where
  shapes : catalog'.shapes = catalog.shapes
  rows : catalog'.rows = catalog.rows.set name rid row
  entry : ∀ key, catalog'.entryCount name key rid =
    if (catalog.shapes name).any fun shape => row.bind shape.keyOf? = some key then 1 else 0
  others : ∀ name' rid' key, ¬ (name = name' ∧ rid = rid') →
    catalog'.entryCount name' key rid' = catalog.entryCount name' key rid'

/-- Tables with the rows and the index entries of others. -/
structure Unwritten (catalog catalog' : Catalog) : Prop where
  shapes : catalog'.shapes = catalog.shapes
  rows : catalog'.rows = catalog.rows
  entries : ∀ name key rid, catalog'.entryCount name key rid = catalog.entryCount name key rid

theorem Rewritten.of_rows (hs : catalog.Sound) (hs' : catalog'.Sound) (hshapes : catalog'.shapes = catalog.shapes)
    (hrows : catalog'.rows = catalog.rows.set name rid row) : catalog.Rewritten name rid row catalog' where
  shapes := hshapes
  rows := hrows
  entry := by
    intro key
    rw [hs'.entryCount_eq, hshapes, hrows, Rows.set_self]
  others := by
    intro name' rid' key hne
    apply hs.entryCount_congr hs' hshapes
    rw [hrows, Rows.set_of_ne hne]

theorem Unwritten.of_rows (hs : catalog.Sound) (hs' : catalog'.Sound) (hshapes : catalog'.shapes = catalog.shapes)
    (hrows : catalog'.rows = catalog.rows) : catalog.Unwritten catalog' where
  shapes := hshapes
  rows := hrows
  entries := by
    intro name key rid
    apply hs.entryCount_congr hs' hshapes
    rw [hrows]

end Catalog

open Database

variable {start s : Session} {trace : List Event} {h : Handle} {statement : Statement}
  {answer : Except StatementError Answer} {error : StatementError} {db db' : Database} {name : String} {rid : Rid}

/-- Whether the log has taken one record more, which says what a transaction has made of the row at a position:
the kind of the change, the row from before, and the row from after. -/
def Database.TookChange (h : Handle) (kind : WriteKind) (name : String) (rid : Rid) (row : Option Bytes)
    (db db' : Database) : Prop :=
  ∃ shape, db.catalog.shapes name = some shape ∧ TookRecord h kind.recordKind
    (.data { table := shape.id, rid, before := db.catalog.rows name rid, after := row }) db db'

/-! ### Failures that leave something behind -/

namespace Statement

/-- Whether a statement that fails so has been logged all the same. -/
def loggedThough : Statement → StatementError → Bool
  | .update .., error => error.isMisfit
  | _, _ => false

/-- Whether a statement that fails so has changed a row all the same. -/
def doneThough : Statement → StatementError → Bool
  | .insert .., error => error.isLogFailure
  | _, _ => false

/-! ### What becomes of the tables -/

/-- A statement that succeeds has changed the row at its position. -/
theorem Outcome.rewritten (houtcome : Outcome h statement answer db db') (hs : db.catalog.Sound)
    (htarget : statement.target? answer = some (name, rid)) :
    ∃ kind row, statement.write? = some (kind, row) ∧ db.catalog.Rewritten name rid row db'.catalog ∧
      (kind = .insert ↔ db.catalog.rows name rid = none) := by
  cases houtcome.did with
  | quiet _ hnone =>
    rw [hnone] at htarget
    cases htarget
  | missed _ _ _ hnone _ =>
    rw [hnone] at htarget
    cases htarget
  | wrote write row hw _ hsite hwrite =>
    have hchange := hw.change hs
    have hwhere := hsite (isLogFailure_of_target? htarget)
    rw [htarget, Option.some.injEq, Prod.mk.injEq] at hwhere
    obtain ⟨rfl, rfl⟩ := hwhere
    refine ⟨write.kind, row, hwrite.1, .of_rows hs hchange.sound hchange.shapes hchange.rows, ?_⟩
    rw [hchange.kind, hchange.image]

/-- A statement that fails has changed no row, unless it is an insertion that the log has refused. -/
theorem Outcome.unwritten (houtcome : Outcome h statement (.error error) db db') (hs : db.catalog.Sound) :
    (statement.doneThough error = false → db.catalog.Unwritten db'.catalog) ∧
      (statement.doneThough error = true → ∃ name row rid, statement = .insert name row ∧
        db.catalog.rows name rid = none ∧ db.catalog.Rewritten name rid (some row) db'.catalog) := by
  have hinsert : statement.doneThough error = true →
      error.isLogFailure = true ∧ ∃ name row, statement = .insert name row := by
    intro hdone
    cases statement with
    | insert name row => exact ⟨hdone, name, row, rfl⟩
    | update | delete | read | acquire => cases hdone
  cases houtcome.did with
  | quiet hquiet _ =>
    have hsame := hquiet.rows hs
    refine ⟨fun _ => .of_rows hs hsame.sound hsame.shapes hsame.rows, fun hdone => ?_⟩
    exact absurd hquiet.writes (houtcome.entered hs (hinsert hdone).1)
  | missed write hw _ _ hwrite =>
    have hchange := hw.change hs
    refine ⟨fun _ => .of_rows hs hchange.sound hchange.shapes ?_, fun hdone => ?_⟩
    · rw [hchange.rows, Rows.set_eq_self hchange.image.symm]
    · obtain ⟨_, name, row, rfl⟩ := hinsert hdone
      obtain ⟨⟨_, hkind⟩, hne, _⟩ := hwrite
      exact absurd (congrArg (Option.map Prod.fst) hkind) (by simpa [write?] using Ne.symm hne)
  | wrote write row hw hname hsite hwrite =>
    obtain ⟨hkind, _, hlost⟩ := hwrite
    -- Since the statement has failed after it has changed a row, it is the log that has failed.
    have hlog : error.isLogFailure = true := by
      cases hfails : error.isLogFailure with
      | true => rfl
      | false =>
        have hsome := hsite hfails
        rw [target?_error] at hsome
        cases hsome
    rw [hlost hlog] at hkind
    cases statement with
    | insert name inserted =>
      have hchange := hw.change hs
      obtain rfl : name = write.table := Option.some.inj hname
      obtain rfl : some inserted = row := congrArg Prod.snd (Option.some.inj hkind)
      refine ⟨fun hnot => absurd (hlog.symm.trans hnot) (by decide), fun _ => ?_⟩
      refine ⟨write.table, inserted, write.rid, rfl, ?_, .of_rows hs hchange.sound hchange.shapes hchange.rows⟩
      rw [← hchange.image]
      exact hchange.kind.mp (hlost hlog)
    | update | delete | read | acquire => cases hkind

/-! ### What becomes of the log -/

/-- What the log takes of a statement.  A statement that writes logs its change if it succeeds; if it fails, the log
takes nothing, unless it is an update with a row of the wrong size. -/
def Takes (h : Handle) (statement : Statement) (answer : Except StatementError Answer) (db db' : Database) : Prop :=
  match answer with
  | .ok _ =>
    (statement.write? = none → db.log.Took db'.log []) ∧
    (statement.write? ≠ none → ∃ kind row name rid, statement.write? = some (kind, row) ∧
      statement.target? answer = some (name, rid) ∧ TookChange h kind name rid row db db')
  | .error error =>
    (statement.loggedThough error = false → db.log.Took db'.log []) ∧
    (statement.loggedThough error = true → ∃ name rid row, statement = .update name rid row ∧
      TookChange h .update name rid (some row) db db')

theorem perform_takes (h : Handle) (statement : Statement) (hs : db.catalog.Sound) :
    (statement.perform h).Ends db (fun answer db' => Takes h statement (.ok answer) db db')
      fun error db' => Takes h statement (.error error) db db' := by
  cases statement with
  | insert name row =>
    simp only [perform, Action.ends_bind, Action.ends_pure]
    apply ((insert_ends h name row db).and (insert_logs h name row db)).mono
    · intro rid db' hends
      obtain ⟨houtcome, shape, hshape, htook⟩ := hends
      obtain ⟨_, _, hkind, _, hnone⟩ := houtcome.rewritten hs rfl
      cases hkind
      rw [houtcome.shapes hs] at hshape
      refine ⟨fun hnone => (by cases hnone), fun _ => ?_⟩
      refine ⟨.insert, some row, name, rid, rfl, rfl, shape, hshape, ?_⟩
      rw [hnone.mp rfl]
      exact htook
    · intro error db' hends
      exact ⟨fun _ => hends.2.took, fun hlogged => by cases hlogged⟩
  | update name rid row =>
    simp only [perform, Action.ends_bind, Action.ends_pure]
    apply (update_logs h name rid row db).mono
    · intro before db' hends
      obtain ⟨hbefore, shape, hshape, htook⟩ := hends
      refine ⟨fun hnone => (by cases hnone), fun _ => ?_⟩
      refine ⟨.update, some row, name, rid, rfl, rfl, shape, hshape, ?_⟩
      rw [hbefore]
      exact htook
    · intro error db' hends
      obtain ⟨hfits, hnothing⟩ | ⟨hmisfit, shape, before, hshape, _, hbefore, htook⟩ := hends
      · exact ⟨fun _ => hnothing.took, fun hlogged => absurd (hfits.symm.trans hlogged) (by decide)⟩
      · refine ⟨fun hnot => absurd (hmisfit.symm.trans hnot) (by decide), fun _ => ?_⟩
        refine ⟨name, rid, row, rfl, shape, hshape, ?_⟩
        rw [hbefore]
        exact htook
  | delete name rid =>
    simp only [perform, Action.ends_bind, Action.ends_pure]
    apply (delete_logs h name rid db).mono
    · intro before db' hends
      obtain ⟨hbefore, shape, hshape, htook⟩ := hends
      refine ⟨fun hnone => (by cases hnone), fun _ => ?_⟩
      refine ⟨.delete, none, name, rid, rfl, rfl, shape, hshape, ?_⟩
      rw [hbefore]
      exact htook
    · intro error db' hnothing
      exact ⟨fun _ => hnothing.took, fun hlogged => by cases hlogged⟩
  | read name rid =>
    simp only [perform, Action.ends_bind, Action.ends_pure]
    apply (read_within h name rid db).mono
    · intro _ _ hsame
      exact ⟨fun _ => Log.took_nil hsame.log, fun hwrites => absurd rfl hwrites⟩
    · intro _ _ hsame
      exact ⟨fun _ => Log.took_nil hsame.log, fun hlogged => by cases hlogged⟩
  | acquire resource mode =>
    simp only [perform, Action.ends_bind, Action.ends_mapError, Action.ends_pure]
    apply (acquire_within h resource mode db).mono
    · intro _ _ hsame
      exact ⟨fun _ => Log.took_nil hsame.log, fun hwrites => absurd rfl hwrites⟩
    · intro _ _ hsame
      exact ⟨fun _ => Log.took_nil hsame.log, fun hlogged => by cases hlogged⟩

end Statement

/-! ### Calls -/

theorem Session.step_takes (s : Session) (h : Handle) (statement : Statement) (hs : s.db.catalog.Sound) :
    statement.Takes h (s.step (.run h statement)).1 s.db (s.step (.run h statement)).2.db :=
  act_spec (P := fun answer db' => statement.Takes h answer s.db db') (statement.perform_takes h hs)

/-- A statement that writes and succeeds, at any point of a run, has changed one row with its index entry, and the
log has taken exactly one record, which has the kind of the change, its position, the row from before and the row
from after.  If it fails, the log has taken nothing and the rows and index entries are what they were, with two
exceptions: an update with a row of the wrong size has been logged, and an insertion that the log has refused has
been done. -/
theorem logged_iff_done (hrun : Run start trace s) (hcatalog : start.db.catalog.Sound) (h : Handle)
    (statement : Statement) (hwrites : statement.write? ≠ none) :
    let answer := (s.step (.run h statement)).1
    let db' := (s.step (.run h statement)).2.db
    (∀ value, answer = .ok value → ∃ kind row name rid, statement.write? = some (kind, row) ∧
      statement.target? answer = some (name, rid) ∧ TookChange h kind name rid row s.db db' ∧
      s.db.catalog.Rewritten name rid row db'.catalog) ∧
    ∀ error, answer = .error error →
      (statement.loggedThough error = false → s.db.log.Took db'.log []) ∧
      (statement.loggedThough error = true → ∃ name rid row, statement = .update name rid row ∧
        TookChange h .update name rid (some row) s.db db') ∧
      (statement.doneThough error = false → s.db.catalog.Unwritten db'.catalog) ∧
      (statement.doneThough error = true → ∃ name row rid, statement = .insert name row ∧
        s.db.catalog.rows name rid = none ∧ s.db.catalog.Rewritten name rid (some row) db'.catalog) := by
  intro answer db'
  have hs : s.db.catalog.Sound := (hrun.tables hcatalog).1
  have houtcome : Statement.Outcome h statement answer s.db db' := s.step_outcome h statement
  have htakes : statement.Takes h answer s.db db' := s.step_takes h statement hs
  constructor
  · intro value hanswer
    rw [hanswer] at htakes
    obtain ⟨kind, row, name, rid, hwrite, htarget, htook⟩ := htakes.2 hwrites
    rw [← hanswer] at htarget
    obtain ⟨kind', row', hwrite', hrewritten, _⟩ := houtcome.rewritten hs htarget
    obtain rfl : row = row' := congrArg Prod.snd (Option.some.inj (hwrite.symm.trans hwrite'))
    exact ⟨kind, row, name, rid, hwrite, htarget, htook, hrewritten⟩
  · intro error hanswer
    rw [hanswer] at htakes houtcome
    obtain ⟨hundone, hdone⟩ := houtcome.unwritten hs
    exact ⟨htakes.1, htakes.2, hundone, hdone⟩

/-- A transaction has inserted a row, and writes over it. -/
theorem logged_iff_done_update :
    let s := Session.oneTable.play [.begin, .run 0 (.insert "t" [5])]
    let db' := (s.step (.run 0 (.update "t" ⟨0, 0⟩ [6]))).2.db
    (s.step (.run 0 (.update "t" ⟨0, 0⟩ [6]))).1 = .ok (.row [5]) ∧
      TookChange 0 .update "t" ⟨0, 0⟩ (some [6]) s.db db' ∧
      s.db.catalog.Rewritten "t" ⟨0, 0⟩ (some [6]) db'.catalog := by
  intro s db'
  have hanswer : (s.step (.run 0 (.update "t" ⟨0, 0⟩ [6]))).1 = .ok (.row [5]) := by decide +kernel
  obtain ⟨hok, _⟩ := logged_iff_done (.of_calls Session.oneTable [.begin, .run 0 (.insert "t" [5])])
    Session.oneTable_sound 0 (.update "t" ⟨0, 0⟩ [6]) (by decide)
  obtain ⟨kind, row, name, rid, hwrite, htarget, htook, hrewritten⟩ := hok _ hanswer
  cases hwrite
  cases htarget
  exact ⟨hanswer, htook, hrewritten⟩

/-- The transaction writes over the row with one that is too long.  It is told so, and the row stays, but the log
has the record. -/
theorem misfit_update_logged :
    let s := Session.oneTable.play [.begin, .run 0 (.insert "t" [5])]
    let db' := (s.step (.run 0 (.update "t" ⟨0, 0⟩ [9, 9]))).2.db
    let change : RowChange := { table := 1, rid := ⟨0, 0⟩, before := some [5], after := some [9, 9] }
    let record : LogRecord := { lsn := 3, txn := 1, prev := 2, kind := .update, content := .data change }
    (s.step (.run 0 (.update "t" ⟨0, 0⟩ [9, 9]))).1 = .error (.storage (.sizeMismatch 1 2)) ∧
      db'.catalog.rows "t" ⟨0, 0⟩ = s.db.catalog.rows "t" ⟨0, 0⟩ ∧
      db'.log.bytes = s.db.log.bytes ++ record.frame := by
  decide +kernel

end NoWait
