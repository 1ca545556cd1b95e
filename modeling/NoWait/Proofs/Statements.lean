import NoWait.Proofs.Footprint

/-!
# What becomes of a statement

A statement of one transaction among others changes one row or none, and gives the answer that it would
have given with the rows to itself, unless it stops its transaction or the log fails.

* `Statement.Outcome` says so, with the write that is entered for undo and the locks that are held;
* `insert_ends`, `update_ends`, `delete_ends`, `read_ends` and `acquire_outcome` establish it for each
  statement, `Statement.perform_ends` for all.
-/

namespace NoWait

namespace Statement

/-- The table that a statement may write into. -/
def written? : Statement → Option String
  | .insert name _ | .update name _ _ | .delete name _ => some name
  | .read .. | .acquire .. => none

/-- The kind of the write that a statement enters for undo, and the row that it leaves there. -/
def write? : Statement → Option (WriteKind × Option Bytes)
  | .insert _ row => some (.insert, some row)
  | .update _ _ row => some (.update, some row)
  | .delete .. => some (.delete, none)
  | .read .. | .acquire .. => none

/-- Only a deletion leaves no row. -/
theorem kind_eq_delete_iff {statement : Statement} {kind : WriteKind} {row : Option Bytes}
    (h : statement.write? = some (kind, row)) : kind = .delete ↔ row = none := by
  cases statement <;> cases h <;> simp

/-- The position at which a statement changed a row, to go by its answer. -/
def target? : Statement → Except StatementError Answer → Option (String × Rid)
  | .insert name _, .ok (.position rid) => some (name, rid)
  | .update name rid _, .ok _ | .delete name rid, .ok _ => some (name, rid)
  | _, _ => none

@[simp] theorem target?_error (statement : Statement) (error : StatementError) :
    statement.target? (.error error) = none := by
  cases statement <;> rfl

/-- A statement that has changed a row has not failed in the log. -/
theorem isLogFailure_of_target? {statement : Statement} {answer : Except StatementError Answer}
    {site : String × Rid} (h : statement.target? answer = some site) :
    Answer.isLogFailure answer = false := by
  cases answer with
  | ok answer => rfl
  | error error => simp at h

end Statement

namespace Database

/-- Whether a transaction holds at least a shared lock on a position. -/
def HoldsRow (db : Database) (h : Handle) (name : String) (rid : Rid) : Prop :=
  ∃ shape held, db.catalog.shapes name = some shape ∧
    db.locks.heldMode (db.txn h).id (.record shape.id rid) = some held ∧ held.covers .shared = true

end Database

namespace Statement

open Database

variable {h : Handle} {statement : Statement} {answer : Except StatementError Answer}
  {db mid db' : Database}

/-- What a statement does to the database: nothing to the rows, one write, or the entry of a write that
then leaves the row as it was. -/
inductive Did (h : Handle) (statement : Statement) (answer : Except StatementError Answer)
    (db db' : Database) : Prop where
  | quiet : Quiet h db db' → statement.target? answer = none → Did h statement answer db db'
  | wrote (write : WriteRecord) (row : Option Bytes) : Wrote h write row db db' →
    statement.written? = some write.table →
    (Answer.isLogFailure answer = false → statement.target? answer = some (write.table, write.rid)) →
    (statement.write? = some (write.kind, row) ∧
      (Answer.isLogFailure answer = false ↔ db'.log.HasRoom (write.logSize row)) ∧
      (Answer.isLogFailure answer = true → write.kind = .insert)) →
    Did h statement answer db db'
  | missed (write : WriteRecord) : Wrote h write write.image db db' →
    statement.written? = some write.table → statement.target? answer = none →
    ((∃ row, statement.write? = some (write.kind, row)) ∧ write.kind ≠ .insert ∧
      (Answer.isLogFailure answer = false → write.kind = .update)) → Did h statement answer db db'

/-- Whether a statement gives the answer that it gives on its own, and has locked its position. -/
def IsSerial (h : Handle) (statement : Statement) (answer : Except StatementError Answer)
    (db db' : Database) : Prop :=
  ∃ slot, statement.Finds db.catalog.shapes slot ∧
    statement.serial db.catalog.shapes db.catalog.rows slot = (answer, db'.catalog.rows) ∧
    ∀ name rid, statement.site? db.catalog.shapes slot = some (name, rid) → db'.HoldsRow h name rid

/-- What becomes of a statement of a transaction. -/
structure Outcome (h : Handle) (statement : Statement) (answer : Except StatementError Answer)
    (db db' : Database) : Prop where
  did : Did h statement answer db db'
  entered : db.catalog.Sound → Answer.isLogFailure answer = true →
    (db'.txn h).writes ≠ (db.txn h).writes
  serial : db.catalog.Sound → db'.isActive h = true → Answer.isLogFailure answer = false →
    IsSerial h statement answer db db'

/-! ### Outcomes that write nothing -/

/-- A statement that fails in the log does not fail on its own. -/
theorem isLogFailure_effect (shapes : String → Option TableShape) (slot : Option Rid)
    (old : Option Bytes) (statement : Statement) :
    Answer.isLogFailure (statement.effect shapes slot old).1 = false := by
  cases statement with
  | insert | update =>
    simp only [effect]
    repeat' split
    all_goals rfl
  | delete | read =>
    simp only [effect]
    split
    all_goals rfl
  | acquire resource mode =>
    cases resource with
    | table id => rfl
    | record id rid =>
      simp only [effect]
      split
      all_goals rfl

/-- A statement that stops its transaction owes no answer. -/
theorem Outcome.of_stopped {error : StatementError} (hstop : Stopped h db db')
    (hlog : error.isLogFailure = false) : Outcome h statement (.error error) db db' where
  did := .quiet hstop.toQuiet (target?_error statement error)
  entered := fun _ hlost => absurd (hlost.symm.trans hlog) (by decide)
  serial := by
    intro _ hactive
    rw [hstop.inactive] at hactive
    cases hactive

/-- A quiet statement that has no position. -/
theorem Outcome.of_no_site (hq : Quiet h db db') (htarget : statement.target? answer = none)
    (slot : Option Rid) (hfinds : statement.Finds db.catalog.shapes slot)
    (hsite : statement.site? db.catalog.shapes slot = none)
    (heffect : (statement.effect db.catalog.shapes slot none).1 = answer) :
    Outcome h statement answer db db' where
  did := .quiet hq htarget
  entered := by
    intro _ hlost
    rw [← heffect, isLogFailure_effect] at hlost
    cases hlost
  serial := by
    intro hs _ _
    refine ⟨slot, hfinds, ?_, ?_⟩
    · rw [(hq.rows hs).rows]
      exact serial_of_no_site hsite heffect
    · intro name rid hsome
      rw [hsite] at hsome
      cases hsome

/-- A quiet statement that has locked its position. -/
theorem Outcome.of_quiet (hq : Quiet h db db') (htarget : statement.target? answer = none)
    (slot : Option Rid) (hfinds : db.catalog.Sound → statement.Finds db.catalog.shapes slot)
    (name : String) (rid : Rid) (hsite : statement.site? db.catalog.shapes slot = some (name, rid))
    (heffect : db.catalog.Sound → statement.effect db.catalog.shapes slot (db.catalog.rows name rid) =
      (answer, db.catalog.rows name rid))
    (hheld : db.catalog.Sound → db'.HoldsRow h name rid) : Outcome h statement answer db db' where
  did := .quiet hq htarget
  entered := by
    intro hs hlost
    have hanswer := isLogFailure_effect db.catalog.shapes slot (db.catalog.rows name rid) statement
    rw [heffect hs] at hanswer
    exact absurd (hlost.symm.trans hanswer) (by decide)
  serial := by
    intro hs _ _
    refine ⟨slot, hfinds hs, ?_, ?_⟩
    · rw [(hq.rows hs).rows, serial_of_site hsite (heffect hs), Rows.set_eq_self rfl]
    · intro n r hsome
      rw [hsite] at hsome
      cases hsome
      exact hheld hs

/-! ### Outcomes that write -/

/-- A statement that writes the row at its position. -/
theorem Outcome.of_wrote {write : WriteRecord} {row : Option Bytes} (hw : Wrote h write row db db')
    (hname : statement.written? = some write.table)
    (htarget : statement.target? answer = some (write.table, write.rid))
    (hwrite : statement.write? = some (write.kind, row))
    (hroom : db'.log.HasRoom (write.logSize row)) (slot : Option Rid)
    (hfinds : db.catalog.Sound → statement.Finds db.catalog.shapes slot)
    (hsite : statement.site? db.catalog.shapes slot = some (write.table, write.rid))
    (heffect : db.catalog.Sound → statement.effect db.catalog.shapes slot
      (db.catalog.rows write.table write.rid) = (answer, row)) : Outcome h statement answer db db' where
  did := .wrote write row hw hname (fun _ => htarget)
    ⟨hwrite, ⟨fun _ => hroom, fun _ => isLogFailure_of_target? htarget⟩, fun hlost =>
      absurd (hlost.symm.trans (isLogFailure_of_target? htarget)) (by decide)⟩
  entered := fun _ _ => hw.writes_ne
  serial := by
    intro hs _ _
    have hchange := hw.change hs
    refine ⟨slot, hfinds hs, ?_, ?_⟩
    · rw [hchange.rows]
      exact serial_of_site hsite (heffect hs)
    · intro name rid hsome
      rw [hsite] at hsome
      cases hsome
      obtain ⟨shape, hshape, hheld, _⟩ := hchange.lock
      exact ⟨shape, .exclusive, hchange.shapes ▸ hshape, hw.id ▸ hheld, rfl⟩

/-- A statement that enters a write and leaves the row alone, since the new row has the wrong size. -/
theorem Outcome.of_missed {write : WriteRecord} {error : StatementError}
    (hw : Wrote h write write.image db db') (hname : statement.written? = some write.table)
    (hkind : write.kind = .update) (hwrite : ∃ row, statement.write? = some (write.kind, row))
    (slot : Option Rid) (hfinds : statement.Finds db.catalog.shapes slot)
    (hsite : statement.site? db.catalog.shapes slot = some (write.table, write.rid))
    (heffect : db.catalog.Sound → statement.effect db.catalog.shapes slot
      (db.catalog.rows write.table write.rid) =
        (.error error, db.catalog.rows write.table write.rid)) :
    Outcome h statement (.error error) db db' where
  did := .missed write hw hname (target?_error statement error)
    ⟨hwrite, by simp [hkind], fun _ => hkind⟩
  entered := fun _ _ => hw.writes_ne
  serial := by
    intro hs _ _
    have hchange := hw.change hs
    refine ⟨slot, hfinds, ?_, ?_⟩
    · rw [hchange.rows, hchange.image]
      exact serial_of_site hsite (heffect hs)
    · intro name rid hsome
      rw [hsite] at hsome
      cases hsome
      obtain ⟨shape, hshape, hheld, _⟩ := hchange.lock
      exact ⟨shape, .exclusive, hchange.shapes ▸ hshape, hw.id ▸ hheld, rfl⟩

/-- A statement whose write the log refuses. -/
theorem Outcome.of_log {error : StatementError} {write : WriteRecord} {row : Option Bytes}
    (hlog : error.isLogFailure = true) (hw : Wrote h write row db db')
    (hdid : Did h statement (.error error) db db') : Outcome h statement (.error error) db db' where
  did := hdid
  entered := fun _ _ => hw.writes_ne
  serial := by
    intro _ _ hfails
    exact absurd (hlog.symm.trans hfails) (by decide)

end Statement

namespace Database

open Statement

variable {h : Handle} {db mid db' : Database}

theorem HoldsRow.of_heldMode {name : String} {rid : Rid} {table : Table} {held : Mode} {id : TxnId}
    (hget : db.catalog.get? name = some table) (hid : (db.txn h).id = id)
    (hheld : db.locks.heldMode id (.record table.id rid) = some held)
    (hcovers : held.covers .shared = true) : db.HoldsRow h name rid :=
  ⟨table.shape, held, Catalog.shapes_of_get? hget, hid ▸ hheld, hcovers⟩

/-- A transaction that goes on keeps its hold on a row. -/
theorem HoldsRow.keeps {name : String} {rid : Rid} (hholds : db.HoldsRow h name rid)
    (hk : Keeps h db db') (hshapes : db'.catalog.shapes = db.catalog.shapes) :
    db'.HoldsRow h name rid := by
  obtain ⟨shape, held, hshape, hheld, hcovers⟩ := hholds
  obtain ⟨held', hheld', hcovers'⟩ := hk.mode _ _ hheld
  exact ⟨shape, held', hshapes ▸ hshape, hk.id ▸ hheld', Mode.covers_trans hcovers' hcovers⟩

theorem acquire_outcome (h : Handle) (resource : Resource) (mode : Mode) (db : Database) :
    (acquire h resource mode).Ends db
      (fun _ db' => Outcome h (.acquire resource mode) (.ok .done) db db')
      fun error db' => Outcome h (.acquire resource mode) (.error (.transaction error)) db db' := by
  refine (acquire_ends h resource mode db).mono ?_ ?_
  · rintro _ db' ⟨_, hgranted, hmode, _⟩
    refine .of_no_site hgranted.toQuiet rfl none trivial rfl ?_
    cases resource with
    | table id => rfl
    | record id rid =>
      have hneither : ¬ (mode ≠ .shared ∧ mode ≠ .exclusive) := by
        rintro ⟨hshared, hexclusive⟩
        exact (hmode rfl).elim hshared hexclusive
      simp only [Statement.effect, if_neg hneither]
  · rintro error db (⟨hstop, hlog⟩ | ⟨rfl, hrecord, hneither, rfl⟩)
    · exact .of_stopped hstop hlog
    · cases resource with
      | table id => cases hrecord
      | record id rid =>
        exact .of_no_site (.refl h db) rfl none trivial rfl
          (by simp only [Statement.effect, if_pos hneither])

/-! ### Statements that write -/

theorem keeps_putTable (h : Handle) (db : Database) (table : Table) : Keeps h db (db.putTable table) :=
  .of_eq h rfl rfl rfl

/-- What is there when a statement has found a row and has locked its position. -/
structure Found (h : Handle) (mode : Mode) (name : String) (rid : Rid) (table : Table) (before : Bytes)
    (db mid : Database) : Prop where
  active : db.isActive h = true
  found : db.catalog.get? name = some table
  row : table.heap.row? rid = some before
  granted : Granted h db mid
  held : ∃ held, mid.locks.heldMode (db.txn h).id (.record table.id rid) = some held ∧
    held.covers mode = true

section Found

variable {name : String} {rid : Rid} {table table' : Table} {before : Bytes} {row : Option Bytes}
  {write : WriteRecord}

theorem Found.catalog_get? {mode : Mode} (hf : Found h mode name rid table before db mid) :
    mid.catalog.get? name = some table := by
  rw [hf.granted.catalog, hf.found]

/-- A write that was entered under an exclusive lock on its position, and then done to the row. -/
theorem Found.wrote (hf : Found h .exclusive write.table write.rid table before db mid)
    (hentered : Entered h write mid db') (hkind : write.kind ≠ .insert) (himage : write.image = some before)
    {last : Database} (hkeeps : Keeps h db' last) (hlast : last.txn h = db'.txn h)
    (hgap : ∀ key, row.bind table.keyOf? = some key → table.keyOf? before ≠ some key →
      db.gaps.blocks (db.txn h).id table.id (.before key) = false)
    (hrows : db.catalog.Sound → last.catalog.Sound ∧ last.catalog.shapes = db.catalog.shapes ∧
      last.catalog.rows = db.catalog.rows.set write.table write.rid row) :
    Wrote h write row db last where
  toKeeps := (hf.granted.toKeeps.trans hentered.toKeeps).trans hkeeps
  active := hf.active
  writes := by rw [hlast, hentered.writes, hf.granted.writes]
  state := by rw [hlast, hentered.state, hf.granted.state_eq]
  change := by
    intro hs
    obtain ⟨hsound, hshapes, hrows⟩ := hrows hs
    have hkey : table.shape.keyOf? = table.keyOf? := funext fun row => (table.keyOf?_eq row).symm
    refine ⟨hsound, hshapes, hrows, ?_, ?_, table.shape, Catalog.shapes_of_get? hf.found, ?_, ?_⟩
    · rw [himage, Catalog.rows_of_get? hf.found, hf.row]
    · rw [himage]
      exact ⟨fun heq => absurd heq hkind, fun hnone => by cases hnone⟩
    · obtain ⟨held, hheld, hcovers⟩ := hf.held
      rw [Mode.eq_exclusive_of_covers hcovers, ← hf.granted.id] at hheld
      rw [← hf.granted.id]
      exact (hentered.toKeeps.trans hkeeps).exclusive hheld
    · rw [hkey, himage]
      exact hgap

/-- The write has been entered, and the row is as it was. -/
theorem Found.missed (hf : Found h .exclusive write.table write.rid table before db mid)
    (hentered : Entered h write mid db') (hkind : write.kind ≠ .insert)
    (himage : write.image = some before) : Wrote h write write.image db db' := by
  refine hf.wrote hentered hkind himage (.refl h db') rfl ?_ fun hs => ?_
  · intro key hkey hne
    rw [himage] at hkey
    exact absurd hkey hne
  · have hcatalog : db'.catalog = db.catalog := hentered.catalog.trans hf.granted.catalog
    rw [hcatalog, Rows.set_eq_self]
    · exact ⟨hs, rfl, rfl⟩
    · rw [himage, Catalog.rows_of_get? hf.found, hf.row]

/-- The write has been entered, and the row has been changed. -/
theorem Found.put (hf : Found h .exclusive write.table write.rid table before db mid)
    (row : Option Bytes) (hentered : Entered h write mid db') (hkind : write.kind ≠ .insert)
    (himage : write.image = some before)
    (hgap : ∀ key, row.bind table.keyOf? = some key → table.keyOf? before ≠ some key →
      db.gaps.blocks (db.txn h).id table.id (.before key) = false)
    (hchanged : table.Sound → table.Changed write.rid row table') :
    Wrote h write row db (db'.putTable table') := by
  refine hf.wrote hentered hkind himage (keeps_putTable h db' table') rfl hgap fun hs => ?_
  have hcatalog : (db'.putTable table').catalog = db.catalog.put table' := by
    rw [putTable, hentered.catalog, hf.granted.catalog]
  have hchanged := hchanged (hs.table _ _ hf.found)
  rw [hcatalog]
  exact ⟨hs.put hchanged.sound, Catalog.shapes_put hf.found (hs.name _ _ hf.found) hchanged.shape,
    Catalog.rows_put_of_changed hs hf.found hchanged⟩

end Found

/-- A statement on a row either finds it, with the position locked, or comes to nothing. -/
theorem found_ends (h : Handle) (statement : Statement) {name : String} {rid : Rid} {mode : Mode}
    (hmode : mode = .shared ∨ mode = .exclusive) (db : Database)
    (hfinds : ∀ shapes, statement.Finds shapes none)
    (hsite : ∀ shapes, statement.site? shapes none = (shapes name).map fun _ => (name, rid))
    (hunknown : ∀ shapes : String → Option TableShape, shapes name = none →
      (statement.effect shapes none none).1 = Answer.unknownTable name)
    (hnotFound : ∀ shapes : String → Option TableShape, shapes name ≠ none →
      statement.effect shapes none none = (.error (.storage (.notFound rid)), none))
    {α : Type} {next : Bytes → Action StatementError α} {ok : α → Database → Prop}
    (hnext : ∀ table before mid, Found h mode name rid table before db mid →
      (next before).Ends mid ok fun error db' => Outcome h statement (.error error) db db') :
    (do
      lockRow h name rid mode
      next (← rowAt name rid) : Action StatementError α).Ends db ok
      fun error db' => Outcome h statement (.error error) db db' := by
  simp only [Action.ends_bind]
  refine (lockRow_ends h name rid hmode db).mono ?_ ?_
  · rintro _ mid ⟨table, hget, hactive, hgranted, hheld⟩
    have hmid : mid.catalog.get? name = some table := by rw [hgranted.catalog, hget]
    refine (rowAt_ends hmid rid).mono ?_ ?_
    · rintro before mid ⟨rfl, hrow⟩
      exact hnext table before mid ⟨hactive, hget, hrow, hgranted, hheld⟩
    · rintro error mid ⟨rfl, hrow, rfl⟩
      have hshape := Catalog.shapes_of_get? hget
      obtain ⟨held, hheld, hcovers⟩ := hheld
      refine .of_quiet hgranted.toQuiet (target?_error _ _) none (fun _ => hfinds _) name rid ?_ ?_ ?_
      · rw [hsite, hshape]
        rfl
      · intro _
        rw [Catalog.rows_of_get? hget, hrow]
        exact hnotFound _ (by simp [hshape])
      · refine fun _ => .of_heldMode hmid hgranted.id hheld ?_
        rcases hmode with rfl | rfl
        · exact hcovers
        · rw [Mode.eq_exclusive_of_covers hcovers]
          rfl
  · rintro error db (⟨hstop, hlog⟩ | ⟨rfl, hget, rfl⟩)
    · exact .of_stopped hstop hlog
    · have hshape : db.catalog.shapes name = none := by simp [Catalog.shapes, hget]
      exact .of_no_site (.refl h db) (target?_error _ _) none (hfinds _) (by rw [hsite, hshape]; rfl)
        (hunknown _ hshape)

theorem read_ends (h : Handle) (name : String) (rid : Rid) (db : Database) :
    (read h name rid).Ends db (fun row db' => Outcome h (.read name rid) (.ok (.row row)) db db')
      fun error db' => Outcome h (.read name rid) (.error error) db db' := by
  have hfound : (lockRow h name rid .shared >>= fun _ => rowAt name rid >>= pure).Ends db
      (fun row db' => Outcome h (.read name rid) (.ok (.row row)) db db')
      fun error db' => Outcome h (.read name rid) (.error error) db db' := by
    refine found_ends h (.read name rid) (.inl rfl) db (fun _ => trivial) (fun _ => rfl) ?_ ?_ ?_
    · intro shapes hnone
      simp only [Statement.effect, hnone]
    · intro shapes hsome
      obtain ⟨shape, hshape⟩ := Option.ne_none_iff_exists'.mp hsome
      simp only [Statement.effect, hshape]
    · intro table before mid hf
      have hshape := Catalog.shapes_of_get? hf.found
      obtain ⟨held, hheld, hcovers⟩ := hf.held
      refine .of_quiet hf.granted.toQuiet rfl none (fun _ => trivial) name rid ?_ ?_ ?_
      · simp [Statement.site?, hshape]
      · intro _
        rw [Catalog.rows_of_get? hf.found, hf.row]
        simp [Statement.effect, hshape]
      · exact fun _ => .of_heldMode hf.catalog_get? hf.granted.id hheld hcovers
  simpa only [read, Action.ends_bind, Action.ends_pure] using hfound

theorem delete_ends (h : Handle) (name : String) (rid : Rid) (db : Database) :
    (delete h name rid).Ends db
      (fun row db' => Outcome h (.delete name rid) (.ok (.row row)) db db')
      fun error db' => Outcome h (.delete name rid) (.error error) db db' := by
  refine found_ends h (.delete name rid) (.inr rfl) db (fun _ => trivial) (fun _ => rfl) ?_ ?_ ?_
  · intro shapes hnone
    simp only [Statement.effect, hnone]
  · intro shapes hsome
    obtain ⟨shape, hshape⟩ := Option.ne_none_iff_exists'.mp hsome
    simp only [Statement.effect, hshape]
  · intro table before mid hf
    have hsite : (Statement.delete name rid).site? db.catalog.shapes none = some (name, rid) := by
      simp [Statement.site?, Catalog.shapes_of_get? hf.found]
    obtain ⟨table', hremove⟩ := Table.exists_removeRow hf.row
    rw [Action.ends_bind]
    refine (enterWrite_ends hf.granted.active hf.catalog_get? rfl none).mono ?_ ?_
    · rintro _ db' ⟨hentered, hroom⟩
      have hget : db'.catalog.get? name = some table := by rw [hentered.catalog, hf.catalog_get?]
      refine onTable_ends hget ?_ ?_
      · intro value table'' hvalue
        rw [hremove] at hvalue
        cases hvalue
        refine .of_wrote (hf.put none hentered (by simp) rfl ?_ ?_) rfl rfl rfl hroom none
          (fun _ => trivial) hsite ?_
        · rintro key ⟨⟩
        · intro hsound
          exact Table.changed_of_removeRow hsound hremove
        · intro _
          rw [Catalog.rows_of_get? hf.found, hf.row]
          simp [Statement.effect, Catalog.shapes_of_get? hf.found]
      · intro error herror
        rw [hremove] at herror
        cases herror
    · rintro error db' ⟨hentered, hlog, _⟩
      have hmissed := hf.missed hentered (by simp) rfl
      refine .of_log hlog hmissed (.missed _ hmissed rfl rfl ⟨⟨none, rfl⟩, by simp, ?_⟩)
      intro hfails
      exact absurd (hlog.symm.trans hfails) (by decide)

/-- A statement that brings a key into an index, if it does, goes on only if no other transaction has the
gap of the key. -/
theorem checkKey_ends {α : Type} (h : Handle) (table : TableId) (key? : Option Bytes)
    {next : Action StatementError α} {ok : α → Database → Prop} {err : StatementError → Database → Prop}
    (hnext : (∀ key, key? = some key →
      mid.gaps.blocks (mid.txn h).id table (.before key) = false) → next.Ends mid ok err)
    (hstop : ∀ error db', Stopped h mid db' → error.isLogFailure = false → err error db') :
    (do
      if let some key := key? then (checkGap h table (.before key)).mapError .transaction
      next : Action StatementError α).Ends mid ok err := by
  cases key? with
  | none => exact hnext (by simp)
  | some key =>
    rw [Action.ends_bind, Action.ends_mapError]
    refine (checkGap_ends h table (.before key) mid).mono ?_
      fun _ db' hstop' => hstop _ db' hstop'.1 hstop'.2
    rintro _ db' ⟨rfl, _, hfree⟩
    refine hnext fun key' hkey => ?_
    cases hkey
    exact hfree

/-- A key that is in nobody's gap, if there is one, stops nothing. -/
theorem checkKey_of_free {α : Type} (hactive : mid.isActive h = true) {table : TableId} {key? : Option Bytes}
    (hfree : ∀ key, key? = some key → mid.gaps.blocks (mid.txn h).id table (.before key) = false)
    {next : Action StatementError α} {ok : α → Database → Prop} {err : StatementError → Database → Prop}
    (hnext : next.Ends mid ok err) :
    (do
      if let some key := key? then (checkGap h table (.before key)).mapError .transaction
      next : Action StatementError α).Ends mid ok err := by
  cases key? with
  | none => exact hnext
  | some key =>
    refine ((checkGap_succeeds hactive (hfree key rfl)).mapError _).bind_ends ?_
    rintro _ _ rfl
    exact hnext

theorem update_ends (h : Handle) (name : String) (rid : Rid) (row : Bytes) (db : Database) :
    (update h name rid row).Ends db
      (fun old db' => Outcome h (.update name rid row) (.ok (.row old)) db db')
      fun error db' => Outcome h (.update name rid row) (.error error) db db' := by
  refine found_ends h (.update name rid row) (.inr rfl) db (fun _ => trivial) (fun _ => rfl) ?_ ?_ ?_
  · intro shapes hnone
    simp only [Statement.effect, hnone]
  · intro shapes hsome
    obtain ⟨shape, hshape⟩ := Option.ne_none_iff_exists'.mp hsome
    simp only [Statement.effect, hshape]
  · intro table before mid hf
    have hshape := Catalog.shapes_of_get? hf.found
    have hrow : db.catalog.rows name rid = table.heap.row? rid := Catalog.rows_of_get? hf.found
    have hsite : (Statement.update name rid row).site? db.catalog.shapes none = some (name, rid) := by
      simp [Statement.site?, hshape]
    refine (table_succeeds hf.catalog_get?).bind_ends ?_
    rintro table mid ⟨rfl, rfl⟩
    refine checkKey_ends h table.id (table.newKey? before row) (fun hfree => ?_)
      fun error db' hstop => Outcome.of_stopped (hf.granted.toQuiet.stopped hstop)
    have hgap : ∀ key, (some row).bind table.keyOf? = some key → table.keyOf? before ≠ some key →
        db.gaps.blocks (db.txn h).id table.id (.before key) = false := by
      intro key hnew hold
      rw [← hf.granted.blocks_eq, ← hf.granted.id]
      refine hfree key ?_
      rw [Option.bind_some] at hnew
      simp [Table.newKey?, hnew, Option.filter, hold]
    rw [Action.ends_bind]
    refine (enterWrite_ends hf.granted.active hf.catalog_get? rfl (some row)).mono ?_ ?_
    · rintro _ db' ⟨hentered, hroom⟩
      have hget : db'.catalog.get? name = some table := by rw [hentered.catalog, hf.catalog_get?]
      by_cases hsize : row.length = table.heap.config.rowSize
      · obtain ⟨table', hreplace⟩ := Table.exists_replaceRow hf.row hsize
        refine onTable_ends hget ?_ ?_
        · intro value table'' hvalue
          rw [hreplace] at hvalue
          cases hvalue
          refine .of_wrote (hf.put (some row) hentered (by simp) rfl hgap ?_) rfl rfl rfl hroom
            none (fun _ => trivial) hsite ?_
          · intro hsound
            exact Table.changed_of_replaceRow hsound hreplace
          · intro _
            rw [hrow, hf.row]
            simp [Statement.effect, hshape, Table.shape, hsize]
        · intro error herror
          rw [hreplace] at herror
          cases herror
      · have hreplace := Table.replaceRow_error_of_size hf.row hsize
        refine onTable_ends hget ?_ ?_
        · intro value table'' hvalue
          rw [hreplace] at hvalue
          cases hvalue
        · intro error herror
          rw [hreplace] at herror
          cases herror
          refine .of_missed (hf.missed hentered (by simp) rfl) rfl rfl ⟨some row, rfl⟩ none trivial
            hsite fun _ => ?_
          rw [hrow, hf.row]
          simp [Statement.effect, hshape, Table.shape, hsize]
    · rintro error db' ⟨hentered, hlog, _⟩
      have hmissed := hf.missed hentered (by simp) rfl
      refine .of_log hlog hmissed (.missed _ hmissed rfl rfl ⟨⟨some row, rfl⟩, by simp, ?_⟩)
      intro hfails
      exact absurd (hlog.symm.trans hfails) (by decide)

/-! ### Insertion -/

/-- Another heap with the same rows is a quiet change to a table. -/
theorem quiet_putTable (h : Handle) {name : String} {table : Table}
    (hget : db.catalog.get? name = some table)
    {heap : Heap} (hheap : Heap.SameRows table.heap heap) :
    Quiet h db (db.putTable { table with heap }) where
  toKeeps := keeps_putTable h db _
  writes := rfl
  state := .inl rfl
  rows := by
    intro hs
    have hsound := hs.table _ _ hget
    exact ⟨hs.put (hsound.of_sameRows hheap),
      Catalog.shapes_put hget (hs.name _ _ hget) (Table.shape_of_sameRows hheap),
      Catalog.rows_put_of_sameRows hs hget hheap⟩

theorem quiet_cancel (h : Handle) (name : String) (rid : Rid) (db : Database) :
    Quiet h db (db.updateHeap name (·.cancel rid)) ∧
      ∀ h', (db.updateHeap name (·.cancel rid)).txn h' = db.txn h' := by
  unfold updateHeap
  cases hget : db.catalog.get? name with
  | none => exact ⟨.refl h db, fun _ => rfl⟩
  | some table => exact ⟨quiet_putTable h hget (Heap.cancel_spec table.heap rid), fun _ => rfl⟩

/-- Reserving a slot changes no row, and gives a position where there is a slot, unless there can be none. -/
theorem reserveSlot_ends (h : Handle) {name : String} {table : Table}
    (hget : db.catalog.get? name = some table) :
    (reserveSlot h name).Ends db
      (fun rid db' => Quiet h db db' ∧ db'.txn h = db.txn h ∧ ∃ table',
        db'.catalog.get? name = some table' ∧
          (db.catalog.Sound → table'.heap.slot? rid ≠ none))
      fun error db' => Quiet h db db' ∧ error = .storage .noSlot ∧
        table.heap.config.hasSlots = false := by
  refine (table_succeeds hget).bind_ends ?_
  rintro table db ⟨rfl, rfl⟩
  simp only [Action.ends_bind, Action.ends_get]
  obtain ⟨hsame, hslot, hnoSlot⟩ := Heap.reserveNamed_spec table.heap fun rid =>
    db.locks.lockedByOther (db.txn h).id (.record table.id rid)
  cases hreserve : table.heap.reserveNamed fun rid =>
    db.locks.lockedByOther (db.txn h).id (.record table.id rid) with
  | mk result heap =>
    rw [hreserve] at hsame hslot hnoSlot
    simp only [Action.ends_set, Action.ends_mapError]
    have hquiet := quiet_putTable h hget hsame
    cases result with
    | error error =>
      obtain ⟨rfl, hnone⟩ := hnoSlot error rfl
      exact ⟨hquiet, rfl, hnone⟩
    | ok rid =>
      refine ⟨hquiet, rfl, ?_⟩
      have hput := Catalog.get?_put db.catalog { table with heap } name
      by_cases hname : table.name = name
      · rw [if_pos hname] at hput
        exact ⟨_, hput, fun _ => hslot rid rfl⟩
      · rw [if_neg hname, hget] at hput
        exact ⟨table, hput, fun hs => absurd (hs.name _ _ hget) hname⟩

/-- What is there when a row has been placed in a slot under an exclusive lock. -/
structure Placed (h : Handle) (name : String) (rid : Rid) (row : Bytes) (db db' : Database) : Prop where
  place : ∃ mid table table', Granted h db mid ∧ mid.catalog.get? name = some table ∧
    table.placeRow rid row = .ok table' ∧ db' = mid.putTable table' ∧
    mid.locks.heldMode (db.txn h).id (.record table.id rid) = some .exclusive

theorem Placed.active {name : String} {rid : Rid} {row : Bytes}
    (hplaced : Placed h name rid row db db') : db'.isActive h = true := by
  obtain ⟨_, _, _, hgranted, _, _, rfl, _⟩ := hplaced.place
  exact hgranted.active

theorem Placed.exists_get? {name : String} {rid : Rid} {row : Bytes}
    (hplaced : Placed h name rid row db db') : ∃ table, db'.catalog.get? name = some table := by
  obtain ⟨mid, table, table', _, hget, _, rfl, _⟩ := hplaced.place
  have hput := Catalog.get?_put mid.catalog table' name
  split at hput
  · exact ⟨table', hput⟩
  · exact ⟨table, hput.trans hget⟩

/-- A row that is not placed in a slot that is there, although the slot has been locked, has the wrong size, or
the slot has a row already. -/
theorem fillSlot_ends (h : Handle) {name : String} {rid : Rid} {row : Bytes} {table : Table}
    (hget : db.catalog.get? name = some table) :
    (fillSlot h name rid row).Ends db (fun _ db' => Placed h name rid row db db')
      fun error db' => (Stopped h db db' ∧ error.isLogFailure = false) ∨
        (Quiet h db db' ∧ (db.catalog.Sound → table.heap.slot? rid ≠ none → db'.HoldsRow h name rid ∧
          (row.length ≠ table.heap.config.rowSize ∧
              error = .storage (.sizeMismatch table.heap.config.rowSize row.length) ∨
            row.length = table.heap.config.rowSize ∧ (∃ old, table.heap.row? rid = some old) ∧
              error = .storage (.occupied rid)))) := by
  simp only [fillSlot, Action.ends_onFailure, Action.ends_bind]
  refine (lockRow_ends h name rid (.inr rfl) db).mono ?_ ?_
  · rintro _ mid ⟨table', hget', hactive, hgranted, held, hheld, hcovers⟩
    obtain rfl : table = table' := Option.some.inj (hget.symm.trans hget')
    obtain rfl := Mode.eq_exclusive_of_covers hcovers
    have hmid : mid.catalog.get? name = some table := by rw [hgranted.catalog, hget]
    refine onTable_ends hmid ?_ ?_
    · intro _ table' hplace
      cases hplaced : table.placeRow rid row with
      | error error =>
        rw [hplaced] at hplace
        cases hplace
      | ok table₁ =>
        rw [hplaced] at hplace
        cases hplace
        exact ⟨mid, table, table', hgranted, hmid, hplaced, rfl, hheld⟩
    · intro error herror
      obtain ⟨hcancel, htxn⟩ := quiet_cancel h name rid mid
      refine .inr ⟨hgranted.toQuiet.trans hcancel, fun hs hslot => ?_⟩
      have hsound := hs.table _ _ hget
      obtain ⟨content, hslot⟩ := Option.ne_none_iff_exists'.mp hslot
      refine ⟨?_, ?_⟩
      · have hsame := hcancel.rows (hgranted.catalog ▸ hs)
        obtain ⟨held', hheld', hcovers'⟩ := hcancel.mode _ _ (hgranted.id ▸ hheld)
        refine ⟨table.shape, held', ?_, ?_, ?_⟩
        · rw [hsame.shapes, Catalog.shapes_of_get? hmid]
        · rw [hcancel.id]
          exact hheld'
        · rw [Mode.eq_exclusive_of_covers hcovers']
          rfl
      · by_cases hsize : row.length = table.heap.config.rowSize
        · have hfits : table.heap.config.Fits rid row :=
            ⟨hsize, Heap.slot?_lt hslot, hsound.heap.pages (Heap.pages_ne_nil_of_slotAt? hslot)⟩
          cases hrow : table.heap.row? rid with
          | none =>
            obtain ⟨table', hplace, _⟩ := Table.placeRow_spec hsound hfits hrow
            rw [hplace] at herror
            cases herror
          | some old =>
            rw [Table.placeRow_error_of_row hfits hrow] at herror
            cases herror
            exact .inr ⟨hsize, ⟨old, rfl⟩, rfl⟩
        · rw [Table.placeRow_error_of_size hsize] at herror
          cases herror
          exact .inl ⟨hsize, rfl⟩
  · rintro error mid (⟨hstop, hlog⟩ | ⟨rfl, hnone, _⟩)
    · obtain ⟨hcancel, htxn⟩ := quiet_cancel h name rid mid
      refine .inl ⟨⟨hstop.toQuiet.trans hcancel, ?_⟩, hlog⟩
      rw [isActive, htxn]
      exact hstop.inactive
    · rw [hget] at hnone
      cases hnone

/-- A row that has been placed in a slot that no other transaction has locked, and has been entered as an
insertion. -/
theorem Placed.wrote {name : String} {rid : Rid} {row : Bytes} {table : Table}
    (hactive : db.isActive h = true) (hget : db.catalog.get? name = some table)
    (hquiet : Quiet h db mid) (hplaced : Placed h name rid row mid db')
    (hgap : ∀ key, table.keyOf? row = some key →
      db.gaps.blocks (db.txn h).id table.id (.before key) = false)
    {last : Database} (hentered : Entered h { kind := .insert, table := name, rid } db' last) :
    Wrote h { kind := .insert, table := name, rid } (some row) db last ∧
      (db.catalog.Sound → row.length = table.heap.config.rowSize ∧ db.catalog.rows name rid = none) := by
  obtain ⟨locked, table₁, table₂, hgranted, hget₁, hplace, rfl, hheld⟩ := hplaced.place
  have hq : Quiet h db locked := hquiet.trans hgranted.toQuiet
  have hfacts : db.catalog.Sound → table₁.shape = table.shape ∧
      table₁.heap.row? rid = db.catalog.rows name rid ∧
      Table.Changed table₁ rid (some row) table₂ := by
    intro hs
    have hsame := hq.rows hs
    have hshape : some table₁.shape = some table.shape := by
      rw [← Catalog.shapes_of_get? hget₁, hsame.shapes, Catalog.shapes_of_get? hget]
    have hchanged := Table.changed_of_placeRow (hsame.sound.table _ _ hget₁) hplace
    exact ⟨Option.some.inj hshape, by rw [← Catalog.rows_of_get? hget₁, hsame.rows], hchanged⟩
  obtain ⟨hfits, hnone⟩ := Table.of_placeRow_eq_ok hplace
  refine ⟨?_, fun hs => ?_⟩
  · refine ⟨(hq.toKeeps.trans (keeps_putTable h locked table₂)).trans hentered.toKeeps, hactive, ?_, ?_, ?_⟩
    · rw [hentered.writes]
      exact congrArg _ hq.writes
    · rw [hentered.state]
      rcases hq.state with heq | haborted
      · exact heq
      · have hgoing := hgranted.active
        simp [isActive, haborted, TransactionState.isFinished] at hgoing
    · intro hs
      obtain ⟨hshape, hrow, hchanged⟩ := hfacts hs
      have hsame := hq.rows hs
      have hcatalog : last.catalog = locked.catalog.put table₂ := hentered.catalog
      have hname := hsame.sound.name _ _ hget₁
      have hkey : table.shape.keyOf? = table.keyOf? := funext fun row => (table.keyOf?_eq row).symm
      refine ⟨?_, ?_, ?_, ?_, by simp [WriteRecord.image], table.shape, Catalog.shapes_of_get? hget, ?_, ?_⟩
      · rw [hcatalog]
        exact hsame.sound.put hchanged.sound
      · rw [hcatalog, Catalog.shapes_put hget₁ hname hchanged.shape, hsame.shapes]
      · rw [hcatalog, Catalog.rows_put_of_changed hsame.sound hget₁ hchanged, hsame.rows]
      · show none = db.catalog.rows name rid
        rw [← hrow, hnone]
      · have hid : table₁.id = table.shape.id := congrArg TableShape.id hshape
        rw [hid, ← hgranted.id] at hheld
        have hlast := ((keeps_putTable h locked table₂).trans hentered.toKeeps).exclusive hheld
        rwa [hq.id] at hlast
      · intro key hnew _
        rw [hkey, Option.bind_some] at hnew
        exact hgap key hnew
  · obtain ⟨hshape, hrow, _⟩ := hfacts hs
    refine ⟨?_, by rw [← hrow, hnone]⟩
    rw [hfits.size]
    exact congrArg (·.config.rowSize) hshape

/-- A position where a table has a slot can be found for an insertion. -/
theorem finds_of_slot {name : String} {rid : Rid} {table : Table} (hs : db.catalog.Sound)
    (hget : db.catalog.get? name = some table) (hslot : table.heap.slot? rid ≠ none) (row : Bytes) :
    (Statement.insert name row).Finds db.catalog.shapes (some rid) := by
  intro shape hshape
  obtain ⟨content, hslot⟩ := Option.ne_none_iff_exists'.mp hslot
  obtain rfl : table.shape = shape := Option.some.inj ((Catalog.shapes_of_get? hget).symm.trans hshape)
  exact ⟨(hs.table _ _ hget).heap.pages (Heap.pages_ne_nil_of_slotAt? hslot), Heap.slot?_lt hslot⟩

theorem insert_ends (h : Handle) (name : String) (row : Bytes) (db : Database) :
    (insert h name row).Ends db
      (fun rid db' => Outcome h (.insert name row) (.ok (.position rid)) db db')
      fun error db' => Outcome h (.insert name row) (.error error) db db' := by
  simp only [insert]
  rw [Action.ends_bind]
  refine (table_ends name db).mono ?_ ?_
  · rintro table db ⟨rfl, hget⟩
    have hshape := Catalog.shapes_of_get? hget
    rw [Action.ends_bind, Action.ends_mapError]
    refine (acquire_ends h (.table table.id) .intentionExclusive db).mono ?_ ?_
    · rintro _ mid ⟨hactive, hgranted, _, _⟩
      refine checkKey_ends h table.id (table.keyOf? row) (fun hfree => ?_)
        fun error db' hstop => Outcome.of_stopped (hgranted.toQuiet.stopped hstop)
      have hgap : ∀ key, table.keyOf? row = some key →
          db.gaps.blocks (db.txn h).id table.id (.before key) = false := by
        intro key hkey
        rw [← hgranted.blocks_eq, ← hgranted.id]
        exact hfree key hkey
      have hmid : mid.catalog.get? name = some table := by rw [hgranted.catalog, hget]
      rw [Action.ends_bind]
      refine (reserveSlot_ends h hmid).mono ?_ ?_
      · rintro rid mid' ⟨hquiet, htxn, table', hget', hslot⟩
        have hq : Quiet h db mid' := hgranted.toQuiet.trans hquiet
        have hsite : (Statement.insert name row).site? db.catalog.shapes (some rid) = some (name, rid) := by
          simp [Statement.site?, hshape]
        have hfinds : db.catalog.Sound → (Statement.insert name row).Finds db.catalog.shapes (some rid) := by
          intro hs
          rw [← (hq.rows hs).shapes]
          exact finds_of_slot (hq.rows hs).sound hget' (hslot (hgranted.catalog ▸ hs)) row
        rw [Action.ends_bind]
        refine (fillSlot_ends h hget').mono ?_ ?_
        · rintro _ db' hplaced
          rw [Action.ends_bind]
          obtain ⟨table₂, hget₂⟩ := hplaced.exists_get?
          refine (enterWrite_ends hplaced.active hget₂ rfl (some row)).mono ?_ ?_
          · rintro _ last ⟨hentered, hroom⟩
            obtain ⟨hwrote, hrow⟩ := hplaced.wrote hactive hget hq hgap hentered
            refine .of_wrote hwrote rfl rfl rfl hroom (some rid) hfinds hsite fun hs => ?_
            obtain ⟨hsize, hnone⟩ := hrow hs
            show Statement.effect _ _ (db.catalog.rows name rid) _ = _
            simp [Statement.effect, hshape, hnone, hsize, Table.shape]
          · rintro error last ⟨hentered, hlog, hlarge⟩
            obtain ⟨hwrote, _⟩ := hplaced.wrote hactive hget hq hgap hentered
            have hlost : ¬ error.isLogFailure = false := by simp [hlog]
            exact .of_log hlog hwrote (.wrote _ _ hwrote rfl (fun hfails => absurd hfails hlost)
              ⟨rfl, ⟨fun hfails => absurd hfails hlost, fun hroom => absurd hroom hlarge⟩, fun _ => rfl⟩)
        · rintro error db' (⟨hstop, hlog⟩ | ⟨hquiet', hwrong⟩)
          · exact .of_stopped (hq.stopped hstop) hlog
          · have hwrong : db.catalog.Sound → db'.HoldsRow h name rid ∧
                (row.length ≠ table.heap.config.rowSize ∧
                    error = .storage (.sizeMismatch table.heap.config.rowSize row.length) ∨
                  row.length = table.heap.config.rowSize ∧ (∃ old, db.catalog.rows name rid = some old) ∧
                    error = .storage (.occupied rid)) := by
              intro hs
              have hsame := hq.rows hs
              have hwrong := hwrong hsame.sound (hslot (hgranted.catalog ▸ hs))
              have hshape' : some table'.shape = some table.shape := by
                rw [← Catalog.shapes_of_get? hget', hsame.shapes, hshape]
              have hrowSize : table'.heap.config.rowSize = table.heap.config.rowSize :=
                congrArg (·.config.rowSize) (Option.some.inj hshape')
              rwa [hrowSize, ← Catalog.rows_of_get? hget', hsame.rows] at hwrong
            refine .of_quiet (hq.trans hquiet') (target?_error _ _) (some rid) hfinds _ _ hsite
              (fun hs => ?_) fun hs => (hwrong hs).1
            obtain ⟨-, ⟨hsize, rfl⟩ | ⟨hsize, ⟨old, hold⟩, rfl⟩⟩ := hwrong hs
            · simp [Statement.effect, hshape, Table.shape, hsize]
            · simp [Statement.effect, hshape, Table.shape, hsize, hold]
      · rintro error db' ⟨hquiet, rfl, hnone⟩
        refine .of_no_site (hgranted.toQuiet.trans hquiet) rfl none ?_ ?_ ?_
        · intro shape hsome
          obtain rfl : table.shape = shape := Option.some.inj (hshape.symm.trans hsome)
          exact hnone
        · simp [Statement.site?, hshape]
        · simp only [Statement.effect, hshape]
    · rintro error db' (⟨hstop, hlog⟩ | ⟨_, hrecord, _⟩)
      · exact .of_stopped hstop hlog
      · cases hrecord
  · rintro error db ⟨rfl, hget, rfl⟩
    have hshape : db.catalog.shapes name = none := by simp [Catalog.shapes, hget]
    exact .of_no_site (.refl h db) rfl none (by simp [Statement.Finds, hshape])
      (by simp [Statement.site?, hshape])
      (by simp only [Statement.effect, hshape]; rfl)

end Database

/-- What becomes of any statement of any transaction on any database. -/
theorem Statement.perform_ends (h : Handle) (statement : Statement) (db : Database) :
    (statement.perform h).Ends db (fun answer db' => Outcome h statement (.ok answer) db db')
      fun error db' => Outcome h statement (.error error) db db' := by
  cases statement with
  | insert name row =>
    simp only [perform, Action.ends_bind, Action.ends_pure]
    exact Database.insert_ends h name row db
  | update name rid row =>
    simp only [perform, Action.ends_bind, Action.ends_pure]
    exact Database.update_ends h name rid row db
  | delete name rid =>
    simp only [perform, Action.ends_bind, Action.ends_pure]
    exact Database.delete_ends h name rid db
  | read name rid =>
    simp only [perform, Action.ends_bind, Action.ends_pure]
    exact Database.read_ends h name rid db
  | acquire resource mode =>
    simp only [perform, Action.ends_bind, Action.ends_mapError, Action.ends_pure]
    exact Database.acquire_outcome h resource mode db

end NoWait
