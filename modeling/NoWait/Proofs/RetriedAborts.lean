import NoWait.Proofs.Guard
import NoWait.Proofs.LogRoom

/-!
# Aborts that are tried again

An abort takes writes back one after another, newest first, and each of them leaves the write-set when it has
been taken back.  So an abort that fails at a write has done with the newer ones, and the next abort goes on
with the write that failed.  However often that happens, and whatever is done to the tables meanwhile, in the
end every write has been taken back once.

* `Table.Exchanged` says that one row comes in for another and that the index follows;
  `Table.exchanged_of_removeRow` and the two after it say so of the row operations;
* `Catalog.Restored` says what it is to take one write back, `Catalog.AllRestored` a list of writes;
  `Catalog.restored_of_undo` and `Catalog.allRestored_of_undoAll` say that an undo does so;
* `Database.StuckAt` is what an abort leaves that fails at a write, `Database.FailedAborts` a succession of such
  aborts with repairs in between;
* `failed_abort_resumable` is the result.

Of the tables nothing is supposed but that each is found under its own name: indexes may be out of step with the
rows, and the writes may be of tables and rows that are not there.
-/

namespace NoWait

/-! ### One row for another -/

/-- The index when the row at a position is exchanged for another; there need not have been one, and there need
not be one afterwards. -/
def TableIndex.exchange (index : TableIndex) (rid : Rid) : Option Bytes → Option Bytes → TableIndex
  | none, none => index
  | some old, none => index.remove rid old
  | none, some new => index.add rid new
  | some old, some new => index.move rid old new

theorem TableIndex.stretch_exchange (index : TableIndex) (rid : Rid) (old new : Option Bytes) :
    ((index.exchange rid old new).offset, (index.exchange rid old new).length) = (index.offset, index.length) := by
  cases old <;> cases new <;> simp only [exchange, add, remove, move]
  split <;> rfl

namespace Table

variable {table table' : Table} {rid : Rid} {row old : Bytes} {new : Option Bytes}

/-- A table that differs from another in the row at one position, and in the index just as far as it has to. -/
structure Exchanged (table : Table) (rid : Rid) (new : Option Bytes) (table' : Table) : Prop where
  shape : table'.shape = table.shape
  rows : ∀ rid', table'.heap.row? rid' = if rid = rid' then new else table.heap.row? rid'
  index : table'.index = table.index.map (·.exchange rid (table.heap.row? rid) new)

/-- Something else is put into a slot, after pages have been added if need be, and the index follows. -/
theorem Exchanged.of_put {grown heap : Heap} {content : Slot} (hgrown : Heap.SameRows table.heap grown)
    (hput : Heap.Put grown rid.place content heap) (hslot : grown.slot? rid ≠ none) :
    table.Exchanged rid content.row?
      { table with heap, index := table.index.map (·.exchange rid (table.heap.row? rid) content.row?) } where
  shape := by
    simp only [Table.shape, Table.id, hput.table, hput.config, hgrown.table, hgrown.config, Option.map_map,
      Function.comp_def, TableIndex.stretch_exchange]
  rows := by
    intro rid'
    show heap.row? rid' = _
    rw [hput.row?_eq hslot, hgrown.rows]
  index := rfl

theorem exchanged_of_removeRow (hremove : table.removeRow rid = .ok (row, table')) :
    table.Exchanged rid none table' := by
  have hrow : table.heap.row? rid = some row := of_removeRow_eq_ok hremove
  obtain ⟨heap, hdelete, hput⟩ := Heap.delete_of_row hrow
  simp only [removeRow, Heap.get_eq, hrow, hdelete, bind, Except.bind, pure, Except.pure, Except.ok.injEq,
    Prod.mk.injEq, true_and] at hremove
  have hslot : table.heap.slot? rid ≠ none := by
    rw [Heap.slot?_of_row? hrow]
    simp
  have hexchanged := Exchanged.of_put (.refl table.heap) hput hslot
  rw [hrow] at hexchanged
  rw [← hremove]
  exact hexchanged

theorem exchanged_of_placeRow (hplace : table.placeRow rid row = .ok table') :
    table.Exchanged rid (some row) table' := by
  obtain ⟨hfits, hnone⟩ := of_placeRow_eq_ok hplace
  obtain ⟨heap, hinsert, hput⟩ := Heap.insertAt_of_fits hfits hnone
  simp only [placeRow, hinsert, bind, Except.bind, pure, Except.pure, Except.ok.injEq] at hplace
  have hslot : (table.heap.growTo rid.page.toNat).slot? rid ≠ none := by
    obtain ⟨content, hcontent⟩ := table.heap.exists_slot?_growTo hfits.slot
    rw [hcontent]
    simp
  have hexchanged := Exchanged.of_put (.extend table.heap hfits.pages _) hput hslot
  rw [hnone] at hexchanged
  rw [← hplace]
  exact hexchanged

theorem exchanged_of_replaceRow (hreplace : table.replaceRow rid row = .ok (old, table')) :
    table.Exchanged rid (some row) table' := by
  obtain ⟨hrow, hsize⟩ := of_replaceRow_eq_ok hreplace
  obtain ⟨heap, hupdate, hput⟩ := Heap.update_of_row hrow hsize
  simp only [replaceRow, Heap.get_eq, hrow, hupdate, bind, Except.bind, pure, Except.pure, Except.ok.injEq,
    Prod.mk.injEq, true_and] at hreplace
  have hslot : table.heap.slot? rid ≠ none := by
    rw [Heap.slot?_of_row? hrow]
    simp
  have hexchanged := Exchanged.of_put (.refl table.heap) hput hslot
  rw [hrow] at hexchanged
  rw [← hreplace]
  exact hexchanged

end Table

/-! ### Writes that are taken back -/

namespace Catalog

variable {catalog catalog' : Catalog} {write : WriteRecord} {writes left : List WriteRecord}

/-- Whether every table is found under its own name. -/
def Named (catalog : Catalog) : Prop := ∀ name table, catalog.get? name = some table → table.name = name

theorem Sound.named (h : catalog.Sound) : catalog.Named := h.name

theorem Named.put (hnamed : catalog.Named) (table : Table) : (catalog.put table).Named := by
  intro name found hfound
  rw [get?_put] at hfound
  split at hfound
  · rename_i heq
    cases hfound
    exact heq
  · exact hnamed name found hfound

/-- What it is to take a write back: an insertion or an update finds a row at its position, a deletion none, and
the row from before the write comes there.  All other tables stay as they are. -/
structure Restored (catalog : Catalog) (write : WriteRecord) (catalog' : Catalog) : Prop where
  table : ∃ table table', catalog.get? write.table = some table ∧ catalog'.get? write.table = some table' ∧
    table.Exchanged write.rid write.image table'
  others : ∀ name, name ≠ write.table → catalog'.get? name = catalog.get? name
  found : catalog.rows write.table write.rid = none ↔ write.kind = .delete
  image : write.image = none ↔ write.kind = .insert

/-- What it is to take writes back one after another, given in the order in which they are taken back. -/
inductive AllRestored : Catalog → List WriteRecord → Catalog → Prop where
  | nil (catalog : Catalog) : AllRestored catalog [] catalog
  | cons {catalog mid catalog' : Catalog} {write : WriteRecord} {older : List WriteRecord}
      (h : catalog.Restored write mid) (hold : AllRestored mid older catalog') :
      AllRestored catalog (write :: older) catalog'

/-- A table that has taken a write back goes in for the one that was there. -/
theorem restored_put {table table' : Table} (hnamed : catalog.Named)
    (hget : catalog.get? write.table = some table) (hexchanged : table.Exchanged write.rid write.image table')
    (hfound : table.heap.row? write.rid = none ↔ write.kind = .delete)
    (himage : write.image = none ↔ write.kind = .insert) :
    catalog.Restored write (catalog.put table') ∧ (catalog.put table').Named := by
  have hname : table'.name = write.table :=
    (congrArg TableShape.name hexchanged.shape).trans (hnamed _ _ hget)
  refine ⟨⟨⟨table, table', hget, ?_, hexchanged⟩, ?_, ?_, himage⟩, hnamed.put table'⟩
  · rw [get?_put, if_pos hname]
  · intro name hne
    rw [get?_put, if_neg]
    intro heq
    exact hne (heq.symm.trans hname)
  · rw [rows_of_get? hget]
    exact hfound

/-- An undo takes a write back. -/
theorem restored_of_undo (hnamed : catalog.Named) (hundo : catalog.undo write = .ok catalog') :
    catalog.Restored write catalog' ∧ catalog'.Named := by
  obtain ⟨table, table', hget, htable, rfl⟩ := of_undo_eq_ok hundo
  obtain ⟨hkind, row, hremove⟩ | ⟨hkind, before, hbefore, hplace⟩ | ⟨hkind, before, old, hbefore, hreplace⟩ :=
    Table.undo_cases htable
  · have himage : write.image = none := by simp [WriteRecord.image, hkind]
    have hrow := Table.of_removeRow_eq_ok hremove
    apply restored_put hnamed hget
    · rw [himage]
      exact Table.exchanged_of_removeRow hremove
    · simp [hrow, hkind]
    · simp [himage, hkind]
  · have himage : write.image = some before := by simp [WriteRecord.image, hkind, hbefore]
    have hrow := (Table.of_placeRow_eq_ok hplace).2
    apply restored_put hnamed hget
    · rw [himage]
      exact Table.exchanged_of_placeRow hplace
    · simp [hrow, hkind]
    · simp [himage, hkind]
  · have himage : write.image = some before := by simp [WriteRecord.image, hkind, hbefore]
    have hrow := (Table.of_replaceRow_eq_ok hreplace).1
    apply restored_put hnamed hget
    · rw [himage]
      exact Table.exchanged_of_replaceRow hreplace
    · simp [hrow, hkind]
    · simp [himage, hkind]

/-- However far an undo comes, it takes back the writes that it does not leave, newest first. -/
theorem allRestored_of_undoAll {result : Except TransactionError Unit} (hnamed : catalog.Named)
    (hundo : catalog.undoAll writes = (result, left, catalog')) :
    ∃ undone, writes = undone ++ left ∧ AllRestored catalog undone catalog' := by
  induction writes generalizing catalog with
  | nil =>
    cases hundo
    exact ⟨[], rfl, .nil _⟩
  | cons write older ih =>
    simp only [undoAll] at hundo
    cases hfirst : catalog.undo write with
    | error error =>
      rw [hfirst] at hundo
      cases hundo
      exact ⟨[], rfl, .nil _⟩
    | ok mid =>
      rw [hfirst] at hundo
      obtain ⟨hrestored, hnamed'⟩ := restored_of_undo hnamed hfirst
      obtain ⟨undone, heq, hall⟩ := ih hnamed' hundo
      exact ⟨write :: undone, by rw [heq, List.cons_append], .cons hrestored hall⟩

end Catalog

/-! ### Aborts that fail -/

namespace Database

variable {h : Handle} {db db' last : Database} {attempts : List (Catalog × Catalog)}

/-- What an abort leaves that fails at a write.  The newer writes have been taken back, the one that failed is the
newest of those that are left, and nothing else has changed: not the state of the transaction nor its locks, no
gap, no other transaction, and neither the register nor the log. -/
structure StuckAt (h : Handle) (db : Database) (error : TransactionError) (undone : List WriteRecord)
    (db' : Database) : Prop where
  writes : (db.txn h).writes = undone ++ (db'.txn h).writes
  undone : Catalog.AllRestored db.catalog undone db'.catalog
  failed : ∃ write older, (db'.txn h).writes = write :: older ∧ db'.catalog.undo write = .error error
  txn : db'.txn h = { db.txn h with writes := (db'.txn h).writes }
  others : ∀ h', h ≠ h' → db'.txn h' = db.txn h'
  rest : { db' with catalog := db.catalog, transactions := db.transactions } = db

theorem stuckAt_rolledBack {error : TransactionError} {left : List WriteRecord} {catalog : Catalog}
    (hnamed : db.catalog.Named) (hlt : h < db.transactions.size)
    (hundo : db.catalog.undoAll (db.txn h).writes = (.error error, left, catalog)) :
    ∃ undone, StuckAt h db error undone (db.rolledBack h left catalog) := by
  have hself := txn_rolledBack hlt left catalog
  obtain ⟨undone, hwrites, hall⟩ := Catalog.allRestored_of_undoAll hnamed hundo
  obtain ⟨write, older, hleft, hfailed, _⟩ := Catalog.undoAll_error hundo
  refine ⟨undone, ?_, hall, ⟨write, older, ?_, hfailed⟩, ?_, ?_, rfl⟩
  · rw [hself]
    exact hwrites
  · rw [hself]
    exact hleft
  · rw [hself]
  · intro h' hne
    exact txn_updateTxn_of_ne ({ db with catalog } : Database) _ hne

/-- An abort of a transaction that is not committed gets stuck at a write, or gets past the undo with every write
taken back; after that it fails in the log if at all. -/
theorem abort_ends_restored (hnamed : db.catalog.Named) (hgoing : (db.txn h).state ≠ .committed) :
    (abort h).Ends db
      (fun _ db' => Catalog.AllRestored db.catalog (db.txn h).writes db'.catalog ∧ (db'.txn h).writes = [])
      fun error db' =>
        (error.IsUndoFailure ∧ ∃ undone, StuckAt h db error undone db') ∨
        ((StatementError.transaction error).isLogFailure = true ∧
          Catalog.AllRestored db.catalog (db.txn h).writes db'.catalog ∧ (db'.txn h).writes = []) := by
  have hrolled : ∀ {catalog : Catalog} {left : Database},
      db.catalog.undoAll (db.txn h).writes = (.ok (), [], catalog) →
      LeftBehind h (db.rolledBack h [] catalog) left →
      Catalog.AllRestored db.catalog (db.txn h).writes left.catalog ∧ (left.txn h).writes = [] := by
    intro catalog left hundo hleft
    obtain ⟨undone, heq, hall⟩ := Catalog.allRestored_of_undoAll hnamed hundo
    rw [List.append_nil] at heq
    rw [heq, hleft.catalog]
    exact ⟨hall, hleft.writes⟩
  apply (abort_ends h db).mono
  · intro _ left hends
    obtain ⟨_, catalog, hundo, hleft, _⟩ := hends
    exact hrolled hundo hleft
  · intro error left hends
    obtain ⟨_, hcommitted, _⟩ | ⟨hlt, writes, catalog, hundo, hdb⟩ | ⟨_, catalog, hundo, hleft, hlog⟩ := hends
    · exact absurd hcommitted hgoing
    · rw [hdb]
      exact .inl ⟨Catalog.isUndoFailure_of_undoAll hundo, stuckAt_rolledBack hnamed hlt hundo⟩
    · exact .inr ⟨hlog, hrolled hundo hleft⟩

/-- Aborts of a transaction one after another, each of which fails at a write, with the tables that each of them
found and left.  After each the tables are repaired in any way; whatever else changes, the transaction does not. -/
inductive FailedAborts (h : Handle) : Database → List (Catalog × Catalog) → Database → Prop where
  | nil (db : Database) : FailedAborts h db [] db
  | cons {db failed mended last : Database} {error : TransactionError} {attempts : List (Catalog × Catalog)}
      (habort : abort h db = .error error failed) (hundo : error.IsUndoFailure)
      (htxn : mended.txn h = failed.txn h) (hnamed : mended.catalog.Named)
      (hagain : FailedAborts h mended attempts last) :
      FailedAborts h db ((db.catalog, failed.catalog) :: attempts) last

/-- What an abort that fails at a write leaves. -/
theorem stuckAt_of_abort {error : TransactionError} (hnamed : db.catalog.Named)
    (hgoing : (db.txn h).state ≠ .committed) (habort : abort h db = .error error db') (hundo : error.IsUndoFailure) :
    ∃ undone, StuckAt h db error undone db' := by
  have hends := abort_ends_restored hnamed hgoing
  simp only [Action.Ends, habort] at hends
  obtain ⟨_, hstuck⟩ | ⟨hlog, _⟩ := hends
  · exact hstuck
  · rw [hundo.isLogFailure_eq_false] at hlog
    cases hlog

/-- Each of the aborts has taken back a stretch of the writes, one stretch after another, and the transaction still
has the rest of them. -/
theorem FailedAborts.stretches (hfailed : FailedAborts h db attempts last) (hnamed : db.catalog.Named)
    (hgoing : (db.txn h).state ≠ .committed) :
    ∃ stretches, (db.txn h).writes = stretches.flatten ++ (last.txn h).writes ∧
      List.Forall₂ (fun attempt undone => Catalog.AllRestored attempt.1 undone attempt.2) attempts stretches ∧
      last.catalog.Named ∧ (last.txn h).state ≠ .committed := by
  induction hfailed with
  | nil db => exact ⟨[], rfl, .nil, hnamed, hgoing⟩
  | @cons db failed mended last error attempts habort hundo htxn hmended hagain ih =>
    obtain ⟨undone, hstuck⟩ := stuckAt_of_abort hnamed hgoing habort hundo
    have hgoing' : (mended.txn h).state ≠ .committed := by
      rw [htxn, hstuck.txn]
      exact hgoing
    obtain ⟨stretches, hwrites, hattempts, hlast⟩ := ih hmended hgoing'
    refine ⟨undone :: stretches, ?_, .cons hstuck.undone hattempts, hlast⟩
    rw [hstuck.writes, ← htxn, hwrites, List.flatten_cons, List.append_assoc]

end Database

open Database

/-- An abort that fails at a write can be tried again without loss.  It has taken back the writes before that one,
newest first, and nothing else has changed.  When it is tried again, any number of times and with any repairs of the
tables in between, every attempt takes back a stretch of the writes; the attempt that gets past the undo takes back
the rest, so that every write has then been taken back once, in reverse order. -/
theorem failed_abort_resumable {h : Handle} {db : Database} (hnamed : db.catalog.Named)
    (hgoing : (db.txn h).state ≠ .committed) :
    (∀ error db', abort h db = .error error db' → error.IsUndoFailure →
      ∃ undone, StuckAt h db error undone db') ∧
    ∀ attempts last, FailedAborts h db attempts last →
      ∃ stretches, (db.txn h).writes = stretches.flatten ++ (last.txn h).writes ∧
        List.Forall₂ (fun attempt undone => Catalog.AllRestored attempt.1 undone attempt.2) attempts stretches ∧
        (abort h).Ends last
          (fun _ db' => Catalog.AllRestored last.catalog (last.txn h).writes db'.catalog ∧ (db'.txn h).writes = [])
          fun error db' => error.IsUndoFailure ∨ ((StatementError.transaction error).isLogFailure = true ∧
            Catalog.AllRestored last.catalog (last.txn h).writes db'.catalog ∧ (db'.txn h).writes = []) := by
  constructor
  · intro error db' habort hundo
    exact stuckAt_of_abort hnamed hgoing habort hundo
  · intro attempts last hfailed
    obtain ⟨stretches, hwrites, hattempts, hnamed', hgoing'⟩ := hfailed.stretches hnamed hgoing
    refine ⟨stretches, hwrites, hattempts, ?_⟩
    apply (abort_ends_restored hnamed' hgoing').mono
    · intro _ db' hall
      exact hall
    · intro error db' hends
      exact hends.imp_left And.left

/-- A transaction has inserted two rows, and the first is lost.  The abort takes the second back and fails; when the
first row has been put there again, the next abort takes it back. -/
theorem failed_abort_resumable_lost_row :
    let first := Session.oneTable.play [.begin, .run 0 (.insert "t" [5])]
    let both := first.play [.run 0 (.insert "t" [6])]
    let second := both.play [.run 0 (.delete "t" ⟨0, 0⟩)]
    let lost : Database := { both.db with catalog := second.db.catalog }
    ∃ failed undone, abort 0 lost = .error (.storage (.notFound ⟨0, 0⟩)) failed ∧
      StuckAt 0 lost (.storage (.notFound ⟨0, 0⟩)) undone failed ∧
      (failed.txn 0).writes = [{ kind := .insert, table := "t", rid := ⟨0, 0⟩ }] ∧
      (abort 0).Succeeds { failed with catalog := first.db.catalog } fun _ db' =>
        first.db.catalog.AllRestored [{ kind := .insert, table := "t", rid := ⟨0, 0⟩ }] db'.catalog := by
  intro first both second lost
  have hfirst : Run Session.oneTable _ first := .of_calls Session.oneTable [.begin, .run 0 (.insert "t" [5])]
  have hboth : Run first _ both := .of_calls first [.run 0 (.insert "t" [6])]
  have hsecond : Run both _ second := .of_calls both [.run 0 (.delete "t" ⟨0, 0⟩)]
  have hsound : first.db.catalog.Sound := (hfirst.tables Session.oneTable_sound).1
  have hsound' : second.db.catalog.Sound := (hsecond.tables (hboth.tables hsound).1).1
  have hnamed : lost.catalog.Named := by
    dsimp only [lost]
    exact hsound'.named
  have hends : (abort 0).Ends lost (fun _ _ => False) fun error failed =>
      error = .storage (.notFound ⟨0, 0⟩) ∧
      (failed.txn 0).writes = [{ kind := .insert, table := "t", rid := ⟨0, 0⟩ }] ∧
      (abort 0).Succeeds { failed with catalog := first.db.catalog } fun _ _ => True := by decide +kernel
  rw [Action.ends_false_iff] at hends
  obtain ⟨error, failed, habort, rfl, hwrites, hagain⟩ := hends
  have hgoing : (lost.txn 0).state ≠ .committed := by decide +kernel
  obtain ⟨hstuck, hretried⟩ := failed_abort_resumable hnamed hgoing
  have hundo : (TransactionError.storage (.notFound ⟨0, 0⟩)).IsUndoFailure := .inl ⟨_, rfl⟩
  obtain ⟨undone, hstuck⟩ := hstuck _ _ habort hundo
  have hsame : ({ failed with catalog := first.db.catalog } : Database).txn 0 = failed.txn 0 := rfl
  obtain ⟨_, _, _, hlast⟩ := hretried _ _ (.cons habort hundo hsame hsound.named (.nil _))
  refine ⟨failed, undone, habort, hstuck, hwrites, ?_⟩
  apply (hagain.and hlast).mono
  intro _ db' hall
  rw [hsame, hwrites] at hall
  exact hall.2.1

end NoWait
