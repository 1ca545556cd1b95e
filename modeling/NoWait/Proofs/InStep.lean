import NoWait.Proofs.Frames
import NoWait.Proofs.Ranges

/-!
# Rows and index entries in step, and no slot left claimed

An insertion claims a slot before it has a row to put there, and a row and its index entry are written one
after the other.  In between an insertion may fail, and so may the undo of a write; whatever fails, the
slots that were claimed are given back, and the index has what the rows say.

* `Heap.Unreserved` says that no slot is claimed, `Heap.ReservedAt` that at most the one at a position is,
  with one lemma for each operation of a heap;
* `Table.InStep` and `Catalog.InStep` add that the indexes are sound; `insert_within`, `update_within`,
  `delete_within` and `undoAll` keep it, whether they succeed or fail;
* `Session.step_inStep` is one call, and `rows_and_index_in_step` a whole run.
-/

namespace NoWait

/-! ### Claimed slots -/

namespace Heap

variable {heap heap' : Heap} {rid : Rid} {row : Bytes} {content : Slot}

/-- Whether no slot is claimed for a row that is still to come. -/
def Unreserved (heap : Heap) : Prop := ∀ place, heap.slotAt? place ≠ some .reserved

/-- Whether no slot is claimed but the one at a position. -/
def ReservedAt (heap : Heap) (rid : Rid) : Prop :=
  ∀ place, heap.slotAt? place = some .reserved → rid.place = place

theorem Unreserved.reservedAt (h : heap.Unreserved) (rid : Rid) : heap.ReservedAt rid :=
  fun place hslot => absurd hslot (h place)

/-- The claim on a slot ends when something else is put there. -/
theorem ReservedAt.put (h : heap.ReservedAt rid) (hput : Put heap rid.place content heap')
    (hcontent : content ≠ .reserved) : heap'.Unreserved := by
  intro place hslot
  rw [hput.slots] at hslot
  split at hslot
  · obtain ⟨_, _, heq⟩ := Option.map_eq_some_iff.mp hslot
    exact hcontent heq
  · rename_i hne
    exact hne (h place hslot)

/-- Added pages bring no claims. -/
theorem Unreserved.extend (h : heap.Unreserved) (n : Nat) : (heap.extend n).Unreserved :=
  fun place hslot => h place (slotAt?_of_extend hslot (by simp))

theorem ReservedAt.extend (h : heap.ReservedAt rid) (n : Nat) : (heap.extend n).ReservedAt rid :=
  fun place hslot => h place (slotAt?_of_extend hslot (by simp))

theorem Unreserved.claims {skip : Rid → Bool} {result : Except StorageError Place} {claimed : Heap}
    (h : heap.Unreserved) (hclaims : Claims heap skip (result, claimed)) : claimed.Unreserved := by
  rcases hclaims.heap_eq with rfl | ⟨rfl, -⟩
  · exact h
  · exact h.extend 1

/-- A reservation claims the slot that it gives, and none if it gives none. -/
theorem Unreserved.reserveNamed (h : heap.Unreserved) (skip : Rid → Bool) :
    match heap.reserveNamed skip with
    | (.ok rid, heap') => heap'.ReservedAt rid
    | (.error _, heap') => heap'.Unreserved := by
  have hreserves : Reserves Place.isNamed heap skip (heap.reserveNamed skip) :=
    reserves_reserveIf Place.isNamed heap skip
  generalize heap.reserveNamed skip = reserved at hreserves ⊢
  cases hreserves with
  | marked hclaims hfree hnamed hput =>
    intro place' hslot
    rw [hput.slots] at hslot
    split at hslot
    · rename_i heq
      rw [Place.place_rid_of_isNamed hnamed, heq]
    · exact absurd hslot (h.claims hclaims place')
  | unmarked hclaims hfree hnamed => exact (h.claims hclaims).reservedAt _
  | none hclaims hnone => exact h.claims hclaims

theorem ReservedAt.cancel (h : heap.ReservedAt rid) : (heap.cancel rid).Unreserved := by
  have hcancel := cancel_put heap rid
  split at hcancel
  · exact h.put hcancel (by simp)
  · rename_i hslot
    rw [hcancel]
    intro place hreserved
    obtain rfl := h place hreserved
    exact hslot hreserved

theorem ReservedAt.insertAt (h : heap.ReservedAt rid) (hinsert : heap.insertAt rid row = .ok heap') :
    heap'.Unreserved := by
  obtain ⟨hfits, hnone⟩ := of_insertAt_eq_ok hinsert
  obtain ⟨written, hwritten, hput⟩ := insertAt_of_fits hfits hnone
  obtain rfl : written = heap' := Except.ok.inj (hwritten.symm.trans hinsert)
  have hgrown : (heap.growTo rid.page.toNat).ReservedAt rid := h.extend _
  exact hgrown.put hput (by simp)

theorem Unreserved.delete (h : heap.Unreserved) (hdelete : heap.delete rid = .ok heap') :
    heap'.Unreserved := by
  cases hrow : heap.row? rid with
  | none =>
    rw [delete_of_none hrow] at hdelete
    cases hdelete
  | some row =>
    obtain ⟨left, hleft, hput⟩ := delete_of_row hrow
    obtain rfl : left = heap' := Except.ok.inj (hleft.symm.trans hdelete)
    exact (h.reservedAt rid).put hput (by simp)

theorem Unreserved.update (h : heap.Unreserved) (hupdate : heap.update rid row = .ok heap') :
    heap'.Unreserved := by
  by_cases hsize : row.length = heap.config.rowSize
  · cases hrow : heap.row? rid with
    | none =>
      rw [update_of_none hrow hsize] at hupdate
      cases hupdate
    | some old =>
      obtain ⟨written, hwritten, hput⟩ := update_of_row hrow hsize
      obtain rfl : written = heap' := Except.ok.inj (hwritten.symm.trans hupdate)
      exact (h.reservedAt rid).put hput (by simp)
  · rw [update_error_of_size hsize] at hupdate
    cases hupdate

end Heap

/-! ### Tables -/

/-- Whether the index of a table is in step with its rows, with no slot claimed. -/
structure Table.InStep (table : Table) : Prop extends table.Sound where
  unreserved : table.heap.Unreserved

namespace Table

variable {table table' : Table} {rid : Rid} {row old : Bytes}

theorem Changed.name_eq {new : Option Bytes} (h : table.Changed rid new table') :
    table'.name = table.name :=
  congrArg TableShape.name h.shape

/-- What a removal leaves is in step, under the same name. -/
theorem InStep.removeRow (h : table.InStep) (hremove : table.removeRow rid = .ok (row, table')) :
    table'.InStep ∧ table'.name = table.name := by
  have hrow := of_removeRow_eq_ok hremove
  have hchanged := changed_of_removeRow h.toSound hremove
  refine ⟨⟨hchanged.sound, ?_⟩, hchanged.name_eq⟩
  cases hdelete : table.heap.delete rid with
  | error error => simp [Table.removeRow, Heap.get_eq, hrow, hdelete, bind, Except.bind] at hremove
  | ok heap =>
    simp only [Table.removeRow, Heap.get_eq, hrow, hdelete, bind, Except.bind, pure, Except.pure,
      Except.ok.injEq, Prod.mk.injEq, true_and] at hremove
    rw [← hremove]
    exact h.unreserved.delete hdelete

/-- A row that is placed in the slot that was claimed leaves the table in step, under the same name. -/
theorem Sound.inStep_of_placeRow (h : table.Sound) (hclaimed : table.heap.ReservedAt rid)
    (hplace : table.placeRow rid row = .ok table') : table'.InStep ∧ table'.name = table.name := by
  have hchanged := changed_of_placeRow h hplace
  refine ⟨⟨hchanged.sound, ?_⟩, hchanged.name_eq⟩
  cases hinsert : table.heap.insertAt rid row with
  | error error => simp [Table.placeRow, hinsert, bind, Except.bind] at hplace
  | ok heap =>
    simp only [Table.placeRow, hinsert, bind, Except.bind, pure, Except.pure, Except.ok.injEq] at hplace
    rw [← hplace]
    exact hclaimed.insertAt hinsert

theorem InStep.replaceRow (h : table.InStep) (hreplace : table.replaceRow rid row = .ok (old, table')) :
    table'.InStep ∧ table'.name = table.name := by
  obtain ⟨hrow, hsize⟩ := of_replaceRow_eq_ok hreplace
  have hchanged := changed_of_replaceRow h.toSound hreplace
  refine ⟨⟨hchanged.sound, ?_⟩, hchanged.name_eq⟩
  cases hupdate : table.heap.update rid row with
  | error error => simp [Table.replaceRow, Heap.get_eq, hrow, hupdate, bind, Except.bind] at hreplace
  | ok heap =>
    simp only [Table.replaceRow, Heap.get_eq, hrow, hupdate, bind, Except.bind, pure, Except.pure,
      Except.ok.injEq, Prod.mk.injEq, true_and] at hreplace
    rw [← hreplace]
    exact h.unreserved.update hupdate

/-- An undone write leaves the table in step, under the same name. -/
theorem InStep.undo {write : WriteRecord} (h : table.InStep) (hundo : table.undo write = .ok table') :
    table'.InStep ∧ table'.name = table.name := by
  obtain ⟨-, row, hremove⟩ | ⟨-, before, -, hplace⟩ | ⟨-, before, old, -, hreplace⟩ := undo_cases hundo
  · exact h.removeRow hremove
  · exact h.toSound.inStep_of_placeRow (h.unreserved.reservedAt _) hplace
  · exact h.replaceRow hreplace

/-- The entries of an index that is in step are the rows under their keys, in ascending order. -/
theorem Sound.perm_entries (h : table.Sound) {index : TableIndex} (hindex : table.index = some index) :
    index.keys.entries.Perm (table.heap.rows.map fun (rid, row) => (index.keyOf row, rid)) ∧
      index.keys.entries.Pairwise fun a b => IndexEntry.compare a b = .lt := by
  have hnodup := h.nodup_entries hindex
  constructor
  · have hrows : (table.heap.rows.map fun (rid, row) => (index.keyOf row, rid)).Nodup := by
      refine List.pairwise_map.mpr (h.heap.pairwise_rows.imp fun {a b} hlt heq => ?_)
      rw [show a.1 = b.1 from congrArg Prod.snd heq, Std.ReflOrd.compare_self] at hlt
      cases hlt
    refine (List.perm_ext_iff_of_nodup hnodup hrows).mpr fun ⟨key, rid⟩ => ?_
    rw [h.mem_entries hindex, List.mem_map]
    constructor
    · intro hkey
      obtain ⟨row, hrow, hkey⟩ := Option.bind_eq_some_iff.mp hkey
      rw [keyOf?_of_index hindex] at hkey
      refine ⟨(rid, row), h.heap.mem_rows.mpr hrow, ?_⟩
      show (index.keyOf row, rid) = (key, rid)
      rw [Option.some.inj hkey]
    · rintro ⟨⟨rid', row⟩, hmem, heq⟩
      cases heq
      rw [h.heap.mem_rows.mp hmem]
      exact keyOf?_of_index hindex row
  · refine (index.keys.pairwise_entries.and hnodup).imp fun {a b} ⟨hle, hne⟩ => ?_
    cases hcompare : IndexEntry.compare a b with
    | lt => rfl
    | eq => exact absurd (Std.LawfulEqCmp.eq_of_compare hcompare) hne
    | gt =>
      rw [hcompare] at hle
      cases hle

end Table

/-! ### Catalogs -/

namespace Catalog

variable {catalog catalog' : Catalog} {table : Table} {name : String} {rid : Rid}

/-- Whether every table is found under its own name and is in step. -/
structure InStep (catalog : Catalog) : Prop where
  name : ∀ name table, catalog.get? name = some table → table.name = name
  table : ∀ name table, catalog.get? name = some table → table.InStep

/-- Whether every table is in step, but for a claim on one slot of one table. -/
structure InStepBut (catalog : Catalog) (home : String) (rid : Rid) : Prop extends catalog.Sound where
  others : ∀ other table, home ≠ other → catalog.get? other = some table → table.heap.Unreserved
  claimed : ∀ table, catalog.get? home = some table → table.heap.ReservedAt rid

theorem InStep.sound (h : catalog.InStep) : catalog.Sound where
  name := h.name
  table := fun name table hget => (h.table name table hget).toSound

theorem InStep.empty : ({} : Catalog).InStep where
  name := Sound.empty.name
  table := fun name table h => by simp [get?] at h

theorem InStep.put (h : catalog.InStep) (htable : table.InStep) : (catalog.put table).InStep where
  name := (h.sound.put htable.toSound).name
  table := by
    intro name t hget
    rw [get?_put] at hget
    split at hget
    · cases hget
      exact htable
    · exact h.table name t hget

/-- A table in step ends the claim on a slot of the table whose place it takes. -/
theorem InStepBut.put (h : catalog.InStepBut name rid) (htable : table.InStep) (hname : table.name = name) :
    (catalog.put table).InStep where
  name := (h.toSound.put htable.toSound).name
  table := by
    intro name' t hget
    have hsound := (h.toSound.put htable.toSound).table name' t hget
    rw [get?_put, hname] at hget
    split at hget
    · cases hget
      exact htable
    · rename_i hne
      exact ⟨hsound, h.others name' t hne hget⟩

/-- A table with a claim on one slot takes the place of one without. -/
theorem InStep.claim (h : catalog.InStep) (hget : catalog.get? name = some table) {heap : Heap}
    (hheap : Heap.SameRows table.heap heap) (hclaimed : heap.ReservedAt rid) :
    (catalog.put { table with heap }).InStepBut name rid := by
  have hname := h.name name table hget
  refine ⟨h.sound.put ((h.sound.table name table hget).of_sameRows hheap), ?_, ?_⟩
  · intro name' t hne hget'
    rw [get?_put, if_neg (by rw [hname]; exact hne)] at hget'
    exact (h.table name' t hget').unreserved
  · intro t hget'
    rw [get?_put, if_pos hname] at hget'
    cases hget'
    exact hclaimed

/-- A table that is created is empty, so the catalog stays in step. -/
theorem InStep.create (h : catalog.InStep) {config : HeapConfig} {index : Option TableIndex} {id : TableId}
    (hkeys : ∀ i, index = some i → i.keys = {})
    (hcreate : catalog.create name config index = .ok (id, catalog')) : catalog'.InStep := by
  by_cases hexists : name ∈ catalog.tables
  · simp [Catalog.create, register, hexists, bind, Except.bind] at hcreate
  · simp [Catalog.create, register, hexists, bind, Except.bind, pure, Except.pure] at hcreate
    obtain ⟨-, rfl⟩ := hcreate
    have hempty : ({ name, heap := { table := catalog.nextId, config }, index } : Table).InStep :=
      ⟨.of_empty rfl hkeys, fun place hslot => by simp [Heap.slotAt?] at hslot⟩
    exact ⟨(h.put hempty).name, (h.put hempty).table⟩

theorem InStep.undo {write : WriteRecord} (h : catalog.InStep) (hundo : catalog.undo write = .ok catalog') :
    catalog'.InStep := by
  obtain ⟨table, table', hget, htable, rfl⟩ := of_undo_eq_ok hundo
  exact h.put ((h.table _ _ hget).undo htable).1

/-- However far an undo comes, it leaves the tables in step. -/
theorem InStep.undoAll {writes left : List WriteRecord} {result : Except TransactionError Unit}
    (h : catalog.InStep) (hundo : catalog.undoAll writes = (result, left, catalog')) : catalog'.InStep := by
  induction writes generalizing catalog with
  | nil =>
    cases hundo
    exact h
  | cons write older ih =>
    simp only [Catalog.undoAll] at hundo
    split at hundo
    · cases hundo
      exact h
    · rename_i mid hmid
      exact ih (h.undo hmid) hundo

end Catalog

/-! ### Statements -/

namespace Database

variable {h : Handle} {db db' : Database} {name : String} {rid : Rid} {row : Bytes}

/-- Whether a database has its tables in step if another one has. -/
def KeepsInStep (db db' : Database) : Prop := db.catalog.InStep → db'.catalog.InStep

instance : IsPreorder Database KeepsInStep where
  refl _ := id
  trans _ _ _ h h' := h' ∘ h

theorem SameTables.keepsInStep (h : db.SameTables db') : db.KeepsInStep db' :=
  fun hin => h.symm ▸ hin

theorem SameStore.keepsInStep (h : db.SameStore db') : db.KeepsInStep db' := h.sameTables.keepsInStep

/-- An action that leaves the tables in step if it finds them so. -/
theorem within_keepsInStep {ε α : Type} {action : Action ε α}
    (h : ∀ db, db.catalog.InStep →
      action.Ends db (fun _ db' => db'.catalog.InStep) fun _ db' => db'.catalog.InStep) :
    action.Within KeepsInStep := by
  intro db
  unfold Action.Ends at h ⊢
  cases hrun : action db with
  | ok value db' =>
    intro hin
    have hleft := h db hin
    rwa [hrun] at hleft
  | error error db' =>
    intro hin
    have hleft := h db hin
    rwa [hrun] at hleft

theorem onTable_within {α : Type} {operation : Table → Except StorageError (α × Table)}
    (hoperation : ∀ table value table', table.InStep → operation table = .ok (value, table') →
      table'.InStep) : (onTable name operation).Within KeepsInStep := by
  refine within_keepsInStep fun db hin => ?_
  cases hget : db.catalog.get? name with
  | none =>
    rw [onTable, Action.ends_bind]
    refine (table_ends name db).mono ?_ ?_
    · rintro table db ⟨rfl, hsome⟩
      rw [hget] at hsome
      cases hsome
    · rintro _ db ⟨rfl, _⟩
      exact hin
  | some table =>
    refine onTable_ends hget (fun value table' hvalue => ?_) fun _ _ => hin
    exact hin.put (hoperation table value table' (hin.table _ _ hget) hvalue)

theorem delete_within (h : Handle) (name : String) (rid : Rid) : (delete h name rid).Within KeepsInStep := by
  refine ((lockRow_within h name rid _).mono fun _ _ => SameStore.keepsInStep).bind fun _ => ?_
  refine ((rowAt_within name rid).mono fun _ _ => SameStore.keepsInStep).bind fun before => ?_
  refine ((enterWrite_within h _ _).mono fun _ _ => SameTables.keepsInStep).bind fun _ => ?_
  exact onTable_within fun table value table' hin hremove => (hin.removeRow hremove).1

theorem update_within (h : Handle) (name : String) (rid : Rid) (row : Bytes) :
    (update h name rid row).Within KeepsInStep := by
  refine ((lockRow_within h name rid _).mono fun _ _ => SameStore.keepsInStep).bind fun _ => ?_
  refine ((rowAt_within name rid).mono fun _ _ => SameStore.keepsInStep).bind fun before => ?_
  refine ((table_within name).mono fun _ _ => SameStore.keepsInStep).bind fun table => ?_
  refine checkKey_within (fun _ _ => SameStore.keepsInStep) h _ _ ?_
  refine ((enterWrite_within h _ _).mono fun _ _ => SameTables.keepsInStep).bind fun _ => ?_
  exact onTable_within fun table value table' hin hreplace => (hin.replaceRow hreplace).1

/-- A reservation that succeeds leaves one claim, on the slot that it gives. -/
theorem reserveSlot_claims (h : Handle) (hin : db.catalog.InStep) :
    (reserveSlot h name).Ends db (fun rid db' => db'.catalog.InStepBut name rid)
      fun _ db' => db'.catalog.InStep := by
  simp only [reserveSlot, Action.ends_bind]
  refine (table_ends name db).mono ?_ ?_
  · rintro table db ⟨rfl, hget⟩
    simp only [Action.ends_get]
    obtain ⟨hsame, _, _⟩ := Heap.reserveNamed_spec table.heap fun rid =>
      db.locks.lockedByOther (db.txn h).id (.record table.id rid)
    have hreserve := (hin.table _ _ hget).unreserved.reserveNamed fun rid =>
      db.locks.lockedByOther (db.txn h).id (.record table.id rid)
    cases hrun : table.heap.reserveNamed fun rid =>
      db.locks.lockedByOther (db.txn h).id (.record table.id rid) with
    | mk result heap =>
      rw [hrun] at hsame hreserve
      simp only [Action.ends_set, Action.ends_mapError]
      cases result with
      | error error =>
        exact hin.put ⟨(hin.sound.table _ _ hget).of_sameRows hsame, hreserve⟩
      | ok rid => exact hin.claim hget hsame hreserve
  · rintro _ db ⟨rfl, _⟩
    exact hin

/-- Giving the claimed slot back leaves the tables in step. -/
theorem inStep_updateHeap_cancel (hbut : db.catalog.InStepBut name rid) :
    (db.updateHeap name (·.cancel rid)).catalog.InStep := by
  unfold updateHeap
  cases hget : db.catalog.get? name with
  | none =>
    refine ⟨hbut.name, fun name' table hget' => ⟨hbut.table name' table hget', ?_⟩⟩
    refine hbut.others name' table (fun heq => ?_) hget'
    rw [← heq, hget] at hget'
    cases hget'
  | some table =>
    have hname : table.name = name := hbut.name name table hget
    refine hbut.put ⟨(hbut.table _ _ hget).of_sameRows (Heap.cancel_spec table.heap rid), ?_⟩ hname
    exact (hbut.claimed table hget).cancel

/-- A claimed slot is filled or given back. -/
theorem fillSlot_inStep (h : Handle) (row : Bytes) (hbut : db.catalog.InStepBut name rid) :
    (fillSlot h name rid row).Ends db (fun _ db' => db'.catalog.InStep)
      fun _ db' => db'.catalog.InStep := by
  simp only [fillSlot, Action.ends_onFailure, Action.ends_bind]
  refine (lockRow_within h name rid .exclusive db).mono ?_ ?_
  · intro _ mid hmid
    have hbut : mid.catalog.InStepBut name rid := hmid.catalog.symm ▸ hbut
    cases hget : mid.catalog.get? name with
    | none =>
      rw [onTable, Action.ends_bind]
      refine (table_ends name mid).mono ?_ ?_
      · rintro table mid ⟨rfl, hsome⟩
        rw [hget] at hsome
        cases hsome
      · rintro _ mid ⟨rfl, _⟩
        exact inStep_updateHeap_cancel hbut
    | some table =>
      refine onTable_ends hget ?_ fun _ _ => inStep_updateHeap_cancel hbut
      intro _ table' hplace
      cases hplaced : table.placeRow rid row with
      | error error =>
        rw [hplaced] at hplace
        cases hplace
      | ok table₁ =>
        rw [hplaced] at hplace
        cases hplace
        obtain ⟨hin, hname⟩ := (hbut.table _ _ hget).inStep_of_placeRow (hbut.claimed table hget) hplaced
        exact hbut.put hin (hname.trans (hbut.name _ _ hget))
  · intro _ mid hmid
    have hbut : mid.catalog.InStepBut name rid := hmid.catalog.symm ▸ hbut
    exact inStep_updateHeap_cancel hbut

theorem insert_within (h : Handle) (name : String) (row : Bytes) :
    (insert h name row).Within KeepsInStep := by
  refine ((table_within name).mono fun _ _ => SameStore.keepsInStep).bind fun table => ?_
  refine (((acquire_within h _ _).mapError _).mono fun _ _ => SameStore.keepsInStep).bind fun _ => ?_
  refine checkKey_within (fun _ _ => SameStore.keepsInStep) h _ _ ?_
  refine within_keepsInStep fun db hin => ?_
  rw [Action.ends_bind]
  refine (reserveSlot_claims h hin).mono (fun rid mid hbut => ?_) fun _ _ hin => hin
  rw [Action.ends_bind]
  refine (fillSlot_inStep h row hbut).mono (fun _ last hin => ?_) fun _ _ hin => hin
  rw [Action.ends_bind]
  refine (enterWrite_within h _ _ last).mono ?_ ?_
  · intro _ db' hsame
    exact hsame.keepsInStep hin
  · intro _ db' hsame
    exact hsame.keepsInStep hin

end Database

open Database

theorem Statement.perform_within (h : Handle) (statement : Statement) :
    (statement.perform h).Within KeepsInStep := by
  cases statement with
  | insert name row => exact (insert_within h name row).bind fun _ => Action.within_pure _
  | update name rid row => exact (update_within h name rid row).bind fun _ => Action.within_pure _
  | delete name rid => exact (delete_within h name rid).bind fun _ => Action.within_pure _
  | read name rid =>
    exact ((read_within h name rid).mono fun _ _ => SameStore.keepsInStep).bind fun _ =>
      Action.within_pure _
  | acquire resource mode =>
    exact (((acquire_within h resource mode).mapError _).mono fun _ _ => SameStore.keepsInStep).bind
      fun _ => Action.within_pure _

/-! ### Calls and runs -/

theorem Database.abort_within (h : Handle) : (abort h).Within KeepsInStep := by
  refine fun db => (abort_ends h db).mono ?_ ?_
  · rintro _ db' ⟨_, catalog, hundo, hleft, _⟩ hin
    rw [hleft.catalog]
    exact hin.undoAll hundo
  · rintro _ db' (⟨rfl, _⟩ | ⟨_, left, catalog, hundo, rfl⟩ | ⟨_, catalog, hundo, hleft, _⟩) hin
    · exact hin
    · exact hin.undoAll hundo
    · rw [hleft.catalog]
      exact hin.undoAll hundo

/-- Every call leaves the tables in step. -/
theorem Session.step_inStep {s : Session} (hin : s.db.catalog.InStep) (call : Call) :
    (s.step call).2.db.catalog.InStep := by
  by_cases hsparing : call.isSparing = true
  · exact (step_sameStore hsparing).keepsInStep hin
  · cases call with
    | begin =>
      have hbegin : s.db.SameTables (s.step .begin).2.db :=
        act_within ((begin_within.mapError _).bind fun _ => Action.within_pure _)
      exact hbegin.keepsInStep hin
    | commit h =>
      have hcommit : s.db.SameTables (s.step (.commit h)).2.db :=
        act_within (((commit_within h).mapError _).bind fun _ => Action.within_pure _)
      exact hcommit.keepsInStep hin
    | abort h =>
      have habort : s.db.KeepsInStep (s.step (.abort h)).2.db :=
        act_within (((abort_within h).mapError _).bind fun _ => Action.within_pure _)
      exact habort hin
    | run h statement =>
      have hrun : s.db.KeepsInStep (s.step (.run h statement)).2.db :=
        act_within (statement.perform_within h)
      exact hrun hin
    | _ => exact absurd rfl hsparing

variable {start s : Session} {trace : List Event}

/-- The tables are in step after any run that finds them so. -/
theorem Run.inStep (hrun : Run start trace s) (hstart : start.db.catalog.InStep) :
    s.db.catalog.InStep := by
  refine hrun.invariant (fun s => s.db.catalog.InStep) hstart ?_
  exact fun event _ hin => Session.step_inStep hin event.call

theorem Session.oneTable_inStep : Session.oneTable.db.catalog.InStep :=
  Catalog.InStep.empty.put
    ⟨.of_empty rfl (fun index h => by cases h; rfl), fun place h => by simp [Heap.slotAt?] at h⟩

end NoWait
