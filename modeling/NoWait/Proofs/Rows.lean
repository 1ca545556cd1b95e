import NoWait.Catalog
import NoWait.Proofs.Slots

/-!
# The rows of a catalog, and the index entries beside them

What the tables of a catalog hold is a map from table names and positions to rows.  The index of a
sound table has one entry for each row, under the row's key, and no other, so what becomes of the
entries follows from what becomes of the rows.

* `Rows` is such a map and `Catalog.rows` the one of a catalog; `TableShape` is what never changes of
  a table, `Catalog.shapes` finds it by name;
* `Table.Sound` and `Catalog.Sound` say that heaps are sound and indexes are in step with them, as they
  are in the tables that a catalog creates;
* `Table.Changed` relates two tables that differ in one row, with `removeRow_spec`, `placeRow_spec` and
  `replaceRow_spec` for the row operations; `rows_put_of_changed` lifts it to the catalog.
-/

namespace NoWait

/-! ### Rows as a map -/

/-- The row at each position of each table. -/
abbrev Rows := String → Rid → Option Bytes

/-- The map with another row, or none, at one position. -/
def Rows.set (rows : Rows) (name : String) (rid : Rid) (row : Option Bytes) : Rows :=
  fun name' rid' => if name = name' ∧ rid = rid' then row else rows name' rid'

namespace Rows

variable {rows : Rows} {name name' : String} {rid rid' : Rid} {row : Option Bytes}

@[simp] theorem set_self : rows.set name rid row name rid = row := by simp [set]

theorem set_of_ne (h : ¬ (name = name' ∧ rid = rid')) :
    rows.set name rid row name' rid' = rows name' rid' := by
  rw [set, if_neg h]

theorem set_set (row' : Option Bytes) :
    (rows.set name rid row).set name rid row' = rows.set name rid row' := by
  funext n r
  unfold set
  split <;> rfl

theorem set_eq_self (h : rows name rid = row) : rows.set name rid row = rows := by
  funext n r
  unfold set
  split
  · rename_i heq
    rw [← heq.1, ← heq.2, h]
  · rfl

end Rows

/-! ### Tables -/

/-- What never changes of a table: its name and number, the shape of its pages, and the stretch of a row
that its index is on, if it has one. -/
structure TableShape where
  name : String
  id : TableId
  config : HeapConfig
  key : Option (Nat × Nat)
  deriving DecidableEq

/-- The key of a row in a table of this shape, if the table is indexed. -/
def TableShape.keyOf? (shape : TableShape) (row : Bytes) : Option Bytes :=
  shape.key.map fun (offset, length) => (row.drop offset).take length

namespace Table

variable {table table' : Table} {rid rid' : Rid} {row old : Bytes} {key : Bytes}

/-- The shape of a table. -/
def shape (table : Table) : TableShape where
  name := table.name
  id := table.id
  config := table.heap.config
  key := table.index.map fun index => (index.offset, index.length)

theorem keyOf?_eq (table : Table) (row : Bytes) : table.keyOf? row = table.shape.keyOf? row := by
  cases h : table.index <;> simp [keyOf?, TableShape.keyOf?, shape, TableIndex.keyOf, h]

theorem keyOf?_of_index {index : TableIndex} (h : table.index = some index) (row : Bytes) :
    table.keyOf? row = some (index.keyOf row) := by
  simp [keyOf?, h]

/-- How often the index of a table has an entry; never, if the table has none. -/
def entryCount (table : Table) (key : Bytes) (rid : Rid) : Nat :=
  (table.index.map fun index => index.keys.count (key, rid)).getD 0

/-- What holds of a table however its rows came and went: the index has an entry for the key of each row,
once, and no other entry. -/
structure Sound (table : Table) : Prop where
  heap : table.heap.Sound
  index : ∀ key rid, table.entryCount key rid =
    if (table.heap.row? rid).bind table.keyOf? = some key then 1 else 0

/-- A table without rows and index entries is sound. -/
theorem Sound.of_empty (hpages : table.heap.pages = [])
    (hkeys : ∀ index, table.index = some index → index.keys = {}) : table.Sound where
  heap := .of_pages_nil hpages
  index := by
    intro key rid
    have hrow : table.heap.row? rid = none := by simp [Heap.row?, hpages]
    cases hindex : table.index with
    | none => simp [entryCount, hindex, hrow]
    | some index => simp [entryCount, hindex, hkeys index hindex, KeyIndex.count, hrow]

/-- A table that differs from another in the row at one position and the entry for it. -/
structure Changed (table : Table) (rid : Rid) (row : Option Bytes) (table' : Table) : Prop where
  shape : table'.shape = table.shape
  sound : table'.Sound
  rows : ∀ rid', table'.heap.row? rid' = if rid = rid' then row else table.heap.row? rid'

/-- Bringing the index in step with a changed heap makes a changed table: the old row's entry has to go
and the new row's to come, and nothing else. -/
theorem Changed.of_heap (h : table.Sound) {heap : Heap} {index : Option TableIndex} {new : Option Bytes}
    (hheap : Heap.Changed table.heap rid new heap)
    (hshape : (index.map fun index => (index.offset, index.length)) =
      table.index.map fun index => (index.offset, index.length))
    (hcount : ∀ key rid', ({ table with heap, index } : Table).entryCount key rid' =
      if rid = rid' then (if new.bind table.keyOf? = some key then 1 else 0)
      else table.entryCount key rid') :
    Changed table rid new { table with heap, index } where
  shape := by
    simp only [Table.shape, Table.id, hheap.table, hheap.config, hshape]
  sound := by
    refine ⟨hheap.sound, fun key rid' => ?_⟩
    have hkey : ({ table with heap, index } : Table).keyOf? = table.keyOf? := by
      funext r
      simp only [keyOf?_eq, TableShape.keyOf?, Table.shape, hshape]
    rw [hcount, hkey, hheap.rows]
    split
    · rfl
    · exact h.index key rid'
  rows := hheap.rows

theorem removeRow_error (hrow : table.heap.row? rid = none) :
    table.removeRow rid = .error (.notFound rid) := by
  simp [removeRow, Heap.get_eq, hrow, bind, Except.bind]

/-- A row is removed only from where it stands. -/
theorem of_removeRow_eq_ok (hremove : table.removeRow rid = .ok (row, table')) :
    table.heap.row? rid = some row := by
  cases hrow : table.heap.row? rid with
  | none =>
    rw [removeRow_error hrow] at hremove
    cases hremove
  | some old =>
    obtain ⟨heap, hdelete, -⟩ := Heap.delete_of_row hrow
    simp only [removeRow, Heap.get_eq, hrow, hdelete, bind, Except.bind, pure, Except.pure,
      Except.ok.injEq, Prod.mk.injEq] at hremove
    rw [hremove.1]

/-- A row that is there can be removed. -/
theorem exists_removeRow (hrow : table.heap.row? rid = some row) :
    ∃ table', table.removeRow rid = .ok (row, table') := by
  obtain ⟨heap, hdelete, -⟩ := Heap.delete_of_row hrow
  simp [removeRow, Heap.get_eq, hrow, hdelete, bind, Except.bind, pure, Except.pure]

/-- Removing a row takes its index entry with it. -/
theorem removeRow_spec (h : table.Sound) (hrow : table.heap.row? rid = some row) :
    ∃ table', table.removeRow rid = .ok (row, table') ∧ Changed table rid none table' := by
  obtain ⟨heap, hdelete, hheap⟩ := Heap.delete_spec h.heap hrow
  refine ⟨{ table with heap, index := table.index.map (·.remove rid row) }, ?_, ?_⟩
  · simp [removeRow, Heap.get_eq, hrow, hdelete, bind, Except.bind, pure, Except.pure]
  · refine Changed.of_heap h hheap ?_ fun key rid' => ?_
    · cases table.index <;> rfl
    · have hcount := h.index key rid'
      cases hindex : table.index with
      | none => simp [entryCount, hindex]
      | some index =>
        simp only [entryCount, hindex, Option.map_some, Option.getD_some] at hcount
        simp only [entryCount, Option.map_some, Option.getD_some, hindex, TableIndex.remove,
          KeyIndex.count_delete, hcount]
        by_cases hrid : rid = rid'
        · subst hrid
          simp [hrow, keyOf?_of_index hindex, Prod.ext_iff]
        · simp [hrid]

/-- A row of the right size goes into a slot without one, and its entry into the index. -/
theorem placeRow_spec (h : table.Sound) (hfits : table.heap.config.Fits rid row)
    (hnone : table.heap.row? rid = none) :
    ∃ table', table.placeRow rid row = .ok table' ∧ Changed table rid (some row) table' := by
  obtain ⟨heap, hinsert, hheap⟩ := Heap.insertAt_spec h.heap hfits hnone
  refine ⟨{ table with heap, index := table.index.map (·.add rid row) }, ?_, ?_⟩
  · simp [placeRow, hinsert, bind, Except.bind, pure, Except.pure]
  · refine Changed.of_heap h hheap ?_ fun key rid' => ?_
    · cases table.index <;> rfl
    · have hcount := h.index key rid'
      cases hindex : table.index with
      | none => simp [entryCount, hindex, keyOf?]
      | some index =>
        simp only [entryCount, hindex, Option.map_some, Option.getD_some] at hcount
        simp only [entryCount, Option.map_some, Option.getD_some, hindex, TableIndex.add,
          KeyIndex.count_insert, hcount]
        by_cases hrid : rid = rid'
        · subst hrid
          simp [hnone, keyOf?_of_index hindex, Prod.ext_iff]
        · simp [hrid]

theorem placeRow_error_of_size (hsize : row.length ≠ table.heap.config.rowSize) :
    table.placeRow rid row = .error (.sizeMismatch table.heap.config.rowSize row.length) := by
  simp [placeRow, Heap.insertAt_error_of_size hsize, bind, Except.bind]

theorem placeRow_error_of_row (hfits : table.heap.config.Fits rid row) (hrow : table.heap.row? rid = some old) :
    table.placeRow rid row = .error (.occupied rid) := by
  simp [placeRow, Heap.insertAt_of_row hfits hrow, bind, Except.bind]

/-- A row is placed only where it fits and where there is none. -/
theorem of_placeRow_eq_ok (hplace : table.placeRow rid row = .ok table') :
    table.heap.config.Fits rid row ∧ table.heap.row? rid = none := by
  obtain ⟨heap, hinsert⟩ : ∃ heap, table.heap.insertAt rid row = .ok heap := by
    cases h : table.heap.insertAt rid row with
    | ok heap => exact ⟨heap, rfl⟩
    | error e => simp [placeRow, h, bind, Except.bind] at hplace
  exact Heap.of_insertAt_eq_ok hinsert

theorem replaceRow_error (hrow : table.heap.row? rid = none) :
    table.replaceRow rid row = .error (.notFound rid) := by
  simp [replaceRow, Heap.get_eq, hrow, bind, Except.bind]

theorem replaceRow_error_of_size (hrow : table.heap.row? rid = some old)
    (hsize : row.length ≠ table.heap.config.rowSize) :
    table.replaceRow rid row = .error (.sizeMismatch table.heap.config.rowSize row.length) := by
  simp [replaceRow, Heap.get_eq, hrow, Heap.update_error_of_size hsize, bind, Except.bind]

/-- A row is replaced only where one stands, and by one of the right size. -/
theorem of_replaceRow_eq_ok (hreplace : table.replaceRow rid row = .ok (old, table')) :
    table.heap.row? rid = some old ∧ row.length = table.heap.config.rowSize := by
  cases hrow : table.heap.row? rid with
  | none =>
    rw [replaceRow_error hrow] at hreplace
    cases hreplace
  | some old' =>
    by_cases hsize : row.length = table.heap.config.rowSize
    · obtain ⟨heap, hupdate, -⟩ := Heap.update_of_row hrow hsize
      simp only [replaceRow, Heap.get_eq, hrow, hupdate, bind, Except.bind, pure, Except.pure,
        Except.ok.injEq, Prod.mk.injEq] at hreplace
      exact ⟨by rw [hreplace.1], hsize⟩
    · rw [replaceRow_error_of_size hrow hsize] at hreplace
      cases hreplace

/-- A row that is there can be replaced by one of the right size. -/
theorem exists_replaceRow (hrow : table.heap.row? rid = some old)
    (hsize : row.length = table.heap.config.rowSize) :
    ∃ table', table.replaceRow rid row = .ok (old, table') := by
  obtain ⟨heap, hupdate, -⟩ := Heap.update_of_row hrow hsize
  simp [replaceRow, Heap.get_eq, hrow, hupdate, bind, Except.bind, pure, Except.pure]

/-- A row of the right size takes the place of another, and its entry that of the other's. -/
theorem replaceRow_spec (h : table.Sound) (hrow : table.heap.row? rid = some old)
    (hsize : row.length = table.heap.config.rowSize) :
    ∃ table', table.replaceRow rid row = .ok (old, table') ∧ Changed table rid (some row) table' := by
  obtain ⟨heap, hupdate, hheap⟩ := Heap.update_spec h.heap hrow hsize
  refine ⟨{ table with heap, index := table.index.map (·.move rid old row) }, ?_, ?_⟩
  · simp [replaceRow, Heap.get_eq, hrow, hupdate, bind, Except.bind, pure, Except.pure]
  · refine Changed.of_heap h hheap ?_ fun key rid' => ?_
    · cases table.index with
      | none => rfl
      | some index =>
        simp only [Option.map_some, TableIndex.move]
        split <;> rfl
    · have hcount := h.index key rid'
      cases hindex : table.index with
      | none => simp [entryCount, hindex, keyOf?]
      | some index =>
        simp only [entryCount, hindex, Option.map_some, Option.getD_some] at hcount
        simp only [entryCount, Option.map_some, Option.getD_some, hindex, TableIndex.move]
        by_cases hkey : index.keyOf old = index.keyOf row
        · rw [if_pos hkey, hcount]
          by_cases hrid : rid = rid'
          · subst hrid
            simp [hrow, keyOf?_of_index hindex, hkey]
          · simp [hrid]
        · have hadd : (index.remove rid old).keyOf row = index.keyOf row := rfl
          rw [if_neg hkey]
          simp only [TableIndex.add, KeyIndex.count_insert, hadd]
          simp only [TableIndex.remove, KeyIndex.count_delete, hcount]
          by_cases hrid : rid = rid'
          · subst hrid
            simp [hrow, keyOf?_of_index hindex, Prod.ext_iff]
          · simp [hrid]

/-- A table whose heap holds the same rows is as sound as before. -/
theorem Sound.of_sameRows (h : table.Sound) {heap : Heap} (hheap : Heap.SameRows table.heap heap) :
    ({ table with heap } : Table).Sound where
  heap := hheap.sound h.heap
  index := fun key rid => by rw [hheap.rows]; exact h.index key rid

theorem shape_of_sameRows {heap : Heap} (hheap : Heap.SameRows table.heap heap) :
    ({ table with heap } : Table).shape = table.shape := by
  simp only [shape, id, hheap.table, hheap.config]

/-- What a row operation leaves, if it succeeds, is what it is to leave. -/
theorem changed_of_removeRow (h : table.Sound) (hremove : table.removeRow rid = .ok (row, table')) :
    Changed table rid none table' := by
  obtain ⟨_, hremove', hchanged⟩ := removeRow_spec h (of_removeRow_eq_ok hremove)
  cases hremove.symm.trans hremove'
  exact hchanged

theorem changed_of_placeRow (h : table.Sound) (hplace : table.placeRow rid row = .ok table') :
    Changed table rid (some row) table' := by
  obtain ⟨hfits, hnone⟩ := of_placeRow_eq_ok hplace
  obtain ⟨_, hplace', hchanged⟩ := placeRow_spec h hfits hnone
  cases hplace.symm.trans hplace'
  exact hchanged

theorem changed_of_replaceRow (h : table.Sound) (hreplace : table.replaceRow rid row = .ok (old, table')) :
    Changed table rid (some row) table' := by
  obtain ⟨hrow, hsize⟩ := of_replaceRow_eq_ok hreplace
  obtain ⟨_, hreplace', hchanged⟩ := replaceRow_spec h hrow hsize
  cases hreplace.symm.trans hreplace'
  exact hchanged

end Table

/-! ### Catalogs -/

namespace Catalog

variable {catalog catalog' : Catalog} {table table' : Table} {name : String} {rid : Rid}
  {row : Option Bytes}

/-- The rows of a catalog. -/
def rows (catalog : Catalog) : Rows := fun name rid => (catalog.get? name).bind (·.heap.row? rid)

/-- The shapes of a catalog's tables, by name. -/
def shapes (catalog : Catalog) : String → Option TableShape := fun name =>
  (catalog.get? name).map Table.shape

/-- How often the index of the table of a name has an entry. -/
def entryCount (catalog : Catalog) (name : String) (key : Bytes) (rid : Rid) : Nat :=
  ((catalog.get? name).map (·.entryCount key rid)).getD 0

theorem get?_put (catalog : Catalog) (table : Table) (name : String) :
    (catalog.put table).get? name = if table.name = name then some table else catalog.get? name := by
  by_cases h : table.name = name <;> simp [get?, put, Std.ExtTreeMap.getElem?_insert, h]

theorem rows_of_get? (h : catalog.get? name = some table) :
    catalog.rows name rid = table.heap.row? rid := by
  simp [rows, h]

theorem shapes_of_get? (h : catalog.get? name = some table) :
    catalog.shapes name = some table.shape := by
  simp [shapes, h]

/-- What holds of a catalog: every table is found under its own name and is sound. -/
structure Sound (catalog : Catalog) : Prop where
  name : ∀ name table, catalog.get? name = some table → table.name = name
  table : ∀ name table, catalog.get? name = some table → table.Sound

/-- The entries of a sound catalog follow from its rows and shapes. -/
theorem Sound.entryCount_eq (h : catalog.Sound) (name : String) (key : Bytes) (rid : Rid) :
    catalog.entryCount name key rid =
      if (catalog.shapes name).any fun shape =>
        (catalog.rows name rid).bind shape.keyOf? = some key then 1 else 0 := by
  cases hget : catalog.get? name with
  | none => simp [entryCount, shapes, hget]
  | some table =>
    have hkey : table.keyOf? = table.shape.keyOf? := funext table.keyOf?_eq
    simp [entryCount, shapes, rows, hget, (h.table name table hget).index, hkey]

/-- Two sound catalogs with the same shapes that agree on a row agree on the entries at its position. -/
theorem Sound.entryCount_congr (h : catalog.Sound) (h' : catalog'.Sound)
    (hshapes : catalog'.shapes = catalog.shapes) (hrow : catalog'.rows name rid = catalog.rows name rid)
    (key : Bytes) : catalog'.entryCount name key rid = catalog.entryCount name key rid := by
  rw [h.entryCount_eq, h'.entryCount_eq, hshapes, hrow]

/-- A row of a sound catalog fits into its table. -/
theorem Sound.fits (h : catalog.Sound) {bytes : Bytes} (hrow : catalog.rows name rid = some bytes) :
    ∃ shape, catalog.shapes name = some shape ∧ shape.config.Fits rid bytes := by
  obtain ⟨table, hget, hrow⟩ := Option.bind_eq_some_iff.mp hrow
  exact ⟨table.shape, shapes_of_get? hget, (h.table name table hget).heap.fits hrow⟩

theorem shapes_put (h : catalog.get? name = some table) (hname : table.name = name)
    (hshape : table'.shape = table.shape) : (catalog.put table').shapes = catalog.shapes := by
  funext n
  have hname' : table'.name = name := (congrArg TableShape.name hshape).trans hname
  simp only [shapes, get?_put]
  split
  · rename_i heq
    rw [← heq, hname', h]
    simp [hshape]
  · rfl

theorem Sound.put (hs : catalog.Sound) (hsound : table'.Sound) : (catalog.put table').Sound where
  name := by
    intro n t ht
    rw [get?_put] at ht
    split at ht
    · rename_i heq
      cases ht
      exact heq
    · exact hs.name n t ht
  table := by
    intro n t ht
    rw [get?_put] at ht
    split at ht
    · cases ht
      exact hsound
    · exact hs.table n t ht

theorem Sound.empty : ({} : Catalog).Sound where
  name := fun name table h => by simp [get?] at h
  table := fun name table h => by simp [get?] at h

/-- A table that is created is empty, so the catalog stays sound. -/
theorem Sound.create (hs : catalog.Sound) {config : HeapConfig} {index : Option TableIndex} {id : TableId}
    (hkeys : ∀ i, index = some i → i.keys = {})
    (hcreate : catalog.create name config index = .ok (id, catalog')) : catalog'.Sound := by
  by_cases hexists : name ∈ catalog.tables
  · simp [Catalog.create, register, hexists, bind, Except.bind] at hcreate
  · simp [Catalog.create, register, hexists, bind, Except.bind, pure, Except.pure] at hcreate
    obtain ⟨-, rfl⟩ := hcreate
    have hempty : ({ name, heap := { table := catalog.nextId, config }, index } : Table).Sound :=
      .of_empty rfl hkeys
    exact ⟨(hs.put hempty).name, (hs.put hempty).table⟩

/-- A catalog with one of its tables changed in one row has that row changed and no other. -/
theorem rows_put_of_changed (hs : catalog.Sound) (h : catalog.get? name = some table)
    (hchanged : table.Changed rid row table') :
    (catalog.put table').rows = catalog.rows.set name rid row := by
  have hname' : table'.name = name :=
    (congrArg TableShape.name hchanged.shape).trans (hs.name name table h)
  funext n r
  simp only [rows, get?_put, Rows.set, hname']
  by_cases hn : name = n
  · subst hn
    simp [h, hchanged.rows]
  · simp [hn]

theorem rows_put_of_sameRows (hs : catalog.Sound) (h : catalog.get? name = some table) {heap : Heap}
    (hheap : Heap.SameRows table.heap heap) :
    (catalog.put { table with heap }).rows = catalog.rows := by
  have hname := hs.name name table h
  funext n r
  simp only [rows, get?_put, hname]
  by_cases hn : name = n
  · subst hn
    simp [h, hheap.rows]
  · simp [hn]

end Catalog

end NoWait
