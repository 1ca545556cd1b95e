import NoWait.Proofs.Rows
import NoWait.Undo

/-!
# Taking writes back, on the map of rows

To take a write back is to put the row that stood there before it to its position.  A list of writes,
newest first, can be taken back when each finds its position as it left it.

* `WriteRecord.revert` and `Rows.revertAll` do on the map of rows what `Catalog.undo` and
  `Catalog.undoAll` do on the tables; `undo_spec` and `undoAll_spec` say so, however far an undo comes;
* `Undoable` says that each write finds its position as it left it, and `undoAll_of_undoable` that all
  of them are then taken back.
-/

namespace NoWait

@[simp] theorem mapError_ok {ε ε' α : Type} (f : ε → ε') (value : α) :
    (Except.ok value : Except ε α).mapError f = .ok value := rfl

@[simp] theorem mapError_error {ε ε' α : Type} (f : ε → ε') (error : ε) :
    (Except.error error : Except ε α).mapError f = .error (f error) := rfl

/-- The row that stood at the position of a write before it. -/
def WriteRecord.image (write : WriteRecord) : Option Bytes :=
  if write.kind = .insert then none else write.before

/-- Whether the write is at a position of a table. -/
def WriteRecord.isAt (write : WriteRecord) (name : String) (rid : Rid) : Prop :=
  write.table = name ∧ write.rid = rid

instance (write : WriteRecord) (name : String) (rid : Rid) : Decidable (write.isAt name rid) :=
  inferInstanceAs (Decidable (_ ∧ _))

/-- The rows as they stood before a write. -/
def WriteRecord.revert (write : WriteRecord) (rows : Rows) : Rows :=
  rows.set write.table write.rid write.image

/-- The rows as they stood before all of the writes, which are given newest first. -/
def Rows.revertAll (rows : Rows) (writes : List WriteRecord) : Rows :=
  writes.foldl (fun rows write => write.revert rows) rows

namespace Rows

variable {rows rows' : Rows} {name : String} {rid : Rid} {write : WriteRecord}
  {writes older : List WriteRecord}

@[simp] theorem revertAll_nil : rows.revertAll [] = rows := rfl

@[simp] theorem revertAll_cons :
    rows.revertAll (write :: older) = (write.revert rows).revertAll older := rfl

theorem revert_of_not_isAt (h : ¬ write.isAt name rid) : write.revert rows name rid = rows name rid :=
  set_of_ne h

/-- Writes elsewhere leave a position alone. -/
theorem revertAll_of_not_isAt (h : ∀ write ∈ writes, ¬ write.isAt name rid) :
    rows.revertAll writes name rid = rows name rid := by
  induction writes generalizing rows with
  | nil => rfl
  | cons write older ih =>
    rw [revertAll_cons, ih fun w hw => h w (List.mem_cons_of_mem _ hw),
      revert_of_not_isAt (h write List.mem_cons_self)]

/-- What taking writes back gives at a position depends on the row there alone. -/
theorem revertAll_congr (h : rows name rid = rows' name rid) :
    rows.revertAll writes name rid = rows'.revertAll writes name rid := by
  induction writes generalizing rows rows' with
  | nil => exact h
  | cons write older ih =>
    rw [revertAll_cons, revertAll_cons]
    apply ih
    simp only [WriteRecord.revert, set, h]

end Rows

/-- Whether each of the writes, newest first, finds its position as it left it. -/
def Undoable (shapes : String → Option TableShape) : Rows → List WriteRecord → Prop
  | _, [] => True
  | rows, write :: older =>
    (∃ shape, shapes write.table = some shape ∧
      ∀ row, write.image = some row → shape.config.Fits write.rid row) ∧
    (write.kind = .insert ↔ write.image = none) ∧
    (write.kind = .delete ↔ rows write.table write.rid = none) ∧
    Undoable shapes (write.revert rows) older

/-- Whether writes can be taken back depends on the rows at their positions alone. -/
theorem Undoable.congr {shapes : String → Option TableShape} {rows rows' : Rows}
    {writes : List WriteRecord} (h : Undoable shapes rows writes)
    (hrows : ∀ write ∈ writes, rows' write.table write.rid = rows write.table write.rid) :
    Undoable shapes rows' writes := by
  induction writes generalizing rows rows' with
  | nil => trivial
  | cons write older ih =>
    obtain ⟨hshape, himage, hkind, hold⟩ := h
    refine ⟨hshape, himage, ?_, ih hold fun w hw => ?_⟩
    · rw [hrows write List.mem_cons_self]
      exact hkind
    · simp only [WriteRecord.revert, Rows.set]
      rw [hrows w (List.mem_cons_of_mem _ hw)]

namespace Table

variable {table table' : Table} {write : WriteRecord}

/-- To take a write back is to remove the row that was inserted, or to put the row from before the write into its
place again. -/
theorem undo_cases (hundo : table.undo write = .ok table') :
    (write.kind = .insert ∧ ∃ row, table.removeRow write.rid = .ok (row, table')) ∨
    (write.kind = .delete ∧ ∃ before, write.before = some before ∧
      table.placeRow write.rid before = .ok table') ∨
    (write.kind = .update ∧ ∃ before old, write.before = some before ∧
      table.replaceRow write.rid before = .ok (old, table')) := by
  unfold undo at hundo
  split at hundo
  · rename_i hkind
    cases hremove : table.removeRow write.rid with
    | error error => simp [hremove, Except.map] at hundo
    | ok result =>
      simp only [hremove, Except.map, mapError_ok, Except.ok.injEq] at hundo
      exact .inl ⟨hkind, result.1, by rw [← hundo]⟩
  · rename_i before hkind hbefore
    cases hplace : table.placeRow write.rid before with
    | error error => simp [hplace] at hundo
    | ok placed =>
      simp only [hplace, mapError_ok, Except.ok.injEq] at hundo
      exact .inr (.inl ⟨hkind, before, hbefore, by rw [hplace, hundo]⟩)
  · rename_i before hkind hbefore
    cases hreplace : table.replaceRow write.rid before with
    | error error => simp [hreplace, Except.map] at hundo
    | ok result =>
      simp only [hreplace, Except.map, mapError_ok, Except.ok.injEq] at hundo
      exact .inr (.inr ⟨hkind, before, result.1, hbefore, by rw [hreplace, ← hundo]⟩)
  · cases hundo
  · cases hundo

/-- A table that has taken a write back has the row from before it. -/
theorem changed_of_undo (h : table.Sound) (hundo : table.undo write = .ok table') :
    table.Changed write.rid write.image table' := by
  obtain ⟨hkind, row, hremove⟩ | ⟨hkind, before, hbefore, hplace⟩ | ⟨hkind, before, old, hbefore, hreplace⟩ :=
    undo_cases hundo
  · rw [show write.image = none by simp [WriteRecord.image, hkind]]
    exact changed_of_removeRow h hremove
  · rw [show write.image = some before by simp [WriteRecord.image, hkind, hbefore]]
    exact changed_of_placeRow h hplace
  · rw [show write.image = some before by simp [WriteRecord.image, hkind, hbefore]]
    exact changed_of_replaceRow h hreplace

end Table

namespace Catalog

variable {catalog catalog' : Catalog} {write : WriteRecord} {writes left : List WriteRecord}

/-- A write is taken back on the table that it names. -/
theorem of_undo_eq_ok (hundo : catalog.undo write = .ok catalog') : ∃ table table',
    catalog.get? write.table = some table ∧ table.undo write = .ok table' ∧ catalog' = catalog.put table' := by
  unfold undo at hundo
  cases hget : catalog.get? write.table with
  | none =>
    rw [hget] at hundo
    cases hundo
  | some table =>
    cases htable : table.undo write with
    | error error => simp [hget, htable, Except.map] at hundo
    | ok table' =>
      simp only [hget, htable, Except.map, Except.ok.injEq] at hundo
      exact ⟨table, table', rfl, htable, hundo.symm⟩

/-- An undone write leaves the catalog sound, with the rows as they stood before it. -/
theorem undo_spec (h : catalog.Sound) (hundo : catalog.undo write = .ok catalog') :
    catalog'.Sound ∧ catalog'.shapes = catalog.shapes ∧ catalog'.rows = write.revert catalog.rows := by
  obtain ⟨table, table', hget, htable, rfl⟩ := of_undo_eq_ok hundo
  have hchanged := Table.changed_of_undo (h.table _ _ hget) htable
  exact ⟨h.put hchanged.sound, shapes_put hget (h.name _ _ hget) hchanged.shape, rows_put_of_changed h hget hchanged⟩

/-- A write that finds its position as it left it can be undone. -/
theorem exists_undo_of_undoable (h : catalog.Sound)
    (hundoable : Undoable catalog.shapes catalog.rows (write :: writes)) :
    ∃ catalog', catalog.undo write = .ok catalog' := by
  obtain ⟨⟨shape, hshape, hfits⟩, himage, hkind, _⟩ := hundoable
  obtain ⟨table, hget, rfl⟩ := Option.map_eq_some_iff.mp hshape
  have hsound := h.table _ _ hget
  rw [rows_of_get? hget] at hkind
  simp only [undo, hget, Table.undo]
  cases hk : write.kind with
  | insert =>
    obtain ⟨row, hrow⟩ := Option.ne_none_iff_exists'.mp fun hnone => by
      have hdelete := hkind.mpr hnone
      rw [hk] at hdelete
      cases hdelete
    obtain ⟨table', hremove, _⟩ := Table.removeRow_spec hsound hrow
    exact ⟨catalog.put table', by simp [hremove, Except.map]⟩
  | delete =>
    cases hbefore : write.before with
    | none => simp [WriteRecord.image, hk, hbefore] at himage
    | some before =>
      obtain ⟨table', hplace, _⟩ := Table.placeRow_spec hsound
        (hfits before (by simp [WriteRecord.image, hk, hbefore])) (hkind.mp hk)
      exact ⟨catalog.put table', by simp [hplace, Except.map]⟩
  | update =>
    cases hbefore : write.before with
    | none => simp [WriteRecord.image, hk, hbefore] at himage
    | some before =>
      obtain ⟨row, hrow⟩ := Option.ne_none_iff_exists'.mp fun hnone => by
        have hdelete := hkind.mpr hnone
        rw [hk] at hdelete
        cases hdelete
      obtain ⟨table', hreplace, _⟩ := Table.replaceRow_spec hsound hrow
        (hfits before (by simp [WriteRecord.image, hk, hbefore])).size
      exact ⟨catalog.put table', by simp [hreplace, Except.map]⟩

/-- However far an undo comes, the catalog is sound and has the rows from before the undone writes. -/
theorem undoAll_spec {result : Except TransactionError Unit} (h : catalog.Sound)
    (hundo : catalog.undoAll writes = (result, left, catalog')) :
    catalog'.Sound ∧ catalog'.shapes = catalog.shapes ∧
      ∃ undone, writes = undone ++ left ∧ catalog'.rows = catalog.rows.revertAll undone := by
  induction writes generalizing catalog with
  | nil =>
    cases hundo
    exact ⟨h, rfl, [], rfl, rfl⟩
  | cons write older ih =>
    simp only [undoAll] at hundo
    split at hundo
    · cases hundo
      exact ⟨h, rfl, [], rfl, rfl⟩
    · rename_i mid hmid
      obtain ⟨hsound, hshapes, hrows⟩ := undo_spec h hmid
      obtain ⟨hsound', hshapes', undone, rfl, hrows'⟩ := ih hsound hundo
      exact ⟨hsound', hshapes'.trans hshapes, write :: undone, rfl, by rw [hrows', hrows]; rfl⟩

/-- Writes that find their positions as they left them are all taken back. -/
theorem undoAll_of_undoable (h : catalog.Sound)
    (hundoable : Undoable catalog.shapes catalog.rows writes) :
    ∃ catalog', catalog.undoAll writes = (.ok (), [], catalog') := by
  induction writes generalizing catalog with
  | nil => exact ⟨catalog, rfl⟩
  | cons write older ih =>
    obtain ⟨mid, hmid⟩ := exists_undo_of_undoable h hundoable
    obtain ⟨hsound, hshapes, hrows⟩ := undo_spec h hmid
    obtain ⟨catalog', hrest⟩ := ih hsound (by rw [hshapes, hrows]; exact hundoable.2.2.2)
    exact ⟨catalog', by simp only [undoAll, hmid, hrest]⟩

end Catalog

end NoWait
