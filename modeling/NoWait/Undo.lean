import NoWait.Catalog
import NoWait.Transaction

/-!
# Taking writes back

Undoing a write puts the row that it touched, and the index entry with it, back to what they were.
Writes are undone newest first, so that each finds the table as it left it.

* `Catalog.undo` takes one write back on the table it names, or changes nothing and says why it cannot;
* `Catalog.undoAll` takes back as many as it can and returns those that are left.
-/

namespace NoWait

/-- Undoes one write on its table. -/
def Table.undo (table : Table) (write : WriteRecord) : Except TransactionError Table :=
  match write.kind, write.before with
  | .insert, _ => ((table.removeRow write.rid).map (·.2)).mapError .storage
  | .delete, some before => (table.placeRow write.rid before).mapError .storage
  | .update, some before => ((table.replaceRow write.rid before).map (·.2)).mapError .storage
  | .delete, none | .update, none => .error (.missingBeforeImage write.table write.rid)

namespace Catalog

/-- Undoes one write. -/
def undo (catalog : Catalog) (write : WriteRecord) : Except TransactionError Catalog :=
  match catalog.get? write.table with
  | none => .error (.unknownTable write.table)
  | some table => (table.undo write).map catalog.put

/-- Undoes writes, given newest first, up to the first that cannot be undone.  Returns how that went,
the writes that are left, and the catalog as it is then. -/
def undoAll (catalog : Catalog) :
    List WriteRecord → Except TransactionError Unit × List WriteRecord × Catalog
  | [] => (.ok (), [], catalog)
  | write :: older =>
    match catalog.undo write with
    | .error error => (.error error, write :: older, catalog)
    | .ok catalog => undoAll catalog older

/-! ### How far an undo comes -/

/-- If all goes well, nothing is left. -/
theorem undoAll_left {catalog catalog' : Catalog} {writes left : List WriteRecord}
    (h : catalog.undoAll writes = (.ok (), left, catalog')) : left = [] := by
  induction writes generalizing catalog with
  | nil => simp only [undoAll, Prod.mk.injEq] at h; exact h.2.1.symm
  | cons write older ih =>
    simp only [undoAll] at h
    split at h
    · cases h
    · exact ih h

/-- Otherwise the writes that are left begin with the one that failed, on the catalog as it is. -/
theorem undoAll_error {catalog catalog' : Catalog} {writes left : List WriteRecord}
    {error : TransactionError} (h : catalog.undoAll writes = (.error error, left, catalog')) :
    ∃ write older, left = write :: older ∧ catalog'.undo write = .error error ∧
      left <:+ writes := by
  induction writes generalizing catalog with
  | nil => simp [undoAll] at h
  | cons write older ih =>
    simp only [undoAll] at h
    split at h
    · rename_i e he
      cases h
      exact ⟨write, older, rfl, he, List.suffix_refl _⟩
    · obtain ⟨w, o, h₁, h₂, h₃⟩ := ih h
      exact ⟨w, o, h₁, h₂, h₃.trans (List.suffix_cons write older)⟩

end Catalog

end NoWait
