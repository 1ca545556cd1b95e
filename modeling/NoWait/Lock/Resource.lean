import NoWait.Rid

/-!
# Lockable resources

A lock is taken on a whole table or on one record of it.  Resources are ordered by table; at one
table the table itself comes ahead of its records, and records come in storage order.  A resource is
told by its table and its record, if it has one (`Resource.ext_iff`), so the order tells any two apart.
-/

namespace NoWait

/-- The number of a transaction. -/
abbrev TxnId := UInt32

/-- The number of an open table. -/
abbrev TableId := UInt32

/-- What a lock can be taken on. -/
inductive Resource where
  | table (id : TableId)
  | record (table : TableId) (rid : Rid)
  deriving DecidableEq, Inhabited, Repr

namespace Resource

/-- The table that the resource is or belongs to. -/
def tableId : Resource → TableId
  | .table id => id
  | .record id _ => id

/-- The table as a resource of its own. -/
def parent (resource : Resource) : Resource := .table resource.tableId

/-- The position of the record that the resource is, if it is one. -/
def rid? : Resource → Option Rid
  | .table _ => none
  | .record _ rid => some rid

theorem ext_iff {a b : Resource} : a = b ↔ a.tableId = b.tableId ∧ a.rid? = b.rid? := by
  cases a <;> cases b <;> simp [tableId, rid?]

/-- The order of resources: by table, the table ahead of its records, records in storage order. -/
instance : Ord Resource := ⟨compareLex (compareOn tableId) (compareOn rid?)⟩

instance : Std.TransOrd Resource :=
  inferInstanceAs (Std.TransCmp (compareLex (compareOn tableId) (compareOn rid?)))

instance : Std.LawfulEqOrd Resource where
  eq_of_compare {a b} h := by
    obtain ⟨ht, hr⟩ := compareLex_eq_eq.mp h
    exact ext_iff.mpr ⟨Std.LawfulEqOrd.eq_of_compare ht, Std.LawfulEqOrd.eq_of_compare hr⟩

/-- The text of a resource. -/
def text : Resource → String
  | .table id => s!"table {id}"
  | .record id rid => s!"record {rid.text} of table {id}"

end Resource

end NoWait
