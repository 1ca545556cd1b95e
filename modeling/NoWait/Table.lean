import NoWait.Heap
import NoWait.KeyIndex

/-!
# Tables: rows and the index over them

A table is a heap and, if it is indexed, an index on a fixed stretch of every row.  The row operations
change the heap first and then bring the index in step; one that the heap refuses changes nothing.
-/

namespace NoWait

/-- An index on the bytes of a row from `offset`, `length` of them. -/
structure TableIndex where
  keys : KeyIndex := {}
  offset : Nat
  length : Nat
  deriving DecidableEq, Inhabited, Repr

namespace TableIndex

/-- The key of a row.  A row that is too short has what there is of it. -/
def keyOf (index : TableIndex) (row : Bytes) : Bytes := (row.drop index.offset).take index.length

/-- The index with a row entered. -/
def add (index : TableIndex) (rid : Rid) (row : Bytes) : TableIndex :=
  { index with keys := index.keys.insert (index.keyOf row) rid }

/-- The index with a row struck out. -/
def remove (index : TableIndex) (rid : Rid) (row : Bytes) : TableIndex :=
  { index with keys := index.keys.delete (index.keyOf row) rid }

/-- The index with a row's entry moved, if its key changes. -/
def move (index : TableIndex) (rid : Rid) (old new : Bytes) : TableIndex :=
  if index.keyOf old = index.keyOf new then index else (index.remove rid old).add rid new

end TableIndex

/-- A named table. -/
structure Table where
  name : String
  heap : Heap
  index : Option TableIndex := none
  deriving DecidableEq, Inhabited, Repr

namespace Table

/-- The number by which locks name the table. -/
def id (table : Table) : TableId := table.heap.table

/-- The key of a row, if the table is indexed. -/
def keyOf? (table : Table) (row : Bytes) : Option Bytes := table.index.map (·.keyOf row)

/-- The key that a row moves to when it is written over, if the table is indexed and the key changes. -/
def newKey? (table : Table) (old new : Bytes) : Option Bytes :=
  (table.keyOf? new).filter fun key => table.keyOf? old ≠ some key

/-- Gives up the row at a position together with its index entry, and returns the row. -/
def removeRow (table : Table) (rid : Rid) : Except StorageError (Bytes × Table) := do
  let row ← table.heap.get rid
  let heap ← table.heap.delete rid
  return (row, { table with heap, index := table.index.map (·.remove rid row) })

/-- Puts a row into exactly the given slot and enters it into the index. -/
def placeRow (table : Table) (rid : Rid) (row : Bytes) : Except StorageError Table := do
  let heap ← table.heap.insertAt rid row
  return { table with heap, index := table.index.map (·.add rid row) }

/-- Writes over the row at a position, moving its index entry if the key changes, and returns the old
row. -/
def replaceRow (table : Table) (rid : Rid) (row : Bytes) : Except StorageError (Bytes × Table) := do
  let old ← table.heap.get rid
  let heap ← table.heap.update rid row
  return (old, { table with heap, index := table.index.map (·.move rid old row) })

end Table

end NoWait
