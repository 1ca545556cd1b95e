import NoWait.Table
import NoWait.Text.Quoted
import Std.Data.ExtTreeMap

/-!
# The catalog of open tables

The catalog finds tables by name and numbers those that it creates.  A table can also be registered
with a number of its own; the numbering takes no notice of it.
-/

namespace NoWait

/-- Why the catalog refuses a table. -/
inductive CatalogError where
  | tableExists (name : String)
  | keyOutOfRange (offset stop rowSize : Nat)
  /-- The end of the key is past every 64-bit position in a row. -/
  | keyOutOfReach (offset length : Nat)
  deriving DecidableEq, Inhabited, Repr

/-- The text of a catalog error. -/
def CatalogError.message : CatalogError → String
  | .tableExists name => "Table " ++ name ++ " already exists"
  | .keyOutOfRange offset stop rowSize =>
    s!"Index key [{offset}, {stop}) lies outside a {rowSize}-byte row"
  | .keyOutOfReach offset length => s!"Index key of {length} bytes at {offset} has no end"

/-- The text that describes a table: its name in quotes, its number, and whether it has an index. -/
def Table.text (table : Table) : String :=
  "TableInfo \x7b name: " ++ Text.quote table.name ++ ", table_id: " ++ toString table.id ++
    ", indexed: " ++ toString table.index.isSome ++ " \x7d"

/-- The open tables by name, and the number for the next one created. -/
structure Catalog where
  tables : Std.ExtTreeMap String Table := {}
  nextId : TableId := 1
  deriving Inhabited, Repr

namespace Catalog

/-- The table of a name. -/
def get? (catalog : Catalog) (name : String) : Option Table := catalog.tables[name]?

/-- The names of all tables, in ascending order. -/
def names (catalog : Catalog) : List String := catalog.tables.keys

/-- The catalog with a table in place of the one of its name. -/
def put (catalog : Catalog) (table : Table) : Catalog :=
  { catalog with tables := catalog.tables.insert table.name table }

/-- Adds a table built elsewhere, under its own number. -/
def register (catalog : Catalog) (table : Table) : Except CatalogError Catalog :=
  if catalog.tables.contains table.name then .error (.tableExists table.name)
  else .ok (catalog.put table)

/-- Creates an empty table under the next number, and returns that number. -/
def create (catalog : Catalog) (name : String) (config : HeapConfig)
    (index : Option TableIndex) : Except CatalogError (TableId × Catalog) := do
  let id := catalog.nextId
  let catalog ← catalog.register { name, heap := { table := id, config }, index }
  return (id, { catalog with nextId := id + 1 })

/-- Creates a table without an index. -/
def createTable (catalog : Catalog) (name : String) (config : HeapConfig) :
    Except CatalogError (TableId × Catalog) :=
  catalog.create name config none

/-- Creates a table indexed on `length` bytes of each row from `offset`, which must lie within it. -/
def createIndexedTable (catalog : Catalog) (name : String) (config : HeapConfig)
    (offset length : Nat) : Except CatalogError (TableId × Catalog) :=
  if UInt64.size ≤ offset + length then .error (.keyOutOfReach offset length)
  else if config.rowSize < offset + length then
    .error (.keyOutOfRange offset (offset + length) config.rowSize)
  else catalog.create name config (some { offset, length })

end Catalog

end NoWait
