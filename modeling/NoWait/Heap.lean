import NoWait.Bytes
import NoWait.Lock.Resource

/-!
# Table storage: fixed-size rows in the slots of pages

A heap keeps the rows of one table.  Every page has the same number of slots.  A slot is free, reserved
for an insert that has not written its row yet, or used by a row; each page counts its used slots.  A page
keeps how its slots stand apart from their bytes, which lie one slot behind the other; the bytes of a slot
that is not in use are left over from an earlier row and mean nothing.

* `Page.bytes?`, `Page.write?` and `Page.mark?` are the accesses to a page, each of which asks whether the
  slot lies in it; `Page.slots` is what the slots of a page hold;
* `Heap.slots` lists every slot with its place, in storage order, `Heap.rows` the rows in them, and `Heap.scan`
  their positions; `Heap.row?` is the row at a position, and `Heap.records` counts the rows;
* `Heap.reserve` claims the first free slot whose position a caller does not skip, adding a page when there
  is none, and `Heap.cancel` gives a reserved slot back; `Heap.reserveNamed` does as `reserve` does, but marks
  no slot that its position does not name;
* `Heap.insert`, `insertAt`, `delete`, `update` and `get` write and read rows.

A slot is claimed by its place and answered by its position, whose two numbers have 32 bits: the position of
a slot beyond that is the one of an earlier slot.
-/

namespace NoWait

/-- Why a heap refuses an operation. -/
inductive StorageError where
  | notFound (rid : Rid)
  | occupied (rid : Rid)
  | sizeMismatch (expected actual : Nat)
  /-- There is no slot to give: pages have none or are too large.  An access outside of a page finds none,
  either. -/
  | noSlot
  deriving DecidableEq, Inhabited, Repr

/-- The text of a storage error. -/
def StorageError.message : StorageError → String
  | .notFound rid => s!"Record {rid.text} not found"
  | .occupied rid => s!"Slot {rid.text} is already occupied"
  | .sizeMismatch expected actual =>
    s!"Record size mismatch: expected {expected} bytes, got {actual}"
  | .noSlot => "No slot is left in the table"

/-- The shape of a heap: the size of a row and the number of slots in a page. -/
structure HeapConfig where
  rowSize : Nat := 16
  slotsPerPage : Nat := 64
  deriving DecidableEq, Inhabited, Repr

/-- Whether pages of this shape can be made: neither their slots nor their bytes are more than a block of
memory holds. -/
def HeapConfig.hasPages (config : HeapConfig) : Bool :=
  config.slotsPerPage ≤ Bytes.blockLimit &&
    config.rowSize * config.slotsPerPage ≤ Bytes.blockLimit

/-! ### Slots and pages -/

/-- How a slot stands. -/
inductive SlotState where
  | free
  /-- Claimed for a row that is still to come. -/
  | reserved
  | used
  deriving DecidableEq, Inhabited, Repr

/-- One slot of a page, with the row in it. -/
inductive Slot where
  | free
  /-- Claimed for a row that is still to come. -/
  | reserved
  | used (row : Bytes)
  deriving DecidableEq, Inhabited, Repr

/-- The row in a slot. -/
def Slot.row? : Slot → Option Bytes
  | .used row => some row
  | .free | .reserved => none

/-- How the slots of one page stand, the bytes of all of them, and the number of those in use. -/
structure Page (config : HeapConfig) where
  states : List SlotState
  data : Bytes
  used : Nat := 0
  length_states : states.length = config.slotsPerPage
  length_data : data.length = config.slotsPerPage * config.rowSize
  deriving DecidableEq, Repr

namespace Page

variable {config : HeapConfig}

/-- A page of free slots. -/
def blank (config : HeapConfig) : Page config where
  states := List.replicate config.slotsPerPage .free
  data := List.replicate (config.slotsPerPage * config.rowSize) 0
  length_states := List.length_replicate
  length_data := List.length_replicate

/-! #### Accesses -/

/-- The bytes of a slot, if they all lie in the page. -/
def bytes? (page : Page config) (slot : Nat) : Option Bytes :=
  if (slot + 1) * config.rowSize ≤ page.data.length then
    some ((page.data.drop (slot * config.rowSize)).take config.rowSize)
  else none

theorem length_written {data row : Bytes} {size slot : Nat} (hrow : row.length = size)
    (hslot : (slot + 1) * size ≤ data.length) :
    (data.take (slot * size) ++ (row ++ data.drop ((slot + 1) * size))).length = data.length := by
  have hend : (slot + 1) * size = slot * size + size := Nat.succ_mul slot size
  simp only [List.length_append, List.length_take, List.length_drop]
  omega

/-- The page with a row written over the bytes of a slot, if they all lie in the page and the row has as
many. -/
def write? (page : Page config) (slot : Nat) (row : Bytes) : Option (Page config) :=
  if h : row.length = config.rowSize ∧ (slot + 1) * config.rowSize ≤ page.data.length then
    some { page with
      data := page.data.take (slot * config.rowSize) ++
        (row ++ page.data.drop ((slot + 1) * config.rowSize))
      length_data := (length_written h.1 h.2).trans page.length_data }
  else none

/-- The page with a slot that stands otherwise, if the page has the slot. -/
def mark? (page : Page config) (slot : Nat) (state : SlotState) : Option (Page config) :=
  if slot < page.states.length then
    some { page with
      states := page.states.set slot state
      length_states := List.length_set.trans page.length_states }
  else none

/-- The page with a row put into a slot that had none. -/
def fill? (page : Page config) (slot : Nat) (row : Bytes) : Option (Page config) := do
  let page ← page.write? slot row
  let page ← page.mark? slot .used
  return { page with used := page.used + 1 }

/-- The page with the row of a slot given up. -/
def vacate? (page : Page config) (slot : Nat) : Option (Page config) := do
  let page ← page.mark? slot .free
  return { page with used := page.used - 1 }

/-- The page with a reserved slot free again; any other slot stays as it is. -/
def cancel (page : Page config) (slot : Nat) : Page config :=
  if page.states[slot]? = some .reserved then (page.mark? slot .free).getD page else page

/-! #### What the slots hold -/

/-- What a slot that stands so holds. -/
def content (page : Page config) (slot : Nat) : SlotState → Slot
  | .free => .free
  | .reserved => .reserved
  | .used => .used ((page.bytes? slot).getD [])

/-- The slots of the page, with what they hold. -/
def slots (page : Page config) : List Slot :=
  page.states.zipIdx.map fun (state, slot) => page.content slot state

/-- The row in a slot of the page. -/
def row? (page : Page config) (slot : Nat) : Option Bytes := page.slots[slot]?.bind (·.row?)

theorem getElem?_slots (page : Page config) (slot : Nat) :
    page.slots[slot]? = page.states[slot]?.map (page.content slot) := by
  simp only [slots, List.getElem?_map, List.getElem?_zipIdx, Option.map_map, Nat.zero_add]
  rfl

theorem length_slots (page : Page config) : page.slots.length = config.slotsPerPage := by
  rw [slots, List.length_map, List.length_zipIdx, page.length_states]

end Page

/-- The rows of one table. -/
structure Heap where
  table : TableId
  config : HeapConfig := {}
  pages : List (Page config) := []
  deriving DecidableEq, Inhabited, Repr

namespace Heap

/-! ### Views -/

/-- The slots of a page with their places. -/
def slotsOfPage {config : HeapConfig} (page : Page config) (p : Nat) : List (Place × Slot) :=
  page.states.zipIdx.map fun (state, s) => (⟨p, s⟩, page.content s state)

/-- Every slot with its place, in storage order. -/
def slots (heap : Heap) : List (Place × Slot) :=
  heap.pages.zipIdx.flatMap fun (page, p) => slotsOfPage page p

/-- Every row with its position, in storage order. -/
def rows (heap : Heap) : List (Rid × Bytes) :=
  heap.slots.filterMap fun (place, slot) => slot.row?.map fun row => (place.rid, row)

/-- The positions of the used slots of a page. -/
def usedOfPage {config : HeapConfig} (page : Page config) (p : Nat) : List Rid :=
  page.states.zipIdx.filterMap fun (state, s) => if state = .used then some (Place.mk p s).rid else none

/-- The positions of all rows, in storage order. -/
def scan (heap : Heap) : List Rid := heap.pages.zipIdx.flatMap fun (page, p) => usedOfPage page p

/-- The number of rows, as the pages count them. -/
def records (heap : Heap) : Nat := heap.pages.foldr (fun page count => page.used + count) 0

/-- The row at a position, if there is one. -/
def row? (heap : Heap) (rid : Rid) : Option Bytes :=
  heap.pages[rid.page.toNat]?.bind (·.row? rid.slot.toNat)

/-! ### The search for a free slot -/

/-- The first free slot whose position is not skipped, of slots of page `p` numbered from `s` on. -/
def firstFreeSlot? (skip : Rid → Bool) (p : Nat) : (s : Nat) → List SlotState → Option Place
  | _, [] => none
  | s, state :: rest =>
    if state = .free ∧ skip (Place.mk p s).rid = false then some ⟨p, s⟩
    else firstFreeSlot? skip p (s + 1) rest

/-- The first free slot whose position is not skipped, of pages numbered from `p` on. -/
def firstFreeOf? {config : HeapConfig} (skip : Rid → Bool) : (p : Nat) → List (Page config) → Option Place
  | _, [] => none
  | p, page :: rest =>
    match firstFreeSlot? skip p 0 page.states with
    | some place => some place
    | none => firstFreeOf? skip (p + 1) rest

/-- The first free slot of the heap whose position is not skipped. -/
def firstFree? (heap : Heap) (skip : Rid → Bool) : Option Place := firstFreeOf? skip 0 heap.pages

/-! ### Operations -/

/-- Only rows of the table's size are stored. -/
def checkSize (heap : Heap) (row : Bytes) : Except StorageError Unit :=
  if row.length = heap.config.rowSize then .ok ()
  else .error (.sizeMismatch heap.config.rowSize row.length)

/-- Only slots that a page has are looked at. -/
def checkSlot (heap : Heap) (rid : Rid) : Except StorageError Unit :=
  if rid.slot.toNat < heap.config.slotsPerPage then .ok () else .error (.notFound rid)

/-- What an access to a page gives, if it stays inside the page. -/
def access {α : Type} : Option α → Except StorageError α
  | some value => .ok value
  | none => .error .noSlot

/-- The page of a row that is there. -/
def pageOf (heap : Heap) (rid : Rid) : Except StorageError (Page heap.config) := do
  match heap.pages[rid.page.toNat]? with
  | none => throw (.notFound rid)
  | some page =>
    if (← access page.states[rid.slot.toNat]?) = .used then return page else throw (.notFound rid)

/-- The heap with another page in place of one of its pages. -/
def setPage (heap : Heap) (p : Nat) (page : Page heap.config) : Heap :=
  { heap with pages := heap.pages.set p page }

/-- The row at a position. -/
def get (heap : Heap) (rid : Rid) : Except StorageError Bytes := do
  heap.checkSlot rid
  let page ← heap.pageOf rid
  access (page.bytes? rid.slot.toNat)

/-- Whether there is a row at a position. -/
def contains (heap : Heap) (rid : Rid) : Bool := (heap.get rid).isOk

/-- The first free slot whose position is not skipped, or the first slot of a page added for the purpose, if
pages can be made.  That slot is not asked about, and the added page stays even when it has none. -/
def claim (heap : Heap) (skip : Rid → Bool) : Except StorageError Place × Heap :=
  match heap.firstFree? skip with
  | some place => (.ok place, heap)
  | none =>
    if heap.config.hasPages then
      (.ok ⟨heap.pages.length, 0⟩, { heap with pages := heap.pages ++ [.blank heap.config] })
    else (.error .noSlot, heap)

/-- Claims a slot for a row that is to come, and marks it reserved if that is to be done at its place. -/
def reserveIf (marks : Place → Bool) (heap : Heap) (skip : Rid → Bool) : Except StorageError Rid × Heap :=
  match heap.claim skip with
  | (.error e, heap) => (.error e, heap)
  | (.ok place, heap) =>
    match heap.pages[place.page]?.bind (·.mark? place.slot .reserved) with
    | some page => (.ok place.rid, if marks place then heap.setPage place.page page else heap)
    | none => (.error .noSlot, heap)

/-- Claims a slot for a row that is to come.  Until then the slot holds no row and is not claimed
again. -/
def reserve (heap : Heap) (skip : Rid → Bool) : Except StorageError Rid × Heap :=
  heap.reserveIf (fun _ => true) skip

/-- Claims a slot as `reserve` does, and gives the same answer.  A slot that its position does not name is not
marked, since nobody could find it again to fill it or to give it back.  That makes a difference only where a page
has more than 2^32 slots, or where there are as many pages. -/
def reserveNamed (heap : Heap) (skip : Rid → Bool) : Except StorageError Rid × Heap :=
  heap.reserveIf Place.isNamed skip

/-- Gives a reserved slot back. -/
def cancel (heap : Heap) (rid : Rid) : Heap :=
  match heap.pages[rid.page.toNat]? with
  | some page => heap.setPage rid.page.toNat (page.cancel rid.slot.toNat)
  | none => heap

/-- Puts a row into any free slot. -/
def insert (heap : Heap) (row : Bytes) : Except StorageError Rid × Heap :=
  match heap.checkSize row with
  | .error e => (.error e, heap)
  | .ok () =>
    match heap.claim fun _ => false with
    | (.error e, heap) => (.error e, heap)
    | (.ok place, heap) =>
      match heap.pages[place.page]?.bind (·.fill? place.slot row) with
      | some page => (.ok place.rid, heap.setPage place.page page)
      | none => (.error .noSlot, heap)

/-- The heap with pages added until there is a page of the given number. -/
def growTo (heap : Heap) (page : Nat) : Heap :=
  { heap with
    pages := heap.pages ++ List.replicate (page + 1 - heap.pages.length) (.blank heap.config) }

/-- Puts a row into exactly the given slot, which must be free or reserved. -/
def insertAt (heap : Heap) (rid : Rid) (row : Bytes) : Except StorageError Heap := do
  heap.checkSize row
  heap.checkSlot rid
  if !heap.config.hasPages then throw .noSlot
  let grown := heap.growTo rid.page.toNat
  let page ← access grown.pages[rid.page.toNat]?
  if (← access page.states[rid.slot.toNat]?) = .used then throw (.occupied rid)
  return grown.setPage rid.page.toNat (← access (page.fill? rid.slot.toNat row))

/-- Gives up the row at a position. -/
def delete (heap : Heap) (rid : Rid) : Except StorageError Heap := do
  heap.checkSlot rid
  let page ← heap.pageOf rid
  return heap.setPage rid.page.toNat (← access (page.vacate? rid.slot.toNat))

/-- Writes over the row at a position. -/
def update (heap : Heap) (rid : Rid) (row : Bytes) : Except StorageError Heap := do
  heap.checkSize row
  heap.checkSlot rid
  let page ← heap.pageOf rid
  return heap.setPage rid.page.toNat (← access (page.write? rid.slot.toNat row))

end Heap

end NoWait
