import Mathlib.Algebra.Group.Nat.Defs
import Mathlib.Data.List.Forall2
import Mathlib.Logic.Function.Basic
import NoWait.Proofs.Slots

/-!
# A heap is a map of slots to rows

Whatever is asked of a heap, one can tell what it does from what stands in its slots: a row, a reservation, or
nothing.

* `Contents` is what stands in the slots, and `Contents.Step` what a call answers and does there;
* `Heap.perform` is one call, `Heap.run` a list of calls;
* `Heap.Represents` is what can be seen of a heap: its rows, their positions in storage order, and their
  number as the pages count them;
* `Heap.performs` is the step of one call and what it keeps, and `heap_refines_map` a whole run from an empty
  heap.

A slot is told by its place, which a position names if the numbers of its page and on its page have 32 bits.  For
such a slot the position that a call answers is the one that names it; what a call answers for a slot that no
position names is left open, and `reserve_answers_used_rid` is what may happen there.
-/

namespace NoWait

/-! ### What a call is to do -/

/-- A call that may change a heap. -/
inductive HeapCall where
  | insert (row : Bytes)
  | reserve (skip : Rid → Bool)
  | cancel (rid : Rid)
  | insertAt (rid : Rid) (row : Bytes)
  | delete (rid : Rid)
  | update (rid : Rid) (row : Bytes)

/-- What a call answers: the position that was given, if the call is to give one, or why it failed. -/
abbrev HeapAnswer := Except StorageError (Option Rid)

/-- Whether nothing but the want of a page stands against a call that may have to add one. -/
def HeapCall.NeedsPage (config : HeapConfig) : HeapCall → Prop
  | .insert row => row.length = config.rowSize
  | .reserve _ => True
  | .insertAt rid row => row.length = config.rowSize ∧ rid.slot.toNat < config.slotsPerPage
  | .cancel _ | .delete _ | .update .. => False

/-- Whether a position is the one that names a place, if there is one that does. -/
def Rid.Names (rid : Rid) (place : Place) : Prop := place.isNamed = true → rid.place = place

/-- What stands in the slots of a heap: a row, a reservation, or nothing. -/
abbrev Contents := Place → Slot

namespace Contents

/-- Whether a slot can be given out under a position: pages can have it, nothing stands there, and the position
names it if one does. -/
structure Offers (config : HeapConfig) (contents : Contents) (place : Place) (rid : Rid) : Prop where
  pages : config.hasPages = true
  slot : place.slot < config.slotsPerPage
  free : contents place = .free
  names : rid.Names place

/-- What a call answers, and what stands in the slots behind it.  A call that fails changes nothing. -/
inductive Step (config : HeapConfig) (contents : Contents) : HeapCall → HeapAnswer → Contents → Prop where
  /-- A row goes where there is neither a row nor a reservation. -/
  | insert {row : Bytes} {place : Place} {rid : Rid} (hsize : row.length = config.rowSize)
      (hoffers : contents.Offers config place rid) :
      Step config contents (.insert row) (.ok (some rid)) (Function.update contents place (.used row))
  | insertSize {row : Bytes} (hsize : row.length ≠ config.rowSize) :
      Step config contents (.insert row) (.error (.sizeMismatch config.rowSize row.length)) contents
  | reserve {skip : Rid → Bool} {place : Place} {rid : Rid} (hoffers : contents.Offers config place rid) :
      Step config contents (.reserve skip) (.ok (some rid)) (Function.update contents place .reserved)
  | cancel {rid : Rid} (hreserved : contents rid.place = .reserved) :
      Step config contents (.cancel rid) (.ok none) (Function.update contents rid.place .free)
  | cancelOther {rid : Rid} (hother : contents rid.place ≠ .reserved) :
      Step config contents (.cancel rid) (.ok none) contents
  /-- A row may be put where there is a reservation, or nothing. -/
  | insertAt {rid : Rid} {row : Bytes} (hfits : config.Fits rid row)
      (hnone : (contents rid.place).row? = none) :
      Step config contents (.insertAt rid row) (.ok none) (Function.update contents rid.place (.used row))
  | insertAtSize {rid : Rid} {row : Bytes} (hsize : row.length ≠ config.rowSize) :
      Step config contents (.insertAt rid row) (.error (.sizeMismatch config.rowSize row.length)) contents
  | insertAtSlot {rid : Rid} {row : Bytes} (hsize : row.length = config.rowSize)
      (hslot : config.slotsPerPage ≤ rid.slot.toNat) :
      Step config contents (.insertAt rid row) (.error (.notFound rid)) contents
  | insertAtUsed {rid : Rid} {row old : Bytes} (hfits : config.Fits rid row)
      (hused : contents rid.place = .used old) :
      Step config contents (.insertAt rid row) (.error (.occupied rid)) contents
  | delete {rid : Rid} {row : Bytes} (hused : contents rid.place = .used row) :
      Step config contents (.delete rid) (.ok none) (Function.update contents rid.place .free)
  | deleteNone {rid : Rid} (hnone : (contents rid.place).row? = none) :
      Step config contents (.delete rid) (.error (.notFound rid)) contents
  | update {rid : Rid} {row old : Bytes} (hsize : row.length = config.rowSize)
      (hused : contents rid.place = .used old) :
      Step config contents (.update rid row) (.ok none) (Function.update contents rid.place (.used row))
  | updateSize {rid : Rid} {row : Bytes} (hsize : row.length ≠ config.rowSize) :
      Step config contents (.update rid row) (.error (.sizeMismatch config.rowSize row.length)) contents
  | updateNone {rid : Rid} {row : Bytes} (hsize : row.length = config.rowSize)
      (hnone : (contents rid.place).row? = none) :
      Step config contents (.update rid row) (.error (.notFound rid)) contents
  /-- No page is larger than a block of memory. -/
  | noPage {call : HeapCall} (hpages : config.hasPages = false) (hcall : call.NeedsPage config) :
      Step config contents call (.error .noSlot) contents

end Contents

namespace Heap

variable {heap heap' : Heap} {place : Place} {rid : Rid} {row : Bytes} {content : Slot}

/-- What becomes of an operation that changes the heap only if it succeeds. -/
def changedBy (heap : Heap) : Except StorageError Heap → HeapAnswer × Heap
  | .ok heap' => (.ok none, heap')
  | .error error => (.error error, heap)

/-- One call of a heap. -/
def perform (heap : Heap) : HeapCall → HeapAnswer × Heap
  | .insert row => ((heap.insert row).1.map some, (heap.insert row).2)
  | .reserve skip => ((heap.reserve skip).1.map some, (heap.reserve skip).2)
  | .cancel rid => (.ok none, heap.cancel rid)
  | .insertAt rid row => heap.changedBy (heap.insertAt rid row)
  | .delete rid => heap.changedBy (heap.delete rid)
  | .update rid row => heap.changedBy (heap.update rid row)

/-- Calls one after another, with their answers. -/
def run (heap : Heap) : List HeapCall → List HeapAnswer × Heap
  | [] => ([], heap)
  | call :: calls =>
    let (answer, heap) := heap.perform call
    let (answers, heap) := heap.run calls
    (answer :: answers, heap)

/-- What stands in the slots of a heap. -/
def contents (heap : Heap) : Contents := fun place => (heap.slotAt? place).getD .free

theorem row?_contents (heap : Heap) (rid : Rid) : (heap.contents rid.place).row? = heap.row? rid := by
  rw [row?_eq_bind, contents, slot?]
  cases heap.slotAt? rid.place <;> rfl

theorem contents_of_slotAt? (h : heap.slotAt? place = some content) : heap.contents place = content := by
  rw [contents, h, Option.getD_some]

theorem slotAt?_of_contents (h : heap.contents place = content) (hcontent : content ≠ .free) :
    heap.slotAt? place = some content := by
  unfold contents at h
  cases hslot : heap.slotAt? place with
  | none =>
    rw [hslot] at h
    exact absurd h.symm hcontent
  | some old =>
    rw [hslot] at h
    exact congrArg some h

/-- Added pages bring neither rows nor reservations. -/
theorem contents_extend (heap : Heap) (n : Nat) : (heap.extend n).contents = heap.contents := by
  funext place
  unfold contents
  rw [slotAt?_extend]
  split
  · rfl
  · rename_i hlt
    rw [slotAt?, List.getElem?_eq_none (Nat.le_of_not_lt hlt), Option.bind_none]
    split <;> rfl

theorem Put.contents_eq (h : Put heap place content heap') (hslot : heap.slotAt? place ≠ none) :
    heap'.contents = Function.update heap.contents place content := by
  funext place'
  unfold contents
  rw [h.slots, Function.update_apply]
  by_cases heq : place = place'
  · subst heq
    obtain ⟨old, hold⟩ := Option.ne_none_iff_exists'.mp hslot
    rw [if_pos rfl, if_pos rfl, hold]
    rfl
  · rw [if_neg heq, if_neg fun h => heq h.symm]

/-! ### The calls -/

/-- What holds of a heap however it was used: there are pages only where they can be made, and every page counts
its rows. -/
structure Kept (heap : Heap) : Prop where
  pages : heap.pages ≠ [] → heap.config.hasPages = true
  counted : heap.Counted

theorem Kept.of_pages_nil (h : heap.pages = []) : heap.Kept where
  pages := fun hne => absurd h hne
  counted := by simp [Counted, h]

theorem Kept.extend (h : heap.Kept) (hpages : heap.config.hasPages = true) (n : Nat) :
    (heap.extend n).Kept where
  pages := fun _ => hpages
  counted := h.counted.extend n

theorem Kept.put (h : heap.Kept) (hput : Put heap place content heap') (hslot : heap.slotAt? place ≠ none) :
    heap'.Kept where
  pages := by
    intro _
    obtain ⟨old, hold⟩ := Option.ne_none_iff_exists'.mp hslot
    rw [hput.config]
    exact h.pages (pages_ne_nil_of_slotAt? hold)
  counted := hput.counted h.counted

/-- A call does what it is to do: it keeps what is kept, and it makes the step that is given by what stands in
the slots, if pages have any. -/
structure Performs (heap : Heap) (call : HeapCall) (answer : HeapAnswer) (heap' : Heap) : Prop where
  config : heap'.config = heap.config
  kept : heap'.Kept
  step : 0 < heap.config.slotsPerPage → Contents.Step heap.config heap.contents call answer heap'.contents

/-- A call that leaves the heap as it is. -/
theorem Performs.of_same {call : HeapCall} {answer : HeapAnswer} (h : heap.Kept)
    (hstep : Contents.Step heap.config heap.contents call answer heap.contents) :
    Performs heap call answer heap :=
  ⟨rfl, h, fun _ => hstep⟩

/-- What is put into a slot that a heap has, after pages have been added if need be. -/
theorem Performs.of_put {call : HeapCall} {answer : HeapAnswer} {grown : Heap}
    (hput : Put grown place content heap') (hslot : grown.slotAt? place ≠ none) (hgrown : grown.Kept)
    (hconfig : grown.config = heap.config) (hcontents : grown.contents = heap.contents)
    (hstep : Contents.Step heap.config heap.contents call answer
      (Function.update heap.contents place content)) : Performs heap call answer heap' where
  config := hput.config.trans hconfig
  kept := hgrown.put hput hslot
  step := by
    intro _
    rw [hput.contents_eq hslot, hcontents]
    exact hstep

namespace Claims

variable {skip : Rid → Bool} {result : Except StorageError Place} {claimed : Heap}

/-- A claim leaves what stands in the slots, and keeps what is kept. -/
theorem kept (hclaims : Claims heap skip (result, claimed)) (h : heap.Kept) :
    claimed.config = heap.config ∧ claimed.Kept ∧ claimed.contents = heap.contents := by
  rcases hclaims.heap_eq with rfl | ⟨rfl, hpages⟩
  · exact ⟨rfl, h, rfl⟩
  · exact ⟨rfl, h.extend hpages 1, contents_extend heap 1⟩

end Claims

end Heap

end NoWait
