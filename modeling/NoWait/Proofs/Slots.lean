import NoWait.Proofs.Pages

/-!
# What the heap operations do to the slots

A heap is read through `Heap.slotAt?`, which gives the slot at a place, if the heap has one there, and
`Heap.slot?`, which gives the one at the place that a position names.  Every operation changes at most the
slot that it is asked to change; adding pages adds free slots only.

* `Heap.Put` is what becomes of a heap when something else is put into one slot;
* `Heap.Sound` says that rows stand only at places that positions name, and that there are pages only where
  pages can be made; `length_of_used` that all rows have the size of the table;
* `mem_slots` says that the list of slots has exactly what stands at a place, `pairwise_slots` that it is in
  storage order, `Sound.mem_rows` and `Sound.pairwise_rows` say the same of the rows and their positions, and
  `scan_eq` and `scan_eq_map` what the positions are that a heap lists;
* `firstFree?_eq` says that the search for a free slot finds the first one in storage order,
  `firstFree?_eq_some` and `firstFree?_eq_none` what it comes to, and `Full` that no slot will do;
* `Claims` is how a slot is claimed and `Reserves` how one is reserved, and `reserveNamed_eq_reserve` says when it
  makes no difference which slots are marked; `reserveNamed_spec`, `cancel_spec`, `insertAt_spec`, `delete_spec` and
  `update_spec` are what becomes of the rows;
* `get_eq`, `insertAt_of_fits`, `delete_of_row` and `update_of_row` say what the operations come to.
-/

namespace NoWait

/-- Whether a row can stand at a position of a heap of this shape. -/
structure HeapConfig.Fits (config : HeapConfig) (rid : Rid) (row : Bytes) : Prop where
  size : row.length = config.rowSize
  slot : rid.slot.toNat < config.slotsPerPage
  pages : config.hasPages = true

/-- Whether a heap of this shape can have slots: pages can be made, and have some. -/
def HeapConfig.hasSlots (config : HeapConfig) : Bool := config.hasPages && decide (0 < config.slotsPerPage)

theorem Slot.row?_eq_some {slot : Slot} {row : Bytes} (h : slot.row? = some row) : slot = .used row := by
  cases slot with
  | used _ => exact congrArg Slot.used (Option.some.inj h)
  | free | reserved => cases h

namespace Heap

variable {heap heap' : Heap} {place place' : Place} {rid rid' : Rid} {row : Bytes} {content : Slot}

/-- The slot at a place, if the heap has one there. -/
def slotAt? (heap : Heap) (place : Place) : Option Slot :=
  heap.pages[place.page]?.bind fun page => page.slots[place.slot]?

/-- The slot at a position, if the heap has one there. -/
def slot? (heap : Heap) (rid : Rid) : Option Slot := heap.slotAt? rid.place

theorem row?_eq_bind (heap : Heap) (rid : Rid) : heap.row? rid = (heap.slot? rid).bind (·.row?) := by
  show (heap.pages[rid.page.toNat]?.bind fun page => page.row? rid.slot.toNat) =
    (heap.pages[rid.page.toNat]?.bind fun page => page.slots[rid.slot.toNat]?).bind (·.row?)
  cases heap.pages[rid.page.toNat]? <;> rfl

/-- A page that has a slot finds it there. -/
theorem exists_page_of_slotAt? (h : heap.slotAt? place = some content) :
    ∃ page state, heap.pages[place.page]? = some page ∧ page.states[place.slot]? = some state ∧
      page.content place.slot state = content := by
  obtain ⟨page, hpage, hget⟩ := Option.bind_eq_some_iff.mp h
  rw [page.getElem?_slots] at hget
  obtain ⟨state, hstate, hcontent⟩ := Option.map_eq_some_iff.mp hget
  exact ⟨page, state, hpage, hstate, hcontent⟩

theorem exists_page_of_slot? (h : heap.slot? rid = some content) :
    ∃ page state, heap.pages[rid.page.toNat]? = some page ∧ page.states[rid.slot.toNat]? = some state ∧
      page.content rid.slot.toNat state = content := exists_page_of_slotAt? h

/-- A place has a slot only if it is on a page that is there, and its slot number is one of the page's. -/
theorem page_lt (h : heap.slotAt? place = some content) : place.page < heap.pages.length := by
  obtain ⟨page, _, hpage, -, -⟩ := exists_page_of_slotAt? h
  exact (List.getElem?_eq_some_iff.mp hpage).1

theorem slot_lt (h : heap.slotAt? place = some content) : place.slot < heap.config.slotsPerPage := by
  obtain ⟨page, _, -, hstate, -⟩ := exists_page_of_slotAt? h
  rw [← page.length_states]
  exact (List.getElem?_eq_some_iff.mp hstate).1

theorem slot?_lt (h : heap.slot? rid = some content) : rid.slot.toNat < heap.config.slotsPerPage := slot_lt h

theorem pages_ne_nil_of_slotAt? (h : heap.slotAt? place = some content) : heap.pages ≠ [] := by
  rintro hnil
  simp [slotAt?, hnil] at h

/-- A slot number that is one of the page's has a slot on every page. -/
theorem exists_slotAt? (hpage : place.page < heap.pages.length)
    (hslot : place.slot < heap.config.slotsPerPage) : ∃ content, heap.slotAt? place = some content := by
  have hget := List.getElem?_eq_getElem hpage
  rw [← heap.pages[place.page].length_slots] at hslot
  exact ⟨_, Option.bind_eq_some_iff.mpr ⟨_, hget, List.getElem?_eq_getElem hslot⟩⟩

/-- Where there is a slot, there is one at the place that its position names. -/
theorem exists_slot?_rid (h : heap.slotAt? place = some content) : ∃ old, heap.slot? place.rid = some old := by
  obtain ⟨hpage, hslot⟩ := place.place_rid_le
  exact exists_slotAt? (Nat.lt_of_le_of_lt hpage (page_lt h)) (Nat.lt_of_le_of_lt hslot (slot_lt h))

/-- All rows have the size of the table, since their bytes are cut from the page. -/
theorem length_of_used (h : heap.slotAt? place = some (.used row)) : row.length = heap.config.rowSize := by
  obtain ⟨page, state, -, -, hcontent⟩ := exists_page_of_slotAt? h
  obtain ⟨bytes, hbytes, hlength⟩ := page.exists_bytes? (slot_lt h)
  cases state with
  | free | reserved => cases hcontent
  | used =>
    rw [Page.content, hbytes] at hcontent
    cases hcontent
    exact hlength

/-- What holds of a heap however its rows came and went. -/
structure Sound (heap : Heap) : Prop where
  /-- A row is found again at its position. -/
  named : ∀ place row, heap.slotAt? place = some (.used row) → place.isNamed = true
  pages : heap.pages ≠ [] → heap.config.hasPages = true

/-- A heap without pages is sound. -/
theorem Sound.of_pages_nil (h : heap.pages = []) : heap.Sound where
  named := by
    intro place row hslot
    simp [slotAt?, h] at hslot
  pages := fun hne => absurd h hne

theorem slot?_of_row? (h : heap.row? rid = some row) : heap.slot? rid = some (.used row) := by
  rw [row?_eq_bind] at h
  obtain ⟨content, hslot, hrow⟩ := Option.bind_eq_some_iff.mp h
  exact Slot.row?_eq_some hrow ▸ hslot

/-! ### Changing one slot -/

/-- Whether every page counts its slots in use. -/
def Counted (heap : Heap) : Prop := ∀ page ∈ heap.pages, page.Counted

/-- A heap that differs from another in what one slot holds, where it has that slot. -/
structure Put (heap : Heap) (place : Place) (content : Slot) (heap' : Heap) : Prop where
  table : heap'.table = heap.table
  config : heap'.config = heap.config
  length : heap'.pages.length = heap.pages.length
  counted : heap.Counted → heap'.Counted
  slots : ∀ place', heap'.slotAt? place' =
    if place = place' then (heap.slotAt? place').map fun _ => content else heap.slotAt? place'

/-- A page whose slots differ in one place goes in for the page that was there. -/
theorem Put.of_setPage {page page' : Page heap.config} (hpage : heap.pages[place.page]? = some page)
    (hslots : page'.slots = page.slots.set place.slot content)
    (hcounted : page.Counted → page'.Counted) :
    Put heap place content (heap.setPage place.page page') where
  table := rfl
  config := rfl
  length := List.length_set
  counted := by
    intro h old hold
    rcases List.mem_or_eq_of_mem_set hold with hold | heq
    · exact h old hold
    · rw [heq]
      exact hcounted (h page (List.mem_of_getElem? hpage))
  slots := by
    rintro ⟨p, s⟩
    have hlt := (List.getElem?_eq_some_iff.mp hpage).1
    unfold slotAt? setPage
    simp only [List.getElem?_set, Place.ext_iff]
    by_cases hp : place.page = p
    · subst hp
      simp only [hlt, hpage, if_true, Option.bind_some, hslots, true_and, List.getElem?_set]
      by_cases hs : place.slot = s
      · subst hs
        cases hget : page.slots[place.slot]? with
        | none => simp [List.getElem?_eq_none_iff.mp hget]
        | some old => simp [(List.getElem?_eq_some_iff.mp hget).1]
      · simp [hs]
    · simp [hp]

theorem Put.slot?_eq (h : Put heap rid.place content heap') (rid' : Rid) :
    heap'.slot? rid' = if rid = rid' then (heap.slot? rid').map fun _ => content else heap.slot? rid' := by
  rw [slot?, h.slots, slot?]
  simp only [Rid.place_inj]

theorem Put.row?_eq (h : Put heap rid.place content heap') (hslot : heap.slot? rid ≠ none) (rid' : Rid) :
    heap'.row? rid' = if rid = rid' then content.row? else heap.row? rid' := by
  rw [row?_eq_bind, h.slot?_eq, row?_eq_bind]
  split
  · rename_i heq
    subst heq
    obtain ⟨old, hold⟩ := Option.ne_none_iff_exists'.mp hslot
    simp [hold]
  · rfl

/-- A heap stays sound when a slot is changed, and no row comes to a place that no position names. -/
theorem Put.sound (h : Put heap place content heap') (hs : heap.Sound)
    (hnamed : content.row? ≠ none → place.isNamed = true) : heap'.Sound where
  named := by
    intro place' row hslot
    rw [h.slots] at hslot
    split at hslot
    · rename_i heq
      obtain ⟨_, _, rfl⟩ := Option.map_eq_some_iff.mp hslot
      exact heq ▸ hnamed (by simp [Slot.row?])
    · exact hs.named place' row hslot
  pages := by
    intro hne
    rw [h.config]
    refine hs.pages fun hnil => hne (List.eq_nil_of_length_eq_zero ?_)
    rw [h.length, hnil, List.length_nil]

/-! ### Adding pages -/

/-- The heap with further pages of free slots. -/
def extend (heap : Heap) (n : Nat) : Heap :=
  { heap with pages := heap.pages ++ List.replicate n (.blank heap.config) }

/-- Added pages bring free slots, and leave the others as they are. -/
theorem slotAt?_extend (heap : Heap) (n : Nat) (place : Place) :
    (heap.extend n).slotAt? place =
      if place.page < heap.pages.length then heap.slotAt? place
      else if place.page < heap.pages.length + n ∧ place.slot < heap.config.slotsPerPage then some .free
      else none := by
  show ((heap.pages ++ List.replicate n (Page.blank heap.config))[place.page]?.bind fun page =>
    page.slots[place.slot]?) = _
  by_cases hlt : place.page < heap.pages.length
  · rw [List.getElem?_append_left hlt, if_pos hlt, slotAt?]
  · rw [List.getElem?_append_right (Nat.le_of_not_lt hlt), if_neg hlt, List.getElem?_replicate]
    by_cases hlast : place.page < heap.pages.length + n
    · simp [Page.slots_blank, List.getElem?_replicate, hlast, Nat.sub_lt_left_of_lt_add (Nat.le_of_not_lt hlt) hlast]
    · have hge : ¬ place.page - heap.pages.length < n := by omega
      simp [hlast, hge]

/-- A slot on a page that is added is free. -/
theorem slotAt?_extend_of_lt {n : Nat} (hpage : heap.pages.length ≤ place.page)
    (hlast : place.page < heap.pages.length + n) (hslot : place.slot < heap.config.slotsPerPage) :
    (heap.extend n).slotAt? place = some .free := by
  rw [slotAt?_extend, if_neg (Nat.not_lt.mpr hpage), if_pos ⟨hlast, hslot⟩]

/-- What stands at a place behind the addition of pages is free or stood there before. -/
theorem slotAt?_of_extend {n : Nat} (h : (heap.extend n).slotAt? place = some content)
    (hcontent : content ≠ .free) : heap.slotAt? place = some content := by
  rw [slotAt?_extend] at h
  split at h
  · exact h
  · split at h
    · exact absurd (Option.some.inj h).symm hcontent
    · cases h

/-- Added pages bring no rows. -/
theorem row?_extend (heap : Heap) (n : Nat) (rid : Rid) : (heap.extend n).row? rid = heap.row? rid := by
  rw [row?_eq_bind, row?_eq_bind, slot?, slotAt?_extend, slot?]
  split
  · rfl
  · rename_i hlt
    have hnone : heap.slotAt? rid.place = none := by
      rw [slotAt?, List.getElem?_eq_none (Nat.le_of_not_lt hlt), Option.bind_none]
    rw [hnone]
    split <;> rfl

theorem Sound.extend (h : heap.Sound) (hpages : heap.config.hasPages = true) (n : Nat) :
    (heap.extend n).Sound where
  named := fun place row hslot => h.named place row (slotAt?_of_extend hslot (by simp))
  pages := fun _ => hpages

theorem Counted.extend (h : heap.Counted) (n : Nat) : (heap.extend n).Counted := by
  intro page hpage
  rcases List.mem_append.mp hpage with hpage | hpage
  · exact h page hpage
  · rw [List.eq_of_mem_replicate hpage]
    exact Page.Counted.blank heap.config

/-! ### The lists of slots and rows -/

/-- The places of the rows, in storage order. -/
def usedPlaces (heap : Heap) : List Place :=
  heap.slots.filterMap fun (place, slot) => slot.row?.map fun _ => place

theorem mem_slotsOfPage {config : HeapConfig} {page : Page config} {p : Nat} :
    (place, content) ∈ slotsOfPage page p ↔ place.page = p ∧ page.slots[place.slot]? = some content := by
  rw [slotsOfPage, List.mem_map, page.getElem?_slots, Option.map_eq_some_iff]
  constructor
  · rintro ⟨⟨state, s⟩, hmem, heq⟩
    cases heq
    exact ⟨rfl, state, List.mem_zipIdx_iff_getElem?.mp hmem, rfl⟩
  · rintro ⟨rfl, state, hstate, hcontent⟩
    exact ⟨(state, place.slot), List.mem_zipIdx_iff_getElem?.mpr hstate, by rw [← hcontent]⟩

/-- The list of slots has every slot under its place. -/
theorem mem_slots : (place, content) ∈ heap.slots ↔ heap.slotAt? place = some content := by
  rw [slots, List.mem_flatMap, slotAt?, Option.bind_eq_some_iff]
  constructor
  · rintro ⟨⟨page, p⟩, hpage, hmem⟩
    obtain ⟨rfl, hslot⟩ := mem_slotsOfPage.mp hmem
    exact ⟨page, List.mem_zipIdx_iff_getElem?.mp hpage, hslot⟩
  · rintro ⟨page, hpage, hslot⟩
    exact ⟨(page, place.page), List.mem_zipIdx_iff_getElem?.mpr hpage, mem_slotsOfPage.mpr ⟨rfl, hslot⟩⟩

/-- The list of rows has every row under its position. -/
theorem Sound.mem_rows (h : heap.Sound) : (rid, row) ∈ heap.rows ↔ heap.row? rid = some row := by
  rw [rows, List.mem_filterMap]
  constructor
  · rintro ⟨⟨place, slot⟩, hmem, heq⟩
    obtain ⟨row', hrow, hpair⟩ := Option.map_eq_some_iff.mp heq
    cases hpair
    obtain rfl := Slot.row?_eq_some hrow
    have hslot := mem_slots.mp hmem
    rw [row?_eq_bind, slot?, Place.place_rid_of_isNamed (h.named place row hslot), hslot]
    rfl
  · intro hrow
    exact ⟨(rid.place, .used row), mem_slots.mpr (slot?_of_row? hrow), by simp [Slot.row?]⟩

theorem pairwise_zipIdx {α : Type} (l : List α) (n : Nat) :
    (l.zipIdx n).Pairwise fun a b => a.2 < b.2 := by
  rw [← List.pairwise_map, List.zipIdx_map_snd]
  exact List.pairwise_lt_range'

/-- The slots are listed in storage order. -/
theorem pairwise_slots (heap : Heap) : heap.slots.Pairwise fun a b => a.1.Before b.1 := by
  rw [slots, List.pairwise_flatMap]
  constructor
  · rintro ⟨page, p⟩ _
    unfold slotsOfPage
    exact List.pairwise_map.mpr ((pairwise_zipIdx page.states 0).imp fun hlt => .inr ⟨rfl, hlt⟩)
  · refine (pairwise_zipIdx heap.pages 0).imp fun {a b} hlt x hx y hy => .inl ?_
    rw [(mem_slotsOfPage.mp hx).1, (mem_slotsOfPage.mp hy).1]
    exact hlt

/-- The rows are listed in the order of their positions. -/
theorem Sound.pairwise_rows (h : heap.Sound) : heap.rows.Pairwise fun a b => compare a.1 b.1 = .lt := by
  rw [rows, List.pairwise_filterMap]
  refine heap.pairwise_slots.imp_of_mem ?_
  rintro ⟨place, slot⟩ ⟨place', slot'⟩ hmem hmem' (hlt : place.Before place') x hx y hy
  obtain ⟨row, hrow, rfl⟩ := Option.map_eq_some_iff.mp hx
  obtain ⟨row', hrow', rfl⟩ := Option.map_eq_some_iff.mp hy
  obtain rfl := Slot.row?_eq_some hrow
  obtain rfl := Slot.row?_eq_some hrow'
  rwa [Rid.compare_eq_lt_iff_before, Place.place_rid_of_isNamed (h.named place row (mem_slots.mp hmem)),
    Place.place_rid_of_isNamed (h.named place' row' (mem_slots.mp hmem'))]

theorem usedOfPage_eq {config : HeapConfig} (page : Page config) (p : Nat) : usedOfPage page p =
    ((slotsOfPage page p).filterMap fun (place, slot) => slot.row?.map fun _ => place).map (·.rid) := by
  rw [usedOfPage, slotsOfPage, List.filterMap_map, List.map_filterMap]
  refine congrArg (List.filterMap · _) (funext ?_)
  rintro ⟨state, s⟩
  cases state <;> simp [Page.content, Slot.row?]

/-- The positions that are listed are those that are given out for the places of the rows. -/
theorem scan_eq_map (heap : Heap) : heap.scan = heap.usedPlaces.map (·.rid) := by
  unfold scan usedPlaces slots
  simp only [usedOfPage_eq, List.filterMap_flatMap, List.map_flatMap]

/-- The positions that are listed are those of the rows. -/
theorem scan_eq (heap : Heap) : heap.scan = heap.rows.map (·.1) := by
  rw [scan_eq_map, usedPlaces, rows, List.map_filterMap, List.map_filterMap]
  refine congrArg (List.filterMap · _) (funext fun (place, slot) => ?_)
  cases slot <;> rfl

/-! ### The search for a free slot -/

/-- Whether a slot with its place is free and its position is not skipped. -/
def isOpen (skip : Rid → Bool) (slot : Place × Slot) : Bool := slot.2 = .free && !skip slot.1.rid

theorem isOpen_iff {skip : Rid → Bool} :
    isOpen skip (place, content) = true ↔ content = .free ∧ skip place.rid = false := by
  simp [isOpen]

theorem firstFreeSlot?_eq {config : HeapConfig} (page : Page config) (skip : Rid → Bool) (p s : Nat)
    (states : List SlotState) :
    firstFreeSlot? skip p s states =
      (((states.zipIdx s).map fun (state, s) => (Place.mk p s, page.content s state)).find?
        (isOpen skip)).map (·.1) := by
  induction states generalizing s with
  | nil => rfl
  | cons state rest ih =>
    rw [List.zipIdx_cons, List.map_cons, List.find?_cons, firstFreeSlot?]
    have hiff : state = .free ∧ skip (Place.mk p s).rid = false ↔
        isOpen skip (Place.mk p s, page.content s state) = true := by
      rw [isOpen_iff]
      cases state <;> simp [Page.content]
    by_cases hopen : state = .free ∧ skip (Place.mk p s).rid = false
    · rw [if_pos hopen, hiff.mp hopen]
      rfl
    · rw [if_neg hopen, ih, Bool.eq_false_iff.mpr (mt hiff.mpr hopen)]

theorem firstFreeOf?_eq {config : HeapConfig} (skip : Rid → Bool) (p : Nat) (pages : List (Page config)) :
    firstFreeOf? skip p pages =
      (((pages.zipIdx p).flatMap fun (page, p) => slotsOfPage page p).find? (isOpen skip)).map
        (·.1) := by
  induction pages generalizing p with
  | nil => rfl
  | cons page rest ih =>
    rw [List.zipIdx_cons, List.flatMap_cons, List.find?_append, firstFreeOf?,
      firstFreeSlot?_eq page skip p 0 page.states, ih]
    simp only [slotsOfPage]
    cases (page.states.zipIdx.map fun (state, s) => (Place.mk p s, page.content s state)).find?
      (isOpen skip) <;> rfl

/-- The search finds the first slot in storage order that is free and whose position is not skipped. -/
theorem firstFree?_eq (heap : Heap) (skip : Rid → Bool) :
    heap.firstFree? skip = (heap.slots.find? (isOpen skip)).map (·.1) :=
  firstFreeOf?_eq skip 0 heap.pages

/-- The search finds a free slot whose position is not to be skipped, and passes over no other such slot. -/
theorem firstFree?_eq_some {skip : Rid → Bool} (hfound : heap.firstFree? skip = some place) :
    heap.slotAt? place = some .free ∧ skip place.rid = false ∧
      ∀ place', place'.Before place → heap.slotAt? place' = some .free → skip place'.rid = true := by
  rw [firstFree?_eq] at hfound
  obtain ⟨⟨found, slot⟩, hfind, rfl⟩ := Option.map_eq_some_iff.mp hfound
  obtain ⟨hopen, passed, rest, hslots, hpassed⟩ := List.find?_eq_some_iff_append.mp hfind
  obtain ⟨rfl, hskip⟩ := isOpen_iff.mp hopen
  have hmem : (found, Slot.free) ∈ heap.slots := by simp [hslots]
  refine ⟨mem_slots.mp hmem, hskip, ?_⟩
  intro place' (hlt : place'.Before found) hfree
  have hmem' : (place', Slot.free) ∈ passed ++ (found, Slot.free) :: rest := hslots ▸ mem_slots.mpr hfree
  -- The slots are listed in storage order, so what is smaller was asked before.
  have hordered := heap.pairwise_slots
  rw [hslots, List.pairwise_append, List.pairwise_cons] at hordered
  obtain hbefore | hafter := List.mem_append.mp hmem'
  · have hnot := hpassed _ hbefore
    simpa [isOpen] using hnot
  · unfold Place.Before at hlt
    obtain heq | hafter := List.mem_cons.mp hafter
    · cases heq
      omega
    · have hgt : found.Before place' := hordered.2.1.1 _ hafter
      unfold Place.Before at hgt
      omega

/-- Whether no slot of the pages will do: each is taken, or its position is to be skipped. -/
def Full (heap : Heap) (skip : Rid → Bool) : Prop :=
  ∀ place, heap.slotAt? place = some .free → skip place.rid = true

/-- The search finds nothing only if there is nothing to be found. -/
theorem firstFree?_eq_none {skip : Rid → Bool} (hnone : heap.firstFree? skip = none) : heap.Full skip := by
  rw [firstFree?_eq, Option.map_eq_none_iff, List.find?_eq_none] at hnone
  intro place hfree
  have hnot := hnone _ (mem_slots.mpr hfree)
  simpa [isOpen] using hnot

/-! ### Claiming and giving back a slot -/

/-- A heap that holds the same rows in a table of the same shape. -/
structure SameRows (heap heap' : Heap) : Prop where
  table : heap'.table = heap.table
  config : heap'.config = heap.config
  sound : heap.Sound → heap'.Sound
  rows : ∀ rid, heap'.row? rid = heap.row? rid

theorem SameRows.refl (heap : Heap) : SameRows heap heap := ⟨rfl, rfl, id, fun _ => rfl⟩

theorem SameRows.trans {a b c : Heap} (h : SameRows a b) (h' : SameRows b c) : SameRows a c where
  table := h'.table.trans h.table
  config := h'.config.trans h.config
  sound := h'.sound ∘ h.sound
  rows := fun rid => (h'.rows rid).trans (h.rows rid)

theorem SameRows.extend (heap : Heap) (hpages : heap.config.hasPages = true) (n : Nat) :
    SameRows heap (heap.extend n) where
  table := rfl
  config := rfl
  sound := fun h => h.extend hpages n
  rows := row?_extend heap n

/-- Putting something that is no row into a slot without a row changes no row. -/
theorem SameRows.of_put {old : Slot} (h : Put heap place content heap') (hnew : content.row? = none)
    (hslot : heap.slotAt? place = some old) (hold : old.row? = none) : SameRows heap heap' where
  table := h.table
  config := h.config
  sound := fun hs => h.sound hs fun hrow => absurd hnew hrow
  rows := by
    intro rid
    rw [row?_eq_bind, row?_eq_bind, slot?, h.slots, slot?]
    split
    · rename_i heq
      rw [← heq, hslot]
      exact hnew.trans hold.symm
    · rfl

/-- How the search for a slot to claim ends, and the heap behind it. -/
inductive Claims (heap : Heap) (skip : Rid → Bool) : Except StorageError Place × Heap → Prop where
  | found {place : Place} (hfree : heap.slotAt? place = some .free) (hopen : skip place.rid = false)
      (hfirst : ∀ place', place'.Before place → heap.slotAt? place' = some .free → skip place'.rid = true) :
      Claims heap skip (.ok place, heap)
  | added (hpages : heap.config.hasPages = true) (hfull : heap.Full skip) :
      Claims heap skip (.ok ⟨heap.pages.length, 0⟩, heap.extend 1)
  | noPage (hpages : heap.config.hasPages = false) (hfull : heap.Full skip) :
      Claims heap skip (.error .noSlot, heap)

theorem claims_claim (heap : Heap) (skip : Rid → Bool) : Claims heap skip (heap.claim skip) := by
  unfold claim
  cases hfree : heap.firstFree? skip with
  | some place =>
    obtain ⟨hfree, hopen, hfirst⟩ := firstFree?_eq_some hfree
    exact .found hfree hopen hfirst
  | none =>
    simp only
    split
    · rename_i hpages
      exact .added hpages (firstFree?_eq_none hfree)
    · rename_i hpages
      exact .noPage (by simpa using hpages) (firstFree?_eq_none hfree)

namespace Claims

variable {skip : Rid → Bool} {result : Except StorageError Place} {claimed : Heap}

/-- A claim leaves the heap as it is or adds a page. -/
theorem heap_eq (h : Claims heap skip (result, claimed)) :
    claimed = heap ∨ claimed = heap.extend 1 ∧ heap.config.hasPages = true := by
  cases h with
  | found | noPage => exact .inl rfl
  | added hpages => exact .inr ⟨rfl, hpages⟩

/-- A claim changes no row. -/
theorem sameRows (h : Claims heap skip (result, claimed)) : SameRows heap claimed := by
  rcases h.heap_eq with rfl | ⟨rfl, hpages⟩
  · exact .refl _
  · exact .extend heap hpages 1

/-- What is claimed is a free slot, unless pages have no slots at all. -/
theorem free (h : Claims heap skip (.ok place, claimed)) :
    claimed.slotAt? place = some .free ∨
      claimed.slotAt? place = none ∧ heap.config.hasSlots = false ∧ heap.Full skip := by
  cases h with
  | found hfree => exact .inl hfree
  | added _ hfull =>
    by_cases hslots : 0 < heap.config.slotsPerPage
    · exact .inl (slotAt?_extend_of_lt (Nat.le_refl _) (Nat.lt_succ_self _) hslots)
    · refine .inr ⟨?_, by simp [HeapConfig.hasSlots, hslots], hfull⟩
      rw [slotAt?_extend, if_neg (Nat.lt_irrefl _), if_neg fun hlt => hslots hlt.2]

end Claims

/-- How a reservation ends, and the heap behind it. -/
inductive Reserves (marks : Place → Bool) (heap : Heap) (skip : Rid → Bool) :
    Except StorageError Rid × Heap → Prop where
  | marked {place : Place} {claimed heap' : Heap} (hclaims : Claims heap skip (.ok place, claimed))
      (hfree : claimed.slotAt? place = some .free) (hmarks : marks place = true)
      (hput : Put claimed place .reserved heap') : Reserves marks heap skip (.ok place.rid, heap')
  | unmarked {place : Place} {claimed : Heap} (hclaims : Claims heap skip (.ok place, claimed))
      (hfree : claimed.slotAt? place = some .free) (hmarks : marks place = false) :
      Reserves marks heap skip (.ok place.rid, claimed)
  | none {result : Except StorageError Place} {claimed : Heap} (hclaims : Claims heap skip (result, claimed))
      (hnone : heap.config.hasSlots = false) (hfull : heap.Full skip) :
      Reserves marks heap skip (.error .noSlot, claimed)

/-- Where there is no slot, nothing comes of what a page does only to a slot that it has. -/
theorem getElem?_bind_eq_none {α : Type} (hnone : heap.slotAt? place = none)
    {act : (page : Page heap.config) → Option α}
    (hact : ∀ page : Page heap.config, page.states.length ≤ place.slot → act page = none) :
    heap.pages[place.page]?.bind act = none := by
  refine Option.bind_eq_none_iff.mpr fun page hpage => hact page ?_
  rw [slotAt?, hpage, Option.bind_some, List.getElem?_eq_none_iff, page.length_slots] at hnone
  rwa [page.length_states]

theorem reserves_reserveIf (marks : Place → Bool) (heap : Heap) (skip : Rid → Bool) :
    Reserves marks heap skip (heap.reserveIf marks skip) := by
  have hclaims := heap.claims_claim skip
  unfold reserveIf
  cases hclaim : heap.claim skip with
  | mk result claimed =>
    rw [hclaim] at hclaims
    cases result with
    | error error =>
      cases hclaims with
      | noPage hpages hfull =>
        exact .none (.noPage hpages hfull) (by simp [HeapConfig.hasSlots, hpages]) hfull
    | ok place =>
      rcases hclaims.free with hfree | ⟨hnone, hslots, hfull⟩
      · obtain ⟨page, state, hpage, hstate, hcontent⟩ := exists_page_of_slotAt? hfree
        obtain ⟨marked, hmarked⟩ := page.exists_mark? (slot_lt hfree) .reserved
        have hunused : state ≠ .used := by
          rintro rfl
          cases hcontent
        simp only [hpage, Option.bind_some, hmarked]
        cases hmarks : marks place with
        | false => exact .unmarked hclaims hfree hmarks
        | true =>
          exact .marked hclaims hfree hmarks (.of_setPage hpage (Page.slots_of_mark? hmarked) fun hcounted =>
            hcounted.mark? hmarked hstate hunused (by decide))
      · simp only [getElem?_bind_eq_none hnone fun _ hlong => Page.mark?_eq_none hlong]
        exact .none hclaims hslots hfull

/-- As long as the numbers of pages and slots have 32 bits, it is the same to mark every slot that is claimed and to
mark only one that its position names. -/
theorem reserveNamed_eq_reserve (hslots : heap.config.slotsPerPage ≤ UInt32.size)
    (hpages : heap.pages.length < UInt32.size) (skip : Rid → Bool) : heap.reserveNamed skip = heap.reserve skip := by
  have hclaims := heap.claims_claim skip
  unfold reserveNamed reserve reserveIf
  generalize heap.claim skip = claim at hclaims ⊢
  cases hclaims with
  | found hfree =>
    have hnamed := Place.isNamed_iff.mpr
      ⟨Nat.lt_trans (page_lt hfree) hpages, Nat.lt_of_lt_of_le (slot_lt hfree) hslots⟩
    simp only [hnamed]
  | added =>
    have hnamed : (⟨heap.pages.length, 0⟩ : Place).isNamed = true := Place.isNamed_iff.mpr
      ⟨hpages, show 0 < UInt32.size by decide⟩
    simp only [hnamed]
  | noPage => rfl

/-- Marking no slot but one that its position names changes no row.  What it gives is a position where there is
a slot, unless there can be none. -/
theorem reserveNamed_spec (heap : Heap) (skip : Rid → Bool) :
    SameRows heap (heap.reserveNamed skip).2 ∧
      (∀ rid, (heap.reserveNamed skip).1 = .ok rid → (heap.reserveNamed skip).2.slot? rid ≠ none) ∧
      ∀ error, (heap.reserveNamed skip).1 = .error error → error = .noSlot ∧ heap.config.hasSlots = false := by
  have hreserves : Reserves Place.isNamed heap skip (heap.reserveNamed skip) :=
    reserves_reserveIf Place.isNamed heap skip
  generalize heap.reserveNamed skip = reserved at hreserves ⊢
  cases hreserves with
  | marked hclaims hfree hnamed hput =>
    rename_i place claimed heap'
    refine ⟨hclaims.sameRows.trans (.of_put hput rfl hfree rfl), fun rid heq => ?_, nofun⟩
    cases heq
    rw [slot?, Place.place_rid_of_isNamed hnamed, hput.slots, if_pos rfl, hfree]
    simp
  | unmarked hclaims hfree hnamed =>
    refine ⟨hclaims.sameRows, fun rid heq => ?_, nofun⟩
    cases heq
    obtain ⟨content, hcontent⟩ := exists_slot?_rid hfree
    simp [hcontent]
  | none hclaims hnone =>
    refine ⟨hclaims.sameRows, nofun, fun error heq => ?_⟩
    cases heq
    exact ⟨rfl, hnone⟩

/-- A slot is freed if it is reserved, and nothing happens if it is not. -/
theorem cancel_put (heap : Heap) (rid : Rid) :
    if heap.slot? rid = some .reserved then Put heap rid.place .free (heap.cancel rid)
    else heap.cancel rid = heap := by
  unfold cancel
  cases hpage : heap.pages[rid.page.toNat]? with
  | none => simp [slot?, slotAt?, Rid.place, hpage]
  | some page =>
    have hiff : heap.slot? rid = some .reserved ↔ page.states[rid.slot.toNat]? = some .reserved := by
      rw [page.states_eq_reserved_iff, slot?, slotAt?, Rid.place, hpage, Option.bind_some]
    have hslots := page.slots_cancel rid.slot.toNat
    split
    · rename_i hreserved
      rw [if_pos (hiff.mp hreserved)] at hslots
      exact .of_setPage hpage hslots fun h => h.cancel _
    · rename_i hreserved
      obtain ⟨hlt, hget⟩ := List.getElem?_eq_some_iff.mp hpage
      have hkept : page.cancel rid.slot.toNat = page := if_neg (hreserved ∘ hiff.mpr)
      simp only [setPage, hkept]
      rw [← hget, List.set_getElem_self]

theorem cancel_spec (heap : Heap) (rid : Rid) : SameRows heap (heap.cancel rid) := by
  have hcancel := cancel_put heap rid
  split at hcancel
  · rename_i hslot
    exact .of_put hcancel rfl hslot rfl
  · rw [hcancel]
    exact .refl heap

/-! ### Writing, giving up and overwriting a row -/

/-- A heap that differs from another in the row at one position only. -/
structure Changed (heap : Heap) (rid : Rid) (row : Option Bytes) (heap' : Heap) : Prop where
  table : heap'.table = heap.table
  config : heap'.config = heap.config
  sound : heap'.Sound
  rows : ∀ rid', heap'.row? rid' = if rid = rid' then row else heap.row? rid'

theorem Sound.fits (h : heap.Sound) (hrow : heap.row? rid = some row) : heap.config.Fits rid row where
  size := length_of_used (slot?_of_row? hrow)
  slot := slot?_lt (slot?_of_row? hrow)
  pages := h.pages (pages_ne_nil_of_slotAt? (slot?_of_row? hrow))

theorem Changed.of_put (h : heap.Sound) (hput : Put heap rid.place content heap')
    (hslot : heap.slot? rid ≠ none) : Changed heap rid content.row? heap' where
  table := hput.table
  config := hput.config
  sound := hput.sound h fun _ => rid.isNamed_place
  rows := hput.row?_eq hslot

theorem checkSize_of_eq (h : row.length = heap.config.rowSize) : heap.checkSize row = .ok () := if_pos h

theorem checkSlot_of_lt (h : rid.slot.toNat < heap.config.slotsPerPage) : heap.checkSlot rid = .ok () :=
  if_pos h

/-- The page of a row is found, and the bytes of the row on it. -/
theorem exists_pageOf (h : heap.row? rid = some row) :
    heap.checkSlot rid = .ok () ∧ ∃ page, heap.pageOf rid = .ok page ∧
      heap.pages[rid.page.toNat]? = some page ∧ page.states[rid.slot.toNat]? = some .used ∧
      page.bytes? rid.slot.toNat = some row := by
  refine ⟨checkSlot_of_lt (slot?_lt (slot?_of_row? h)), ?_⟩
  obtain ⟨page, hpage, hrow⟩ := Option.bind_eq_some_iff.mp h
  rw [page.row?_eq] at hrow
  split at hrow
  · rename_i hstate
    refine ⟨page, ?_, hpage, hstate, hrow⟩
    simp [pageOf, hpage, hstate, access, bind, Except.bind, pure, Except.pure]
  · cases hrow

/-- No page is found where there is no row, and no access goes beyond a page. -/
theorem not_found {α : Type} (h : heap.row? rid = none) (f : Page heap.config → Except StorageError α) :
    (do heap.checkSlot rid; let page ← heap.pageOf rid; f page) = .error (.notFound rid) := by
  unfold checkSlot pageOf
  by_cases hslot : rid.slot.toNat < heap.config.slotsPerPage
  · cases hpage : heap.pages[rid.page.toNat]? with
    | none => simp [hslot, bind, Except.bind, throw, throwThe, MonadExceptOf.throw]
    | some page =>
      obtain ⟨state, hstate⟩ := page.exists_state hslot
      have hunused : state ≠ .used := by
        rintro rfl
        obtain ⟨row, hrow, -⟩ := page.exists_bytes? hslot
        simp [row?, hpage, page.row?_eq, hstate, hrow] at h
      simp [hslot, hstate, hunused, access, bind, Except.bind, throw, throwThe, MonadExceptOf.throw]
  · simp [hslot, bind, Except.bind]

/-- What is read at a position is the row there. -/
theorem get_eq (heap : Heap) (rid : Rid) :
    heap.get rid = match heap.row? rid with
      | some row => .ok row
      | none => .error (.notFound rid) := by
  cases hrow : heap.row? rid with
  | none => exact not_found hrow fun page => access (page.bytes? rid.slot.toNat)
  | some row =>
    obtain ⟨hcheck, page, hpageOf, -, -, hbytes⟩ := exists_pageOf hrow
    simp [get, hcheck, hpageOf, hbytes, access, bind, Except.bind]

theorem growTo_eq (heap : Heap) (page : Nat) :
    heap.growTo page = heap.extend (page + 1 - heap.pages.length) := rfl

/-- A heap that has grown for a position has a slot there, if the slot number is one of the page's. -/
theorem exists_slot?_growTo (heap : Heap) (hslot : rid.slot.toNat < heap.config.slotsPerPage) :
    ∃ content, (heap.growTo rid.page.toNat).slot? rid = some content := by
  have hlt : rid.page.toNat < (heap.growTo rid.page.toNat).pages.length := by
    rw [growTo, List.length_append, List.length_replicate]
    omega
  exact exists_slotAt? hlt hslot

/-- What is left of a write when the size, the slot number and the pages are right. -/
theorem insertAt_eq (hfits : heap.config.Fits rid row) :
    ∃ page state, (heap.growTo rid.page.toNat).pages[rid.page.toNat]? = some page ∧
      page.states[rid.slot.toNat]? = some state ∧
      heap.insertAt rid row =
        if state = .used then .error (.occupied rid)
        else (access (page.fill? rid.slot.toNat row)).map
          ((heap.growTo rid.page.toNat).setPage rid.page.toNat) := by
  obtain ⟨content, hcontent⟩ := heap.exists_slot?_growTo hfits.slot
  obtain ⟨page, state, hpage, hstate, -⟩ := exists_page_of_slot? hcontent
  refine ⟨page, state, hpage, hstate, ?_⟩
  by_cases hused : state = .used
  · simp [insertAt, checkSize_of_eq hfits.size, checkSlot_of_lt hfits.slot, hfits.pages, hpage, hstate, hused,
      access, bind, Except.bind, throw, throwThe, MonadExceptOf.throw]
  · cases hfill : page.fill? rid.slot.toNat row <;>
      simp [insertAt, checkSize_of_eq hfits.size, checkSlot_of_lt hfits.slot, hfits.pages, hpage, hstate,
        hused, hfill, access, bind, Except.bind, pure, Except.pure, Except.map]

/-- Whether a slot is used can be told from its state. -/
theorem used_iff_row? {page : Page heap.config} {state : SlotState}
    (hpage : heap.pages[rid.page.toNat]? = some page) (hstate : page.states[rid.slot.toNat]? = some state) :
    state = .used ↔ heap.row? rid ≠ none := by
  have hlt : rid.slot.toNat < heap.config.slotsPerPage := by
    rw [← page.length_states]
    exact (List.getElem?_eq_some_iff.mp hstate).1
  obtain ⟨row, hrow, -⟩ := page.exists_bytes? hlt
  rw [row?, hpage, Option.bind_some, page.row?_eq, hstate]
  cases state <;> simp [hrow]

/-- A row of the right size goes into any slot that the heap can have and that holds no row. -/
theorem insertAt_of_fits (hfits : heap.config.Fits rid row) (hnone : heap.row? rid = none) :
    ∃ heap', heap.insertAt rid row = .ok heap' ∧
      Put (heap.growTo rid.page.toNat) rid.place (.used row) heap' := by
  obtain ⟨page, state, hpage, hstate, hinsert⟩ := insertAt_eq hfits
  have hgrown : (heap.growTo rid.page.toNat).row? rid = none := by rw [growTo_eq, row?_extend, hnone]
  have hunused : state ≠ .used := fun hused => (used_iff_row? hpage hstate).mp hused hgrown
  obtain ⟨filled, hfilled⟩ := page.exists_fill? hfits.slot hfits.size
  refine ⟨_, ?_, .of_setPage hpage (Page.slots_of_fill? hfilled) fun h =>
    h.fill? hfilled hstate hunused⟩
  rw [hinsert, if_neg hunused, hfilled]
  rfl

theorem insertAt_of_row {old : Bytes} (hfits : heap.config.Fits rid row) (hrow : heap.row? rid = some old) :
    heap.insertAt rid row = .error (.occupied rid) := by
  obtain ⟨page, state, hpage, hstate, hinsert⟩ := insertAt_eq hfits
  have hgrown : (heap.growTo rid.page.toNat).row? rid ≠ none := by
    rw [growTo_eq, row?_extend, hrow]
    simp
  rw [hinsert, if_pos ((used_iff_row? hpage hstate).mpr hgrown)]

theorem insertAt_error_of_size (hsize : row.length ≠ heap.config.rowSize) :
    heap.insertAt rid row = .error (.sizeMismatch heap.config.rowSize row.length) := by
  simp [insertAt, checkSize, hsize, bind, Except.bind]

theorem insertAt_error_of_slot (hsize : row.length = heap.config.rowSize)
    (hslot : heap.config.slotsPerPage ≤ rid.slot.toNat) :
    heap.insertAt rid row = .error (.notFound rid) := by
  simp [insertAt, checkSize_of_eq hsize, checkSlot, Nat.not_lt.mpr hslot, bind, Except.bind]

theorem insertAt_error_of_pages (hsize : row.length = heap.config.rowSize)
    (hslot : rid.slot.toNat < heap.config.slotsPerPage) (hpages : heap.config.hasPages = false) :
    heap.insertAt rid row = .error .noSlot := by
  simp [insertAt, checkSize_of_eq hsize, checkSlot_of_lt hslot, hpages, bind, Except.bind, throw, throwThe,
    MonadExceptOf.throw]

theorem insertAt_spec (h : heap.Sound) (hfits : heap.config.Fits rid row)
    (hnone : heap.row? rid = none) :
    ∃ heap', heap.insertAt rid row = .ok heap' ∧ Changed heap rid (some row) heap' := by
  obtain ⟨heap', hinsert, hput⟩ := insertAt_of_fits hfits hnone
  obtain ⟨content, hcontent⟩ := heap.exists_slot?_growTo hfits.slot
  have hgrown := h.extend hfits.pages (rid.page.toNat + 1 - heap.pages.length)
  have hchanged := Changed.of_put hgrown hput (by rw [← growTo_eq, hcontent]; simp)
  refine ⟨heap', hinsert, hchanged.table, hchanged.config, hchanged.sound, fun rid' => ?_⟩
  rw [hchanged.rows, row?_extend]
  rfl

/-- A row is put only where it fits and where there is none. -/
theorem of_insertAt_eq_ok (hinsert : heap.insertAt rid row = .ok heap') :
    heap.config.Fits rid row ∧ heap.row? rid = none := by
  by_cases hsize : row.length = heap.config.rowSize
  · by_cases hslot : rid.slot.toNat < heap.config.slotsPerPage
    · by_cases hpages : heap.config.hasPages = true
      · cases hrow : heap.row? rid with
        | none => exact ⟨⟨hsize, hslot, hpages⟩, rfl⟩
        | some old =>
          rw [insertAt_of_row ⟨hsize, hslot, hpages⟩ hrow] at hinsert
          cases hinsert
      · rw [insertAt_error_of_pages hsize hslot (by simpa using hpages)] at hinsert
        cases hinsert
    · rw [insertAt_error_of_slot hsize (Nat.le_of_not_lt hslot)] at hinsert
      cases hinsert
  · rw [insertAt_error_of_size hsize] at hinsert
    cases hinsert

/-! #### Giving up -/

theorem delete_of_row (hrow : heap.row? rid = some row) :
    ∃ heap', heap.delete rid = .ok heap' ∧ Put heap rid.place .free heap' := by
  obtain ⟨hcheck, page, hpageOf, hpage, hstate, -⟩ := exists_pageOf hrow
  obtain ⟨vacated, hvacated⟩ := page.exists_vacate? (slot?_lt (slot?_of_row? hrow))
  refine ⟨heap.setPage rid.page.toNat vacated, ?_,
    .of_setPage hpage (Page.slots_of_vacate? hvacated) fun h =>
      h.vacate? hvacated hstate⟩
  simp [delete, hcheck, hpageOf, hvacated, access, bind, Except.bind, pure, Except.pure]

theorem delete_of_none (hnone : heap.row? rid = none) : heap.delete rid = .error (.notFound rid) :=
  not_found hnone _

/-- Giving up a row leaves its slot without one. -/
theorem delete_spec (h : heap.Sound) (hrow : heap.row? rid = some row) :
    ∃ heap', heap.delete rid = .ok heap' ∧ Changed heap rid none heap' := by
  obtain ⟨heap', hdelete, hput⟩ := delete_of_row hrow
  exact ⟨heap', hdelete, Changed.of_put h hput (by simp [slot?_of_row? hrow])⟩

/-! #### Overwriting -/

theorem update_of_row {old : Bytes} (hrow : heap.row? rid = some old)
    (hsize : row.length = heap.config.rowSize) :
    ∃ heap', heap.update rid row = .ok heap' ∧ Put heap rid.place (.used row) heap' := by
  obtain ⟨hcheck, page, hpageOf, hpage, hstate, -⟩ := exists_pageOf hrow
  obtain ⟨written, hwritten⟩ := page.exists_write? (slot?_lt (slot?_of_row? hrow)) hsize
  refine ⟨heap.setPage rid.page.toNat written, ?_,
    .of_setPage hpage (Page.slots_of_write? hwritten hstate) fun h =>
      h.write? hwritten⟩
  simp [update, checkSize_of_eq hsize, hcheck, hpageOf, hwritten, access, bind, Except.bind, pure, Except.pure]

theorem update_of_none (hnone : heap.row? rid = none) (hsize : row.length = heap.config.rowSize) :
    heap.update rid row = .error (.notFound rid) := by
  have hfound := not_found hnone fun page =>
    (access (page.write? rid.slot.toNat row)).map (heap.setPage rid.page.toNat)
  rw [← hfound, update, checkSize_of_eq hsize]
  rfl

theorem update_error_of_size (hsize : row.length ≠ heap.config.rowSize) :
    heap.update rid row = .error (.sizeMismatch heap.config.rowSize row.length) := by
  simp [update, checkSize, hsize, bind, Except.bind]

/-- A row of the right size takes the place of the row at a position. -/
theorem update_spec (h : heap.Sound) {old : Bytes} (hrow : heap.row? rid = some old)
    (hsize : row.length = heap.config.rowSize) :
    ∃ heap', heap.update rid row = .ok heap' ∧ Changed heap rid (some row) heap' := by
  obtain ⟨heap', hupdate, hput⟩ := update_of_row hrow hsize
  exact ⟨heap', hupdate, Changed.of_put h hput (by simp [slot?_of_row? hrow])⟩

end Heap

end NoWait
