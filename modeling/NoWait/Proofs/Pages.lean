import NoWait.Heap

/-!
# What the accesses to a page do to its slots

A page keeps its rows in one stretch of bytes, slot behind slot.  Every slot that a page has lies inside of
that stretch, and no access touches the bytes or the state of another slot.

* `le_length_data` says that a slot of a page has its bytes there, so `exists_bytes?`, `exists_write?`,
  `exists_mark?` and `exists_fill?` find it;
* `bytes?_of_write?` is what a write does to the bytes of every slot;
* `slots_of_mark?`, `slots_of_write?`, `slots_of_fill?`, `slots_of_vacate?` and `slots_cancel` are what
  becomes of the slots, each of which is changed in one place;
* `Page.Counted` says that a page counts its used slots, and `Counted.fill?`, `Counted.vacate?` and their
  like keep it.
-/

namespace NoWait.Page

variable {config : HeapConfig} {page page' : Page config} {slot slot' : Nat} {row : Bytes}
  {state : SlotState}

/-! ### Every slot has its bytes in the page -/

theorem le_length_data (page : Page config) (h : slot < config.slotsPerPage) :
    (slot + 1) * config.rowSize ≤ page.data.length := by
  rw [page.length_data]
  exact Nat.mul_le_mul_right config.rowSize h

theorem lt_length_states (page : Page config) (h : slot < config.slotsPerPage) :
    slot < page.states.length := by
  rwa [page.length_states]

theorem exists_bytes? (page : Page config) (h : slot < config.slotsPerPage) :
    ∃ row, page.bytes? slot = some row ∧ row.length = config.rowSize := by
  have hle := page.le_length_data h
  refine ⟨_, if_pos hle, ?_⟩
  rw [Nat.succ_mul] at hle
  rw [List.length_take, List.length_drop]
  omega

theorem exists_write? (page : Page config) (h : slot < config.slotsPerPage)
    (hrow : row.length = config.rowSize) : ∃ page', page.write? slot row = some page' :=
  ⟨_, dif_pos ⟨hrow, page.le_length_data h⟩⟩

theorem exists_mark? (page : Page config) (h : slot < config.slotsPerPage) (state : SlotState) :
    ∃ page', page.mark? slot state = some page' :=
  ⟨_, if_pos (page.lt_length_states h)⟩

theorem exists_state (page : Page config) (h : slot < config.slotsPerPage) :
    ∃ state, page.states[slot]? = some state :=
  ⟨_, List.getElem?_eq_getElem (page.lt_length_states h)⟩

theorem exists_fill? (page : Page config) (h : slot < config.slotsPerPage)
    (hrow : row.length = config.rowSize) : ∃ page', page.fill? slot row = some page' := by
  obtain ⟨written, hwritten⟩ := page.exists_write? h hrow
  obtain ⟨marked, hmarked⟩ := written.exists_mark? h .used
  exact ⟨{ marked with used := marked.used + 1 }, by simp [fill?, hwritten, hmarked]⟩

theorem exists_vacate? (page : Page config) (h : slot < config.slotsPerPage) :
    ∃ page', page.vacate? slot = some page' := by
  obtain ⟨marked, hmarked⟩ := page.exists_mark? h .free
  exact ⟨{ marked with used := marked.used - 1 }, by simp [vacate?, hmarked]⟩

/-- A slot that the page does not have cannot be marked. -/
theorem mark?_eq_none (h : page.states.length ≤ slot) : page.mark? slot state = none :=
  if_neg (Nat.not_lt.mpr h)

/-! ### Bytes after a write -/

section Written

variable {data : Bytes} {size : Nat}

/-- The bytes of a slot that has been written are the row. -/
theorem take_drop_written (hrow : row.length = size) (hslot : (slot + 1) * size ≤ data.length)
    (rest : Bytes) :
    ((data.take (slot * size) ++ (row ++ rest)).drop (slot * size)).take size = row := by
  have hlength : (data.take (slot * size)).length = slot * size := by
    rw [Nat.succ_mul] at hslot
    rw [List.length_take]
    omega
  rw [List.drop_left' hlength, List.take_left' hrow]

/-- The bytes of any other slot are what they were. -/
theorem take_drop_written_of_ne (hrow : row.length = size) (hslot : (slot + 1) * size ≤ data.length)
    (hne : slot ≠ slot') :
    ((data.take (slot * size) ++ (row ++ data.drop ((slot + 1) * size))).drop (slot' * size)).take size =
      (data.drop (slot' * size)).take size := by
  have hend : (slot + 1) * size = slot * size + size := Nat.succ_mul slot size
  have hlength : (data.take (slot * size)).length = slot * size := by
    rw [List.length_take]
    omega
  rcases Nat.lt_or_gt_of_ne hne with hbelow | habove
  · -- the slot comes behind the one that was written
    have hle : (slot + 1) * size ≤ slot' * size := Nat.mul_le_mul_right size hbelow
    obtain ⟨k, hk⟩ := Nat.exists_eq_add_of_le hle
    have hfront : (data.take (slot * size) ++ row).length = (slot + 1) * size := by
      rw [List.length_append, hlength, hrow, hend]
    rw [← List.append_assoc, hk, ← hfront, List.drop_length_add_append, List.drop_drop]
  · -- the slot comes ahead of it
    have hle : (slot' + 1) * size ≤ slot * size := Nat.mul_le_mul_right size habove
    rw [Nat.succ_mul] at hle
    rw [List.drop_append_of_le_length (by omega), List.drop_take,
      List.take_append_of_le_length (by rw [List.length_take, List.length_drop]; omega), List.take_take,
      Nat.min_eq_left (by omega)]

end Written

theorem of_write? (h : page.write? slot row = some page') :
    row.length = config.rowSize ∧ page'.states = page.states ∧ page'.used = page.used := by
  unfold write? at h
  split at h
  · rename_i hfits
    cases h
    exact ⟨hfits.1, rfl, rfl⟩
  · cases h

/-- A write is found in the slot that it was made in, and in no other. -/
theorem bytes?_of_write? (h : page.write? slot row = some page') (slot' : Nat) :
    page'.bytes? slot' = if slot = slot' then some row else page.bytes? slot' := by
  unfold write? at h
  split at h
  · rename_i hfits
    cases h
    have hlength := length_written hfits.1 hfits.2
    unfold bytes?
    simp only [hlength]
    by_cases heq : slot = slot'
    · subst heq
      rw [if_pos rfl, if_pos hfits.2, take_drop_written hfits.1 hfits.2]
    · rw [if_neg heq, take_drop_written_of_ne hfits.1 hfits.2 heq]
  · cases h

theorem of_mark? (h : page.mark? slot state = some page') :
    page'.states = page.states.set slot state ∧ page'.data = page.data ∧ page'.used = page.used := by
  unfold mark? at h
  split at h
  · cases h
    exact ⟨rfl, rfl, rfl⟩
  · cases h

theorem fill?_eq_some (h : page.fill? slot row = some page') :
    ∃ written marked, page.write? slot row = some written ∧ written.mark? slot .used = some marked ∧
      page' = { marked with used := marked.used + 1 } := by
  unfold fill? at h
  obtain ⟨written, hwritten, hrest⟩ := Option.bind_eq_some_iff.mp h
  obtain ⟨marked, hmarked, hpage⟩ := Option.bind_eq_some_iff.mp hrest
  exact ⟨written, marked, hwritten, hmarked, (Option.some.inj hpage).symm⟩

theorem vacate?_eq_some (h : page.vacate? slot = some page') :
    ∃ marked, page.mark? slot .free = some marked ∧ page' = { marked with used := marked.used - 1 } := by
  unfold vacate? at h
  obtain ⟨marked, hmarked, hpage⟩ := Option.bind_eq_some_iff.mp h
  exact ⟨marked, hmarked, (Option.some.inj hpage).symm⟩

/-! ### Slots after a change -/

theorem content_congr (h : page'.bytes? slot = page.bytes? slot) :
    page'.content slot = page.content slot := by
  funext state
  cases state with
  | free => rfl
  | reserved => rfl
  | used => rw [content, content, h]

theorem bytes?_congr (h : page'.data = page.data) (slot : Nat) : page'.bytes? slot = page.bytes? slot := by
  rw [bytes?, bytes?, h]

/-- Whoever changes the state and the bytes of one slot at most changes the slots in one place. -/
theorem slots_eq_set (hstates : page'.states = page.states.set slot state)
    (hbytes : ∀ slot', slot ≠ slot' → page'.bytes? slot' = page.bytes? slot') :
    page'.slots = page.slots.set slot (page'.content slot state) := by
  apply List.ext_getElem?
  intro slot'
  rw [getElem?_slots, hstates, List.getElem?_set, List.getElem?_set]
  by_cases heq : slot = slot'
  · subst heq
    rw [if_pos rfl, if_pos rfl, page.length_slots, page.length_states]
    split <;> rfl
  · rw [if_neg heq, if_neg heq, getElem?_slots, content_congr (hbytes slot' heq)]

theorem slots_of_mark? (h : page.mark? slot state = some page') :
    page'.slots = page.slots.set slot (page.content slot state) := by
  obtain ⟨hstates, hdata, -⟩ := of_mark? h
  rw [slots_eq_set hstates fun slot' _ => bytes?_congr hdata slot', content_congr (bytes?_congr hdata slot)]

/-- A row that is written over another takes its place. -/
theorem slots_of_write? (h : page.write? slot row = some page') (hused : page.states[slot]? = some .used) :
    page'.slots = page.slots.set slot (.used row) := by
  have hstates : page'.states = page.states.set slot .used := by
    rw [(of_write? h).2.1]
    obtain ⟨hlt, hget⟩ := List.getElem?_eq_some_iff.mp hused
    rw [← hget, List.set_getElem_self]
  rw [slots_eq_set hstates fun slot' hne => by rw [bytes?_of_write? h, if_neg hne], content,
    bytes?_of_write? h, if_pos rfl, Option.getD_some]

theorem slots_of_fill? (h : page.fill? slot row = some page') :
    page'.slots = page.slots.set slot (.used row) := by
  obtain ⟨written, marked, hwritten, hmarked, rfl⟩ := fill?_eq_some h
  obtain ⟨hstates, hdata, -⟩ := of_mark? hmarked
  have hbytes : ∀ slot', marked.bytes? slot' = if slot = slot' then some row else page.bytes? slot' :=
    fun slot' => (bytes?_congr hdata slot').trans (bytes?_of_write? hwritten slot')
  have hset : marked.states = page.states.set slot .used := by
    rw [hstates, (of_write? hwritten).2.1]
  show marked.slots = _
  rw [slots_eq_set hset fun slot' hne => by rw [hbytes, if_neg hne], content, hbytes, if_pos rfl,
    Option.getD_some]

theorem slots_of_vacate? (h : page.vacate? slot = some page') :
    page'.slots = page.slots.set slot .free := by
  obtain ⟨marked, hmarked, rfl⟩ := vacate?_eq_some h
  exact slots_of_mark? hmarked

theorem slots_cancel (page : Page config) (slot : Nat) :
    (page.cancel slot).slots =
      if page.states[slot]? = some .reserved then page.slots.set slot .free else page.slots := by
  unfold cancel
  split
  · rename_i hreserved
    have hlt : slot < config.slotsPerPage := by
      rw [← page.length_states]
      exact (List.getElem?_eq_some_iff.mp hreserved).1
    obtain ⟨marked, hmarked⟩ := page.exists_mark? hlt .free
    rw [hmarked]
    exact slots_of_mark? hmarked
  · rfl

theorem slots_blank (config : HeapConfig) :
    (blank config).slots = List.replicate config.slotsPerPage .free := by
  apply List.ext_getElem?
  intro slot
  rw [getElem?_slots]
  simp only [blank, List.getElem?_replicate]
  split <;> rfl

/-- A slot holds a row if it is in use, and then the row is what the page has there. -/
theorem row?_eq (page : Page config) (slot : Nat) :
    page.row? slot = if page.states[slot]? = some .used then page.bytes? slot else none := by
  unfold row?
  rw [getElem?_slots]
  cases hstate : page.states[slot]? with
  | none => rfl
  | some state =>
    cases state with
    | free => rfl
    | reserved => rfl
    | used =>
      have hlt : slot < config.slotsPerPage := by
        rw [← page.length_states]
        exact (List.getElem?_eq_some_iff.mp hstate).1
      obtain ⟨row, hrow, -⟩ := page.exists_bytes? hlt
      simp [content, Slot.row?, hrow]

theorem states_eq_reserved_iff (page : Page config) (slot : Nat) :
    page.states[slot]? = some .reserved ↔ page.slots[slot]? = some .reserved := by
  rw [getElem?_slots]
  cases page.states[slot]? with
  | none => simp
  | some state => cases state <;> simp [content]

/-! ### The count of the used slots -/

/-- Whether a page counts its slots in use. -/
def Counted (page : Page config) : Prop := page.used = page.states.count .used

theorem Counted.blank (config : HeapConfig) : (blank config).Counted := by
  simp [Counted, Page.blank, List.count_replicate]

/-- A slot that is marked otherwise comes off the count of what it was, and adds to that of what it is. -/
theorem count_mark? {old : SlotState} (h : page.mark? slot state = some page')
    (hold : page.states[slot]? = some old) :
    page'.states.count .used + (if old = .used then 1 else 0) =
      page.states.count .used + (if state = .used then 1 else 0) := by
  obtain ⟨hlt, hget⟩ := List.getElem?_eq_some_iff.mp hold
  have hpos : old = .used → 0 < page.states.count .used := by
    rintro rfl
    exact List.count_pos_iff.mpr (List.mem_of_getElem? hold)
  rw [(of_mark? h).1, List.count_set hlt, hget]
  simp only [beq_iff_eq]
  by_cases hused : old = .used
  · have := hpos hused
    simp only [if_pos hused]
    omega
  · simp [hused]

theorem Counted.mark? {old : SlotState} (h : page.Counted) (hmark : page.mark? slot state = some page')
    (hold : page.states[slot]? = some old) (hunused : old ≠ .used) (hstate : state ≠ .used) :
    page'.Counted := by
  have hcount := count_mark? hmark hold
  rw [if_neg hunused, if_neg hstate, Nat.add_zero, Nat.add_zero] at hcount
  unfold Counted
  rw [(of_mark? hmark).2.2, hcount]
  exact h

theorem Counted.write? (h : page.Counted) (hwrite : page.write? slot row = some page') : page'.Counted := by
  obtain ⟨-, hstates, hused⟩ := of_write? hwrite
  unfold Counted
  rw [hstates, hused]
  exact h

theorem Counted.fill? {old : SlotState} (h : page.Counted) (hfill : page.fill? slot row = some page')
    (hold : page.states[slot]? = some old) (hunused : old ≠ .used) : page'.Counted := by
  obtain ⟨written, marked, hwritten, hmarked, rfl⟩ := fill?_eq_some hfill
  have hcount := count_mark? hmarked ((of_write? hwritten).2.1 ▸ hold)
  rw [if_neg hunused, if_pos rfl, Nat.add_zero] at hcount
  have hwrote : written.used = written.states.count .used := h.write? hwritten
  show marked.used + 1 = marked.states.count .used
  rw [(of_mark? hmarked).2.2, hcount, hwrote]

theorem Counted.vacate? (h : page.Counted) (hvacate : page.vacate? slot = some page')
    (hold : page.states[slot]? = some .used) : page'.Counted := by
  obtain ⟨marked, hmarked, rfl⟩ := vacate?_eq_some hvacate
  have hcount := count_mark? hmarked hold
  rw [if_pos rfl, if_neg (by decide), Nat.add_zero] at hcount
  have hpage : page.used = page.states.count .used := h
  show marked.used - 1 = marked.states.count .used
  rw [(of_mark? hmarked).2.2]
  omega

theorem Counted.cancel (h : page.Counted) (slot : Nat) : (page.cancel slot).Counted := by
  unfold Page.cancel
  split
  · rename_i hreserved
    cases hmark : page.mark? slot .free with
    | none => exact h
    | some marked => exact h.mark? hmark hreserved (by decide) (by decide)
  · exact h

end NoWait.Page
