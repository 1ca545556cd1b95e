import NoWait.Proofs.GapChecks
import NoWait.Proofs.Grants
import NoWait.Proofs.HeapCalls
import NoWait.Proofs.InStep

/-!
# Slots that others have locked

A slot for a new row is reserved so that positions which other transactions have locked are passed over.  The slots
of the pages that are there are asked one after another; the first slot of a page that is added is given out unasked.
So a slot that is to be skipped is given out in one case and in no other: when all other slots are taken or to be
skipped, too.

* `Heap.added?` is the slot that comes first on a page that is added, and `Heap.TakesSkipped` says that it is given
  out although it is to be skipped;
* `Heap.Reserved` is what a reservation changes, and `Heap.reserve_cases` says that there is nothing else;
* `Database.skips` are the positions that others than a transaction have locked, and `Database.lockRow_cases` says
  what becomes of a request for one;
* `Database.InsertOutcome` is what becomes of an insertion, and `Database.insert_reserves` says that it does;
* `reservation_exact` is the result.
-/

namespace NoWait

open Database

/-! ### The slot that is claimed -/

namespace Heap

variable {heap heap' : Heap} {skip : Rid → Bool} {place : Place}

/-- The slot that comes first on a page that is added to the heap, if a page can be added. -/
def added? (heap : Heap) : Option Place :=
  if heap.config.hasPages then some ⟨heap.pages.length, 0⟩ else none

/-- Whether a slot is given out although its position is to be skipped: no slot of the pages will do, and it comes
first on the page that is added. -/
structure TakesSkipped (heap : Heap) (skip : Rid → Bool) (place : Place) : Prop where
  full : heap.Full skip
  added : heap.added? = some place
  skipped : skip place.rid = true

/-- What it is to reserve a slot: it was free and is reserved from then on, the position of every free slot before
it is to be skipped, and its own is only if it is the first of a page that had to be added. -/
structure Reserved (heap : Heap) (skip : Rid → Bool) (place : Place) (heap' : Heap) : Prop where
  table : heap'.table = heap.table
  config : heap'.config = heap.config
  slot : place.slot < heap.config.slotsPerPage
  free : heap.contents place = .free
  contents : heap'.contents = Function.update heap.contents place .reserved
  first : ∀ place', place'.Before place → place'.slot < heap.config.slotsPerPage →
    heap.contents place' = .free → skip place'.rid = true
  skipped : ∀ place', heap.TakesSkipped skip place' ↔ place' = place ∧ skip place.rid = true

/-- A slot of a page that is there and holds nothing is free. -/
theorem slotAt?_eq_free (hpage : place.page < heap.pages.length) (hslot : place.slot < heap.config.slotsPerPage)
    (hfree : heap.contents place = .free) : heap.slotAt? place = some .free := by
  obtain ⟨content, hcontent⟩ := exists_slotAt? hpage hslot
  rw [contents_of_slotAt? hcontent] at hfree
  rw [hcontent, hfree]

/-- Marking the slot that is claimed is reserving it. -/
theorem Claims.reserved {claimed : Heap} (hclaims : Claims heap skip (.ok place, claimed))
    (hfree : claimed.slotAt? place = some .free) (hput : Put claimed place .reserved heap') :
    Reserved heap skip place heap' := by
  have hsame := hclaims.sameRows
  have hslot := slot_lt hfree
  rw [hsame.config] at hslot
  have hcontents : claimed.contents = heap.contents := by
    rcases hclaims.heap_eq with rfl | ⟨rfl, -⟩
    · rfl
    · exact contents_extend heap 1
  refine ⟨hput.table.trans hsame.table, hput.config.trans hsame.config, hslot, ?_, ?_, ?_, ?_⟩
  · rw [← hcontents]
    exact contents_of_slotAt? hfree
  · rw [hput.contents_eq (by simp [hfree]), hcontents]
  · -- What comes before is on the pages that are there, so the search has asked it.
    intro place' hbefore hslot' hnothing
    cases hclaims with
    | found hfree _ hfirst =>
      have hpage := page_lt hfree
      have hpage' : place'.page < heap.pages.length := by
        unfold Place.Before at hbefore
        omega
      exact hfirst place' hbefore (slotAt?_eq_free hpage' hslot' hnothing)
    | added _ hfull =>
      have hpage' : place'.page < heap.pages.length := by
        unfold Place.Before at hbefore
        simp only at hbefore
        omega
      exact hfull place' (slotAt?_eq_free hpage' hslot' hnothing)
  · intro place'
    cases hclaims with
    | found hfree hopen _ =>
      refine iff_of_false (fun htakes => ?_) (by simp [hopen])
      have hskip := htakes.full _ hfree
      rw [hopen] at hskip
      cases hskip
    | added hpages hfull =>
      have hadded : heap.added? = some ⟨heap.pages.length, 0⟩ := if_pos hpages
      constructor
      · intro htakes
        obtain rfl := Option.some.inj (hadded.symm.trans htakes.added)
        exact ⟨rfl, htakes.skipped⟩
      · rintro ⟨rfl, hskip⟩
        exact ⟨hfull, hadded, hskip⟩

/-- A reservation gives out the position of a slot that it reserves, unless no slot of the pages will do and no page
can be added. -/
theorem reserve_cases (hslots : 0 < heap.config.slotsPerPage) (skip : Rid → Bool) :
    (∃ place heap', heap.reserve skip = (.ok place.rid, heap') ∧ Reserved heap skip place heap') ∨
    (heap.Full skip ∧ heap.added? = none ∧ heap.reserve skip = (.error .noSlot, heap)) := by
  have hreserves : Reserves (fun _ => true) heap skip (heap.reserve skip) :=
    reserves_reserveIf (fun _ => true) heap skip
  generalize heap.reserve skip = reserved at hreserves ⊢
  cases hreserves with
  | marked hclaims hfree _ hput => exact .inl ⟨_, _, rfl, hclaims.reserved hfree hput⟩
  | unmarked _ _ hmarks => cases hmarks
  | none hclaims hnone hfull =>
    have hpages : heap.config.hasPages = false := by simpa [HeapConfig.hasSlots, hslots] using hnone
    have hadded : heap.added? = none := by simp [added?, hpages]
    rcases hclaims.heap_eq with rfl | ⟨-, hsome⟩
    · exact .inr ⟨hfull, hadded, rfl⟩
    · rw [hpages] at hsome
      cases hsome

/-- Whether a slot is marked or not, the same is answered. -/
theorem reserveNamed_fst (heap : Heap) (skip : Rid → Bool) : (heap.reserveNamed skip).1 = (heap.reserve skip).1 := by
  unfold reserveNamed reserve reserveIf
  rcases heap.claim skip with ⟨_ | place, claimed⟩
  · rfl
  · dsimp only
    split <;> rfl

/-- What is reserved under a position that names another slot is of no use: that slot has a row. -/
theorem Reserved.exists_row (hreserved : Reserved heap skip place heap') (h : heap.Unreserved)
    (hnamed : place.isNamed = false) (hskip : skip place.rid = false) : ∃ row, heap.row? place.rid = some row := by
  have hslot : place.rid.place.slot < heap.config.slotsPerPage :=
    Nat.lt_of_le_of_lt place.place_rid_le.2 hreserved.slot
  cases hcontents : heap.contents place.rid.place with
  | free =>
    have hpassed := hreserved.first _ (Place.before_of_not_isNamed hnamed) hslot hcontents
    rw [Rid.rid_place, hskip] at hpassed
    cases hpassed
  | reserved => exact absurd (slotAt?_of_contents hcontents nofun) (h _)
  | used row =>
    refine ⟨row, ?_⟩
    rw [← row?_contents, hcontents]
    rfl

end Heap

/-! ### Locks of others -/

namespace LockTable

variable {locks : LockTable} {txn : TxnId} {resource : Resource}

/-- An exclusive lock goes with no lock of another transaction. -/
theorem admits_exclusive_iff :
    locks.Admits txn resource .exclusive ↔ locks.lockedByOther txn resource = false := by
  have hexclusive : locks.strengthened txn resource .exclusive = .exclusive := by
    unfold strengthened
    cases locks.heldMode txn resource with
    | none => rfl
    | some held => cases held <;> rfl
  have hnone : ∀ mode : Mode, mode.compatible .exclusive = false := by
    intro mode
    cases mode <;> rfl
  rw [Admits, hexclusive, others_admits_iff, lockedByOther, Queue.hasOther, List.any_eq_false]
  simp [hnone, requests]

end LockTable

namespace Database

variable {h : Handle} {db mid db' : Database} {name : String} {table : Table} {rid : Rid} {row : Bytes}
  {resource r : Resource} {mode : Mode}

/-- The positions of a table that are to be skipped for a transaction: others have locked them. -/
def skips (db : Database) (h : Handle) (table : TableId) (rid : Rid) : Bool :=
  db.locks.lockedByOther (db.txn h).id (.record table rid)

/-- How a transaction is refused the position of a row. -/
def refusedRow (db : Database) (h : Handle) (table : TableId) (rid : Rid) : StatementError :=
  .transaction (.aborted (db.txn h).id (db.locks.refusal (db.txn h).id (.record table rid)))

/-- A grant on one resource leaves the others' locks on another one alone. -/
theorem Took.lockedByOther_eq (htook : Took h resource mode db mid) (hne : resource ≠ r) :
    mid.locks.lockedByOther (db.txn h).id r = db.locks.lockedByOther (db.txn h).id r := by
  have hadmits := htook.admits_iff hne .exclusive
  rw [LockTable.admits_exclusive_iff, LockTable.admits_exclusive_iff] at hadmits
  rwa [← Bool.not_inj_iff, Bool.eq_iff_iff, Bool.not_eq_true', Bool.not_eq_true']

/-- A grant on a table leaves the positions as they are that are to be skipped. -/
theorem Took.skips_eq (htook : Took h (.table table.id) mode db mid) :
    mid.skips h table.id = db.skips h table.id := by
  funext rid
  rw [skips, skips, htook.id]
  exact htook.lockedByOther_eq (by simp)

/-- So it does with the way in which a position is refused. -/
theorem Took.refusedRow_eq (htook : Took h (.table table.id) mode db mid) :
    mid.refusedRow h table.id rid = db.refusedRow h table.id rid := by
  have hheld := htook.modes (.record table.id rid)
  rw [if_neg (by simp)] at hheld
  rw [refusedRow, refusedRow, htook.id, LockTable.refusal, LockTable.refusal, hheld]

/-- Whether a transaction has announced on a table that it writes parts of it. -/
structure Announces (db : Database) (h : Handle) (table : TableId) : Prop where
  sound : db.locks.Sound
  complete : db.LockSetComplete h
  active : db.isActive h = true
  held : ∃ held, db.locks.heldMode (db.txn h).id (.table table) = some held ∧
    held.covers .intentionExclusive = true

/-- A transaction that has announced it gets the position of a row exclusively if and only if no other has locked
it. -/
theorem lockRow_cases (hannounces : db.Announces h table.id) (hget : db.catalog.get? name = some table)
    (rid : Rid) :
    (db.skips h table.id rid = false ∧ ∃ db', lockRow h name rid .exclusive db = .ok () db') ∨
    (db.skips h table.id rid = true ∧ ∃ db',
      lockRow h name rid .exclusive db = .error (db.refusedRow h table.id rid) db') := by
  obtain ⟨held, hheld, hcovers⟩ := hannounces.held
  -- The intention on the table is held already, so that only the request for the record is left.
  have hacquire : acquire h (.record table.id rid) .exclusive db =
      lockResource h (.record table.id rid) .exclusive db := by
    have htable : acquire h (.table table.id) Mode.exclusive.intention db = .ok () db := by
      rw [acquire_table_eq hannounces.active]
      exact lockResource_eq_self hheld hcovers
    rw [acquire_record_eq hannounces.active table.id rid (.inr rfl), htable]
  have hlock : lockRow h name rid .exclusive db =
      (acquire h (.record table.id rid) .exclusive).mapError StatementError.transaction db := by
    obtain ⟨_, _, htable, rfl, rfl⟩ := Action.succeeds_iff.mp (table_succeeds hget)
    exact Action.bind_eq_of_ok htable
  rw [hlock]
  unfold Action.mapError EStateM.adaptExcept
  rw [hacquire]
  obtain ⟨hadmits, db', hrun, -⟩ | ⟨hadmits, hrun⟩ := lockResource_cases hannounces.sound hannounces.complete
    (lt_of_isActive hannounces.active) (.record table.id rid) .exclusive
  · rw [LockTable.admits_exclusive_iff] at hadmits
    exact .inl ⟨hadmits, db', by rw [hrun]⟩
  · rw [LockTable.admits_exclusive_iff, Bool.not_eq_false] at hadmits
    exact .inr ⟨hadmits, db.setState h .aborted, by rw [hrun]; rfl⟩

/-! ### Insertions -/

/-- What becomes of an insertion whose lock on the table is granted and whose key is in nobody's gap. -/
inductive InsertOutcome (db : Database) (h : Handle) (table : Table) : Except StatementError Rid → Prop where
  /-- The row stands in the first free slot that nobody else has locked. -/
  | inserted {rid : Rid} {heap' : Heap} (hreserve : table.heap.reserve (db.skips h table.id) = (.ok rid, heap'))
      (hreserved : table.heap.Reserved (db.skips h table.id) rid.place heap')
      (hfree : db.skips h table.id rid = false) : InsertOutcome db h table (.ok rid)
  /-- The first slot of an added page was reserved, and others have locked its position. -/
  | refused {place : Place} (htakes : table.heap.TakesSkipped (db.skips h table.id) place) :
      InsertOutcome db h table (.error (db.refusedRow h table.id place.rid))
  | failed {error : StatementError} (hfree : ∀ place, ¬ table.heap.TakesSkipped (db.skips h table.id) place)
      (herror : error.IsNoRefusal) : InsertOutcome db h table (.error error)

/-- An insertion is refused for a slot that others have locked, and for nothing else. -/
theorem InsertOutcome.refused_iff {result : Except StatementError Rid} (houtcome : InsertOutcome db h table result)
    (reason : AbortReason) :
    result = .error (.transaction (.aborted (db.txn h).id reason)) ↔
      ∃ place, table.heap.TakesSkipped (db.skips h table.id) place ∧
        reason = db.locks.refusal (db.txn h).id (.record table.id place.rid) := by
  cases houtcome with
  | inserted _ hreserved hfree =>
    refine iff_of_false nofun ?_
    rintro ⟨place', htakes, -⟩
    have hskip := ((hreserved.skipped place').mp htakes).2
    rw [Rid.rid_place, hfree] at hskip
    cases hskip
  | refused htakes =>
    constructor
    · intro heq
      cases heq
      exact ⟨_, htakes, rfl⟩
    · rintro ⟨place', htakes', rfl⟩
      rw [Option.some.inj (htakes.added.symm.trans htakes'.added), refusedRow]
  | failed hfree herror =>
    constructor
    · intro heq
      cases heq
      cases herror
    · rintro ⟨place, htakes, -⟩
      exact absurd htakes (hfree place)

/-- The reservation for a row to come passes over what others have locked, unless it adds a page. -/
theorem reserveSlot_reserves (hget : db.catalog.get? name = some table) (hname : table.name = name)
    (hslots : 0 < table.heap.config.slotsPerPage) :
    (reserveSlot h name).Ends db
      (fun rid db' => ∃ place heap' table', place.rid = rid ∧
        table.heap.reserve (db.skips h table.id) = (.ok rid, heap') ∧
        table.heap.Reserved (db.skips h table.id) place heap' ∧ Heap.SameRows table.heap table'.heap ∧
        db' = db.putTable table' ∧ db'.catalog.get? name = some table')
      fun error _ => error.IsNoRefusal ∧ table.heap.added? = none := by
  refine (table_succeeds hget).bind_ends ?_
  intro found db' hfound
  obtain ⟨rfl, rfl⟩ := hfound
  simp only [Action.ends_bind, Action.ends_get]
  obtain ⟨hsame, -, -⟩ := found.heap.reserveNamed_spec (db'.skips h found.id)
  have hanswer := found.heap.reserveNamed_fst (db'.skips h found.id)
  obtain ⟨place, heap', hreserve, hreserved⟩ | ⟨-, hadded, hreserve⟩ :=
    found.heap.reserve_cases hslots (db'.skips h found.id)
  · rw [hreserve] at hanswer
    unfold skips at hanswer hsame
    rw [hanswer]
    refine ⟨place, heap', { found with heap := _ }, rfl, hreserve, hreserved, hsame, rfl, ?_⟩
    show (db'.catalog.put _).get? name = _
    rw [Catalog.get?_put, if_pos hname]
  · rw [hreserve] at hanswer
    unfold skips at hanswer
    rw [hanswer]
    exact ⟨rfl, hadded⟩

/-- A row is written into a slot that has none if nobody else has locked that; if somebody has, and for no other
reason, the insertion is refused. -/
theorem fillSlot_cases (hannounces : db.Announces h table.id) (hget : db.catalog.get? name = some table)
    (rid : Rid) (row : Bytes) :
    (fillSlot h name rid row).Ends db (fun _ _ => db.skips h table.id rid = false ∧ table.heap.row? rid = none)
      fun error _ => (db.skips h table.id rid = true ∧ error = db.refusedRow h table.id rid) ∨
        (db.skips h table.id rid = false ∧ error.IsNoRefusal) := by
  have hcases : (fillSlot h name rid row).Ends db (fun _ _ => db.skips h table.id rid = false)
      fun error _ => (db.skips h table.id rid = true ∧ error = db.refusedRow h table.id rid) ∨
        (db.skips h table.id rid = false ∧ error.IsNoRefusal) := by
    simp only [fillSlot, Action.ends_onFailure, Action.ends_bind]
    obtain ⟨hfree, db', hrun⟩ | ⟨htaken, db', hrun⟩ := lockRow_cases hannounces hget rid
    · rw [Action.Ends, hrun]
      exact (onTable_unrefused name _ db').mono (fun _ _ _ => hfree) fun _ _ herror => .inr ⟨hfree, herror⟩
    · rw [Action.Ends, hrun]
      exact .inl ⟨htaken, rfl⟩
  refine (hcases.and (fillSlot_ends h hget)).mono ?_ fun _ _ hended => hended.1
  rintro _ _ ⟨hfree, mid, table', _, hgranted, hget', hplace, -, -⟩
  obtain rfl : table = table' := Option.some.inj ((hgranted.catalog ▸ hget).symm.trans hget')
  exact ⟨hfree, (Table.of_placeRow_eq_ok hplace).2⟩

/-- Behind its lock and its check an insertion is refused for the slot that it reserves and for nothing else. -/
theorem place_ends (hannounces : db.Announces h table.id) (hget : db.catalog.get? name = some table)
    (hname : table.name = name) (hslots : 0 < table.heap.config.slotsPerPage)
    (hunreserved : table.heap.Unreserved) (row : Bytes) :
    (do
      let rid ← reserveSlot h name
      fillSlot h name rid row
      enterWrite h { kind := .insert, table := name, rid } (some row)
      return rid : Action StatementError Rid).Ends db
      (fun rid _ => InsertOutcome db h table (.ok rid)) fun error _ => InsertOutcome db h table (.error error) := by
  rw [Action.ends_bind]
  apply (reserveSlot_reserves hget hname hslots).mono
  · rintro _ mid ⟨place, heap', table', rfl, hreserve, hreserved, hsame, rfl, hget'⟩
    have hid : table'.id = table.id := hsame.table
    -- Nobody takes a slot that is free to him for one that is to be skipped.
    have hnone : db.skips h table.id place.rid = false →
        ∀ place', ¬ table.heap.TakesSkipped (db.skips h table.id) place' := by
      intro hfree place' htakes
      have hskip := ((hreserved.skipped place').mp htakes).2
      rw [hfree] at hskip
      cases hskip
    -- What is reserved in the heap changes no lock.
    have hannounces' : (db.putTable table').Announces h table'.id := by
      rw [hid]
      exact ⟨hannounces.sound, hannounces.complete, hannounces.active, hannounces.held⟩
    have hfill := fillSlot_cases hannounces' hget' place.rid row
    rw [hid] at hfill
    rw [Action.ends_bind]
    apply hfill.mono
    · rintro _ last ⟨hfree, hrow⟩
      have hnamed : place.isNamed = true := by
        by_contra hnot
        obtain ⟨old, hold⟩ := hreserved.exists_row hunreserved (by simpa using hnot) hfree
        rw [hsame.rows, hold] at hrow
        cases hrow
      rw [Action.ends_bind]
      apply (enterWrite_unrefused h _ _ last).mono
      · intro _ _ _
        exact .inserted hreserve (by rwa [Place.place_rid_of_isNamed hnamed]) hfree
      · intro error _ herror
        exact .failed (hnone hfree) herror
    · intro error _ hended
      obtain ⟨htaken, rfl⟩ | ⟨hfree, herror⟩ := hended
      · exact .refused ((hreserved.skipped place).mpr ⟨rfl, htaken⟩)
      · exact .failed (hnone hfree) herror
  · intro error _ hfull
    refine .failed ?_ hfull.1
    intro place htakes
    have hadded := htakes.added
    rw [hfull.2] at hadded
    cases hadded

/-- Getting the intention on a table is announcing it. -/
theorem Took.announces {id : TableId} (hs : db.locks.Sound) (hcomplete : db.LockSetComplete h)
    (hgranted : Granted h db mid) (htook : Took h (.table id) .intentionExclusive db mid) :
    mid.Announces h id where
  sound := hgranted.locks hs
  complete := htook.lockSetComplete hcomplete
  active := hgranted.active
  held := by
    have hheld := htook.modes (.table id)
    rw [if_pos rfl, ← htook.id] at hheld
    exact ⟨_, hheld, LockTable.covers_strengthened⟩

/-- What is said behind the grant of the table may be said before it. -/
theorem Took.insertOutcome {result : Except StatementError Rid} (htook : Took h (.table table.id) mode db mid)
    (houtcome : InsertOutcome mid h table result) : InsertOutcome db h table result := by
  have hskips := htook.skips_eq
  cases houtcome with
  | inserted hreserve hreserved hfree =>
    rw [hskips] at hreserve hreserved hfree
    exact .inserted hreserve hreserved hfree
  | refused htakes =>
    rw [hskips] at htakes
    rw [htook.refusedRow_eq]
    exact .refused htakes
  | failed hfree herror =>
    rw [hskips] at hfree
    exact .failed hfree herror

/-- An insertion that gets its lock on the table, and whose key is in nobody's gap, is refused if and only if the
slot that it reserves is locked by others, which is so only for the first slot of a page that had to be added. -/
theorem insert_reserves (hs : db.locks.Sound) (hcomplete : db.LockSetComplete h)
    (hget : db.catalog.get? name = some table) (hname : table.name = name)
    (hslots : 0 < table.heap.config.slotsPerPage) (hunreserved : table.heap.Unreserved)
    (htable : acquire h (.table table.id) .intentionExclusive db = .ok () mid)
    (hfree : ¬ db.Blocked h table.id (table.keyOf? row)) :
    (insert h name row).Ends db (fun rid _ => InsertOutcome db h table (.ok rid))
      fun error _ => InsertOutcome db h table (.error error) := by
  have hended := acquire_ends h (.table table.id) .intentionExclusive db
  rw [Action.Ends, htable] at hended
  obtain ⟨hactive, hgranted, -⟩ := hended
  have htook : Took h (.table table.id) .intentionExclusive db mid := by
    obtain ⟨-, db', hrun, htook⟩ | ⟨-, hrun⟩ :=
      acquire_table_cases hs hcomplete hactive table.id .intentionExclusive
    · cases htable.symm.trans hrun
      exact htook
    · cases htable.symm.trans hrun
  have hmid : mid.catalog.get? name = some table := by rw [hgranted.catalog, hget]
  have hgap : ∀ key, table.keyOf? row = some key →
      mid.gaps.blocks (mid.txn h).id table.id (.before key) = false := by
    intro key hkey
    rw [hgranted.id, hgranted.blocks_eq, Bool.eq_false_iff]
    exact fun hblocks => hfree ⟨key, hkey, hblocks⟩
  have hannounces := htook.announces hs hcomplete hgranted
  have hlocked : (acquire h (.table table.id) .intentionExclusive).Succeeds db fun _ db' => db' = mid :=
    Action.succeeds_iff.mpr ⟨(), mid, htable, rfl⟩
  unfold insert
  refine (table_succeeds hget).bind_ends ?_
  rintro _ _ ⟨rfl, rfl⟩
  refine (hlocked.mapError _).bind_ends ?_
  rintro _ _ rfl
  refine checkKey_of_free hannounces.active hgap ?_
  exact (place_ends hannounces hmid hname hslots hunreserved row).mono (fun _ _ => htook.insertOutcome)
    fun _ _ => htook.insertOutcome

end Database

/-! ### Calls -/

variable {start s : Session} {trace : List Event} {h : Handle} {name : String} {table : Table} {row : Bytes}

/-- What becomes of the call for an insertion whose lock on the table is granted and whose key is in nobody's gap. -/
theorem Session.step_insert_outcome (hl : s.db.LocksExact) (hs : s.db.catalog.InStep)
    (hget : s.db.catalog.get? name = some table) (hslots : 0 < table.heap.config.slotsPerPage)
    (hgranted : (s.step (.run h (.acquire (.table table.id) .intentionExclusive))).1 = .ok .done)
    (hfree : ¬ s.db.Blocked h table.id (table.keyOf? row)) :
    ∃ result, InsertOutcome s.db h table result ∧
      (s.step (.run h (.insert name row))).1 = result.map .position := by
  obtain ⟨mid, htable⟩ := run_acquire_iff.mp hgranted
  have hactive : s.db.isActive h = true := by
    have hended := acquire_ends h (.table table.id) .intentionExclusive s.db
    rw [Action.Ends, htable] at hended
    exact hended.1
  have hcomplete : s.db.LockSetComplete h := (hl.exact h (lt_of_isActive hactive)).complete
  have hends := insert_reserves hl.sound hcomplete hget (hs.name _ _ hget) hslots
    (hs.table _ _ hget).unreserved htable hfree
  apply act_spec (P := fun answer _ => ∃ result, InsertOutcome s.db h table result ∧ answer = result.map .position)
  rw [Statement.perform, Action.ends_bind]
  apply hends.mono
  · intro rid _ houtcome
    exact ⟨.ok rid, houtcome, rfl⟩
  · intro error _ houtcome
    exact ⟨.error error, houtcome, rfl⟩

/-- A reservation gives out the position of the first free slot whose position is not to be skipped.  If no slot of
the pages will do, it gives out that of the first slot of a page that is added, whether that is to be skipped or not,
or none if there can be no such page.  So in every state that transactions with numbers of their own can bring the
locks to, an insertion that gets its lock on the table, and whose key is in nobody's gap, goes to the first free slot
that nobody else has locked, and is refused if and only if it has to add a page whose first slot others have locked. -/
theorem reservation_exact (hrun : Run start trace s) (hfresh : start.IsFresh)
    (hcatalog : start.db.catalog.InStep) (hids : s.db.DistinctIds) :
    (∀ (heap : Heap) (skip : Rid → Bool), 0 < heap.config.slotsPerPage →
      (∃ place heap', heap.reserve skip = (.ok place.rid, heap') ∧ heap.Reserved skip place heap') ∨
      (heap.Full skip ∧ heap.added? = none ∧ heap.reserve skip = (.error .noSlot, heap))) ∧
    ∀ (h : Handle) (name : String) (table : Table) (row : Bytes), s.db.catalog.get? name = some table →
      0 < table.heap.config.slotsPerPage →
      (s.step (.run h (.acquire (.table table.id) .intentionExclusive))).1 = .ok .done →
      ¬ s.db.Blocked h table.id (table.keyOf? row) →
      (∀ rid, (s.step (.run h (.insert name row))).1 = .ok (.position rid) →
        (∃ heap', table.heap.reserve (s.db.skips h table.id) = (.ok rid, heap') ∧
          table.heap.Reserved (s.db.skips h table.id) rid.place heap') ∧
        s.db.skips h table.id rid = false) ∧
      ∀ reason, (s.step (.run h (.insert name row))).1 =
          .error (.transaction (.aborted (s.db.txn h).id reason)) ↔
        ∃ place, table.heap.TakesSkipped (s.db.skips h table.id) place ∧
          reason = s.db.locks.refusal (s.db.txn h).id (.record table.id place.rid) := by
  refine ⟨fun heap skip hslots => heap.reserve_cases hslots skip, ?_⟩
  intro h name table row hget hslots hgranted hfree
  obtain ⟨result, houtcome, hanswer⟩ := Session.step_insert_outcome (hrun.locksExact hfresh hids)
    (hrun.inStep hcatalog) hget hslots hgranted hfree
  rw [hanswer]
  constructor
  · intro rid hposition
    cases houtcome with
    | inserted hreserve hreserved hfree =>
      cases hposition
      exact ⟨⟨_, hreserve, hreserved⟩, hfree⟩
    | refused htakes => cases hposition
    | failed hfree herror => cases hposition
  · intro reason
    rw [← houtcome.refused_iff]
    cases result with
    | ok rid => exact iff_of_false nofun nofun
    | error error =>
      show Except.error error = _ ↔ _
      rw [Except.error.injEq, Except.error.injEq]

/-- A transaction has read a position on a page that is not there yet, and another one inserts the first row: that
takes the position, and the other transaction is aborted for it. -/
theorem reservation_exact_fresh_page :
    let s := Session.oneTable.play [.begin, .begin, .run 0 (.read "t" ⟨0, 0⟩)]
    s.db.DistinctIds ∧
      (s.step (.run 1 (.acquire (.table 1) .intentionExclusive))).1 = .ok .done ∧
      (∃ table, s.db.catalog.get? "t" = some table ∧ ¬ s.db.Blocked 1 table.id (table.keyOf? [5]) ∧
        table.heap.TakesSkipped (s.db.skips 1 table.id) ⟨0, 0⟩) ∧
      (s.step (.run 1 (.insert "t" [5]))).1 = .error (.transaction (.aborted 2 .deadlockPrevention)) := by
  intro s
  have hids : s.db.DistinctIds := by decide +kernel
  have hgranted : (s.step (.run 1 (.acquire (.table 1) .intentionExclusive))).1 = .ok .done := by decide +kernel
  have hget : s.db.catalog.get? "t" = some
      { name := "t", heap := { table := 1, config := ⟨1, 2⟩ }, index := some { offset := 0, length := 1 } } := by
    decide +kernel
  have hfree : ∀ key?, ¬ s.db.Blocked 1 1 key? := by
    rintro key? ⟨key, -, hblocks⟩
    have hgaps : s.db.gaps.entries = [] := by decide +kernel
    obtain ⟨gap, hmem, -⟩ := GapTable.blocks_iff.mp hblocks
    rw [hgaps] at hmem
    cases hmem
  have htakes : Heap.TakesSkipped { table := 1, config := ⟨1, 2⟩ } (s.db.skips 1 1) ⟨0, 0⟩ := by
    refine ⟨?_, by decide +kernel, by decide +kernel⟩
    intro place hslot
    exact absurd rfl (Heap.pages_ne_nil_of_slotAt? hslot)
  have hid : (s.db.txn 1).id = 2 := by decide +kernel
  obtain ⟨-, hinsert⟩ := reservation_exact (.of_calls _ _) Session.oneTable_isFresh Session.oneTable_inStep hids
  obtain ⟨-, hrefused⟩ := hinsert 1 "t" _ [5] hget (by decide) hgranted (hfree _)
  refine ⟨hids, hgranted, ⟨_, hget, hfree _, htakes⟩, ?_⟩
  rw [← hid, hrefused .deadlockPrevention]
  exact ⟨⟨0, 0⟩, htakes, by decide +kernel⟩

/-- The first slot of a page that is added is given out although the filter rejects it and accepts the next one. -/
theorem skipped_slot_reserved :
    let heap : Heap := { table := 1, config := ⟨1, 2⟩ }
    let skip : Rid → Bool := fun rid => rid = ⟨0, 0⟩
    let s := Session.oneTable.play [.begin, .begin, .run 0 (.read "t" ⟨0, 0⟩)]
    skip ⟨0, 0⟩ = true ∧ skip ⟨0, 1⟩ = false ∧ (heap.reserve skip).1 = .ok ⟨0, 0⟩ ∧
      (s.step (.run 1 (.acquire (.table 1) .intentionExclusive))).1 = .ok .done ∧ s.db.gaps.entries = [] ∧
      (s.step (.run 1 (.insert "t" [5]))).1 = .error (.transaction (.aborted 2 .deadlockPrevention)) := by
  decide +kernel

end NoWait
