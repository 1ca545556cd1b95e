import Mathlib.Data.List.Perm.Basic
import NoWait.Proofs.Grants

/-!
# The order of granted requests does not matter

Requests that are all granted one after another leave each transaction with the join of all that it has asked
for.  These joins go together, so whatever is held on the way in another order goes together, too: nobody is
ever refused for holding less.

* `LockTable.Covers` asks whether a transaction holds a mode or a stronger one, `LockTable.Below` whether
  everybody holds at most what he holds in another table, and `LockTable.Below.admits` is the argument;
* `acquireAll` makes requests one after another; `acquireAll_ok` says what requests leave that are granted, and
  `acquireAll_below` that they are granted under any table in which they are all met;
* `acquireAll_perm` is the result.
-/

namespace NoWait

/-! ### Modes as an order -/

namespace Mode

variable {a b c : Mode}

theorem covers_iff : a.covers b = true ↔ a.join b = a := by
  simp [covers]

theorem covers_antisymm (h : a.covers b = true) (h' : b.covers a = true) : a = b := by
  rw [covers_iff] at h h'
  rw [← h, join_comm, h']

theorem covers_join (h : c.covers a = true) (h' : c.covers b = true) : c.covers (a.join b) = true := by
  rw [covers_iff] at h h' ⊢
  rw [← join_assoc, h, h']

/-- What goes with a mode goes with every weaker one. -/
theorem compatible_of_covers (h : a.compatible c = true) (hcovers : a.covers b = true) :
    b.compatible c = true := by
  rw [← covers_iff.mp hcovers, join_compatible, Bool.and_eq_true] at h
  exact h.2

end Mode

namespace LockTable

variable {locks mid top : LockTable} {txn : TxnId} {resource r : Resource} {mode held : Mode}

/-! ### Who holds no more -/

/-- Whether a transaction holds a mode on a resource, or a stronger one. -/
def Covers (locks : LockTable) (txn : TxnId) (resource : Resource) (mode : Mode) : Prop :=
  ∃ held, locks.heldMode txn resource = some held ∧ held.covers mode = true

/-- Whether every transaction holds on every resource at most what it holds there in another table. -/
def Below (locks top : LockTable) : Prop :=
  ∀ txn resource held, locks.heldMode txn resource = some held → top.Covers txn resource held

theorem Below.refl (locks : LockTable) : locks.Below locks :=
  fun _ _ held hheld => ⟨held, hheld, Mode.covers_self held⟩

theorem Below.covers (hbelow : locks.Below top) (hcovers : locks.Covers txn resource mode) :
    top.Covers txn resource mode := by
  obtain ⟨held, hheld, hcovers⟩ := hcovers
  obtain ⟨most, hmost, hcovers'⟩ := hbelow txn resource held hheld
  exact ⟨most, hmost, Mode.covers_trans hcovers' hcovers⟩

theorem Below.trans (hbelow : locks.Below mid) (hbelow' : mid.Below top) : locks.Below top :=
  fun txn resource held hheld => hbelow'.covers (hbelow txn resource held hheld)

theorem Below.heldMode_eq (hbelow : locks.Below top) (hbelow' : top.Below locks) (txn : TxnId)
    (resource : Resource) : locks.heldMode txn resource = top.heldMode txn resource := by
  cases hheld : locks.heldMode txn resource with
  | none =>
    rw [eq_comm, Option.eq_none_iff_forall_ne_some]
    intro most hmost
    obtain ⟨held, hsome, -⟩ := hbelow' txn resource most hmost
    rw [hheld] at hsome
    cases hsome
  | some held =>
    obtain ⟨most, hmost, hcovers⟩ := hbelow txn resource held hheld
    obtain ⟨held', hheld', hcovers'⟩ := hbelow' txn resource most hmost
    obtain rfl : held = held' := Option.some.inj (hheld.symm.trans hheld')
    rw [hmost, Mode.covers_antisymm hcovers' hcovers]

/-- What a transaction would hold is no more than what it holds above. -/
theorem Below.strengthened (hbelow : locks.Below top) (hcovers : top.Covers txn resource mode) :
    top.Covers txn resource (locks.strengthened txn resource mode) := by
  unfold LockTable.strengthened
  cases hheld : locks.heldMode txn resource with
  | none => exact hcovers
  | some held =>
    obtain ⟨most, hmost, hmode⟩ := hcovers
    obtain ⟨most', hmost', hmode'⟩ := hbelow txn resource held hheld
    obtain rfl : most = most' := Option.some.inj (hmost.symm.trans hmost')
    exact ⟨most, hmost, Mode.covers_join hmode' hmode⟩

theorem Sound.heldMode_of_mem (h : locks.Sound) {request : Request}
    (hmem : request ∈ locks.requests resource) : locks.heldMode request.txn resource = some request.mode := by
  cases hheld : locks.heldMode request.txn resource with
  | none => exact absurd rfl (Queue.heldMode_eq_none_iff.mp hheld request hmem)
  | some held =>
    obtain ⟨request', hmem', htxn, rfl⟩ := Queue.exists_of_heldMode hheld
    rw [List.inj_on_of_nodup_map (h.queue resource).once hmem' hmem htxn]

/-- Where nobody holds more than in a sound table, whatever is met there is admitted. -/
theorem Below.admits (hbelow : locks.Below top) (hs : locks.Sound) (htop : top.Sound)
    (hcovers : top.Covers txn resource mode) : locks.Admits txn resource mode := by
  refine others_admits_iff.mpr fun request hmem hne => ?_
  obtain ⟨most, hmost, hmode⟩ := hbelow.strengthened hcovers
  obtain ⟨most', hmost', hmode'⟩ := hbelow request.txn resource request.mode (hs.heldMode_of_mem hmem)
  -- The two are compatible at the top, and compatibility goes down on either side.
  have hcompatible : most'.compatible most = true := htop.compatible hmost' hmost hne
  have hleft : request.mode.compatible most = true := Mode.compatible_of_covers hcompatible hmode'
  rw [Mode.compatible_comm] at hleft ⊢
  exact Mode.compatible_of_covers hleft hmode

/-! ### Tables with the same modes -/

theorem Sound.mem_requests_iff (h : locks.Sound) {request : Request} : request ∈ locks.requests resource ↔
    locks.heldMode request.txn resource = some request.mode ∧ request.granted = true := by
  refine ⟨fun hmem => ⟨h.heldMode_of_mem hmem, (h.queue resource).granted request hmem⟩, ?_⟩
  rintro ⟨hheld, hgranted⟩
  obtain ⟨request', hmem, htxn, hmode⟩ := Queue.exists_of_heldMode hheld
  have hgranted' := (h.queue resource).granted request' hmem
  cases request
  cases request'
  simp_all [requests]

/-- Sound tables in which everybody holds the same have the same requests. -/
theorem Sound.perm_requests (h : locks.Sound) (htop : top.Sound)
    (hheld : ∀ txn, locks.heldMode txn resource = top.heldMode txn resource) :
    (locks.requests resource).Perm (top.requests resource) := by
  refine (List.perm_ext_iff_of_nodup (h.queue resource).once.of_map (htop.queue resource).once.of_map).mpr
    fun request => ?_
  show request ∈ locks.requests resource ↔ request ∈ top.requests resource
  rw [h.mem_requests_iff, htop.mem_requests_iff, hheld]

theorem Sound.mem_queues_iff (h : locks.Sound) : resource ∈ locks.queues ↔ locks.requests resource ≠ [] := by
  rw [Std.ExtTreeMap.mem_iff_isSome_getElem?, requests, LockTable.queue]
  cases hqueue : locks.queues[resource]? with
  | none => simp
  | some queue => simpa using h.nonempty resource queue hqueue

end LockTable

/-- The join of several modes does not depend on their order. -/
theorem Mode.joinAll_perm {modes modes' : List Mode} (hperm : modes.Perm modes') :
    joinAll modes = joinAll modes' := by
  refine hperm.foldl_eq' (fun a _ b _ group => ?_) none
  cases group with
  | none => simp [GroupMode.join, join_comm]
  | some held => simp [GroupMode.join, join_assoc, join_comm a b]

theorem LockTable.Sound.groupMode_eq_of_perm {locks top : LockTable} {resource : Resource} (h : locks.Sound)
    (htop : top.Sound) (hperm : (locks.requests resource).Perm (top.requests resource)) :
    locks.groupMode resource = top.groupMode resource := by
  rw [groupMode, groupMode, (h.queue resource).group_eq, (htop.queue resource).group_eq]
  exact Mode.joinAll_perm (hperm.map _)

/-- One request for a lock: who asks for what. -/
structure LockCall where
  caller : Handle
  resource : Resource
  mode : Mode
  deriving DecidableEq, Inhabited, Repr

namespace Database

variable {h : Handle} {db mid db' : Database} {resource : Resource} {mode : Mode} {top : LockTable}
  {call : LockCall} {calls calls' : List LockCall}

/-- Makes requests one after another, until one is refused. -/
def acquireAll : List LockCall → Action TransactionError Unit
  | [] => pure ()
  | call :: calls => do
    acquire call.caller call.resource call.mode
    acquireAll calls

theorem acquireAll_cons_ok : acquireAll (call :: calls) db = .ok () db' ↔
    ∃ mid, acquire call.caller call.resource call.mode db = .ok () mid ∧ acquireAll calls mid = .ok () db' := by
  rw [acquireAll]
  cases hrun : acquire call.caller call.resource call.mode db with
  | ok _ mid => simp [Action.bind_eq_of_ok hrun]
  | error error mid => simp [Action.bind_eq_of_error hrun]

/-- Whether transactions have numbers of their own, the lock table is sound, and whoever holds a mode on a resource
has it in his lock-set. -/
structure Orderly (db : Database) : Prop where
  distinctIds : db.DistinctIds
  sound : db.locks.Sound
  complete : ∀ h < db.transactions.size, db.LockSetComplete h

theorem Orderly.of_unlocked (hids : db.DistinctIds) (hempty : db.locks = {}) : db.Orderly where
  distinctIds := hids
  sound := hempty ▸ LockTable.Sound.empty
  complete := by
    intro h _ r hheld
    rw [hempty] at hheld
    exact absurd (LockTable.heldMode_empty _ r) hheld

/-! ### What granted requests change -/

/-- What granted requests change: nobody holds less than before, and who has got a mode on a resource has it in
his lock-set.  Everything else stays. -/
structure Relocked (db db' : Database) : Prop where
  size : db'.transactions.size = db.transactions.size
  below : db.locks.Below db'.locks
  txn : ∀ h, ∃ locks, db'.txn h = { db.txn h with locks }
  lockSet : ∀ h < db.transactions.size, ∀ r, (db'.txn h).holdsLock r = true ↔
    (db.txn h).holdsLock r = true ∨ db'.locks.heldMode (db.txn h).id r ≠ none
  rest : ∃ locks transactions, db' = { db with locks, transactions }

namespace Relocked

theorem id (hrelocked : Relocked db db') (h : Handle) : (db'.txn h).id = (db.txn h).id := by
  obtain ⟨_, htxn⟩ := hrelocked.txn h
  rw [htxn]

theorem isActive (hrelocked : Relocked db db') (h : Handle) : db'.isActive h = db.isActive h := by
  obtain ⟨_, htxn⟩ := hrelocked.txn h
  rw [Database.isActive, Database.isActive, htxn]

theorem orderly (hrelocked : Relocked db db') (ho : db.Orderly) (hs : db'.locks.Sound) : db'.Orderly where
  distinctIds := by
    intro h hlt h' hlt' heq
    rw [hrelocked.id, hrelocked.id] at heq
    exact ho.distinctIds h (hrelocked.size ▸ hlt) h' (hrelocked.size ▸ hlt') heq
  sound := hs
  complete := by
    intro h hlt r hheld
    rw [hrelocked.id] at hheld
    exact (hrelocked.lockSet h (hrelocked.size ▸ hlt) r).mpr (.inr hheld)

theorem refl (ho : db.Orderly) : Relocked db db where
  size := rfl
  below := .refl db.locks
  txn := fun h => ⟨(db.txn h).locks, rfl⟩
  lockSet := fun h hlt r => (or_iff_left_of_imp (ho.complete h hlt r)).symm
  rest := ⟨_, _, rfl⟩

theorem trans (hrelocked : Relocked db mid) (hrelocked' : Relocked mid db') : Relocked db db' where
  size := hrelocked'.size.trans hrelocked.size
  below := hrelocked.below.trans hrelocked'.below
  txn := by
    intro h
    obtain ⟨_, htxn⟩ := hrelocked.txn h
    obtain ⟨locks, htxn'⟩ := hrelocked'.txn h
    exact ⟨locks, by rw [htxn', htxn]⟩
  lockSet := by
    intro h hlt r
    have hstays : mid.locks.heldMode (db.txn h).id r ≠ none → db'.locks.heldMode (db.txn h).id r ≠ none := by
      intro hheld
      obtain ⟨held, hheld⟩ := Option.ne_none_iff_exists'.mp hheld
      obtain ⟨most, hmost, -⟩ := hrelocked'.below _ r held hheld
      simp [hmost]
    rw [hrelocked'.lockSet h (hrelocked.size ▸ hlt), hrelocked.lockSet h hlt, hrelocked.id, or_assoc,
      or_iff_right_of_imp hstays]
  rest := by
    obtain ⟨_, _, rfl⟩ := hrelocked.rest
    obtain ⟨locks, transactions, rfl⟩ := hrelocked'.rest
    exact ⟨locks, transactions, rfl⟩

end Relocked

/-- Who holds something keeps it, or a stronger mode, through whatever anybody does before he ends. -/
theorem Keeps.below (hkeeps : Keeps h db db') : db.locks.Below db'.locks := by
  intro txn r held hheld
  by_cases hself : (db.txn h).id = txn
  · subst hself
    exact hkeeps.mode r held hheld
  · exact ⟨held, by rw [hkeeps.modes txn r hself, hheld], Mode.covers_self held⟩

theorem Acquired.heldMode_ne_none_iff (hacquired : Acquired h resource mode db db') (r : Resource) :
    db'.locks.heldMode (db.txn h).id r ≠ none ↔
      resource = r ∨ resource.parent = r ∨ db.locks.heldMode (db.txn h).id r ≠ none := by
  rw [hacquired.modes]
  by_cases hresource : resource = r
  · simp [hresource]
  · by_cases hparent : resource.parent = r <;> simp [hresource, hparent]

theorem Acquired.relocked (hacquired : Acquired h resource mode db db') (hgranted : Granted h db db')
    (ho : db.Orderly) : Relocked db db' where
  size := hgranted.size
  below := hgranted.below
  txn := by
    intro h'
    by_cases hh : h = h'
    · subst hh
      exact ⟨_, hacquired.self⟩
    · exact ⟨(db.txn h').locks, hacquired.txn h' hh⟩
  lockSet := by
    intro h' hlt' r
    by_cases hh : h = h'
    · subst hh
      have hholds := ho.complete h hlt' r
      rw [hacquired.self, holdsLock_addLock, holdsLock_addLock, hacquired.heldMode_ne_none_iff]
      tauto
    · have hlt : h < db.transactions.size := lt_of_isActive hgranted.active_before
      have hne : (db.txn h).id ≠ (db.txn h').id := fun heq => hh (ho.distinctIds h hlt h' hlt' heq)
      rw [hacquired.txn h' hh, hgranted.modes _ r hne, or_iff_left_of_imp (ho.complete h' hlt' r)]
  rest := hacquired.rest

/-- What is known of a request that is granted. -/
theorem Orderly.acquire_ok (ho : db.Orderly) (hrun : acquire h resource mode db = .ok () mid) :
    Granted h db mid ∧ Acquired h resource mode db mid ∧
      (resource.rid?.isSome = true → mode = .shared ∨ mode = .exclusive) := by
  have hends := acquire_ends h resource mode db
  rw [Action.Ends, hrun] at hends
  have hactive := hends.1
  have hspares := acquire_spares ho.sound (ho.complete h (lt_of_isActive hactive)) hactive resource mode
  rw [Action.Ends, hrun] at hspares
  exact ⟨hends.2.1, hspares⟩

/-! ### Requests that are met -/

/-- Whether a request is one that can be made, and a table has what it asks for: the mode on the resource, and
the intention on the table that it belongs to. -/
structure Meets (db : Database) (top : LockTable) (call : LockCall) : Prop where
  active : db.isActive call.caller = true
  kind : call.resource.rid?.isSome = true → call.mode = .shared ∨ call.mode = .exclusive
  covers : top.Covers (db.txn call.caller).id call.resource call.mode
  parent : call.resource.rid?.isSome = true →
    top.Covers (db.txn call.caller).id call.resource.parent call.mode.intention

theorem Relocked.meets_iff (hrelocked : Relocked db mid) : mid.Meets top call ↔ db.Meets top call := by
  have hactive := hrelocked.isActive call.caller
  have hid := hrelocked.id call.caller
  constructor
  · rintro ⟨hmid, hkind, hcovers, hparent⟩
    exact ⟨hactive ▸ hmid, hkind, hid ▸ hcovers, hid ▸ hparent⟩
  · rintro ⟨hdb, hkind, hcovers, hparent⟩
    exact ⟨hactive ▸ hdb, hkind, hid ▸ hcovers, hid ▸ hparent⟩

theorem Meets.below (hmeets : db.Meets top call) {locks : LockTable} (hbelow : top.Below locks) :
    db.Meets locks call where
  active := hmeets.active
  kind := hmeets.kind
  covers := hbelow.covers hmeets.covers
  parent := fun hrid => hbelow.covers (hmeets.parent hrid)

/-- A granted request is met in the table that it leaves. -/
theorem Acquired.meets (hacquired : Acquired h resource mode db db') (hactive : db.isActive h = true)
    (hkind : resource.rid?.isSome = true → mode = .shared ∨ mode = .exclusive) :
    db.Meets db'.locks ⟨h, resource, mode⟩ where
  active := hactive
  kind := hkind
  covers := ⟨_, by rw [hacquired.modes, if_pos rfl], LockTable.covers_strengthened⟩
  parent := by
    intro hrid
    have hne : resource ≠ resource.parent := by
      cases resource with
      | table => cases hrid
      | record => simp [Resource.parent]
    exact ⟨_, by rw [hacquired.modes, if_neg hne, if_pos rfl], LockTable.covers_strengthened⟩

/-- Requests that are granted one after another leave a table in which they are all met. -/
theorem acquireAll_ok (ho : db.Orderly) (hrun : acquireAll calls db = .ok () db') :
    Relocked db db' ∧ db'.Orderly ∧ ∀ call ∈ calls, db.Meets db'.locks call := by
  induction calls generalizing db with
  | nil =>
    cases hrun
    exact ⟨.refl ho, ho, by simp⟩
  | cons call calls ih =>
    obtain ⟨mid, hacquire, hrest⟩ := acquireAll_cons_ok.mp hrun
    obtain ⟨hgranted, hacquired, hkind⟩ := ho.acquire_ok hacquire
    have hrelocked : Relocked db mid := hacquired.relocked hgranted ho
    obtain ⟨hrelocked', hlast, hmeets⟩ := ih (hrelocked.orderly ho (hgranted.locks ho.sound)) hrest
    refine ⟨hrelocked.trans hrelocked', hlast, fun call' hmem => ?_⟩
    rcases List.mem_cons.mp hmem with rfl | hmem
    · exact (hacquired.meets hgranted.active_before hkind).below hrelocked'.below
    · exact hrelocked.meets_iff.mp (hmeets call' hmem)

/-- A request that is met above is granted below. -/
theorem Meets.granted (hmeets : db.Meets top call) (ho : db.Orderly) (htop : top.Sound)
    (hbelow : db.locks.Below top) :
    ∃ mid, acquire call.caller call.resource call.mode db = .ok () mid := by
  obtain ⟨h, resource, mode⟩ := call
  have hcomplete : db.LockSetComplete h := ho.complete h (lt_of_isActive hmeets.active)
  have hadmits := hbelow.admits ho.sound htop hmeets.covers
  cases resource with
  | table table =>
    rcases acquire_table_cases ho.sound hcomplete hmeets.active table mode with
      ⟨-, mid, hrun, -⟩ | ⟨hnot, -⟩
    · exact ⟨mid, hrun⟩
    · exact absurd hadmits hnot
  | record table rid =>
    have hparent := hbelow.admits ho.sound htop (hmeets.parent rfl)
    rcases acquire_record_cases ho.sound hcomplete hmeets.active table rid (hmeets.kind rfl) with
      ⟨-, -, mid, hrun, -⟩ | ⟨hnot, -⟩ | ⟨-, hnot, -⟩
    · exact ⟨mid, hrun⟩
    · exact absurd hparent hnot
    · exact absurd hadmits hnot

/-- Once it is granted, a request that is met above leads no further than there. -/
theorem Meets.below_of_acquired (hmeets : db.Meets top call) (hgranted : Granted call.caller db mid)
    (hacquired : Acquired call.caller call.resource call.mode db mid) (hbelow : db.locks.Below top) :
    mid.locks.Below top := by
  intro txn r held hheld
  by_cases hself : (db.txn call.caller).id = txn
  · subst hself
    rw [hacquired.modes] at hheld
    split at hheld
    · rename_i heq
      cases hheld
      exact heq ▸ hbelow.strengthened hmeets.covers
    · rename_i hne
      split at hheld
      · rename_i heq
        cases hheld
        have hrid : call.resource.rid?.isSome = true := by
          cases hresource : call.resource with
          | table => exact absurd heq (hresource ▸ hne)
          | record => rfl
        exact heq ▸ hbelow.strengthened (hmeets.parent hrid)
      · exact hbelow _ r held hheld
  · rw [hgranted.modes txn r hself] at hheld
    exact hbelow txn r held hheld

/-- Requests that are all met in a sound table are granted one after another by any table below. -/
theorem acquireAll_below (ho : db.Orderly) (htop : top.Sound) (hbelow : db.locks.Below top)
    (hmeets : ∀ call ∈ calls, db.Meets top call) :
    ∃ db', acquireAll calls db = .ok () db' ∧ db'.locks.Below top := by
  induction calls generalizing db with
  | nil => exact ⟨db, rfl, hbelow⟩
  | cons call calls ih =>
    have hcall := hmeets call List.mem_cons_self
    obtain ⟨mid, hacquire⟩ := hcall.granted ho htop hbelow
    obtain ⟨hgranted, hacquired, -⟩ := ho.acquire_ok hacquire
    have hrelocked : Relocked db mid := hacquired.relocked hgranted ho
    obtain ⟨db', hrest, hlast⟩ := ih (hrelocked.orderly ho (hgranted.locks ho.sound))
      (hcall.below_of_acquired hgranted hacquired hbelow)
      fun call' hmem => hrelocked.meets_iff.mpr (hmeets call' (List.mem_cons_of_mem _ hmem))
    exact ⟨db', acquireAll_cons_ok.mpr ⟨mid, hacquire, hrest⟩, hlast⟩

/-- Two databases that requests have led to from one are the same up to their queues if everybody holds the
same in both. -/
theorem Relocked.eq_of_heldMode {last last' : Database} (hrelocked : Relocked db last)
    (hrelocked' : Relocked db last')
    (hheld : ∀ txn r, last'.locks.heldMode txn r = last.locks.heldMode txn r) :
    { last' with locks := last.locks } = last := by
  have htxn : ∀ h, h < db.transactions.size → last'.txn h = last.txn h := by
    intro h hlt
    have hlocks : (last'.txn h).locks = (last.txn h).locks := by
      refine Std.ExtTreeSet.ext_contains fun r => Bool.eq_iff_iff.mpr ?_
      have hset := hrelocked.lockSet h hlt r
      have hset' := hrelocked'.lockSet h hlt r
      rw [hheld] at hset'
      exact hset'.trans hset.symm
    obtain ⟨_, htxn⟩ := hrelocked.txn h
    obtain ⟨_, htxn'⟩ := hrelocked'.txn h
    rw [htxn, htxn'] at hlocks ⊢
    simp only at hlocks
    rw [hlocks]
  have htransactions : last'.transactions = last.transactions := by
    have hsize := hrelocked.size
    have hsize' := hrelocked'.size
    refine Array.ext (by omega) fun h hlt hlt' => ?_
    simpa [Database.txn, hlt, hlt'] using htxn h (by omega)
  obtain ⟨_, _, rfl⟩ := hrelocked.rest
  obtain ⟨_, _, rfl⟩ := hrelocked'.rest
  simp only at htransactions
  rw [htransactions]

end Database

open Database

/-- Whatever requests transactions with numbers of their own make while nobody holds a lock: if they are all
granted one after another, then they are in any other order, too.  In the end every transaction holds the same
mode on each resource, the groups and the lock-sets are the same, and so is everything else but the order of the
requests in a queue. -/
theorem acquireAll_perm {db db' : Database} {calls calls' : List LockCall} (hempty : db.locks = {})
    (hids : db.DistinctIds) (hperm : calls.Perm calls') (hrun : acquireAll calls db = .ok () db') :
    ∃ last, acquireAll calls' db = .ok () last ∧
      (∀ txn r, last.locks.heldMode txn r = db'.locks.heldMode txn r) ∧
      (∀ r, last.locks.groupMode r = db'.locks.groupMode r) ∧
      (∀ h, (last.txn h).locks = (db'.txn h).locks) ∧
      (∀ r, r ∈ last.locks.queues ↔ r ∈ db'.locks.queues) ∧
      (∀ r, (last.locks.requests r).Perm (db'.locks.requests r)) ∧
      { last with locks := db'.locks } = db' := by
  have ho : db.Orderly := .of_unlocked hids hempty
  obtain ⟨hrelocked, hdb', hmeets⟩ := acquireAll_ok ho hrun
  -- What the first run leaves meets the requests, and so the second one leads no further than there.
  obtain ⟨last, hlast, hbelow⟩ := acquireAll_below ho hdb'.sound hrelocked.below
    fun call hmem => hmeets call (hperm.mem_iff.mpr hmem)
  obtain ⟨hrelocked', hdb'', hmeets'⟩ := acquireAll_ok ho hlast
  -- The same holds the other way round.
  obtain ⟨_, hagain, habove⟩ := acquireAll_below ho hdb''.sound hrelocked'.below
    fun call hmem => hmeets' call (hperm.mem_iff.mp hmem)
  obtain rfl := (EStateM.Result.ok.inj (hagain.symm.trans hrun)).2
  have hheld : ∀ txn r, last.locks.heldMode txn r = _ := hbelow.heldMode_eq habove
  have hrequests : ∀ r, (last.locks.requests r).Perm _ :=
    fun r => hdb''.sound.perm_requests hdb'.sound fun txn => hheld txn r
  have hsame := hrelocked.eq_of_heldMode hrelocked' hheld
  refine ⟨last, hlast, hheld, fun r => hdb''.sound.groupMode_eq_of_perm hdb'.sound (hrequests r), fun h => ?_,
    fun r => ?_, hrequests, hsame⟩
  · have htransactions : last.transactions = _ := congrArg (·.transactions) hsame
    rw [Database.txn, Database.txn, htransactions]
  · rw [hdb''.sound.mem_queues_iff, hdb'.sound.mem_queues_iff, ← List.length_pos_iff, ← List.length_pos_iff,
      (hrequests r).length_eq]

/-- A transaction reads a table and then means to write a record of it, while another one reads a record, too.  In
whatever order they ask, the first one ends up with both modes on the table in one. -/
theorem acquireAll_perm_upgrade :
    let s := Session.oneTable.play [.adopt 1, .adopt 2]
    let calls : List LockCall := [⟨0, .table 1, .shared⟩, ⟨1, .record 1 ⟨0, 0⟩, .shared⟩,
      ⟨0, .record 1 ⟨0, 1⟩, .exclusive⟩]
    s.db.locks = {} ∧ s.db.DistinctIds ∧ ∃ db' last, acquireAll calls s.db = .ok () db' ∧
      acquireAll calls.reverse s.db = .ok () last ∧
      last.locks.heldMode 1 (.table 1) = some .sharedIntentionExclusive := by
  intro s calls
  have hempty : s.db.locks = {} := rfl
  have hids : s.db.DistinctIds := by decide +kernel
  have hsucceeds : (acquireAll calls).Succeeds s.db fun _ db' =>
      db'.locks.heldMode 1 (.table 1) = some .sharedIntentionExclusive := by decide +kernel
  obtain ⟨_, db', hrun, hheld⟩ := Action.succeeds_iff.mp hsucceeds
  obtain ⟨last, hlast, hsame, -⟩ := acquireAll_perm hempty hids calls.reverse_perm.symm hrun
  exact ⟨hempty, hids, db', last, hrun, hlast, (hsame 1 (.table 1)).trans hheld⟩

end NoWait
