import NoWait.Proofs.Calls

/-!
# Lock-sets and the lock table agree

A transaction keeps a set of the resources that it has locked, and the lock table keeps the requests.  The
two are different structures, and every acquisition and every release changes both.

* `Database.LocksExact` says that the lock table is sound, that every lock-set has exactly the resources
  that its transaction has a request on, and that there is no request of anybody else;
* `Effect.locksExact` is one call, `Run.locksExact` a whole run, from a session that nobody has worked on;
* `lock_table_invariant` spells out what that means for the queues.
-/

namespace NoWait

namespace Database

/-- What the lock table and the lock-sets have to do with each other. -/
structure LocksExact (db : Database) : Prop where
  sound : db.locks.Sound
  exact : ∀ h < db.transactions.size, db.LockSetExact h
  owned : ∀ txn r, db.locks.heldMode txn r ≠ none → ∃ h < db.transactions.size, (db.txn h).id = txn

variable {h : Handle} {db mid db' : Database}

/-! ### Numbers stay -/

/-- Whether every transaction of a database is there in another, under the same handle and number. -/
structure KeepsIds (db db' : Database) : Prop where
  size : db.transactions.size ≤ db'.transactions.size
  id : ∀ h < db.transactions.size, (db'.txn h).id = (db.txn h).id

theorem KeepsIds.distinctIds (hk : KeepsIds db db') (hids : db'.DistinctIds) : db.DistinctIds := by
  intro h hh h' hh' heq
  have hsize := hk.size
  refine hids h (by omega) h' (by omega) ?_
  rw [hk.id h hh, hk.id h' hh', heq]

theorem Keeps.keepsIds (hk : Keeps h db db') : KeepsIds db db' where
  size := Nat.le_of_eq hk.size.symm
  id := fun h' _ => hk.ids h'

theorem LeftBehind.keepsIds (hl : LeftBehind h db db') : KeepsIds db db' where
  size := Nat.le_of_eq hl.size.symm
  id := by
    intro h' _
    by_cases hh : h = h'
    · rw [← hh, hl.id]
    · rw [hl.txn h' hh]

theorem keepsIds_updateTxn (h : Handle) (db : Database) {change : Transaction → Transaction}
    (hid : ∀ t, (change t).id = t.id) : KeepsIds db (db.updateTxn h change) where
  size := by simp [updateTxn]
  id := by
    intro h' hlt
    by_cases hh : h = h'
    · subst hh
      rw [txn_updateTxn_self db change hlt, hid]
    · rw [txn_updateTxn_of_ne db change hh]

theorem KeepsIds.trans (hk : KeepsIds db mid) (hk' : KeepsIds mid db') : KeepsIds db db' where
  size := Nat.le_trans hk.size hk'.size
  id := by
    intro h hlt
    have hsize := hk.size
    rw [hk'.id h (by omega), hk.id h hlt]

/-! ### Locks and lock-sets through each kind of step -/

/-- A change to the locks of one transaction of a database in which all numbers differ, to its lock-set
and its requests alike. -/
theorem LocksExact.of_step (hl : db.LocksExact) (hids : db.DistinctIds)
    (hlt : h < db.transactions.size) (hsize : db'.transactions.size = db.transactions.size)
    (hids' : KeepsIds db db') (htxn : ∀ h', h ≠ h' → db'.txn h' = db.txn h')
    (hsound : db'.locks.Sound)
    (hmodes : ∀ other r, (db.txn h).id ≠ other →
      db'.locks.heldMode other r = db.locks.heldMode other r)
    (hset : db'.LockSetExact h) : db'.LocksExact where
  sound := hsound
  exact := by
    intro h' hlt' r
    by_cases hh : h = h'
    · subst hh
      exact hset r
    · have hne : (db.txn h).id ≠ (db.txn h').id := fun heq => hh (hids h hlt h' (hsize ▸ hlt') heq)
      rw [htxn h' hh, hmodes _ r hne]
      exact hl.exact h' (hsize ▸ hlt') r
  owned := by
    intro txn r hheld
    by_cases htxn : (db.txn h).id = txn
    · exact ⟨h, hsize ▸ hlt, by rw [hids'.id h hlt, htxn]⟩
    · rw [hmodes txn r htxn] at hheld
      obtain ⟨h', hlt', hid⟩ := hl.owned txn r hheld
      exact ⟨h', hsize ▸ hlt', by rw [hids'.id h' hlt', hid]⟩

theorem LocksExact.keeps (hl : db.LocksExact) (hids : db.DistinctIds) (hk : Keeps h db db') :
    db'.LocksExact := by
  by_cases hlt : h < db.transactions.size
  · exact hl.of_step hids hlt hk.size hk.keepsIds hk.txn (hk.locks hl.sound) hk.modes
      (hk.lockSet hlt (hl.exact h hlt))
  · have hlocks := hk.idle hlt
    refine ⟨hlocks ▸ hl.sound, fun h' hlt' r => ?_, fun txn r hheld => ?_⟩
    · have hh : h ≠ h' := fun heq => hlt (heq ▸ hk.size ▸ hlt')
      rw [hk.txn h' hh, hlocks]
      exact hl.exact h' (hk.size ▸ hlt') r
    · rw [hlocks] at hheld
      obtain ⟨h', hlt', hid⟩ := hl.owned txn r hheld
      exact ⟨h', hk.size ▸ hlt', by rw [hk.ids, hid]⟩

/-- A transaction that gives up every lock in its lock-set holds no mode any more. -/
theorem LocksExact.of_releaseAll (hl : db.LocksExact) (hids : db.DistinctIds)
    (hlt : h < db.transactions.size) (hsize : db'.transactions.size = db.transactions.size)
    (hids' : KeepsIds db db') (htxn : ∀ h', h ≠ h' → db'.txn h' = db.txn h')
    (hset : (db'.txn h).locks = {})
    (hlocks : db'.locks = db.locks.releaseAll (db.txn h).id (db.txn h).locks.toList) :
    db'.LocksExact := by
  obtain ⟨hsound, hheld⟩ := hl.sound.releaseAll (db.txn h).id (db.txn h).locks.toList
  rw [← hlocks] at hsound hheld
  refine hl.of_step hids hlt hsize hids' htxn hsound ?_ ?_
  · intro other r hne
    rw [hheld, if_neg fun heq => hne heq.1]
  · intro r
    rw [Transaction.holdsLock, hset, hids'.id h hlt, hheld]
    have hexact := hl.exact h hlt r
    by_cases hmem : r ∈ (db.txn h).locks.toList
    · simp [hmem]
    · have hnone : ¬ (db.txn h).holdsLock r = true := by
        simpa [Transaction.holdsLock] using hmem
      have hheld : db.locks.heldMode (db.txn h).id r = none := by
        simpa using fun hsome => hnone (hexact.mpr hsome)
      simp [hmem, hheld]

theorem LocksExact.leftBehind (hl : db.LocksExact) (hids : db.DistinctIds)
    (hleft : LeftBehind h db db') : db'.LocksExact :=
  hl.of_releaseAll hids hleft.lt hleft.size hleft.keepsIds hleft.txn hleft.lockSet hleft.locks

theorem keepsIds_releaseAll (h : Handle) (db : Database) : KeepsIds db (db.releaseAll h) := by
  have hlocks : KeepsIds db
      { db with locks := db.locks.releaseAll (db.txn h).id (db.txn h).locks.toList } :=
    ⟨Nat.le_refl _, fun _ _ => rfl⟩
  unfold Database.releaseAll
  exact hlocks.trans (keepsIds_updateTxn h _ fun _ => rfl)

theorem LocksExact.releaseAll (hl : db.LocksExact) (hids : db.DistinctIds)
    (hlt : h < db.transactions.size) : (db.releaseAll h).LocksExact :=
  hl.of_releaseAll hids hlt (by simp [Database.releaseAll, updateTxn]) (keepsIds_releaseAll h db)
    (fun h' hne => txn_updateTxn_of_ne _ _ hne) (by rw [txn_releaseAll hlt]) rfl

theorem keepsIds_release (h : Handle) (resource : Resource) (db : Database) :
    KeepsIds db (db.release h resource) := by
  have hlocks : KeepsIds db { db with locks := db.locks.release (db.txn h).id resource } :=
    ⟨Nat.le_refl _, fun _ _ => rfl⟩
  unfold Database.release
  exact hlocks.trans (keepsIds_updateTxn h _ fun _ => rfl)

theorem LocksExact.release (hl : db.LocksExact) (hids : db.DistinctIds)
    (hlt : h < db.transactions.size) (resource : Resource) : (db.release h resource).LocksExact := by
  have htxn : (db.release h resource).txn h = (db.txn h).removeLock resource :=
    txn_updateTxn_self ({ db with locks := db.locks.release (db.txn h).id resource } : Database) _ hlt
  have hheld : ∀ other r, (db.locks.release (db.txn h).id resource).heldMode other r =
      if (db.txn h).id = other ∧ resource = r then none else db.locks.heldMode other r :=
    fun _ _ => LockTable.heldMode_release hl.sound
  refine hl.of_step hids hlt (by simp [Database.release, updateTxn]) (keepsIds_release h resource db)
    (fun h' hne => txn_updateTxn_of_ne _ _ hne) hl.sound.release ?_ ?_
  · intro other r hne
    show (db.locks.release (db.txn h).id resource).heldMode other r = _
    rw [hheld, if_neg fun heq => hne heq.1]
  · intro r
    show _ ↔ (db.locks.release (db.txn h).id resource).heldMode _ r ≠ none
    rw [htxn]
    show ((db.txn h).locks.erase resource).contains r = true ↔ _
    rw [show ((db.txn h).removeLock resource).id = (db.txn h).id from rfl, hheld,
      Std.ExtTreeSet.contains_erase]
    have hexact := hl.exact h hlt r
    by_cases hr : resource = r
    · simp [hr]
    · simpa [hr, Transaction.holdsLock] using hexact

/-- A transaction that has just begun holds nothing, since its number is new. -/
theorem LocksExact.arrived (hl : db.LocksExact) (harrived : Arrived db db') (hids : db'.DistinctIds) :
    db'.LocksExact where
  sound := harrived.locks ▸ hl.sound
  exact := by
    intro h hlt r
    rw [harrived.locks]
    by_cases hh : h < db.transactions.size
    · rw [harrived.txn h hh]
      exact hl.exact h hh r
    · have hnew : h = db.nextHandle := by
        have hsize := harrived.size
        have hnext : db.transactions.size = db.nextHandle := rfl
        omega
      subst hnew
      rw [Transaction.holdsLock, harrived.lockSet]
      have hnone : db.locks.heldMode (db'.txn db.nextHandle).id r = none := by
        by_contra hsome
        obtain ⟨h', hlt', hid⟩ := hl.owned _ r hsome
        have hsize := harrived.size
        have heq := hids h' (by omega) db.nextHandle hlt (by rw [harrived.txn h' hlt', hid])
        rw [heq] at hlt'
        exact hh hlt'
      simp [hnone]
  owned := by
    intro txn r hheld
    rw [harrived.locks] at hheld
    obtain ⟨h, hlt, hid⟩ := hl.owned txn r hheld
    have hsize := harrived.size
    exact ⟨h, by omega, by rw [harrived.txn h hlt, hid]⟩

end Database

open Database

/-! ### Calls and runs -/

variable {start s : Session} {call : Call} {answer : Except StatementError Answer} {db' : Database}
  {trace : List Event}

theorem Database.Untouched.txn {db db' : Database} (hu : Untouched db db') (h : Handle) :
    db'.txn h = db.txn h := by
  rw [Database.txn, Database.txn, hu.transactions]

theorem Database.Untouched.keepsIds {db db' : Database} (hu : Untouched db db') : KeepsIds db db' where
  size := Nat.le_of_eq (by rw [hu.transactions])
  id := fun h _ => by rw [hu.txn]

theorem Statement.Outcome.keeps {h : Handle} {statement : Statement} {db : Database}
    (houtcome : Statement.Outcome h statement answer db db') : Keeps h db db' := by
  cases houtcome.did with
  | quiet hquiet _ => exact hquiet.toKeeps
  | wrote _ _ hwrote _ _ _ => exact hwrote.toKeeps
  | missed _ hwrote _ _ _ => exact hwrote.toKeeps

/-- No call changes the number of a transaction. -/
theorem Effect.keepsIds (heffect : Effect s call answer db') : KeepsIds s.db db' := by
  cases heffect with
  | arrived harrived _ =>
    exact ⟨by rw [harrived.size]; omega, fun h hlt => by rw [harrived.txn h hlt]⟩
  | untouched huntouched _ _ => exact huntouched.keepsIds
  | ran houtcome => exact houtcome.keeps.keepsIds
  | quiet hquiet _ _ => exact hquiet.toKeeps.keepsIds
  | commitRefused _ => exact (Keeps.refl 0 s.db).keepsIds
  | committed _ hleft _ => exact hleft.keepsIds
  | commitLost hleft _ => exact hleft.keepsIds
  | abortRefused _ => exact (Keeps.refl 0 s.db).keepsIds
  | abortStuck _ _ => exact (keeps_rolledBack _ s.db _ _).keepsIds
  | aborted _ _ hleft _ => exact (keeps_rolledBack _ s.db _ _).keepsIds.trans hleft.keepsIds
  | released _ => exact keepsIds_release _ _ s.db
  | releasedAll _ => exact keepsIds_releaseAll _ s.db
  | releasedGaps _ => exact ⟨Nat.le_refl _, fun _ _ => rfl⟩

/-- A call that does not let two transactions have one number keeps the lock-sets exact. -/
theorem Effect.locksExact (heffect : Effect s call answer db') (hl : s.db.LocksExact)
    (hids : db'.DistinctIds) : db'.LocksExact := by
  have hids₀ : s.db.DistinctIds := heffect.keepsIds.distinctIds hids
  cases heffect with
  | arrived harrived _ => exact hl.arrived harrived hids
  | untouched huntouched _ _ =>
    exact hl.keeps (h := 0) hids₀ (.of_eq 0 huntouched.transactions huntouched.locks huntouched.gaps)
  | ran houtcome => exact hl.keeps hids₀ houtcome.keeps
  | quiet hquiet _ _ => exact hl.keeps hids₀ hquiet.toKeeps
  | commitRefused _ => exact hl
  | committed _ hleft _ => exact hl.leftBehind hids₀ hleft
  | commitLost hleft _ => exact hl.leftBehind hids₀ hleft
  | abortRefused _ => exact hl
  | abortStuck _ _ => exact hl.keeps hids₀ (keeps_rolledBack _ s.db _ _)
  | aborted _ _ hleft _ =>
    exact (hl.keeps hids₀ (keeps_rolledBack _ s.db [] _)).leftBehind
      (hleft.keepsIds.distinctIds hids) hleft
  | released hlt => exact hl.release hids₀ hlt _
  | releasedAll hlt => exact hl.releaseAll hids₀ hlt
  | releasedGaps _ => exact ⟨hl.sound, hl.exact, hl.owned⟩

/-- Transactions stay, and keep their numbers. -/
theorem Run.keepsIds (hrun : Run start trace s) : KeepsIds start.db s.db := by
  induction hrun with
  | nil => exact ⟨Nat.le_refl _, fun _ _ => rfl⟩
  | @snoc _ s call _ ih => exact ih.trans (s.step_effect call).keepsIds

/-- If all numbers differ at the end of a run, they did before. -/
theorem Run.distinctIds (hrun : Run start trace s) (hids : s.db.DistinctIds) :
    start.db.DistinctIds ∧ ∀ event ∈ trace, event.before.db.DistinctIds ∧ event.after.db.DistinctIds := by
  induction hrun with
  | nil => exact ⟨hids, by simp⟩
  | @snoc trace s call _ ih =>
    have hids₀ : s.db.DistinctIds := (s.step_effect call).keepsIds.distinctIds hids
    refine ⟨(ih hids₀).1, fun event hmem => ?_⟩
    rcases List.mem_append.mp hmem with hmem | hmem
    · exact (ih hids₀).2 event hmem
    · rw [List.mem_singleton.mp hmem]
      exact ⟨hids₀, hids⟩

theorem Session.IsFresh.locksExact (hfresh : start.IsFresh) : start.db.LocksExact where
  sound := hfresh.locks ▸ LockTable.Sound.empty
  exact := by
    intro h hlt
    rw [hfresh.transactions] at hlt
    exact absurd hlt (Nat.not_lt_zero h)
  owned := by
    intro txn r hheld
    rw [hfresh.locks] at hheld
    exact absurd (LockTable.heldMode_empty txn r) hheld

/-- The lock-sets are exact after any run in which no two transactions have one number. -/
theorem Run.locksExact (hrun : Run start trace s) (hfresh : start.IsFresh) (hids : s.db.DistinctIds) :
    s.db.LocksExact := by
  refine hrun.invariant (fun s => s.db.LocksExact) hfresh.locksExact ?_
  intro event hmem hl
  exact (event.before.step_effect event.call).locksExact hl ((hrun.distinctIds hids).2 event hmem).2

/-- Whatever transactions have asked for, been refused and given up: every queue has requests, one for
each transaction, all granted, of modes that go together, and knows the join of the modes; where there
is no queue, no mode is reported; and every lock-set has exactly the resources in whose queue its
transaction has a request. -/
theorem lock_table_invariant (hrun : Run start trace s) (hfresh : start.IsFresh)
    (hids : s.db.DistinctIds) :
    (∀ (r : Resource) (queue : Queue), s.db.locks.queues[r]? = some queue →
      queue.requests ≠ [] ∧ (queue.requests.map (·.txn)).Nodup ∧
      (∀ a ∈ queue.requests, a.granted = true) ∧
      (∀ a ∈ queue.requests, ∀ b ∈ queue.requests, a.txn ≠ b.txn →
        a.mode.compatible b.mode = true) ∧
      queue.group = Mode.joinAll (queue.requests.map (·.mode))) ∧
    (∀ r : Resource, s.db.locks.queues[r]? = none → s.db.locks.groupMode r = none) ∧
    ∀ h < s.db.transactions.size, ∀ r, (s.db.txn h).holdsLock r = true ↔
      ∃ a ∈ s.db.locks.requests r, a.txn = (s.db.txn h).id := by
  have hl := hrun.locksExact hfresh hids
  refine ⟨fun r queue hqueue => ?_, fun r hnone => ?_, fun h hlt r => ?_⟩
  · have hsound : queue.Sound := by
      have hsound := hl.sound.queue r
      rwa [LockTable.queue, hqueue] at hsound
    exact ⟨hl.sound.nonempty r queue hqueue, hsound.once, hsound.granted, hsound.compatible,
      hsound.group_eq⟩
  · rw [LockTable.groupMode, LockTable.queue, hnone]
    rfl
  · rw [hl.exact h hlt r, Ne, LockTable.heldMode, Queue.heldMode_eq_none_iff]
    push Not
    rfl

/-- Two transactions share a table, and one of them is refused exclusive use of it. -/
theorem lock_table_invariant_shared_table :
    let s := Session.oneTable.play [.begin, .begin, .run 0 (.acquire (.table 1) .shared),
      .run 1 (.acquire (.table 1) .shared), .run 1 (.acquire (.table 1) .exclusive)]
    s.db.DistinctIds ∧ ∀ h < s.db.transactions.size, ∀ r, (s.db.txn h).holdsLock r = true ↔
      ∃ a ∈ s.db.locks.requests r, a.txn = (s.db.txn h).id := by
  intro s
  have hids : s.db.DistinctIds := by decide +kernel
  exact ⟨hids, (lock_table_invariant (.of_calls _ _) Session.oneTable_isFresh hids).2.2⟩

end NoWait
