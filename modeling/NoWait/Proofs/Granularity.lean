import NoWait.Proofs.LockSets

/-!
# Locks on tables against locks on their records

A table and its records have queues of their own, and no request looks into the queue of another resource.
Still a lock on a table stands for locks on all of its records: whoever locks a record has announced it on
the table first, and the announcement stays for as long as the lock that it announces.

* `LockTable.Intended.not_locked` and `LockTable.Intended.not_whole` read off what a lock at one level keeps
  others from at the other level;
* `Effect.intended` is one call: whatever is locked stays announced, unless a table is given up by hand
  while records of it may still be locked;
* `multi_granularity_safety` is a whole run.
-/

namespace NoWait

/-! ### Exclusion across the levels -/

/-- What goes together with an announcement of writing is no claim on the table as a whole. -/
theorem Mode.not_whole_of_compatible {a b : Mode} (ha : a.covers .intentionExclusive = true)
    (hcompat : a.compatible b = true) :
    b ≠ .shared ∧ b ≠ .sharedIntentionExclusive ∧ b ≠ .exclusive := by
  cases a <;> cases b <;> simp_all [covers, join, compatible]

namespace LockTable

variable {locks : LockTable} {txn other : TxnId} {table : TableId} {rid : Rid} {mode : Mode}

/-- Nobody else has a lock on a record of a table that is locked exclusively. -/
theorem Intended.not_locked (hi : locks.Intended) (hs : locks.Sound)
    (htable : locks.heldMode txn (.table table) = some .exclusive) (hne : txn ≠ other) (rid : Rid) :
    locks.heldMode other (.record table rid) = none := by
  cases hrecord : locks.heldMode other (.record table rid) with
  | none => rfl
  | some mode =>
    obtain ⟨_, held, hheld, _⟩ := hi other table rid mode hrecord
    have heq : other = txn := hs.eq_of_exclusive htable hheld
    exact absurd heq.symm hne

/-- Who has locked a record exclusively keeps everybody else from the table as a whole. -/
theorem Intended.not_whole (hi : locks.Intended) (hs : locks.Sound)
    (hrecord : locks.heldMode txn (.record table rid) = some .exclusive)
    (htable : locks.heldMode other (.table table) = some mode) (hne : txn ≠ other) :
    mode ≠ .shared ∧ mode ≠ .sharedIntentionExclusive ∧ mode ≠ .exclusive := by
  obtain ⟨_, held, hheld, hcovers⟩ := hi txn table rid .exclusive hrecord
  have hcompat : held.compatible mode = true := hs.compatible hheld htable hne
  exact Mode.not_whole_of_compatible hcovers hcompat

end LockTable

open Database

/-! ### Calls and runs -/

/-- A transaction that gives up its whole lock-set takes its announcements along with what they announce.
-/
theorem LockTable.Intended.releaseAll {h : Handle} {db : Database} (hi : db.locks.Intended)
    (hs : db.locks.Sound) (hexact : db.LockSetExact h) :
    (db.locks.releaseAll (db.txn h).id (db.txn h).locks.toList).Intended := by
  obtain ⟨_, hheld⟩ := hs.releaseAll (db.txn h).id (db.txn h).locks.toList
  have hnone : ∀ r,
      (db.locks.releaseAll (db.txn h).id (db.txn h).locks.toList).heldMode (db.txn h).id r = none := by
    intro r
    rw [hheld]
    by_cases hmem : r ∈ (db.txn h).locks.toList
    · simp [hmem]
    · have hfree : ¬ (db.txn h).holdsLock r = true := by
        simpa [Transaction.holdsLock] using hmem
      rw [hexact r] at hfree
      simpa [hmem] using hfree
  refine hi.of_forsaken hnone fun other r hne => ?_
  rw [hheld, if_neg fun heq => hne heq.1]

variable {start s : Session} {call : Call} {answer : Except StatementError Answer} {db' : Database}
  {trace : List Event}

/-- Every call but a release of a table leaves what is locked announced. -/
theorem Effect.intended (heffect : Effect s call answer db') (hi : s.db.locks.Intended)
    (hl : s.db.LocksExact) (hcall : ∀ h table, call ≠ .release h (.table table)) :
    db'.locks.Intended := by
  cases heffect with
  | arrived harrived _ => exact harrived.locks ▸ hi
  | untouched huntouched _ _ => exact huntouched.locks ▸ hi
  | ran houtcome => exact houtcome.keeps.intended hi
  | quiet hquiet _ _ => exact hquiet.intended hi
  | commitRefused _ => exact hi
  | committed _ hleft _ =>
    rw [hleft.locks]
    exact hi.releaseAll hl.sound (hl.exact _ hleft.lt)
  | commitLost hleft _ =>
    rw [hleft.locks]
    exact hi.releaseAll hl.sound (hl.exact _ hleft.lt)
  | abortRefused _ => exact hi
  | abortStuck _ _ => exact hi
  | @aborted h catalog _ _ hlt _ hleft _ =>
    have hk := keeps_rolledBack h s.db [] catalog
    rw [hleft.locks]
    exact LockTable.Intended.releaseAll (hk.intended hi) (hk.locks hl.sound)
      (hk.lockSet hlt (hl.exact h hlt))
  | @released h resource _ =>
    cases resource with
    | table id => exact absurd rfl (hcall h id)
    | record id rid => exact hi.release_record hl.sound
  | @releasedAll h hlt => exact hi.releaseAll hl.sound (hl.exact h hlt)
  | releasedGaps _ => exact hi

/-- Whatever is locked is announced after any run that gives up no table by hand. -/
theorem Run.intended (hrun : Run start trace s) (hfresh : start.IsFresh) (hids : s.db.DistinctIds)
    (hcalls : ∀ event ∈ trace, ∀ h table, event.call ≠ .release h (.table table)) :
    s.db.locks.Intended := by
  induction hrun with
  | nil => exact hfresh.locks ▸ LockTable.Intended.empty
  | @snoc trace s call hrun ih =>
    have heffect := s.step_effect call
    have hids₀ : s.db.DistinctIds := heffect.keepsIds.distinctIds hids
    have hi : s.db.locks.Intended := ih hids₀ fun event hmem => hcalls event (List.mem_append_left _ hmem)
    exact heffect.intended hi (hrun.locksExact hfresh hids₀)
      (hcalls ⟨s, call⟩ (List.mem_append_right _ (List.mem_singleton_self _)))

/-- Whatever transactions with numbers of their own have asked for, been refused and given up, tables by
hand apart: a lock on a record is shared or exclusive, and goes with a lock on the table that covers its
intention.  So a transaction with a table to itself has all records to itself; nobody writes a record of a
table that somebody else reads as a whole; and a transaction with a record to itself is alone there, and
nobody else reads or writes the table as a whole. -/
theorem multi_granularity_safety (hrun : Run start trace s) (hfresh : start.IsFresh)
    (hids : s.db.DistinctIds)
    (hcalls : ∀ event ∈ trace, ∀ h table, event.call ≠ .release h (.table table)) :
    (∀ (txn : TxnId) (table : TableId) (rid : Rid) (mode : Mode),
      s.db.locks.heldMode txn (.record table rid) = some mode →
        (mode = .shared ∨ mode = .exclusive) ∧
        ∃ held, s.db.locks.heldMode txn (.table table) = some held ∧
          (mode = .shared → held.covers .intentionShared = true) ∧
          (mode = .exclusive → held.covers .intentionExclusive = true)) ∧
    ∀ txn other : TxnId, txn ≠ other → ∀ table : TableId,
      (s.db.locks.heldMode txn (.table table) = some .exclusive →
        ∀ rid, s.db.locks.heldMode other (.record table rid) = none) ∧
      (s.db.locks.heldMode txn (.table table) = some .shared ∨
          s.db.locks.heldMode txn (.table table) = some .sharedIntentionExclusive →
        ∀ rid, s.db.locks.heldMode other (.record table rid) ≠ some .exclusive) ∧
      ∀ rid, s.db.locks.heldMode txn (.record table rid) = some .exclusive →
        s.db.locks.heldMode other (.record table rid) = none ∧
        ∀ mode, s.db.locks.heldMode other (.table table) = some mode →
          mode ≠ .shared ∧ mode ≠ .sharedIntentionExclusive ∧ mode ≠ .exclusive := by
  have hi : s.db.locks.Intended := hrun.intended hfresh hids hcalls
  have hs : s.db.locks.Sound := (hrun.locksExact hfresh hids).sound
  constructor
  · intro txn table rid mode hrecord
    obtain ⟨hmode, held, hheld, hcovers⟩ := hi txn table rid mode hrecord
    refine ⟨hmode, held, hheld, ?_, ?_⟩
    · rintro rfl
      exact hcovers
    · rintro rfl
      exact hcovers
  · intro txn other hne table
    refine ⟨fun htable rid => hi.not_locked hs htable hne rid, fun htable rid hrecord => ?_,
      fun rid hrecord => ⟨?_, fun mode htable => hi.not_whole hs hrecord htable hne⟩⟩
    · rcases htable with htable | htable
      · exact (hi.not_whole hs hrecord htable hne.symm).1 rfl
      · exact (hi.not_whole hs hrecord htable hne.symm).2.1 rfl
    · cases hother : s.db.locks.heldMode other (.record table rid) with
      | none => rfl
      | some mode => exact absurd (hs.eq_of_exclusive hrecord hother).symm hne

/-- A transaction reads a table as a whole and writes one of its records; another one that wants to read a
record is let in until it wants to write it, and is refused. -/
theorem multi_granularity_safety_upgrade :
    let calls : List Call := [.adopt 1, .adopt 2, .run 0 (.acquire (.table 1) .shared),
      .run 0 (.acquire (.record 1 ⟨0, 0⟩) .exclusive), .run 1 (.acquire (.record 1 ⟨0, 1⟩) .shared),
      .run 1 (.acquire (.record 1 ⟨0, 1⟩) .exclusive)]
    let s := Session.oneTable.play calls
    s.db.DistinctIds ∧ (∀ call ∈ calls, ∀ h table, call ≠ .release h (.table table)) ∧
    s.db.locks.heldMode 1 (.table 1) = some .sharedIntentionExclusive ∧
    s.db.locks.heldMode 2 (.record 1 ⟨0, 1⟩) = some .shared ∧
    ∀ rid, s.db.locks.heldMode 2 (.record 1 rid) ≠ some .exclusive := by
  intro calls s
  have hids : s.db.DistinctIds := by decide +kernel
  have hcalls : ∀ call ∈ calls, ∀ h table, call ≠ .release h (.table table) := by simp [calls]
  have htable : s.db.locks.heldMode 1 (.table 1) = some .sharedIntentionExclusive := by decide +kernel
  have hsafe := multi_granularity_safety (.of_calls Session.oneTable calls) Session.oneTable_isFresh hids
    (Run.forall_trace Session.oneTable hcalls)
  exact ⟨hids, hcalls, htable, by decide +kernel, (hsafe.2 1 2 (by decide) 1).2.1 (.inr htable)⟩

end NoWait
