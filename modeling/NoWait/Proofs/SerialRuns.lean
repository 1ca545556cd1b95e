import NoWait.Proofs.Unrivalled

/-!
# Transactions one after another

Where a transaction begins only after all before it have ended, at most one has anything at a time: each finds
nothing of those before it, and nobody rivals it until it ends.

* `IsSerial` says of the calls of a run that transactions come one after another;
* `Database.Vacant` says that it is nobody's turn, `Database.Occupied` that it is the turn of the transaction that
  began last; `TakesTurns` is the one or the other, and says that whose turn it is has not ended;
* `Event.Unrefused` says that a call is not refused and marks nobody aborted but by rolling him back;
* `TakesTurns.step` is one call, and `Run.takesTurns` a whole run.
-/

namespace NoWait

open Database

variable {start s : Session} {call : Call} {answer : Except StatementError Answer} {db db' : Database}
  {trace : List Event} {h h' : Handle}

/-! ### Taking turns -/

namespace Database

/-- A transaction that has written something is there. -/
theorem lt_of_writes (hwrites : (db.txn h).writes ≠ []) : h < db.transactions.size := by
  by_contra hge
  exact hwrites (by simp [Database.txn, hge])

/-- Whether a transaction is over and has an empty lock-set. -/
structure Spent (db : Database) (h : Handle) : Prop extends db.Over h where
  lockSet : (db.txn h).locks = {}

/-- Whether it is nobody's turn: all transactions are over, and nothing is held. -/
structure Vacant (db : Database) : Prop where
  spent : ∀ h < db.transactions.size, db.Spent h
  sound : db.locks.Sound
  modes : ∀ txn r, db.locks.heldMode txn r = none
  gaps : db.gaps.entries = []

/-- Whether it is the turn of the last transaction: all others are over, and nothing is held but by it. -/
structure Occupied (db : Database) (h : Handle) : Prop where
  size : db.transactions.size = h + 1
  spent : ∀ h' < h, db.Spent h'
  sound : db.locks.Sound
  lockSet : db.LockSetExact h
  unrivalled : db.Unrivalled h

theorem Spent.of_same (hspent : db.Spent h) (hsize : db.transactions.size ≤ db'.transactions.size)
    (htxn : db'.txn h = db.txn h) : db'.Spent h where
  lt := Nat.lt_of_lt_of_le hspent.lt hsize
  inactive := by rw [isActive, htxn, ← isActive, hspent.inactive]
  writes := by rw [htxn, hspent.writes]
  lockSet := by rw [htxn, hspent.lockSet]

/-- What a transaction leaves behind is spent if it cannot go on. -/
theorem LeftBehind.spent (hleft : LeftBehind h db db') (hinactive : db'.isActive h = false) :
    db'.Spent h where
  lt := hleft.size ▸ hleft.lt
  inactive := hinactive
  writes := hleft.writes
  lockSet := hleft.lockSet

/-- A spent transaction has no lock to let go of. -/
theorem LeftBehind.locks_eq (hleft : LeftBehind h db db') (hspent : db.Spent h) : db'.locks = db.locks := by
  rw [hleft.locks, hspent.lockSet]
  rfl

namespace Vacant

theorem of_eq (hvacant : db.Vacant) (htxns : db'.transactions = db.transactions)
    (hlocks : db'.locks = db.locks) (hgaps : db'.gaps = db.gaps) : db'.Vacant where
  spent := fun h hlt => (hvacant.spent h (htxns ▸ hlt)).of_same (Nat.le_of_eq (by rw [htxns]))
    (by rw [Database.txn, Database.txn, htxns])
  sound := hlocks ▸ hvacant.sound
  modes := hlocks ▸ hvacant.modes
  gaps := hgaps ▸ hvacant.gaps

/-- Who begins when it is nobody's turn has the next one. -/
theorem arrived (hvacant : db.Vacant) (harrived : Arrived db db') : db'.Occupied db.nextHandle where
  size := harrived.size
  spent := fun h hlt => (hvacant.spent h hlt).of_same (harrived.size ▸ Nat.le_succ _) (harrived.txn h hlt)
  sound := harrived.locks ▸ hvacant.sound
  lockSet := by
    intro r
    rw [Transaction.holdsLock, harrived.lockSet, harrived.locks, hvacant.modes]
    simp
  unrivalled := by
    refine ⟨fun other r _ => by rw [harrived.locks, hvacant.modes], fun entry hmem => ?_⟩
    rw [harrived.gaps, hvacant.gaps] at hmem
    cases hmem

/-- A transaction that is over and is rolled back once more has nothing to let go of. -/
theorem leftBehind (hvacant : db.Vacant) (hleft : LeftBehind h db db') (hinactive : db'.isActive h = false) :
    db'.Vacant where
  spent := by
    intro h' hlt
    by_cases hh : h = h'
    · exact hh ▸ hleft.spent hinactive
    · exact (hvacant.spent h' (hleft.size ▸ hlt)).of_same (Nat.le_of_eq hleft.size.symm) (hleft.txn h' hh)
  sound := hleft.locks_eq (hvacant.spent h hleft.lt) ▸ hvacant.sound
  modes := hleft.locks_eq (hvacant.spent h hleft.lt) ▸ hvacant.modes
  gaps := by
    rw [hleft.gaps, GapTable.release, hvacant.gaps]
    rfl

/-- Nobody can go on. -/
theorem inactive (hvacant : db.Vacant) (h : Handle) : db.isActive h = false := by
  rw [Bool.eq_false_iff]
  intro hactive
  exact absurd ((hvacant.spent h (lt_of_isActive hactive)).inactive.symm.trans hactive) (by decide)

end Vacant

namespace Occupied

theorem lt (hoccupied : db.Occupied h) : h < db.transactions.size := by
  rw [hoccupied.size]
  exact Nat.lt_succ_self h

/-- Every other transaction came before the one whose turn it is. -/
theorem lt_of_ne (hoccupied : db.Occupied h) (hlt : h' < db.transactions.size) (hne : h' ≠ h) : h' < h := by
  have hlt' : h' < h + 1 := by rw [← hoccupied.size]; exact hlt
  exact Nat.lt_of_le_of_ne (Nat.le_of_lt_succ hlt') hne

/-- It stays a transaction's turn whatever it does before it ends. -/
theorem keeps (hoccupied : db.Occupied h) (hk : Keeps h db db') : db'.Occupied h where
  size := hk.size.trans hoccupied.size
  spent := fun h' hlt =>
    (hoccupied.spent h' hlt).of_same (Nat.le_of_eq hk.size.symm) (hk.txn h' (Nat.ne_of_gt hlt))
  sound := hk.locks hoccupied.sound
  lockSet := hk.lockSet hoccupied.lt hoccupied.lockSet
  unrivalled := hk.unrivalled hoccupied.unrivalled

/-- Nothing is held once the transaction whose turn it is has let go. -/
theorem nothing_held (hoccupied : db.Occupied h) (hleft : LeftBehind h db db') :
    db'.locks.Sound ∧ (∀ txn r, db'.locks.heldMode txn r = none) ∧ db'.gaps.entries = [] := by
  obtain ⟨hsound, hheld⟩ := hoccupied.sound.releaseAll (db.txn h).id (db.txn h).locks.toList
  rw [← hleft.locks] at hsound hheld
  refine ⟨hsound, fun txn r => ?_, ?_⟩
  · rw [hheld]
    split
    · rfl
    · rename_i hkept
      by_cases htxn : (db.txn h).id = txn
      · have hnot : ¬ (db.txn h).holdsLock r = true := by
          simpa [Transaction.holdsLock, htxn] using hkept
        simpa [htxn] using fun hsome => hnot ((hoccupied.lockSet r).mpr hsome)
      · exact hoccupied.unrivalled.modes txn r htxn
  · rw [hleft.gaps]
    refine List.filter_eq_nil_iff.mpr fun entry hmem => ?_
    simp [hoccupied.unrivalled.gaps entry hmem]

/-- A transaction that ends leaves the turn to the next one, if it cannot go on. -/
theorem vacant (hoccupied : db.Occupied h) (hleft : LeftBehind h db db') (hinactive : db'.isActive h = false) :
    db'.Vacant := by
  obtain ⟨hsound, hmodes, hgaps⟩ := hoccupied.nothing_held hleft
  refine ⟨fun h' hlt => ?_, hsound, hmodes, hgaps⟩
  by_cases hh : h = h'
  · exact hh ▸ hleft.spent hinactive
  · have hlt' := hoccupied.lt_of_ne (hleft.size ▸ hlt) fun heq => hh heq.symm
    exact (hoccupied.spent h' hlt').of_same (Nat.le_of_eq hleft.size.symm) (hleft.txn h' hh)

/-- An end that gets lost leaves the turn with the transaction. -/
theorem leftBehind (hoccupied : db.Occupied h) (hleft : LeftBehind h db db') : db'.Occupied h := by
  obtain ⟨hsound, hmodes, hgaps⟩ := hoccupied.nothing_held hleft
  refine ⟨hleft.size.trans hoccupied.size, fun h' hlt => ?_, hsound, fun r => ?_, fun _ r _ => hmodes _ r, ?_⟩
  · exact (hoccupied.spent h' hlt).of_same (Nat.le_of_eq hleft.size.symm) (hleft.txn h' (Nat.ne_of_gt hlt))
  · rw [Transaction.holdsLock, hleft.lockSet, hmodes]
    simp
  · rw [hgaps]
    simp

/-- A transaction that is over and is rolled back once more takes nothing from the one whose turn it is. -/
theorem leftBehind_of_ne (hoccupied : db.Occupied h) (hleft : LeftBehind h' db db') (hne : h' ≠ h)
    (hinactive : db'.isActive h' = false) : db'.Occupied h := by
  have hlt := hoccupied.lt_of_ne hleft.lt hne
  have hlocks := hleft.locks_eq (hoccupied.spent h' hlt)
  have htxn := hleft.txn h hne
  refine ⟨hleft.size.trans hoccupied.size, fun i hi => ?_, hlocks ▸ hoccupied.sound, fun r => ?_, ?_⟩
  · by_cases hh : h' = i
    · exact hh ▸ hleft.spent hinactive
    · exact (hoccupied.spent i hi).of_same (Nat.le_of_eq hleft.size.symm) (hleft.txn i hh)
  · rw [htxn, hlocks]
    exact hoccupied.lockSet r
  · refine ⟨fun other r => ?_, fun entry hmem => ?_⟩
    · rw [htxn, hlocks]
      exact hoccupied.unrivalled.modes other r
    · rw [hleft.gaps] at hmem
      rw [htxn]
      exact hoccupied.unrivalled.gaps entry (List.mem_filter.mp hmem).1

/-- Only the transaction whose turn it is can go on. -/
theorem eq_of_isActive (hoccupied : db.Occupied h) (hactive : db.isActive h' = true) : h' = h := by
  by_contra hne
  have hspent := hoccupied.spent h' (hoccupied.lt_of_ne (lt_of_isActive hactive) hne)
  exact absurd (hspent.inactive.symm.trans hactive) (by decide)

end Occupied

/-! ### Ends that mark nobody but their own transaction -/

/-- An end that gets lost in the log marks nobody. -/
theorem finish_marks (hlt : h < db.transactions.size) (kind : RecordKind) (state : TransactionState) :
    (finish h kind state).Ends db (fun _ db' => (db'.txn h).state = state)
      fun error db' => (db'.txn h).state = (db.txn h).state ∧ error.abortReason? = none := by
  simp only [finish, Action.ends_bind, Action.ends_get, Action.ends_mapError]
  refine (logRecord_ends h kind _ db).mono ?_ fun _ mid hlogged => ⟨hlogged.state, rfl⟩
  rintro _ mid hlogged
  rw [Action.ends_modify, setState]
  have hlt' : h < mid.transactions.size := hlogged.size ▸ hlt
  rw [txn_updateTxn_self
    ({ mid with log := mid.log.flush, active := mid.active.erase (mid.txn h).id } : Database) _ hlt']

theorem commit_marks (h : Handle) (db : Database) :
    (commit h).Ends db (fun _ db' => (db'.txn h).state = .committed)
      fun error db' => (db'.txn h).state = (db.txn h).state ∧ error.abortReason? = none := by
  refine commit_ends_of (fun _ => ⟨rfl, rfl⟩) fun hactive => ?_
  have hlt := lt_of_isActive hactive
  refine (finish_marks ((letGo_spec hlt).size ▸ hlt) .commit .committed).mono (fun _ _ hstate => hstate) ?_
  rintro _ _ ⟨hstate, herror⟩
  exact ⟨by rw [hstate, txn_letGo hlt], herror⟩

theorem abort_marks (h : Handle) (db : Database) :
    (abort h).Ends db (fun _ _ => True)
      fun error db' => (db'.txn h).state = (db.txn h).state ∧ error.abortReason? = none := by
  refine abort_ends_of (fun _ => ⟨rfl, rfl⟩) (fun _ left catalog hlt hundo => ?_) fun catalog hlt _ => ?_
  · exact ⟨by rw [txn_rolledBack hlt], (Catalog.isUndoFailure_of_undoAll hundo).abortReason?_eq_none⟩
  · have hlt' := (keeps_rolledBack h db [] catalog).size ▸ hlt
    refine (finish_marks ((letGo_spec hlt').size ▸ hlt') .abort .aborted).mono (fun _ _ _ => trivial) ?_
    rintro _ _ ⟨hstate, herror⟩
    exact ⟨by rw [hstate, txn_letGo hlt', txn_rolledBack hlt], herror⟩

end Database

/-- An end is turned down and changes nothing, gets stuck at a write that the transaction has left, or lets go of
everything. -/
theorem Effect.end_cases (heffect : Effect s call answer db') (hcall : call = .commit h ∨ call = .abort h) :
    db' = s.db ∨ (Keeps h s.db db' ∧ (s.db.txn h).writes ≠ []) ∨
      ∃ catalog, LeftBehind h { s.db with catalog } db' := by
  cases heffect with
  | arrived _ hbegin => rcases hcall with rfl | rfl <;> simp at hbegin
  | untouched _ hends _ => exact absurd hcall (not_or.mpr (hends h))
  | ran _ => simp at hcall
  | quiet _ hends _ => exact absurd hcall (not_or.mpr (hends h))
  | commitRefused _ => exact .inl rfl
  | @committed h₀ _ _ hleft _ =>
    obtain rfl : h₀ = h := by simpa using hcall
    exact .inr (.inr ⟨s.db.catalog, hleft⟩)
  | @commitLost h₀ _ _ hleft _ =>
    obtain rfl : h₀ = h := by simpa using hcall
    exact .inr (.inr ⟨s.db.catalog, hleft⟩)
  | abortRefused _ => exact .inl rfl
  | @abortStuck h₀ _ left catalog _ hundo =>
    obtain rfl : h₀ = h := by simpa using hcall
    refine .inr (.inl ⟨keeps_rolledBack h₀ s.db left catalog, fun hnone => ?_⟩)
    rw [hnone] at hundo
    cases hundo
  | @aborted h₀ catalog _ _ hlt _ hleft _ =>
    obtain rfl : h₀ = h := by simpa using hcall
    exact .inr (.inr ⟨catalog, hleft.of_rolledBack hlt⟩)
  | released _ => simp at hcall
  | releasedAll _ => simp at hcall
  | releasedGaps _ => simp at hcall

/-- A transaction that is over stays so, whatever becomes of its end. -/
theorem Session.step_end_inactive (hinactive : s.db.isActive h = false)
    (hcall : call = .commit h ∨ call = .abort h) : (s.step call).2.db.isActive h = false := by
  rcases hcall with rfl | rfl
  · rw [step_idle hinactive rfl (by simp) rfl]
    exact hinactive
  · exact step_end_spec (P := fun _ db' => db'.isActive h = false) (.inr rfl) nofun
      fun _ => abort_inactive hinactive

namespace Database

theorem Vacant.ended (hvacant : s.db.Vacant) (hcall : call = .commit h ∨ call = .abort h) :
    (s.step call).2.db.Vacant := by
  rcases (s.step_effect call).end_cases hcall with hsame | ⟨-, hwrites⟩ | ⟨catalog, hleft⟩
  · exact hsame ▸ hvacant
  · exact absurd (hvacant.spent h (lt_of_writes hwrites)).writes hwrites
  · have hvacant' : ({ s.db with catalog } : Database).Vacant := hvacant.of_eq rfl rfl rfl
    exact hvacant'.leftBehind hleft (Session.step_end_inactive (hvacant.inactive h) hcall)

/-- The transaction whose turn it is has ended or keeps its turn. -/
theorem Occupied.ended (hoccupied : s.db.Occupied h) (hcall : call = .commit h ∨ call = .abort h) :
    ((s.step call).1.isOk = true ∧ (s.step call).2.db.Vacant) ∨
      ((s.step call).1.isOk = false ∧ (s.step call).2.db.Occupied h) := by
  have heffect := s.step_effect call
  have hoccupied' : ∀ catalog, ({ s.db with catalog } : Database).Occupied h :=
    fun catalog => hoccupied.keeps (.of_eq h rfl rfl rfl)
  cases hok : (s.step call).1.isOk with
  | true =>
    obtain ⟨catalog, hleft, hover⟩ := heffect.ended hcall hok
    exact .inl ⟨rfl, (hoccupied' catalog).vacant hleft hover⟩
  | false =>
    refine .inr ⟨rfl, ?_⟩
    rcases heffect.end_cases hcall with hsame | ⟨hk, -⟩ | ⟨catalog, hleft⟩
    · exact hsame ▸ hoccupied
    · exact hoccupied.keeps hk
    · exact (hoccupied' catalog).leftBehind hleft

theorem Occupied.ended_of_ne (hoccupied : s.db.Occupied h) (hcall : call = .commit h' ∨ call = .abort h')
    (hne : h' ≠ h) : (s.step call).2.db.Occupied h := by
  rcases (s.step_effect call).end_cases hcall with hsame | ⟨-, hwrites⟩ | ⟨catalog, hleft⟩
  · exact hsame ▸ hoccupied
  · exact absurd (hoccupied.spent h' (hoccupied.lt_of_ne (lt_of_writes hwrites) hne)).writes hwrites
  · have hoccupied' : ({ s.db with catalog } : Database).Occupied h := hoccupied.keeps (.of_eq h rfl rfl rfl)
    have hover := (hoccupied.spent h' (hoccupied.lt_of_ne hleft.lt hne)).inactive
    exact hoccupied'.leftBehind_of_ne hleft hne (Session.step_end_inactive hover hcall)

end Database

/-! ### Runs in which transactions take turns -/

/-- The transaction that the call begins or takes over, if it does. -/
def Event.opened? (event : Event) : Option Handle :=
  match event.answer with
  | .ok (.handle h) => some h
  | _ => none

/-- Whether transactions come one after another in a run: one begins only after all before it have ended, each by
a commit or an abort that has succeeded. -/
def IsSerial (events : List Event) : Prop :=
  ∀ i, (hi : i < events.length) → ∀ h ∈ events[i].opened?, ∀ h' < h,
    ∃ earlier ∈ events.take i, earlier.finishes h' = true

instance (events : List Event) : Decidable (IsSerial events) :=
  inferInstanceAs (Decidable (∀ i, (hi : i < events.length) → ∀ h ∈ _, ∀ h' < h, ∃ earlier ∈ _, _ = true))

/-- Whether nobody or a single transaction is at work, and that one has not ended. -/
def TakesTurns (trace : List Event) (db : Database) : Prop :=
  db.Vacant ∨ ∃ h, db.Occupied h ∧ ∀ event ∈ trace, event.finishes h = false

namespace TakesTurns

/-- Nobody rivals a transaction that can go on. -/
theorem unrivalled (hturn : TakesTurns trace db) (hactive : db.isActive h = true) : db.Unrivalled h := by
  rcases hturn with hvacant | ⟨h₀, hoccupied, -⟩
  · exact absurd ((hvacant.inactive h).symm.trans hactive) (by decide)
  · rw [hoccupied.eq_of_isActive hactive]
    exact hoccupied.unrivalled

/-- It stays the same one's turn where no transaction is touched. -/
theorem untouched (hturn : TakesTurns trace s.db) (hends : ∀ h, call ≠ .commit h ∧ call ≠ .abort h)
    (huntouched : Untouched s.db (s.step call).2.db) :
    TakesTurns (trace ++ [⟨s, call⟩]) (s.step call).2.db := by
  rcases hturn with hvacant | ⟨h, hoccupied, hunfinished⟩
  · exact .inl (hvacant.of_eq huntouched.transactions huntouched.locks huntouched.gaps)
  · have hk : Keeps h s.db (s.step call).2.db :=
      .of_eq h huntouched.transactions huntouched.locks huntouched.gaps
    refine .inr ⟨h, hoccupied.keeps hk, List.forall_mem_append.mpr ⟨hunfinished, ?_⟩⟩
    exact List.forall_mem_singleton.mpr (Event.finishes_eq_false (hends h).1 (hends h).2)

/-- So it does while the transaction that can go on does. -/
theorem keeps (hturn : TakesTurns trace s.db) (hends : ∀ h, call ≠ .commit h ∧ call ≠ .abort h)
    (hactive : s.db.isActive h = true) (hk : Keeps h s.db (s.step call).2.db) :
    TakesTurns (trace ++ [⟨s, call⟩]) (s.step call).2.db := by
  rcases hturn with hvacant | ⟨h₀, hoccupied, hunfinished⟩
  · exact absurd ((hvacant.inactive h).symm.trans hactive) (by decide)
  · obtain rfl := hoccupied.eq_of_isActive hactive
    refine .inr ⟨h, hoccupied.keeps hk, List.forall_mem_append.mpr ⟨hunfinished, ?_⟩⟩
    exact List.forall_mem_singleton.mpr (Event.finishes_eq_false (hends h).1 (hends h).2)

/-- Who begins has the next turn, if all before him have ended. -/
theorem arrived (hturn : TakesTurns trace s.db) (hrun : Run start trace s)
    (hserial : ∀ h < s.db.nextHandle, ∃ event ∈ trace, event.finishes h = true)
    (hends : ∀ h, call ≠ .commit h ∧ call ≠ .abort h) (harrived : Arrived s.db (s.step call).2.db) :
    TakesTurns (trace ++ [⟨s, call⟩]) (s.step call).2.db := by
  have hvacant : s.db.Vacant := by
    rcases hturn with hvacant | ⟨h, hoccupied, hunfinished⟩
    · exact hvacant
    · obtain ⟨event, hmem, hfinishes⟩ := hserial h hoccupied.lt
      exact absurd ((hunfinished event hmem).symm.trans hfinishes) (by decide)
  refine .inr ⟨s.db.nextHandle, hvacant.arrived harrived, List.forall_mem_append.mpr ⟨fun event hmem => ?_, ?_⟩⟩
  · rw [Bool.eq_false_iff]
    intro hfinishes
    exact Nat.lt_irrefl _ (hrun.lt_of_begins ⟨event, hmem, .inr hfinishes⟩)
  · exact List.forall_mem_singleton.mpr (Event.finishes_eq_false (hends _).1 (hends _).2)

/-- Who ends gives up his turn, if he had it and the end is not lost; all others have nothing to give up. -/
theorem ended (hturn : TakesTurns trace s.db) (hcall : call = .commit h ∨ call = .abort h) :
    TakesTurns (trace ++ [⟨s, call⟩]) (s.step call).2.db := by
  have hkept : ∀ {h₀}, (∀ event ∈ trace, event.finishes h₀ = false) →
      (⟨s, call⟩ : Event).finishes h₀ = false → ∀ event ∈ trace ++ [⟨s, call⟩], event.finishes h₀ = false :=
    fun htrace hlast => List.forall_mem_append.mpr ⟨htrace, List.forall_mem_singleton.mpr hlast⟩
  rcases hturn with hvacant | ⟨h₀, hoccupied, hunfinished⟩
  · exact .inl (hvacant.ended hcall)
  · by_cases hh : h = h₀
    · subst hh
      rcases hoccupied.ended hcall with ⟨-, hvacant⟩ | ⟨hlost, hoccupied'⟩
      · exact .inl hvacant
      · refine .inr ⟨h, hoccupied', hkept hunfinished (Bool.eq_false_iff.mpr fun hfinishes => ?_)⟩
        exact absurd ((Event.finishes_iff.mp hfinishes).2.symm.trans hlost) (by decide)
    · refine .inr ⟨h₀, hoccupied.ended_of_ne hcall hh, hkept hunfinished (Event.finishes_eq_false ?_ ?_)⟩
      · rcases hcall with rfl | rfl <;> simp [hh]
      · rcases hcall with rfl | rfl <;> simp [hh]

end TakesTurns

/-! ### No refusals -/

/-- Whether the call is not refused, and marks nobody aborted but by rolling him back. -/
structure Event.Unrefused (event : Event) : Prop where
  answer : Answer.isRefusal event.answer = false
  marks : ∀ h, (event.after.db.txn h).state = .aborted →
    (event.before.db.txn h).state = .aborted ∨ event.aborts h = true

namespace Session

/-- A transaction begins, or is not let begin for no matter of a lock. -/
theorem step_begin_cases (s : Session) :
    ((s.step .begin).1 = .ok (.handle s.db.nextHandle) ∧ Arrived s.db (s.step .begin).2.db) ∨
      (Answer.isRefusal (s.step .begin).1 = false ∧ Untouched s.db (s.step .begin).2.db) := by
  refine act_spec (P := fun answer db' => (answer = .ok (.handle s.db.nextHandle) ∧ Arrived s.db db') ∨
    (Answer.isRefusal answer = false ∧ Untouched s.db db')) ?_
  rw [Action.ends_bind, Action.ends_mapError]
  refine (begin_ends s.db).mono ?_ ?_
  · rintro _ _ ⟨rfl, harrived⟩
    exact .inl ⟨rfl, harrived⟩
  · rintro error _ ⟨huntouched, hlost⟩
    refine .inr ⟨?_, huntouched⟩
    cases error with
    | log _ => rfl
    | aborted | finished | recordMode | unknownTable | missingBeforeImage | storage => cases hlost

/-- Who has just begun is not marked aborted, and nobody else has changed. -/
theorem unrefused_of_arrived (harrived : Arrived s.db (s.step call).2.db)
    (hok : (s.step call).1.isOk = true) : (⟨s, call⟩ : Event).Unrefused where
  answer := by
    rw [Event.answer]
    cases hanswer : (s.step call).1 with
    | ok _ => rfl
    | error _ => simp [hanswer, Except.isOk, Except.toBool] at hok
  marks := by
    intro h haborted
    left
    rw [Event.after] at haborted
    rcases Nat.lt_trichotomy h s.db.transactions.size with hlt | rfl | hgt
    · rw [← harrived.txn h hlt, haborted]
    · have hactive := harrived.active
      rw [isActive, nextHandle, haborted] at hactive
      cases hactive
    · have hge : ¬ h < (s.step call).2.db.transactions.size := by
        rw [harrived.size]
        exact Nat.not_lt.mpr hgt
      simp [Database.txn, hge] at haborted

theorem unrefused_of_same (hanswer : Answer.isRefusal (s.step call).1 = false)
    (hstate : ∀ h, ((s.step call).2.db.txn h).state = (s.db.txn h).state) :
    (⟨s, call⟩ : Event).Unrefused where
  answer := hanswer
  marks := fun h haborted => .inl ((hstate h).symm.trans haborted)

/-- An end is not refused for what others hold, and marks its own transaction at most. -/
theorem unrefused_of_ends (hcall : call = .commit h ∨ call = .abort h) : (⟨s, call⟩ : Event).Unrefused := by
  have hothers : ∀ h', h' ≠ h → (s.step call).2.db.txn h' = s.db.txn h' := by
    intro h' hne
    rcases (s.step_effect call).end_cases hcall with hsame | ⟨hk, -⟩ | ⟨catalog, hleft⟩
    · rw [hsame]
    · exact hk.txn h' (Ne.symm hne)
    · exact hleft.txn h' (Ne.symm hne)
  have hself : Answer.isRefusal (s.step call).1 = false ∧ (((s.step call).2.db.txn h).state = .aborted →
      (s.db.txn h).state = .aborted ∨ call = .abort h ∧ (s.step call).1.isOk = true) := by
    refine step_end_spec (P := fun answer db' => Answer.isRefusal answer = false ∧
      ((db'.txn h).state = .aborted → (s.db.txn h).state = .aborted ∨
        call = .abort h ∧ answer.isOk = true)) hcall (fun _ => ?_) fun habort => ?_
    · refine (commit_marks h s.db).mono (fun _ _ hstate => ⟨rfl, fun haborted => ?_⟩) ?_
      · rw [hstate] at haborted
        cases haborted
      · rintro error _ ⟨hstate, herror⟩
        exact ⟨by rw [Answer.isRefusal, StatementError.abortReason?, herror]; rfl,
          fun haborted => .inl (hstate.symm.trans haborted)⟩
    · refine (abort_marks h s.db).mono (fun _ _ _ => ⟨rfl, fun _ => .inr ⟨habort, rfl⟩⟩) ?_
      rintro error _ ⟨hstate, herror⟩
      exact ⟨by rw [Answer.isRefusal, StatementError.abortReason?, herror]; rfl,
        fun haborted => .inl (hstate.symm.trans haborted)⟩
  refine ⟨hself.1, fun h' haborted => ?_⟩
  by_cases hh : h' = h
  · subst hh
    exact (hself.2 haborted).imp_right fun habort => by simpa [Event.aborts, Event.answer] using habort
  · left
    rw [← hothers h' hh]
    exact haborted

end Session

/-- A call in a run in which transactions take turns is not refused, and they go on taking turns. -/
theorem TakesTurns.step (hturn : TakesTurns trace s.db) (hrun : Run start trace s) (call : Call)
    (hserial : ∀ h ∈ (⟨s, call⟩ : Event).opened?, ∀ h' < h, ∃ event ∈ trace, event.finishes h' = true)
    (hhand : call.isByHand = false) :
    TakesTurns (trace ++ [⟨s, call⟩]) (s.step call).2.db ∧ (⟨s, call⟩ : Event).Unrefused := by
  by_cases hend : ∃ h, call = .commit h ∨ call = .abort h
  · obtain ⟨h, hcall⟩ := hend
    exact ⟨hturn.ended hcall, Session.unrefused_of_ends hcall⟩
  have hends : ∀ h, call ≠ .commit h ∧ call ≠ .abort h := fun h => not_or.mp fun hcall => hend ⟨h, hcall⟩
  have huntouching : Untouched s.db (s.step call).2.db → Answer.isRefusal (s.step call).1 = false →
      TakesTurns (trace ++ [⟨s, call⟩]) (s.step call).2.db ∧ (⟨s, call⟩ : Event).Unrefused :=
    fun huntouched hanswer => ⟨hturn.untouched hends huntouched,
      Session.unrefused_of_same hanswer fun h => by rw [huntouched.txn]⟩
  have hidle : (s.step call).2.db = s.db → Answer.isRefusal (s.step call).1 = false →
      TakesTurns (trace ++ [⟨s, call⟩]) (s.step call).2.db ∧ (⟨s, call⟩ : Event).Unrefused :=
    fun hdb hanswer => huntouching (hdb ▸ .refl _) hanswer
  cases hasks : s.asker? call with
  | some h =>
    obtain ⟨hcalm, hanswer⟩ := Session.step_undisturbed hasks hturn.unrivalled (hends h) hhand
    cases hactive : s.db.isActive h with
    | true => exact ⟨hturn.keeps hends hactive hcalm.toKeeps, Session.unrefused_of_same hanswer hcalm.state_eq⟩
    | false => exact hidle (Session.step_idle hactive hasks (hends h).2 hhand) hanswer
  | none =>
    cases call with
    | begin =>
      rcases s.step_begin_cases with ⟨hanswer, harrived⟩ | ⟨hanswer, huntouched⟩
      · have hopened : (⟨s, .begin⟩ : Event).opened? = some s.db.nextHandle := by
          rw [Event.opened?, Event.answer, hanswer]
        exact ⟨hturn.arrived hrun (hserial _ hopened) hends harrived,
          Session.unrefused_of_arrived harrived (by rw [hanswer]; rfl)⟩
      · exact huntouching huntouched hanswer
    | adopt id =>
      have harrived := adopt_spec s.db id
      exact ⟨hturn.arrived hrun (hserial _ rfl) hends harrived, Session.unrefused_of_arrived harrived rfl⟩
    | openScan owner name plan => exact hidle rfl rfl
    | initScan i =>
      have hnone : s.scans[i]? = none := by simpa [Session.asker?] using hasks
      have hstep : s.step (.initScan i) = (.ok .done, s) := Session.actOnScan_of_none hnone _
      exact hidle (by rw [hstep]) (by rw [hstep]; rfl)
    | nextScan i =>
      have hnone : s.scans[i]? = none := by simpa [Session.asker?] using hasks
      have hstep : s.step (.nextScan i) = (.ok .done, s) := Session.actOnScan_of_none hnone _
      exact hidle (by rw [hstep]) (by rw [hstep]; rfl)
    | run | lockGap | checkGap | lockRange | commit | abort | release | releaseAll | releaseGaps => cases hasks

theorem Session.IsFresh.vacant (hfresh : start.IsFresh) : start.db.Vacant where
  spent := by simp [hfresh.transactions]
  sound := hfresh.locks ▸ LockTable.Sound.empty
  modes := fun txn r => by simp [hfresh.locks, LockTable.heldMode, LockTable.queue_empty, Queue.heldMode]
  gaps := by rw [hfresh.gaps]

end NoWait
