import NoWait.Proofs.Guard

/-!
# What a call means for one transaction

For a transaction that has begun, every call of anyone is one of five things: it is somebody else's and
leaves the transaction, its locks and the rows that it has locked alone; it is quiet; it is a statement of
the transaction; it is an abort that gets stuck; or it ends the transaction.

* `Event.alters` says that a statement leaves another row at a position, and `Event.letsGo` that a call ends a
  transaction;
* `Turn` lists the five, and `Effect.turn` says that there are no others as long as nothing is given up by
  hand;
* `Turn.isActive`, `Turn.state` and `Turn.heldMode` are what follows in all of them but an end: a transaction
  that cannot go on stays so, nothing commits it, and locks only grow.
-/

namespace NoWait

open Database

/-- Whether a commit or an abort is over, at which a transaction lets go of everything: it has succeeded, or
nothing but the record of it was lost in the log. -/
def Over (h : Handle) (answer : Except StatementError Answer) (db' : Database) : Prop :=
  (answer = .ok .done ∧ db'.isActive h = false) ∨ Answer.isLogFailure answer = true

/-- What a call is to a transaction that has begun. -/
inductive Turn (h : Handle) (s : Session) (call : Call) (answer : Except StatementError Answer)
    (db' : Database) : Prop where
  /-- Somebody else's call. -/
  | bystander : db'.txn h = s.db.txn h →
    (∀ r, db'.locks.heldMode (s.db.txn h).id r = s.db.locks.heldMode (s.db.txn h).id r) →
    (∀ name rid, s.db.HoldsRow h name rid →
      db'.catalog.rows name rid = s.db.catalog.rows name rid) →
    (∀ statement, call ≠ .run h statement) → Turn h s call answer db'
  /-- A call of the transaction that takes locks or gaps at most, or is refused. -/
  | quiet : Quiet h s.db db' → (∀ statement, call ≠ .run h statement) → Turn h s call answer db'
  | ran (statement : Statement) : call = .run h statement →
    Statement.Outcome h statement answer s.db db' → Turn h s call answer db'
  /-- An abort that has come to a write that cannot be taken back. -/
  | stuck (error : TransactionError) (left : List WriteRecord) (catalog : Catalog) :
    h < s.db.transactions.size → call = .abort h → answer = .error (.transaction error) →
    s.db.catalog.undoAll (s.db.txn h).writes = (.error error, left, catalog) →
    db' = s.db.rolledBack h left catalog → Turn h s call answer db'
  | ended : (call = .commit h ∨ call = .abort h) → Over h answer db' → Turn h s call answer db'

variable {s : Session} {call : Call} {answer : Except StatementError Answer} {db' : Database}
  {h : Handle}

/-! ### Rows that a transaction leaves altered -/

/-- Whether a call is a statement of a transaction that leaves another row at a position. -/
def Event.alters (event : Event) (h : Handle) (name : String) (rid : Rid) : Bool :=
  match event.call with
  | .run h' _ =>
    h' = h && event.after.db.catalog.rows name rid ≠ event.before.db.catalog.rows name rid
  | _ => false

theorem Event.alters_of_ne_run {name : String} {rid : Rid}
    (hrun : ∀ statement, call ≠ .run h statement) : (⟨s, call⟩ : Event).alters h name rid = false := by
  unfold Event.alters
  split
  · rename_i h' statement hcall
    have hne : h' ≠ h := fun heq => hrun statement (heq ▸ hcall)
    simp [hne]
  · rfl

theorem Event.alters_run_iff {statement : Statement} {name : String} {rid : Rid} :
    (⟨s, .run h statement⟩ : Event).alters h name rid = true ↔
      (s.step (.run h statement)).2.db.catalog.rows name rid ≠ s.db.catalog.rows name rid := by
  simp only [Event.alters, Event.after, decide_true, Bool.true_and]
  exact decide_eq_true_iff

/-! ### The five turns -/

theorem Over.isOk (hover : Over h answer db') :
    answer.isOk = true ∨ Answer.isLogFailure answer = true :=
  hover.imp_left fun hdone => by rw [hdone.1]; rfl

/-- Every call is one of these to a transaction that has begun. -/
theorem Effect.turn (heffect : Effect s call answer db') (hg : s.db.Guarded) (hids : db'.DistinctIds)
    (hhand : call.isByHand = false) (hlt : h < s.db.transactions.size) : Turn h s call answer db' := by
  have hids₀ : s.db.DistinctIds := heffect.keepsIds.distinctIds hids
  have heffect₀ := heffect
  have hothers : db'.txn h = s.db.txn h →
      (∀ r, db'.locks.heldMode (s.db.txn h).id r = s.db.locks.heldMode (s.db.txn h).id r) →
      (call ≠ .commit h ∧ call ≠ .abort h) → (∀ statement, call ≠ .run h statement) →
      Turn h s call answer db' := by
    intro htxn hmodes hends hrun
    refine .bystander htxn hmodes (fun name rid hholds => ?_) hrun
    exact (heffect₀.holdsRow hg hids hhand hlt hholds hends
      fun statement hcall => absurd hcall (hrun statement)).2
  cases heffect with
  | arrived harrived hcall =>
    have hneither : (call ≠ .commit h ∧ call ≠ .abort h) ∧ ∀ statement, call ≠ .run h statement := by
      rcases hcall with rfl | ⟨id, rfl⟩ <;> simp
    exact hothers (harrived.txn h hlt) (fun r => by rw [harrived.locks]) hneither.1 hneither.2
  | untouched huntouched hends hrun =>
    exact hothers (huntouched.txn h) (fun r => by rw [huntouched.locks]) (hends h) (hrun h)
  | @ran h' statement _ _ houtcome =>
    by_cases hh : h' = h
    · subst hh
      exact .ran statement rfl houtcome
    · have hk := houtcome.keeps
      exact hothers (hk.txn h hh) (hk.heldMode_of_ne hids₀ hlt hh) (by simp) (by simp [hh])
  | @quiet h' _ _ _ hq hends hrun =>
    by_cases hh : h' = h
    · subst hh
      exact .quiet hq (hrun h')
    · exact hothers (hq.txn h hh) (hq.heldMode_of_ne hids₀ hlt hh) (hends h) (hrun h)
  | commitRefused _ => exact .quiet (.refl h s.db) (by simp)
  | abortRefused _ => exact .quiet (.refl h s.db) (by simp)
  | @committed h' _ _ hleft hstate =>
    by_cases hh : h' = h
    · subst hh
      exact .ended (.inl rfl) (.inl ⟨rfl, by rw [isActive, hstate]; rfl⟩)
    · exact hothers (hleft.txn h hh) (hleft.heldMode_of_ne hg.toLocksExact hids₀ hlt hh)
        (by simp [hh]) (by simp)
  | @commitLost h' _ _ hleft hlost =>
    by_cases hh : h' = h
    · subst hh
      exact .ended (.inl rfl) (.inr hlost)
    · exact hothers (hleft.txn h hh) (hleft.heldMode_of_ne hg.toLocksExact hids₀ hlt hh)
        (by simp [hh]) (by simp)
  | @abortStuck h' error left catalog hlt' hundo =>
    by_cases hh : h' = h
    · subst hh
      exact .stuck error left catalog hlt rfl rfl hundo rfl
    · have hk := keeps_rolledBack h' s.db left catalog
      exact hothers (hk.txn h hh) (hk.heldMode_of_ne hids₀ hlt hh) (by simp [hh]) (by simp)
  | @aborted h' catalog _ _ hlt' hundo hleft hended =>
    by_cases hh : h' = h
    · subst hh
      refine .ended (.inr rfl) (hended.imp_left fun hdone => ⟨hdone.1, ?_⟩)
      rw [isActive, hdone.2]
      rfl
    · have hk := keeps_rolledBack h' s.db [] catalog
      have hg' := hg.rolledBack hids₀ hlt' hundo
      have hids' := hleft.keepsIds.distinctIds hids
      have hmodes : ∀ r, db'.locks.heldMode (s.db.txn h).id r =
          s.db.locks.heldMode (s.db.txn h).id r := by
        intro r
        rw [← hk.heldMode_of_ne hids₀ hlt hh r, ← hk.ids h]
        exact hleft.heldMode_of_ne hg'.toLocksExact hids' (hk.size ▸ hlt) hh r
      exact hothers ((hleft.txn h hh).trans (hk.txn h hh)) hmodes (by simp [hh]) (by simp)
  | released _ => cases hhand
  | releasedAll _ => cases hhand
  | releasedGaps _ => cases hhand

/-- A statement keeps what it does not change. -/
theorem Statement.Outcome.isActive {statement : Statement} {db : Database}
    (houtcome : Statement.Outcome h statement answer db db') (hactive : db'.isActive h = true) :
    db.isActive h = true := by
  cases houtcome.did with
  | quiet hq _ =>
    rcases hq.state with heq | haborted
    · rwa [Database.isActive, heq] at hactive
    · simp [Database.isActive, haborted, TransactionState.isFinished] at hactive
  | wrote _ _ hw _ _ _ => exact hw.active
  | missed _ hw _ _ _ => exact hw.active

/-- A transaction that can go on after a call could go on before it, unless the call was an end that got
lost in the log. -/
theorem Turn.isActive (hturn : Turn h s call answer db') (hactive : db'.isActive h = true)
    (hsure : call = .commit h ∨ call = .abort h → Answer.isLogFailure answer = false) :
    s.db.isActive h = true := by
  cases hturn with
  | bystander htxn _ _ _ => rwa [Database.isActive, htxn] at hactive
  | quiet hq _ =>
    rcases hq.state with heq | haborted
    · rwa [Database.isActive, heq] at hactive
    · simp [Database.isActive, haborted, TransactionState.isFinished] at hactive
  | ran statement _ houtcome => exact houtcome.isActive hactive
  | stuck error left catalog hlt _ _ _ hdb =>
    rw [hdb, Database.isActive, txn_rolledBack hlt] at hactive
    exact hactive
  | ended hcall hanswer =>
    rcases hanswer with ⟨_, hinactive⟩ | hlost
    · exact absurd (hinactive.symm.trans hactive) (by decide)
    · exact absurd (hlost.symm.trans (hsure hcall)) (by decide)

/-- Until it ends, a transaction stays in its state, or is marked aborted. -/
theorem Turn.state (hturn : Turn h s call answer db')
    (hgoing : call = .commit h ∨ call = .abort h → ¬ Over h answer db') :
    (db'.txn h).state = (s.db.txn h).state ∨ (db'.txn h).state = .aborted := by
  cases hturn with
  | bystander htxn _ _ _ => exact .inl (by rw [htxn])
  | quiet hq _ => exact hq.state
  | ran statement _ houtcome =>
    cases houtcome.did with
    | quiet hq _ => exact hq.state
    | wrote _ _ hw _ _ _ => exact .inl hw.state
    | missed _ hw _ _ _ => exact .inl hw.state
  | stuck error left catalog hlt _ _ _ hdb =>
    left
    rw [hdb, txn_rolledBack hlt]
  | ended hcall hover => exact absurd hover (hgoing hcall)

/-- Until it ends, a transaction keeps its number, and holds on every resource at least what it has held
there. -/
theorem Turn.heldMode (hturn : Turn h s call answer db')
    (hgoing : call = .commit h ∨ call = .abort h → ¬ Over h answer db') :
    (db'.txn h).id = (s.db.txn h).id ∧
      ∀ r held, s.db.locks.heldMode (s.db.txn h).id r = some held →
        ∃ held', db'.locks.heldMode (s.db.txn h).id r = some held' ∧ held'.covers held = true := by
  have hkeeps : Keeps h s.db db' → (db'.txn h).id = (s.db.txn h).id ∧
      ∀ r held, s.db.locks.heldMode (s.db.txn h).id r = some held →
        ∃ held', db'.locks.heldMode (s.db.txn h).id r = some held' ∧ held'.covers held = true :=
    fun hk => ⟨hk.id, hk.mode⟩
  cases hturn with
  | bystander htxn hmodes _ _ =>
    exact ⟨by rw [htxn], fun r held hheld => ⟨held, by rw [hmodes, hheld], Mode.covers_self held⟩⟩
  | quiet hq _ => exact hkeeps hq.toKeeps
  | ran statement _ houtcome => exact hkeeps houtcome.keeps
  | stuck error left catalog _ _ _ _ hdb => exact hkeeps (hdb ▸ keeps_rolledBack h s.db left catalog)
  | ended hcall hover => exact absurd hover (hgoing hcall)

/-! ### Locks that a transaction has let go of -/

/-- Whether a call ends a transaction, which lets go of everything at that, even if the record of its end is
lost in the log. -/
def Event.letsGo (event : Event) (h : Handle) : Bool :=
  (event.call = .commit h || event.call = .abort h) && (event.answer.isOk || event.failsLog)

theorem Event.not_over_of_letsGo (hgoes : (⟨s, call⟩ : Event).letsGo h = false)
    (hcall : call = .commit h ∨ call = .abort h) : ¬ Over h (s.step call).1 (s.step call).2.db := by
  intro hover
  have hanswer : (⟨s, call⟩ : Event).letsGo h = true := by
    rcases hcall with rfl | rfl
    · simpa [Event.letsGo, Event.answer, Event.failsLog] using hover.isOk
    · simpa [Event.letsGo, Event.answer, Event.failsLog] using hover.isOk
  rw [hanswer] at hgoes
  cases hgoes

end NoWait
