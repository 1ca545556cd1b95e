import NoWait.Proofs.Guard

/-!
# An abort restores the rows

A transaction that is rolled back leaves every row that it has written, and the index entry with it, as it
was just before the transaction first wrote there, whatever the others have done in between; and it leaves
every other row alone.

* `Event.changes` says that a call changes a row for a transaction, and `sessionBefore` finds the session
  just before the first such call, as `firstBefore` does for calls of any kind;
* `Revertible` is what holds of an unfinished transaction throughout a run: its writes can be taken back,
  and lead to these rows; `Revertible.of_step` is one call;
* `abort_restores_rows` is the result.
-/

namespace NoWait

open Database

/-- Whether a call changes the row at a position for a transaction. -/
def Event.changes (event : Event) (h : Handle) (name : String) (rid : Rid) : Bool :=
  match event.call with
  | .run h' statement => h' = h && statement.target? event.answer = some (name, rid)
  | _ => false

/-- The session just before a transaction first changed the row at a position; the last session of the
run, if it never did. -/
def sessionBefore (trace : List Event) (last : Session) (h : Handle) (name : String) (rid : Rid) :
    Session :=
  ((trace.find? (·.changes h name rid)).map (·.before)).getD last

/-- The session just before the first call of a kind; the last session of the run, if there is none. -/
def firstBefore (kind : Event → Bool) (trace : List Event) (last : Session) : Session :=
  ((trace.find? kind).map (·.before)).getD last

/-- Whether nothing is given up by hand in a run, and the log takes every record. -/
def Managed (trace : List Event) : Prop :=
  ∀ event ∈ trace, event.call.isByHand = false ∧ event.failsLog = false

/-- What holds of a transaction that has not ended: its writes can be taken back, there is one at each
position that it has touched, and taking them back gives the rows from before it did.  What it is to touch
a position is left open: to change the row there, or to have a write entered for it. -/
structure Revertible (touches : Event → String → Rid → Bool) (trace : List Event) (h : Handle)
    (s : Session) : Prop where
  state : h < s.db.transactions.size → (s.db.txn h).state ≠ .committed
  undoable : Undoable s.db.catalog.shapes s.db.catalog.rows (s.db.txn h).writes
  written : ∀ event ∈ trace, ∀ name rid, touches event name rid = true →
    ∃ write ∈ (s.db.txn h).writes, write.isAt name rid
  rows : ∀ name rid, s.db.catalog.rows.revertAll (s.db.txn h).writes name rid =
    (firstBefore (touches · name rid) trace s).db.catalog.rows name rid

variable {touches : Event → String → Rid → Bool} {start s : Session} {call : Call}
  {answer : Except StatementError Answer} {db' : Database}
  {trace : List Event} {h : Handle} {name : String} {rid : Rid}

/-! ### The first call of a kind -/

/-- The first call of a kind stays the first. -/
theorem firstBefore_snoc (kind : Event → Bool) (trace : List Event) (s last : Session) (call : Call) :
    firstBefore kind (trace ++ [⟨s, call⟩]) last =
      if trace.any kind ∨ kind ⟨s, call⟩ = true then firstBefore kind trace s else last := by
  unfold firstBefore
  rw [List.find?_append]
  cases hfind : trace.find? kind with
  | some event =>
    have hany : trace.any kind = true :=
      List.any_eq_true.mpr
        ⟨event, List.mem_of_find?_eq_some hfind, by simpa using List.find?_some hfind⟩
    simp [hany]
  | none =>
    have hany : trace.any kind = false := by
      simpa [List.find?_eq_none, List.any_eq_false] using hfind
    by_cases hkind : kind ⟨s, call⟩ = true
    · simp [hany, hkind]
    · simp [hany, hkind]

/-- Where there has been no call of a kind, the last session is looked at. -/
theorem firstBefore_of_none {kind : Event → Bool} (last : Session)
    (hnone : ∀ event ∈ trace, kind event = false) : firstBefore kind trace last = last := by
  have hfind : trace.find? kind = none := by
    simpa [List.find?_eq_none] using hnone
  rw [firstBefore, hfind]
  rfl

/-! ### One call -/

/-- Writing is no obstacle to taking the writes back. -/
theorem Database.Wrote.undoable {db : Database} {write : WriteRecord} {row : Option Bytes}
    (hw : Wrote h write row db db') (hs : db.catalog.Sound)
    (hkind : write.kind = .delete ↔ row = none)
    (hundoable : Undoable db.catalog.shapes db.catalog.rows (db.txn h).writes) :
    Undoable db'.catalog.shapes db'.catalog.rows (db'.txn h).writes := by
  have hchange := hw.change hs
  rw [hchange.shapes, hw.writes]
  refine ⟨?_, hchange.kind, ?_, ?_⟩
  · obtain ⟨shape, hshape, _⟩ := hchange.lock
    refine ⟨shape, hshape, fun bytes himage => ?_⟩
    obtain ⟨shape', hshape', hfits⟩ := hs.fits (hchange.image.symm.trans himage)
    rw [hshape] at hshape'
    cases hshape'
    exact hfits
  · rw [hchange.rows, Rows.set_self]
    exact hkind
  · rw [hchange.revert]
    exact hundoable

/-- A transaction can be rolled back after a call that writes nothing for it and leaves its rows alone as
well as before. -/
theorem Revertible.of_same (hr : Revertible touches trace h s)
    (hstate : h < db'.transactions.size → (db'.txn h).state ≠ .committed)
    (hwrites : (db'.txn h).writes = (s.db.txn h).writes)
    (hshapes : db'.catalog.shapes = s.db.catalog.shapes)
    (hrows : ∀ write ∈ (s.db.txn h).writes, ∀ name rid, write.isAt name rid →
      db'.catalog.rows name rid = s.db.catalog.rows name rid)
    (hnot : ∀ name rid, touches ⟨s, call⟩ name rid = false) {s' : Session} (hs' : s'.db = db') :
    Revertible touches (trace ++ [⟨s, call⟩]) h s' where
  state := by rw [hs']; exact hstate
  undoable := by
    rw [hs', hwrites, hshapes]
    exact hr.undoable.congr fun write hmem => hrows write hmem _ _ ⟨rfl, rfl⟩
  written := by
    intro event hmem name rid htouch
    rw [hs', hwrites]
    rcases List.mem_append.mp hmem with hmem | hmem
    · exact hr.written event hmem name rid htouch
    · rw [List.mem_singleton.mp hmem, hnot] at htouch
      cases htouch
  rows := by
    intro name rid
    rw [firstBefore_snoc, hs', hwrites]
    by_cases hwritten : ∃ write ∈ (s.db.txn h).writes, write.isAt name rid
    · obtain ⟨write, hmem, hat⟩ := hwritten
      rw [Rows.revertAll_congr (hrows write hmem name rid hat), hr.rows]
      split
      · rfl
      · rename_i hnone
        have hbefore : ∀ event ∈ trace, touches event name rid = false := by
          simpa using (not_or.mp hnone).1
        rw [firstBefore_of_none s hbefore, hs', hrows write hmem name rid hat]
    · have hbefore : ∀ event ∈ trace, touches event name rid = false := by
        intro event hmem
        by_contra htouch
        exact hwritten (hr.written event hmem name rid (by simpa using htouch))
      have hany : trace.any (touches · name rid) = false := by simpa using hbefore
      rw [if_neg (by simp [hany, hnot]), hs', Rows.revertAll_of_not_isAt]
      exact fun write hmem hat => hwritten ⟨write, hmem, hat⟩

/-- A quiet step of anyone leaves a transaction as well off as before. -/
theorem Revertible.of_quiet {h' : Handle} (hr : Revertible touches trace h s) (hg : s.db.Guarded)
    (hq : Quiet h' s.db db') (hnot : ∀ name rid, touches ⟨s, call⟩ name rid = false) {s' : Session}
    (hs' : s'.db = db') : Revertible touches (trace ++ [⟨s, call⟩]) h s' := by
  have hrows := hq.rows hg.catalog
  refine hr.of_same (fun hlt => ?_) ?_ hrows.shapes (fun _ _ _ _ _ => by rw [hrows.rows]) hnot hs'
  · have hstate := hr.state (hq.size ▸ hlt)
    by_cases hh : h' = h
    · subst hh
      rcases hq.state with heq | haborted
      · rwa [heq]
      · rw [haborted]
        decide
    · rwa [hq.txn h hh]
  · by_cases hh : h' = h
    · subst hh
      exact hq.writes
    · rw [hq.txn h hh]

/-- A transaction can be rolled back after it has written something. -/
theorem Revertible.of_wrote {write : WriteRecord} {row : Option Bytes}
    (hr : Revertible touches trace h s) (hw : Wrote h write row s.db db') (hs : s.db.catalog.Sound)
    (hkind : write.kind = .delete ↔ row = none)
    (htouches : ∀ name rid, touches ⟨s, call⟩ name rid = true ↔
      write.isAt name rid ∧ touches ⟨s, call⟩ write.table write.rid = true)
    (hmissed : touches ⟨s, call⟩ write.table write.rid = false → row = write.image)
    {s' : Session} (hs' : s'.db = db') : Revertible touches (trace ++ [⟨s, call⟩]) h s' where
  state := by
    intro hlt
    rw [hs', hw.state]
    exact hr.state (lt_of_isActive hw.active)
  undoable := by
    rw [hs']
    exact hw.undoable hs hkind hr.undoable
  written := by
    intro event hmem name rid htouch
    rw [hs', hw.writes]
    rcases List.mem_append.mp hmem with hmem | hmem
    · obtain ⟨old, hold, hat⟩ := hr.written event hmem name rid htouch
      exact ⟨old, List.mem_cons_of_mem _ hold, hat⟩
    · rw [List.mem_singleton.mp hmem, htouches] at htouch
      exact ⟨write, List.mem_cons_self, htouch.1⟩
  rows := by
    intro name rid
    have hchange := hw.change hs
    have hrevert : db'.catalog.rows.revertAll (db'.txn h).writes =
        s.db.catalog.rows.revertAll (s.db.txn h).writes := by
      rw [hw.writes, Rows.revertAll_cons, hchange.revert]
    rw [firstBefore_snoc, hs', hrevert, hr.rows]
    split
    · rfl
    · rename_i hnone
      have hbefore : ∀ event ∈ trace, touches event name rid = false := by
        simpa using (not_or.mp hnone).1
      rw [firstBefore_of_none s hbefore, hs', hchange.rows]
      by_cases hat : write.isAt name rid
      · have hmissed : row = write.image := by
          apply hmissed
          have hnow := (not_or.mp hnone).2
          rw [htouches] at hnow
          simpa [hat] using hnow
        obtain ⟨rfl, rfl⟩ := hat
        rw [Rows.set_self, hmissed, hchange.image]
      · rw [Rows.set_of_ne hat]

/-! ### Any call -/

theorem Database.lt_of_mem_writes {db : Database} {write : WriteRecord}
    (hmem : write ∈ (db.txn h).writes) : h < db.transactions.size := by
  by_contra hge
  simp [Database.txn, hge] at hmem

theorem Event.changes_of_ne_run (hrun : ∀ statement, call ≠ .run h statement) :
    (⟨s, call⟩ : Event).changes h name rid = false := by
  unfold Event.changes
  split
  · rename_i h' statement hcall
    have hne : h' ≠ h := fun heq => hrun statement (heq ▸ hcall)
    simp [hne]
  · rfl

/-- A call of others leaves a transaction as well off as before. -/
theorem Revertible.of_others (hr : Revertible touches trace h s) (hg : s.db.Guarded)
    (heffect : Effect s call answer db') (hids : db'.DistinctIds) (hhand : call.isByHand = false)
    (hnot : ∀ name rid, touches ⟨s, call⟩ name rid = false)
    (hrun : ∀ statement, call ≠ .run h statement) (hends : call ≠ .commit h ∧ call ≠ .abort h)
    (htxn : db'.txn h = s.db.txn h) (hsize : h < db'.transactions.size → h < s.db.transactions.size)
    {s' : Session} (hs' : s'.db = db') : Revertible touches (trace ++ [⟨s, call⟩]) h s' := by
  refine hr.of_same (fun hlt => ?_) (by rw [htxn]) (heffect.shapes hg) ?_ hnot hs'
  · rw [htxn]
    exact hr.state (hsize hlt)
  · intro write hmem name rid hat
    have hlt := lt_of_mem_writes hmem
    exact (heffect.holdsRow hg hids hhand hlt (hg.holdsRow hlt hmem hat) hends
      fun statement hcall => absurd hcall (hrun statement)).2

/-- The beginning of a transaction leaves all of them as well off as before, itself included. -/
theorem Revertible.of_arrived (hr : Revertible touches trace h s) (hg : s.db.Guarded)
    (heffect : Effect s call answer db') (hids : db'.DistinctIds) (harrived : Arrived s.db db')
    (hnot : ∀ name rid, touches ⟨s, call⟩ name rid = false)
    (hcall : call = .begin ∨ ∃ id, call = .adopt id) {s' : Session} (hs' : s'.db = db') :
    Revertible touches (trace ++ [⟨s, call⟩]) h s' := by
  have hrun : ∀ statement, call ≠ .run h statement := by
    rintro statement rfl
    simp at hcall
  by_cases hlt : h < s.db.transactions.size
  · have hends : call ≠ .commit h ∧ call ≠ .abort h := by
      constructor <;> rintro rfl <;> simp at hcall
    have hhand : call.isByHand = false := by
      rcases hcall with rfl | ⟨id, rfl⟩ <;> rfl
    exact hr.of_others hg heffect hids hhand hnot hrun hends (harrived.txn h hlt) (fun _ => hlt) hs'
  · have hnone : (s.db.txn h).writes = [] := by simp [Database.txn, hlt]
    have hnew : (db'.txn h).writes = [] ∧
        (h < db'.transactions.size → (db'.txn h).state ≠ .committed) := by
      by_cases hh : h = s.db.nextHandle
      · rw [hh]
        refine ⟨harrived.writes, fun _ hstate => ?_⟩
        have hactive := harrived.active
        simp [isActive, hstate, TransactionState.isFinished] at hactive
      · have hge : ¬ h < db'.transactions.size := by
          rw [harrived.size]
          exact fun hlt' => hlt (Nat.lt_of_le_of_ne (Nat.le_of_lt_succ hlt') hh)
        exact ⟨by simp [Database.txn, hge], fun hlt' => absurd hlt' hge⟩
    refine hr.of_same hnew.2 (by rw [hnew.1, hnone]) (heffect.shapes hg) ?_ hnot hs'
    rw [hnone]
    simp

/-- A transaction that a call does not end can be rolled back after it as well as before, if that is so
of its own statements. -/
theorem Revertible.of_step (hr : Revertible touches trace h s) (hg : s.db.Guarded)
    (hids : (s.step call).2.db.DistinctIds) (hhand : call.isByHand = false)
    (hgoing : call = .commit h ∨ call = .abort h →
      ¬ ((s.step call).1.isOk = true ∨ Answer.isLogFailure (s.step call).1 = true))
    (hnot : (∀ statement, call ≠ .run h statement) → ∀ name rid, touches ⟨s, call⟩ name rid = false)
    (hran : ∀ statement, call = .run h statement →
      Statement.Outcome h statement (s.step call).1 s.db (s.step call).2.db →
      Revertible touches (trace ++ [⟨s, call⟩]) h (s.step call).2) :
    Revertible touches (trace ++ [⟨s, call⟩]) h (s.step call).2 := by
  have heffect := s.step_effect call
  generalize hanswer : (s.step call).1 = answer at heffect hgoing hran
  generalize hdb : (s.step call).2.db = db' at heffect hids hran
  have heffect₀ := heffect
  cases heffect with
  | arrived harrived hcall =>
    have hrun : ∀ statement, call ≠ .run h statement := by
      rcases hcall with rfl | ⟨id, rfl⟩ <;> simp
    exact hr.of_arrived hg heffect₀ hids harrived (hnot hrun) hcall hdb
  | untouched huntouched hends hrun =>
    exact hr.of_others hg heffect₀ hids hhand (hnot (hrun h)) (hrun h) (hends h) (huntouched.txn h)
      (by rw [huntouched.transactions]; exact id) hdb
  | @ran h' statement _ _ houtcome =>
    by_cases hh : h' = h
    · subst hh
      exact hran statement rfl houtcome
    · have hkeeps := houtcome.keeps
      exact hr.of_others hg heffect₀ hids hhand (hnot (by simp [hh])) (by simp [hh]) (by simp)
        (hkeeps.txn h hh) (by rw [hkeeps.size]; exact id) hdb
  | @quiet h' _ _ _ hquiet hends hrun => exact hr.of_quiet hg hquiet (hnot (hrun h)) hdb
  | commitRefused _ => exact hr.of_quiet hg (.refl h s.db) (hnot (by simp)) hdb
  | @committed h' _ _ hleft _ =>
    have hne : h' ≠ h := by
      rintro rfl
      exact hgoing (.inl rfl) (.inl rfl)
    exact hr.of_others hg heffect₀ hids hhand (hnot (by simp)) (by simp) (by simp [hne])
      (hleft.txn h hne) (by rw [hleft.size]; exact id) hdb
  | @commitLost h' _ _ hleft hlost =>
    have hne : h' ≠ h := by
      rintro rfl
      exact hgoing (.inl rfl) (.inr hlost)
    exact hr.of_others hg heffect₀ hids hhand (hnot (by simp)) (by simp) (by simp [hne])
      (hleft.txn h hne) (by rw [hleft.size]; exact id) hdb
  | abortRefused _ => exact hr.of_quiet hg (.refl h s.db) (hnot (by simp)) hdb
  | @abortStuck h' _ _ _ hlt hundo =>
    have hne : h' ≠ h := by
      rintro rfl
      obtain ⟨catalog', hall⟩ := Catalog.undoAll_of_undoable hg.catalog hr.undoable
      rw [hundo] at hall
      cases hall
    have hkeeps := keeps_rolledBack h' s.db
    exact hr.of_others hg heffect₀ hids hhand (hnot (by simp)) (by simp) (by simp [hne])
      ((hkeeps _ _).txn h hne) (by rw [(hkeeps _ _).size]; exact id) hdb
  | @aborted h' catalog _ _ hlt hundo hleft hanswer' =>
    have hne : h' ≠ h := by
      rintro rfl
      refine hgoing (.inr rfl) (hanswer'.imp_left fun hdone => ?_)
      rw [hdone.1]
      rfl
    have hkeeps := keeps_rolledBack h' s.db [] catalog
    exact hr.of_others hg heffect₀ hids hhand (hnot (by simp)) (by simp) (by simp [hne])
      ((hleft.txn h hne).trans (hkeeps.txn h hne)) (by rw [hleft.size, hkeeps.size]; exact id) hdb
  | released _ => cases hhand
  | releasedAll _ => cases hhand
  | releasedGaps _ => cases hhand

/-- A transaction can be rolled back after one of its own statements, unless the log has failed. -/
theorem Revertible.of_statement {statement : Statement}
    (hr : Revertible (·.changes h) trace h s) (hg : s.db.Guarded)
    (houtcome : Statement.Outcome h statement answer s.db db') (hlog : Answer.isLogFailure answer = false)
    (hevent : (⟨s, .run h statement⟩ : Event).answer = answer) {s' : Session} (hs' : s'.db = db') :
    Revertible (·.changes h) (trace ++ [⟨s, .run h statement⟩]) h s' := by
  have hchanges : ∀ name rid, (⟨s, .run h statement⟩ : Event).changes h name rid = true ↔
      statement.target? answer = some (name, rid) := by
    intro name rid
    simp [Event.changes, hevent]
  cases houtcome.did with
  | quiet hquiet htarget =>
    refine hr.of_quiet hg hquiet (fun name rid => ?_) hs'
    rw [Bool.eq_false_iff, Ne, hchanges, htarget]
    simp
  | wrote write row hw hname htarget hwrite =>
    have htarget := htarget hlog
    refine hr.of_wrote hw hg.catalog (Statement.kind_eq_delete_iff hwrite.1) (fun name rid => ?_)
      (fun hnone => ?_) hs'
    · rw [hchanges, hchanges, htarget]
      simp [WriteRecord.isAt]
    · rw [Bool.eq_false_iff, Ne, hchanges, htarget] at hnone
      exact absurd rfl hnone
  | missed write hw hname htarget hwrite =>
    have hkind := hwrite.2.2 hlog
    have himage := (hw.change hg.catalog).image_ne_none hwrite.2.1
    refine hr.of_wrote hw hg.catalog (by simp [hkind, himage]) (fun name rid => ?_)
      (fun _ => rfl) hs'
    rw [hchanges, hchanges, htarget]
    simp

/-! ### Runs -/

/-- Where nothing has been written yet, there is nothing in the way of a rollback. -/
theorem Session.IsFresh.revertible (hfresh : start.IsFresh) (touches : Event → String → Rid → Bool)
    (h : Handle) : Revertible touches [] h start := by
  have hnone : (start.db.txn h).writes = [] := by simp [Database.txn, hfresh.transactions]
  refine ⟨fun hlt => ?_, ?_, by simp, fun name rid => ?_⟩
  · rw [hfresh.transactions] at hlt
    exact absurd hlt (Nat.not_lt_zero h)
  · rw [hnone]
    trivial
  · rw [hnone]
    rfl

/-- A commit or an abort that does not end its transaction is not acknowledged. -/
theorem Event.isOk_eq_false (hcall : call = .commit h ∨ call = .abort h)
    (hopen : (⟨s, call⟩ : Event).commits h = false ∧ (⟨s, call⟩ : Event).aborts h = false) :
    (s.step call).1.isOk = false := by
  obtain ⟨hcommit, habort⟩ := hopen
  rcases hcall with rfl | rfl
  · simpa [Event.commits, Event.answer] using hcommit
  · simpa [Event.aborts, Event.answer] using habort

/-- A transaction that has not ended can be rolled back, after any run in which nothing is given up by
hand and the log takes every record. -/
theorem Run.revertible (hrun : Run start trace s) (hfresh : start.IsFresh)
    (hcatalog : start.db.catalog.Sound) (hids : s.db.DistinctIds) (hmanaged : Managed trace)
    (hopen : ∀ event ∈ trace, event.commits h = false ∧ event.aborts h = false) :
    Revertible (·.changes h) trace h s := by
  induction hrun with
  | nil => exact hfresh.revertible _ h
  | @snoc trace s call hrun ih =>
    have hmanaged₀ : Managed trace := fun event hmem => hmanaged event (List.mem_append_left _ hmem)
    have hlast : (⟨s, call⟩ : Event) ∈ trace ++ [⟨s, call⟩] := by simp
    obtain ⟨hg, hids₀, _, hnow⟩ := hrun.before_last (hfresh.guarded hcatalog) hids
      fun event hmem => (hmanaged event hmem).1
    have hr := ih hids₀ hmanaged₀ fun event hmem => hopen event (List.mem_append_left _ hmem)
    have hlog : Answer.isLogFailure (s.step call).1 = false := (hmanaged _ hlast).2
    refine hr.of_step hg hids hnow ?_ (fun hrun _ _ => Event.changes_of_ne_run hrun) ?_
    · intro hcall
      simp [Event.isOk_eq_false hcall (hopen _ hlast), hlog]
    · intro statement hcall houtcome
      subst hcall
      exact hr.of_statement hg houtcome hlog rfl rfl

/-- The abort of a transaction that can be rolled back succeeds, unless the log fails, and leaves every row
as it was just before the transaction first touched its position. -/
theorem Revertible.abort (hr : Revertible touches trace h s) (hg : s.db.Guarded)
    (hbegun : h < s.db.transactions.size) (hlog : (⟨s, .abort h⟩ : Event).failsLog = false) :
    (s.step (.abort h)).1 = .ok .done ∧ (s.step (.abort h)).2.db.catalog.Sound ∧
      (s.step (.abort h)).2.db.catalog.shapes = s.db.catalog.shapes ∧
      ∀ name rid, (s.step (.abort h)).2.db.catalog.rows name rid =
        (firstBefore (touches · name rid) trace s).db.catalog.rows name rid := by
  have heffect := s.step_effect (.abort h)
  generalize hanswer : (s.step (.abort h)).1 = answer at heffect
  generalize hdb : (s.step (.abort h)).2.db = db' at heffect
  rw [Event.failsLog, Event.answer, hanswer] at hlog
  cases heffect with
  | arrived _ hcall => simp at hcall
  | untouched _ hends _ => exact absurd rfl (hends h).2
  | quiet _ hends _ => exact absurd rfl (hends h).2
  | abortRefused hcommitted => exact absurd hcommitted (hr.state hbegun)
  | abortStuck _ hundo =>
    obtain ⟨catalog', hall⟩ := Catalog.undoAll_of_undoable hg.catalog hr.undoable
    rw [hundo] at hall
    cases hall
  | @aborted _ catalog _ _ hlt hundo hleft hended =>
    obtain ⟨hsound, hsame, undone, hwrites, hrows⟩ := Catalog.undoAll_spec hg.catalog hundo
    rw [List.append_nil] at hwrites
    have hcatalog : db'.catalog = catalog := hleft.catalog
    rw [hcatalog]
    refine ⟨?_, hsound, hsame, fun name rid => ?_⟩
    · rcases hended with ⟨hok, _⟩ | hlost
      · exact hok
      · exact absurd (hlost.symm.trans hlog) (by decide)
    · rw [hrows, ← hwrites, hr.rows]

/-- The abort of a transaction that has not ended succeeds, and leaves every row and every index entry as
they were just before the transaction first changed the row at their position; if it never did, as they
were just before the abort. -/
theorem abort_restores_rows (hrun : Run start trace s) (hfresh : start.IsFresh)
    (hcatalog : start.db.catalog.Sound) (hids : s.db.DistinctIds) (hmanaged : Managed trace)
    (hopen : ∀ event ∈ trace, event.commits h = false ∧ event.aborts h = false)
    (hbegun : h < s.db.transactions.size) (hlog : (⟨s, .abort h⟩ : Event).failsLog = false) :
    (s.step (.abort h)).1 = .ok .done ∧
      ∀ name rid,
        (s.step (.abort h)).2.db.catalog.rows name rid =
          (sessionBefore trace s h name rid).db.catalog.rows name rid ∧
        ∀ key, (s.step (.abort h)).2.db.catalog.entryCount name key rid =
          (sessionBefore trace s h name rid).db.catalog.entryCount name key rid := by
  have hr := hrun.revertible hfresh hcatalog hids hmanaged hopen
  obtain ⟨hg, hguarded⟩ :=
    hrun.guarded (hfresh.guarded hcatalog) hids fun event hmem => (hmanaged event hmem).1
  obtain ⟨hshapes, hbefore⟩ := hrun.shapes hguarded
  -- The session before the first change is one of the run: its catalog is sound and has the same shapes.
  have horigin : ∀ name rid, (sessionBefore trace s h name rid).db.Guarded ∧
      (sessionBefore trace s h name rid).db.catalog.shapes = s.db.catalog.shapes := by
    intro name rid
    unfold sessionBefore
    cases hfind : trace.find? (·.changes h name rid) with
    | none => exact ⟨hg, rfl⟩
    | some event =>
      have hmem := List.mem_of_find?_eq_some hfind
      exact ⟨hguarded event hmem, (hbefore event hmem).trans hshapes.symm⟩
  obtain ⟨hok, hsound, hsame, hrows⟩ := hr.abort hg hbegun hlog
  refine ⟨hok, fun name rid => ?_⟩
  have hrow : (s.step (.abort h)).2.db.catalog.rows name rid =
      (sessionBefore trace s h name rid).db.catalog.rows name rid := hrows name rid
  refine ⟨hrow, fun key => ?_⟩
  exact Catalog.Sound.entryCount_congr (horigin name rid).1.catalog hsound
    (hsame.trans (horigin name rid).2.symm) hrow key

/-- A transaction that has put a row of its own in place of one that it has deleted is rolled back. -/
theorem abort_restores_rows_replaced :
    let calls : List Call := [.begin, .run 0 (.insert "t" [5]), .commit 0, .begin,
      .run 1 (.delete "t" ⟨0, 0⟩), .run 1 (.insert "t" [7])]
    let s := Session.oneTable.play calls
    s.db.catalog.rows "t" ⟨0, 0⟩ = some [7] ∧ (s.step (.abort 1)).1 = .ok .done ∧
      (s.step (.abort 1)).2.db.catalog.rows "t" ⟨0, 0⟩ = some [5] := by
  intro calls s
  have hmanaged : Managed (Session.oneTable.trace calls) := by
    unfold Managed
    decide +kernel
  have hbefore : (sessionBefore (Session.oneTable.trace calls) s 1 "t" ⟨0, 0⟩).db.catalog.rows
      "t" ⟨0, 0⟩ = some [5] := by decide +kernel
  have hrun : Run Session.oneTable (Session.oneTable.trace calls) s := .of_calls _ calls
  obtain ⟨hok, hrestored⟩ := abort_restores_rows (h := 1) hrun Session.oneTable_isFresh
    Session.oneTable_sound (by decide +kernel) hmanaged (by decide +kernel) (by decide +kernel)
    (by decide +kernel)
  have hrow := (hrestored "t" ⟨0, 0⟩).1
  rw [hbefore] at hrow
  exact ⟨by decide +kernel, hok, hrow⟩

end NoWait
