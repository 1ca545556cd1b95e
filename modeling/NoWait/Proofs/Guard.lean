import NoWait.Proofs.LockSets

/-!
# Unfinished writes are guarded by exclusive locks

As long as nobody gives up a lock by hand, a transaction holds an exclusive lock on every position that it
has entered a write for, from the statement that wrote there to its end.  So nobody else has a hold on
that position, and what another transaction has a hold on does not change.

* `Database.Guarded` says so; `Effect.guarded` and `Run.guarded` that every call keeps it;
* `Guarded.eq_of_holdsRow` is the exclusion, and `Effect.holdsRow` what follows for a transaction that has
  locked a row: nothing that others do touches the row or the lock.
-/

namespace NoWait

namespace Database

/-- Every unfinished write is at a position that its transaction has locked exclusively, in a catalog
that is sound, under locks that the lock-sets know. -/
structure Guarded (db : Database) : Prop extends LocksExact db where
  catalog : db.catalog.Sound
  covered : ∀ h < db.transactions.size, ∀ write ∈ (db.txn h).writes, ∃ shape,
    db.catalog.shapes write.table = some shape ∧
      db.locks.heldMode (db.txn h).id (.record shape.id write.rid) = some .exclusive

variable {h h' : Handle} {db mid db' : Database} {name : String} {rid : Rid} {write : WriteRecord}
  {row : Option Bytes}

/-! ### The hold of one transaction through the steps of another -/

theorem Keeps.heldMode_of_ne (hk : Keeps h db db') (hids : db.DistinctIds)
    (hlt' : h' < db.transactions.size) (hne : h ≠ h') (r : Resource) :
    db'.locks.heldMode (db.txn h').id r = db.locks.heldMode (db.txn h').id r := by
  by_cases hlt : h < db.transactions.size
  · exact hk.modes _ r fun heq => hne (hids h hlt h' hlt' heq)
  · rw [hk.idle hlt]

theorem LeftBehind.heldMode_of_ne (hleft : LeftBehind h db db') (hl : db.LocksExact)
    (hids : db.DistinctIds) (hlt' : h' < db.transactions.size) (hne : h ≠ h') (r : Resource) :
    db'.locks.heldMode (db.txn h').id r = db.locks.heldMode (db.txn h').id r := by
  rw [hleft.locks, (hl.sound.releaseAll _ _).2, if_neg]
  rintro ⟨heq, _⟩
  exact hne (hids h hleft.lt h' hlt' heq)

/-- A hold on a row lasts as long as the mode, the number and the table do. -/
theorem HoldsRow.congr (hholds : db.HoldsRow h name rid)
    (hmode : ∀ r, db'.locks.heldMode (db.txn h).id r = db.locks.heldMode (db.txn h).id r)
    (hid : (db'.txn h).id = (db.txn h).id) (hshapes : db'.catalog.shapes = db.catalog.shapes) :
    db'.HoldsRow h name rid := by
  obtain ⟨shape, held, hshape, hheld, hcovers⟩ := hholds
  exact ⟨shape, held, hshapes ▸ hshape, by rw [hid, hmode, hheld], hcovers⟩

/-! ### Exclusion -/

/-- Nobody else has a hold on a position at which a transaction has an unfinished write. -/
theorem Guarded.eq_of_holdsRow (hg : db.Guarded) (hids : db.DistinctIds)
    (hlt : h < db.transactions.size) (hlt' : h' < db.transactions.size)
    (hwrite : write ∈ (db.txn h).writes) (hat : write.isAt name rid)
    (hholds : db.HoldsRow h' name rid) : h' = h := by
  obtain ⟨rfl, rfl⟩ := hat
  obtain ⟨shape, hshape, hexclusive⟩ := hg.covered h hlt write hwrite
  obtain ⟨shape', held, hshape', hheld, _⟩ := hholds
  rw [hshape] at hshape'
  cases hshape'
  exact hids h' hlt' h hlt (hg.sound.eq_of_exclusive hexclusive hheld)

/-- A transaction that has an unfinished write at a position has a hold on it. -/
theorem Guarded.holdsRow (hg : db.Guarded) (hlt : h < db.transactions.size)
    (hwrite : write ∈ (db.txn h).writes) (hat : write.isAt name rid) : db.HoldsRow h name rid := by
  obtain ⟨rfl, rfl⟩ := hat
  obtain ⟨shape, hshape, hexclusive⟩ := hg.covered h hlt write hwrite
  exact ⟨shape, .exclusive, hshape, hexclusive, rfl⟩

/-- Nobody else has a hold on a position at which a transaction can write. -/
theorem Wrote.eq_of_holdsRow (hw : Wrote h write row db db') (hg : db.Guarded) (hids : db.DistinctIds)
    (hlt' : h' < db.transactions.size) (hat : write.isAt name rid) (hholds : db.HoldsRow h' name rid) :
    h' = h := by
  obtain ⟨rfl, rfl⟩ := hat
  by_contra hne
  obtain ⟨shape, hshape, hexclusive, _⟩ := (hw.change hg.catalog).lock
  obtain ⟨shape', held, hshape', hheld, _⟩ := hholds
  rw [hshape] at hshape'
  cases hshape'
  rw [← hw.heldMode_of_ne hids hlt' (Ne.symm hne)] at hheld
  have heq := (hw.locks hg.sound).eq_of_exclusive hexclusive hheld
  exact hne (hids h' hlt' h (lt_of_isActive hw.active) heq)

/-! ### Every step keeps unfinished writes guarded -/

/-- A step that leaves the catalog sound and its shapes as they are keeps writes guarded if the
transaction's writes are old ones, or guarded. -/
theorem Guarded.keeps (hg : db.Guarded) (hids : db.DistinctIds) (hk : Keeps h db db')
    (hcatalog : db'.catalog.Sound) (hshapes : db'.catalog.shapes = db.catalog.shapes)
    (hwrites : ∀ write ∈ (db'.txn h).writes, write ∈ (db.txn h).writes ∨ ∃ shape,
      db.catalog.shapes write.table = some shape ∧
        db'.locks.heldMode (db.txn h).id (.record shape.id write.rid) = some .exclusive) :
    db'.Guarded where
  toLocksExact := hg.toLocksExact.keeps hids hk
  catalog := hcatalog
  covered := by
    intro h' hlt' write hwrite
    rw [hk.size] at hlt'
    rw [hshapes, hk.ids]
    by_cases hh : h = h'
    · subst hh
      rcases hwrites write hwrite with hold | hnew
      · obtain ⟨shape, hshape, hheld⟩ := hg.covered h hlt' write hold
        exact ⟨shape, hshape, hk.exclusive hheld⟩
      · exact hnew
    · rw [hk.txn h' hh] at hwrite
      obtain ⟨shape, hshape, hheld⟩ := hg.covered h' hlt' write hwrite
      exact ⟨shape, hshape, by rw [hk.heldMode_of_ne hids hlt' hh, hheld]⟩

theorem Guarded.quiet (hg : db.Guarded) (hids : db.DistinctIds) (hq : Quiet h db db') : db'.Guarded := by
  have hrows := hq.rows hg.catalog
  refine hg.keeps hids hq.toKeeps hrows.sound hrows.shapes fun write hwrite => .inl ?_
  rwa [hq.writes] at hwrite

theorem Guarded.wrote (hg : db.Guarded) (hids : db.DistinctIds) (hw : Wrote h write row db db') :
    db'.Guarded := by
  have hchange := hw.change hg.catalog
  refine hg.keeps hids hw.toKeeps hchange.sound hchange.shapes fun w hmem => ?_
  rw [hw.writes] at hmem
  rcases List.mem_cons.mp hmem with rfl | hold
  · obtain ⟨shape, hshape, hheld, _⟩ := hchange.lock
    exact .inr ⟨shape, hshape, hheld⟩
  · exact .inl hold

theorem Guarded.rolledBack (hg : db.Guarded) (hids : db.DistinctIds) (hlt : h < db.transactions.size)
    {result : Except TransactionError Unit} {left : List WriteRecord} {catalog : Catalog}
    (hundo : db.catalog.undoAll (db.txn h).writes = (result, left, catalog)) :
    (db.rolledBack h left catalog).Guarded := by
  obtain ⟨hsound, hshapes, undone, hwrites, _⟩ := Catalog.undoAll_spec hg.catalog hundo
  refine hg.keeps hids (keeps_rolledBack h db left catalog) hsound hshapes fun write hwrite => .inl ?_
  rw [txn_rolledBack hlt] at hwrite
  rw [hwrites]
  exact List.mem_append_right _ hwrite

theorem Guarded.leftBehind (hg : db.Guarded) (hids : db.DistinctIds) (hleft : LeftBehind h db db') :
    db'.Guarded where
  toLocksExact := hg.toLocksExact.leftBehind hids hleft
  catalog := hleft.catalog ▸ hg.catalog
  covered := by
    intro h' hlt' write hwrite
    rw [hleft.size] at hlt'
    by_cases hh : h = h'
    · rw [← hh, hleft.writes] at hwrite
      cases hwrite
    · rw [hleft.txn h' hh] at hwrite ⊢
      obtain ⟨shape, hshape, hheld⟩ := hg.covered h' hlt' write hwrite
      exact ⟨shape, hleft.catalog ▸ hshape,
        by rw [hleft.heldMode_of_ne hg.toLocksExact hids hlt' hh, hheld]⟩

theorem Guarded.arrived (hg : db.Guarded) (harrived : Arrived db db') (hids : db'.DistinctIds) :
    db'.Guarded where
  toLocksExact := hg.toLocksExact.arrived harrived hids
  catalog := harrived.catalog ▸ hg.catalog
  covered := by
    intro h hlt write hwrite
    by_cases hh : h < db.transactions.size
    · rw [harrived.txn h hh] at hwrite ⊢
      rw [harrived.catalog, harrived.locks]
      exact hg.covered h hh write hwrite
    · have hnew : h = db.nextHandle := by
        have hsize := harrived.size
        have hnext : db.transactions.size = db.nextHandle := rfl
        omega
      rw [hnew, harrived.writes] at hwrite
      cases hwrite

theorem Guarded.untouched (hg : db.Guarded) (hids : db.DistinctIds) (hu : Untouched db db') :
    db'.Guarded := by
  refine hg.keeps (h := 0) hids (.of_eq 0 hu.transactions hu.locks hu.gaps) (hu.catalog ▸ hg.catalog)
    (by rw [hu.catalog]) fun write hwrite => .inl ?_
  rwa [hu.txn] at hwrite

/-! ### What a hold on a row protects -/

theorem HoldsRow.arrived (hholds : db.HoldsRow h name rid) (hlt : h < db.transactions.size)
    (harrived : Arrived db db') : db'.HoldsRow h name rid :=
  hholds.congr (fun r => by rw [harrived.locks]) (by rw [harrived.txn h hlt]) (by rw [harrived.catalog])

theorem HoldsRow.untouched (hholds : db.HoldsRow h name rid) (hu : Untouched db db') :
    db'.HoldsRow h name rid :=
  hholds.congr (fun r => by rw [hu.locks]) (by rw [hu.txn]) (by rw [hu.catalog])

/-- A step of another transaction leaves the hold of a transaction alone. -/
theorem HoldsRow.keeps_of_ne (hholds : db.HoldsRow h name rid) (hk : Keeps h' db db')
    (hids : db.DistinctIds) (hlt : h < db.transactions.size) (hne : h' ≠ h)
    (hshapes : db'.catalog.shapes = db.catalog.shapes) : db'.HoldsRow h name rid :=
  hholds.congr (hk.heldMode_of_ne hids hlt hne) (hk.ids h) hshapes

theorem HoldsRow.leftBehind (hholds : db.HoldsRow h name rid) (hleft : LeftBehind h' db db')
    (hl : db.LocksExact) (hids : db.DistinctIds) (hlt : h < db.transactions.size) (hne : h' ≠ h) :
    db'.HoldsRow h name rid :=
  hholds.congr (hleft.heldMode_of_ne hl hids hlt hne) (by rw [hleft.txn h hne]) (by rw [hleft.catalog])

/-- A quiet step keeps every hold and every row. -/
theorem HoldsRow.quiet (hholds : db.HoldsRow h name rid) (hq : Quiet h' db db') (hg : db.Guarded)
    (hids : db.DistinctIds) (hlt : h < db.transactions.size) :
    db'.HoldsRow h name rid ∧ db'.catalog.rows = db.catalog.rows := by
  have hrows := hq.rows hg.catalog
  refine ⟨?_, hrows.rows⟩
  by_cases hh : h' = h
  · subst hh
    exact hholds.keeps hq.toKeeps hrows.shapes
  · exact hholds.keeps_of_ne hq.toKeeps hids hlt hh hrows.shapes

/-- A write of another transaction, or to another table, keeps a hold and its row. -/
theorem HoldsRow.wrote (hholds : db.HoldsRow h name rid) (hw : Wrote h' write row db db')
    (hg : db.Guarded) (hids : db.DistinctIds) (hlt : h < db.transactions.size)
    (htable : h' = h → write.table ≠ name) :
    db'.HoldsRow h name rid ∧ db'.catalog.rows name rid = db.catalog.rows name rid := by
  have hchange := hw.change hg.catalog
  refine ⟨?_, ?_⟩
  · by_cases hh : h' = h
    · subst hh
      exact hholds.keeps hw.toKeeps hchange.shapes
    · exact hholds.keeps_of_ne hw.toKeeps hids hlt hh hchange.shapes
  · rw [hchange.rows]
    refine Rows.set_of_ne fun hat => ?_
    have heq := hw.eq_of_holdsRow hg hids hlt hat hholds
    exact htable heq.symm hat.1

/-- Taking back the writes of another transaction keeps a hold and its row. -/
theorem HoldsRow.rolledBack (hholds : db.HoldsRow h name rid) (hg : db.Guarded) (hids : db.DistinctIds)
    (hlt : h < db.transactions.size) (hlt' : h' < db.transactions.size) (hne : h' ≠ h)
    {result : Except TransactionError Unit} {left : List WriteRecord} {catalog : Catalog}
    (hundo : db.catalog.undoAll (db.txn h').writes = (result, left, catalog)) :
    (db.rolledBack h' left catalog).HoldsRow h name rid ∧
      catalog.rows name rid = db.catalog.rows name rid := by
  obtain ⟨_, hshapes, undone, hwrites, hrows⟩ := Catalog.undoAll_spec hg.catalog hundo
  refine ⟨hholds.keeps_of_ne (keeps_rolledBack h' db left catalog) hids hlt hne hshapes, ?_⟩
  rw [hrows]
  refine Rows.revertAll_of_not_isAt fun write hmem hat => ?_
  have hwrite : write ∈ (db.txn h').writes := by
    rw [hwrites]
    exact List.mem_append_left _ hmem
  exact hne (hg.eq_of_holdsRow hids hlt' hlt hwrite hat hholds).symm

end Database

open Database

variable {start s : Session} {call : Call} {answer : Except StatementError Answer} {db' : Database}
  {trace : List Event}

/-- Every call but a release by hand keeps unfinished writes guarded. -/
theorem Effect.guarded (heffect : Effect s call answer db') (hg : s.db.Guarded)
    (hids : db'.DistinctIds) (hhand : call.isByHand = false) : db'.Guarded := by
  have hids₀ : s.db.DistinctIds := heffect.keepsIds.distinctIds hids
  cases heffect with
  | arrived harrived _ => exact hg.arrived harrived hids
  | untouched huntouched _ _ => exact hg.untouched hids₀ huntouched
  | ran houtcome =>
    cases houtcome.did with
    | quiet hquiet _ => exact hg.quiet hids₀ hquiet
    | wrote _ _ hwrote _ _ _ => exact hg.wrote hids₀ hwrote
    | missed _ hwrote _ _ _ => exact hg.wrote hids₀ hwrote
  | quiet hquiet _ _ => exact hg.quiet hids₀ hquiet
  | commitRefused _ => exact hg
  | committed _ hleft _ => exact hg.leftBehind hids₀ hleft
  | commitLost hleft _ => exact hg.leftBehind hids₀ hleft
  | abortRefused _ => exact hg
  | abortStuck hlt hundo => exact hg.rolledBack hids₀ hlt hundo
  | aborted hlt hundo hleft _ =>
    exact (hg.rolledBack hids₀ hlt hundo).leftBehind (hleft.keepsIds.distinctIds hids) hleft
  | released _ => cases hhand
  | releasedAll _ => cases hhand
  | releasedGaps _ => cases hhand

/-- No call changes the shape of a table. -/
theorem Effect.shapes (heffect : Effect s call answer db') (hg : s.db.Guarded) :
    db'.catalog.shapes = s.db.catalog.shapes := (heffect.tables hg.catalog).2

/-- What others do to a row that a transaction has a hold on: nothing, and the hold stays. -/
theorem Effect.holdsRow (heffect : Effect s call answer db') (hg : s.db.Guarded)
    (hids : db'.DistinctIds) (hhand : call.isByHand = false) {h : Handle} {name : String} {rid : Rid}
    (hlt : h < s.db.transactions.size) (hholds : s.db.HoldsRow h name rid)
    (hends : call ≠ .commit h ∧ call ≠ .abort h)
    (hwrites : ∀ statement, call = .run h statement → statement.written? ≠ some name) :
    db'.HoldsRow h name rid ∧ db'.catalog.rows name rid = s.db.catalog.rows name rid := by
  have hids₀ : s.db.DistinctIds := heffect.keepsIds.distinctIds hids
  have hwrote : ∀ {h' : Handle} {statement : Statement} {write : WriteRecord} {row : Option Bytes},
      call = .run h' statement → statement.written? = some write.table →
      Wrote h' write row s.db db' →
      db'.HoldsRow h name rid ∧ db'.catalog.rows name rid = s.db.catalog.rows name rid := by
    intro h' statement write row hcall hname hw
    refine hholds.wrote hw hg hids₀ hlt fun heq htable => ?_
    exact hwrites statement (heq ▸ hcall) (htable ▸ hname)
  cases heffect with
  | arrived harrived _ => exact ⟨hholds.arrived hlt harrived, by rw [harrived.catalog]⟩
  | untouched huntouched _ _ => exact ⟨hholds.untouched huntouched, by rw [huntouched.catalog]⟩
  | ran houtcome =>
    cases houtcome.did with
    | quiet hquiet _ =>
      obtain ⟨hholds', hrows⟩ := hholds.quiet hquiet hg hids₀ hlt
      exact ⟨hholds', by rw [hrows]⟩
    | wrote _ _ hw hname _ _ => exact hwrote rfl hname hw
    | missed _ hw hname _ _ => exact hwrote rfl hname hw
  | quiet hquiet _ _ =>
    obtain ⟨hholds', hrows⟩ := hholds.quiet hquiet hg hids₀ hlt
    exact ⟨hholds', by rw [hrows]⟩
  | commitRefused _ => exact ⟨hholds, rfl⟩
  | abortRefused _ => exact ⟨hholds, rfl⟩
  | @committed h' _ _ hleft _ =>
    have hne : h' ≠ h := fun heq => hends.1 (by rw [heq])
    exact ⟨hholds.leftBehind hleft hg.toLocksExact hids₀ hlt hne, by rw [hleft.catalog]⟩
  | @commitLost h' _ _ hleft _ =>
    have hne : h' ≠ h := fun heq => hends.1 (by rw [heq])
    exact ⟨hholds.leftBehind hleft hg.toLocksExact hids₀ hlt hne, by rw [hleft.catalog]⟩
  | @abortStuck h' _ _ _ hlt' hundo =>
    have hne : h' ≠ h := fun heq => hends.2 (by rw [heq])
    exact hholds.rolledBack hg hids₀ hlt hlt' hne hundo
  | @aborted h' catalog _ _ hlt' hundo hleft _ =>
    have hne : h' ≠ h := fun heq => hends.2 (by rw [heq])
    obtain ⟨hholds', hrow⟩ := hholds.rolledBack hg hids₀ hlt hlt' hne hundo
    have hg' := hg.rolledBack hids₀ hlt' hundo
    have hids' := hleft.keepsIds.distinctIds hids
    have hlt₁ : h < (s.db.rolledBack h' [] catalog).transactions.size := by
      rw [(keeps_rolledBack h' s.db [] catalog).size]
      exact hlt
    refine ⟨hholds'.leftBehind hleft hg'.toLocksExact hids' hlt₁ hne, ?_⟩
    rw [hleft.catalog]
    exact hrow
  | released _ => cases hhand
  | releasedAll _ => cases hhand
  | releasedGaps _ => cases hhand

theorem Session.oneTable_sound : oneTable.db.catalog.Sound :=
  Catalog.Sound.empty.put (.of_empty rfl fun _ hindex => by cases hindex; rfl)

theorem Session.IsFresh.guarded (hfresh : start.IsFresh) (hcatalog : start.db.catalog.Sound) :
    start.db.Guarded where
  toLocksExact := hfresh.locksExact
  catalog := hcatalog
  covered := by
    intro h hlt
    rw [hfresh.transactions] at hlt
    exact absurd hlt (Nat.not_lt_zero h)

/-- Unfinished writes are guarded after every run in which nothing is given up by hand. -/
theorem Run.guarded (hrun : Run start trace s) (hstart : start.db.Guarded) (hids : s.db.DistinctIds)
    (hhand : ∀ event ∈ trace, event.call.isByHand = false) :
    s.db.Guarded ∧ ∀ event ∈ trace, event.before.db.Guarded := by
  induction hrun with
  | nil => exact ⟨hstart, by simp⟩
  | @snoc trace s call hrun ih =>
    have heffect := s.step_effect call
    have hids₀ : s.db.DistinctIds := heffect.keepsIds.distinctIds hids
    obtain ⟨hg, hbefore⟩ := ih hids₀ fun event hmem => hhand event (List.mem_append_left _ hmem)
    exact ⟨heffect.guarded hg hids (hhand ⟨s, call⟩ (by simp)),
      List.forall_mem_append.mpr ⟨hbefore, List.forall_mem_singleton.mpr hg⟩⟩

/-- What holds before the last call of a run in which nothing is given up by hand. -/
theorem Run.before_last (hrun : Run start trace s) (hstart : start.db.Guarded)
    (hids : (s.step call).2.db.DistinctIds)
    (hhand : ∀ event ∈ trace ++ [⟨s, call⟩], event.call.isByHand = false) :
    s.db.Guarded ∧ s.db.DistinctIds ∧ (∀ event ∈ trace, event.call.isByHand = false) ∧
      call.isByHand = false := by
  have hids₀ : s.db.DistinctIds := (s.step_effect call).keepsIds.distinctIds hids
  have hhand₀ : ∀ event ∈ trace, event.call.isByHand = false :=
    fun event hmem => hhand event (List.mem_append_left _ hmem)
  exact ⟨(hrun.guarded hstart hids₀ hhand₀).1, hids₀, hhand₀, hhand ⟨s, call⟩ (by simp)⟩

/-- The shapes of the tables are the same throughout a run. -/
theorem Run.shapes (hrun : Run start trace s) (hguarded : ∀ event ∈ trace, event.before.db.Guarded) :
    s.db.catalog.shapes = start.db.catalog.shapes ∧
      ∀ event ∈ trace, event.before.db.catalog.shapes = start.db.catalog.shapes := by
  induction hrun with
  | nil => exact ⟨rfl, by simp⟩
  | @snoc trace s call _ ih =>
    obtain ⟨hshapes, hbefore⟩ := ih fun event hmem => hguarded event (List.mem_append_left _ hmem)
    have hg : s.db.Guarded := hguarded ⟨s, call⟩ (by simp)
    exact ⟨((s.step_effect call).shapes hg).trans hshapes,
      List.forall_mem_append.mpr ⟨hbefore, List.forall_mem_singleton.mpr hshapes⟩⟩

end NoWait
