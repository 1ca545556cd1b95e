import Mathlib.Data.List.TakeWhile
import NoWait.Proofs.StuckRollback

/-!
# What a commit leaves of the writes

A row that a transaction has written stands as it was written while the transaction goes on, whatever fails
meanwhile, unless a rollback that has got stuck comes as far as the write.  It does not come that far where
a deletion that is newer than the write stands in its way.

* `Stands` says that a row is as a statement left it, and that the writes entered since then are at other
  positions or have left it so;
* `Turn.stands` is one call and `Run.stands` a whole run;
* `commit_keeps_row` is the result: the rows at an acknowledged commit.
-/

namespace NoWait

open Database

/-- What holds of a row since a statement wrote it: it stands as it was left, and so it stood before each
newer write of the transaction that was entered at its position. -/
structure Stands (h : Handle) (name : String) (rid : Rid) (row : Option Bytes)
    (base newer : List WriteRecord) (db : Database) : Prop where
  writes : (db.txn h).writes = newer ++ base
  asLeft : db.catalog.rows name rid = row
  images : ∀ write ∈ newer, write.isAt name rid → write.image = row

/-- Whether the log takes the insertion of any row that fits a table. -/
def Database.TakesInserts (db : Database) (name : String) : Prop :=
  ∀ shape, db.catalog.shapes name = some shape → db.log.HasRoom (50 + shape.config.rowSize)

variable {start s₀ s₁ s : Session} {call : Call} {answer : Except StatementError Answer} {db db' : Database}
  {trace before after : List Event} {h : Handle} {name : String} {rid : Rid} {row : Option Bytes}
  {base newer : List WriteRecord} {statement : Statement}

/-! ### Sizes -/

/-- Where the log has taken the deletion of a row, it takes the insertion of any other. -/
theorem Database.Wrote.takesInserts {write : WriteRecord} (hw : Wrote h write none db db')
    (hs : db.catalog.Sound) (hkind : write.kind = .delete)
    (hroom : db'.log.HasRoom (write.logSize none)) : db'.TakesInserts write.table := by
  intro shape hshape
  have hchange := hw.change hs
  obtain ⟨bytes, hbytes⟩ := Option.ne_none_iff_exists'.mp (hchange.image_ne_none (by simp [hkind]))
  obtain ⟨shape', hshape', hfits⟩ := hs.fits (hchange.image.symm.trans hbytes)
  rw [hchange.shapes, hshape'] at hshape
  cases hshape
  have hsize : write.logSize none = 50 + shape.config.rowSize := by
    rw [WriteRecord.logSize, hbytes, LogRecord.length_encodeImage_some, hfits.size]
    simp [LogRecord.encodeImage]
    omega
  rwa [hsize] at hroom

/-- An insertion is refused only where the log does not take the insertion of any row. -/
theorem Database.Wrote.not_takesInserts {write : WriteRecord} {bytes : Bytes}
    (hw : Wrote h write (some bytes) db db') (hs : db.catalog.Sound) (hkind : write.kind = .insert)
    (hfull : ¬ db'.log.HasRoom (write.logSize (some bytes))) : ¬ db'.TakesInserts write.table := by
  intro htakes
  have hchange := hw.change hs
  have hrow : db'.catalog.rows write.table write.rid = some bytes := by rw [hchange.rows, Rows.set_self]
  obtain ⟨shape, hshape, hfits⟩ := hchange.sound.fits hrow
  have hsize : write.logSize (some bytes) = 50 + shape.config.rowSize := by
    rw [WriteRecord.logSize, hchange.kind.mp hkind, LogRecord.length_encodeImage_some, hfits.size]
    simp [LogRecord.encodeImage]
    omega
  apply hfull
  rw [hsize]
  exact htakes shape hshape

/-! ### One call -/

/-- Taking writes back that have left a row as it is leaves it so. -/
theorem Rows.revertAll_of_images {rows : Rows} {writes : List WriteRecord} (hrow : rows name rid = row)
    (himages : ∀ write ∈ writes, write.isAt name rid → write.image = row) :
    rows.revertAll writes name rid = row := by
  induction writes generalizing rows with
  | nil => exact hrow
  | cons write older ih =>
    rw [Rows.revertAll_cons]
    apply ih
    · by_cases hat : write.isAt name rid
      · have himage := himages write List.mem_cons_self hat
        obtain ⟨rfl, rfl⟩ := hat
        rw [WriteRecord.revert, Rows.set_self, himage]
      · rw [Rows.revert_of_not_isAt hat, hrow]
    · exact fun w hw => himages w (List.mem_cons_of_mem _ hw)

/-- A write stands that leaves the row at the position as it is. -/
theorem Stands.wrote {write : WriteRecord} {row' : Option Bytes}
    (hstands : Stands h name rid row base newer db) (hw : Wrote h write row' db db')
    (hs : db.catalog.Sound) (hsame : write.isAt name rid → row' = row) :
    Stands h name rid row base (write :: newer) db' where
  writes := by
    rw [hw.writes, hstands.writes]
    rfl
  asLeft := by
    rw [(hw.change hs).rows]
    by_cases hat : write.isAt name rid
    · have hrow := hsame hat
      obtain ⟨rfl, rfl⟩ := hat
      rw [Rows.set_self, hrow]
    · rw [Rows.set_of_ne hat, hstands.asLeft]
  images := by
    intro w hmem hat
    rcases List.mem_cons.mp hmem with rfl | hmem
    · have himage := (hw.change hs).image
      obtain ⟨rfl, rfl⟩ := hat
      exact himage.trans hstands.asLeft
    · exact hstands.images w hmem hat

/-- An insertion that the log refuses is not at the position of a row that stands, if the log takes
insertions there wherever no row stands. -/
theorem Stands.not_isAt_of_refused {write : WriteRecord} {bytes : Bytes}
    (hstands : Stands h name rid row base newer db) (hw : Wrote h write (some bytes) db db')
    (hs : db.catalog.Sound) (hkind : write.kind = .insert)
    (hfull : ¬ db'.log.HasRoom (write.logSize (some bytes))) (hroom : row = none → db'.TakesInserts name) :
    ¬ write.isAt name rid := by
  rintro ⟨rfl, rfl⟩
  have hchange := hw.change hs
  have hnone : row = none :=
    calc row = db.catalog.rows write.table write.rid := hstands.asLeft.symm
      _ = write.image := hchange.image.symm
      _ = none := hchange.kind.mp hkind
  exact hw.not_takesInserts hs hkind hfull (hroom hnone)

/-- A row stands after every call that does not end its transaction and changes no row there, unless it is
a rollback with nothing in its way. -/
theorem Turn.stands (hturn : Turn h s call (s.step call).1 (s.step call).2.db)
    (hstands : Stands h name rid row base newer s.db) (hg : s.db.Guarded)
    (hlt : h < s.db.transactions.size) (hbase : ∃ write ∈ base, write.isAt name rid)
    (hroom : row = none → s.db.TakesInserts name)
    (hnot : (⟨s, call⟩ : Event).changes h name rid = false)
    (habort : call = .abort h → Blocked s.db.catalog.rows newer)
    (hgoing : call = .commit h ∨ call = .abort h → ¬ Over h (s.step call).1 (s.step call).2.db) :
    ∃ newer', Stands h name rid row base newer' (s.step call).2.db := by
  generalize hanswer : (s.step call).1 = answer at hturn hgoing
  generalize hdb : (s.step call).2.db = db' at hturn hgoing
  have hquiet : Quiet h s.db db' → ∃ newer', Stands h name rid row base newer' db' := by
    intro hq
    refine ⟨newer, hq.writes.trans hstands.writes, ?_, hstands.images⟩
    rw [(hq.rows hg.catalog).rows, hstands.asLeft]
  cases hturn with
  | bystander htxn _ hrows _ =>
    obtain ⟨write, hmem, hat⟩ := hbase
    have hwritten : write ∈ (s.db.txn h).writes := hstands.writes ▸ List.mem_append_right newer hmem
    refine ⟨newer, htxn ▸ hstands.writes, ?_, hstands.images⟩
    rw [hrows name rid (hg.holdsRow hlt hwritten hat), hstands.asLeft]
  | quiet hq _ => exact hquiet hq
  | ran statement hcall houtcome =>
    subst hcall
    have htarget : statement.target? answer ≠ some (name, rid) := by
      simpa [Event.changes, Event.answer, hanswer] using hnot
    cases houtcome.did with
    | quiet hq _ => exact hquiet hq
    | wrote write row' hw _ htargeted hwrite =>
      refine ⟨write :: newer, hstands.wrote hw hg.catalog fun hat => ?_⟩
      -- The statement has failed, so it is an insertion that the log has refused.
      have hlost : Answer.isLogFailure answer = true := by
        rw [← Bool.not_eq_false]
        intro hlog
        obtain ⟨rfl, rfl⟩ := hat
        exact htarget (htargeted hlog)
      have hkind := hwrite.2.2 hlost
      obtain ⟨bytes, rfl⟩ : ∃ bytes, row' = some bytes := by
        rw [← Option.ne_none_iff_exists', Ne, ← Statement.kind_eq_delete_iff hwrite.1, hkind]
        decide
      have hfull : ¬ db'.log.HasRoom (write.logSize (some bytes)) := by
        rw [← hwrite.2.1, hlost]
        decide
      have htakes : row = none → db'.TakesInserts name := by
        intro hnone shape hshape
        rw [Log.hasRoom_congr (hdb ▸ s.step_config _)]
        exact hroom hnone shape ((hw.change hg.catalog).shapes ▸ hshape)
      exact absurd hat (hstands.not_isAt_of_refused hw hg.catalog hkind hfull htakes)
    | missed write hw _ _ _ =>
      refine ⟨write :: newer, hstands.wrote hw hg.catalog fun hat => ?_⟩
      have himage := (hw.change hg.catalog).image
      obtain ⟨rfl, rfl⟩ := hat
      exact himage.trans hstands.asLeft
  | stuck error left catalog _ hcall _ hundo hdb' =>
    obtain ⟨_, undone, left', catalog', hall, hnewer, hrows, _⟩ :=
      (habort hcall).undoAll hg.catalog base
    rw [hstands.writes, hall] at hundo
    cases hundo
    refine ⟨left', ?_, ?_, ?_⟩
    · rw [hdb', txn_rolledBack hlt]
    · rw [hdb']
      show catalog.rows name rid = row
      rw [hrows]
      apply Rows.revertAll_of_images hstands.asLeft
      exact fun write hmem => hstands.images write (hnewer ▸ List.mem_append_left _ hmem)
    · exact fun write hmem => hstands.images write (hnewer ▸ List.mem_append_right _ hmem)
  | ended hcall hover => exact absurd hover (hgoing hcall)

/-! ### Runs -/

/-- A call after which a transaction can go on has not ended it. -/
theorem not_over_of_isActive (hactive : db'.isActive h = true)
    (hlog : Answer.isLogFailure answer = false) : ¬ Over h answer db' := by
  intro hover
  rcases hover with ⟨_, hinactive⟩ | hlost
  · exact absurd (hinactive.symm.trans hactive) (by decide)
  · exact absurd (hlost.symm.trans hlog) (by decide)

theorem Run.takesInserts (hrun : Run s₁ trace s) (hg : ∀ event ∈ trace, event.before.db.Guarded)
    (htakes : s₁.db.TakesInserts name) : s.db.TakesInserts name := by
  intro shape hshape
  rw [(hrun.hasRoom_iff _).1]
  exact htakes shape ((hrun.shapes hg).1 ▸ hshape)

/-- If no abort is asked for before a deletion is refused, then one that comes last has such a deletion before
it. -/
theorem exists_losesDelete_of_abort
    (habort : ∀ event ∈ (after ++ [(⟨s, call⟩ : Event)]).takeWhile (!·.losesDelete h), event.call ≠ .abort h) :
    (∀ event ∈ after.takeWhile (!·.losesDelete h), event.call ≠ .abort h) ∧
      (call = .abort h → ∃ event ∈ after, event.losesDelete h = true) := by
  constructor
  · intro event hmem
    apply habort event
    rw [List.takeWhile_append]
    split
    · exact List.mem_append_left _ ((List.takeWhile_prefix _).subset hmem)
    · exact hmem
  · intro hcall
    by_contra hnone
    have hlast : (!(⟨s, call⟩ : Event).losesDelete h) = true := by
      rw [Event.losesDelete_of_ne_run (by simp [hcall])]
      rfl
    have hbefore : ∀ event ∈ after, (!event.losesDelete h) = true := by
      intro event hmem
      simpa using fun hloses => hnone ⟨event, hmem, hloses⟩
    have hall := List.forall_mem_append.mpr ⟨hbefore, List.forall_mem_singleton.mpr hlast⟩
    rw [List.takeWhile_eq_self_iff.mpr hall] at habort
    exact habort ⟨s, call⟩ (by simp) hcall

/-- A row stands while its transaction can go on, if no other statement of the transaction changes it and
each rollback of the transaction finds a newer deletion in its way. -/
theorem Run.stands (hrun : Run s₁ after s) (hg₁ : s₁.db.Guarded) (hids : s.db.DistinctIds)
    (hhand : ∀ event ∈ after, event.call.isByHand = false) (hend : s₁.db.log.HasRoom 36)
    (hlt : h < s₁.db.transactions.size) (hactive : s.db.isActive h = true)
    (hlast : ∀ event ∈ after, event.changes h name rid = false)
    (habort : ∀ event ∈ after.takeWhile (!·.losesDelete h), event.call ≠ .abort h)
    (hstands : Stands h name rid row base [] s₁.db) (hbase : ∃ write ∈ base, write.isAt name rid)
    (hroom : row = none → s₁.db.TakesInserts name) :
    ∃ newer, Stands h name rid row base newer s.db ∧
      ((∃ event ∈ after, event.losesDelete h = true) → Blocked s.db.catalog.rows newer) := by
  induction hrun with
  | nil => exact ⟨[], hstands, by simp⟩
  | @snoc after s call hrun ih =>
    have hlast₀ : (⟨s, call⟩ : Event) ∈ after ++ [⟨s, call⟩] := by simp
    obtain ⟨hg, hids₀, hhand₀, hnow⟩ := hrun.before_last hg₁ hids hhand
    have hguarded := (hrun.guarded hg₁ hids₀ hhand₀).2
    have hlt₀ : h < s.db.transactions.size := Nat.lt_of_lt_of_le hlt hrun.keepsIds.size
    have hturn := (s.step_effect call).turn hg hids hnow hlt₀
    have hsure : call = .commit h ∨ call = .abort h → Answer.isLogFailure (s.step call).1 = false :=
      fun hcall => s.step_end_hasRoom hcall (((hrun.hasRoom_iff 36).1).mpr hend)
    have hgoing : call = .commit h ∨ call = .abort h → ¬ Over h (s.step call).1 (s.step call).2.db :=
      fun hcall => not_over_of_isActive hactive (hsure hcall)
    obtain ⟨habort₀, hlost⟩ := exists_losesDelete_of_abort habort
    obtain ⟨newer, hstands₀, hblocked⟩ := ih hids₀ hhand₀ (hturn.isActive hactive hsure)
      (fun event hmem => hlast event (List.mem_append_left _ hmem)) habort₀
    obtain ⟨newer', hstands'⟩ := hturn.stands hstands₀ hg hlt₀ hbase
      (fun hnone => hrun.takesInserts hguarded (hroom hnone)) (hlast _ hlast₀)
      (fun hcall => hblocked (hlost hcall)) hgoing
    refine ⟨newer', hstands', fun hloses => ?_⟩
    have hcase : (∃ event ∈ after, event.losesDelete h = true) ∨
        (⟨s, call⟩ : Event).losesDelete h = true := by
      simpa [or_and_right, exists_or] using hloses
    rcases hcase with hbefore | hloses
    · obtain ⟨newer'', hwrites, hblocked'⟩ :=
        hturn.blocked hg hlt₀ hstands₀.writes (hblocked hbefore) hgoing
      rwa [← List.append_cancel_right (hwrites.symm.trans hstands'.writes)]
    · obtain ⟨_, write, hwrites, hblocked'⟩ := Event.blocked_of_losesDelete hloses hg.catalog
      rw [hstands₀.writes, ← List.append_assoc, hstands'.writes] at hwrites
      rw [List.append_cancel_right hwrites]
      exact hblocked'.append newer

/-- When a commit is acknowledged, a row that a statement of the transaction has written is as the last such
statement left it, unless the transaction has asked for its abort since then with no deletion in the way that
the log had refused. -/
theorem commit_keeps_row (hbefore : Run start before s₀) (hfresh : start.IsFresh)
    (hcatalog : start.db.catalog.Sound)
    (hwritten : statement.target? (s₀.step (.run h statement)).1 = some (name, rid))
    (hafter : Run (s₀.step (.run h statement)).2 after s) (hids : s.db.DistinctIds)
    (hhand : ∀ event ∈ before ++ after, event.call.isByHand = false)
    (hbegun : ∃ event ∈ before, event.call = .begin ∧ event.answer = .ok (.handle h))
    (hlast : ∀ event ∈ after, event.changes h name rid = false)
    (habort : ∀ event ∈ after.takeWhile (!·.losesDelete h), event.call ≠ .abort h)
    (hcommit : (s.step (.commit h)).1 = .ok .done) :
    ∃ kind row, statement.write? = some (kind, row) ∧
      (s.step (.commit h)).2.db.catalog.rows name rid = row := by
  have hids₁ := (hafter.distinctIds hids).1
  have heffect := s₀.step_effect (.run h statement)
  have hids₀ : s₀.db.DistinctIds := heffect.keepsIds.distinctIds hids₁
  have hg₀ := (hbefore.guarded (hfresh.guarded hcatalog) hids₀
    fun event hmem => hhand event (List.mem_append_left _ hmem)).1
  have hg₁ := heffect.guarded hg₀ hids₁ rfl
  obtain ⟨hroom, hlt⟩ := hbefore.hasRoom_of_begun hbegun
  have hroom₁ : (s₀.step (.run h statement)).2.db.log.HasRoom 36 :=
    (Log.hasRoom_congr (s₀.step_config _) 36).mpr (((hbefore.hasRoom_iff 36).1).mpr hroom)
  have hlt₁ := Nat.lt_of_lt_of_le hlt heffect.keepsIds.size
  -- A commit that is acknowledged finds its transaction active, and leaves the rows as they are.
  obtain ⟨hactive, hrows⟩ : s.db.isActive h = true ∧
      (s.step (.commit h)).2.db.catalog.rows = s.db.catalog.rows := by
    have hended := s.step_effect (.commit h)
    rw [hcommit] at hended
    cases hended with
    | untouched _ hends _ => exact absurd rfl (hends h).1
    | quiet _ hends _ => exact absurd rfl (hends h).1
    | committed hactive hleft _ => exact ⟨hactive, by rw [hleft.catalog]⟩
  have hdid := (s₀.step_outcome h statement).did
  cases hdid with
  | quiet _ hnone =>
    rw [hwritten] at hnone
    cases hnone
  | missed _ _ _ hnone _ =>
    rw [hwritten] at hnone
    cases hnone
  | wrote write row hw _ htarget hwrite =>
    have hlog := Statement.isLogFailure_of_target? hwritten
    obtain ⟨rfl, rfl⟩ : write.table = name ∧ write.rid = rid := by
      simpa using (htarget hlog).symm.trans hwritten
    have hchange := hw.change hg₀.catalog
    have hstands : Stands h write.table write.rid row (write :: (s₀.db.txn h).writes) []
        (s₀.step (.run h statement)).2.db :=
      ⟨hw.writes, by rw [hchange.rows, Rows.set_self], by simp⟩
    have htakes : row = none → (s₀.step (.run h statement)).2.db.TakesInserts write.table := by
      intro hnone
      subst hnone
      exact hw.takesInserts hg₀.catalog ((Statement.kind_eq_delete_iff hwrite.1).mpr rfl)
        (hwrite.2.1.mp hlog)
    obtain ⟨_, hstands', _⟩ := hafter.stands hg₁ hids
      (fun event hmem => hhand event (List.mem_append_right _ hmem)) hroom₁ hlt₁ hactive hlast habort
      hstands ⟨write, List.mem_cons_self, rfl, rfl⟩ htakes
    exact ⟨write.kind, row, hwrite.1, hrows ▸ hstands'.asLeft⟩

/-- A transaction commits after three of its statements have failed and a rollback has got stuck at a
deletion that the log had refused; the row that it had written before stands. -/
theorem commit_keeps_row_of_blocked_abort :
    let before : List Call := [.begin]
    let statement : Statement := .insert "small" [7]
    let after : List Call := [.run 0 (.insert "large" (List.replicate 20 5)),
      .run 0 (.delete "large" ⟨0, 0⟩), .run 0 (.update "small" ⟨0, 0⟩ [8]), .abort 0]
    let s₀ := Session.tightLog.play before
    let s := (s₀.step (.run 0 statement)).2.play after
    ((s₀.step (.run 0 statement)).2.trace after).map (·.answer.isOk) = [false, false, false, false] ∧
      (s.step (.commit 0)).1 = .ok .done ∧
      (s.step (.commit 0)).2.db.catalog.rows "small" ⟨0, 0⟩ = some [7] := by
  intro before statement after s₀ s
  have hbefore : Run Session.tightLog (Session.tightLog.trace before) s₀ := .of_calls _ before
  have hafter : Run (s₀.step (.run 0 statement)).2 ((s₀.step (.run 0 statement)).2.trace after) s :=
    .of_calls _ after
  have hbegun : ∃ event ∈ Session.tightLog.trace before,
      event.call = .begin ∧ event.answer = .ok (.handle 0) := by decide +kernel
  have hcommit : (s.step (.commit 0)).1 = .ok .done := by decide +kernel
  have hwritten : statement.target? (s₀.step (.run 0 statement)).1 = some ("small", ⟨0, 0⟩) := by
    decide +kernel
  obtain ⟨kind, row, hkind, hrow⟩ := commit_keeps_row hbefore Session.tightLog_isFresh
    Session.tightLog_sound hwritten hafter (by decide +kernel) (by decide +kernel) hbegun
    (by decide +kernel) (by decide +kernel) hcommit
  cases hkind
  exact ⟨by decide +kernel, hcommit, hrow⟩

/-- The log refuses the insertion and the deletion of a large row.  The transaction then writes a small one
and asks for its abort, which takes the small row back and gets stuck at the large one; and it commits. -/
theorem commit_loses_row_after_stuck_abort :
    ∃ (before after : List Event) (s₀ s : Session), Run Session.tightLog before s₀ ∧
      (s₀.step (.run 0 (.insert "small" [7]))).1 = .ok (.position ⟨0, 0⟩) ∧
      Run (s₀.step (.run 0 (.insert "small" [7]))).2 after s ∧ s.db.DistinctIds ∧
      (∀ event ∈ before ++ after, event.call.isByHand = false) ∧
      (∃ event ∈ before, event.call = .begin ∧ event.answer = .ok (.handle 0)) ∧
      (∀ event ∈ after, event.changes 0 "small" ⟨0, 0⟩ = false) ∧
      (s.step (.commit 0)).1 = .ok .done ∧
      (s.step (.commit 0)).2.db.catalog.rows "small" ⟨0, 0⟩ = none := by
  let before : List Call := [.begin, .run 0 (.insert "large" (List.replicate 20 5)),
    .run 0 (.delete "large" ⟨0, 0⟩)]
  let s₀ := Session.tightLog.play before
  let s₁ := (s₀.step (.run 0 (.insert "small" [7]))).2
  have hbefore : Run Session.tightLog (Session.tightLog.trace before) s₀ := .of_calls _ before
  have hafter : Run s₁ (s₁.trace [.abort 0]) (s₁.play [.abort 0]) := .of_calls _ _
  exact ⟨_, _, _, _, hbefore, by decide +kernel, hafter, by decide +kernel, by decide +kernel,
    by decide +kernel, by decide +kernel, by decide +kernel, by decide +kernel⟩

end NoWait
