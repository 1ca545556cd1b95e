import NoWait.Proofs.LogRoom
import NoWait.Proofs.Rollback
import NoWait.Proofs.Turns

/-!
# When a rollback gets stuck

A deletion is entered for undo before it is logged.  If the log refuses its record the row stays where it
is, and from then on no rollback gets past the entry, since there is a row where one would have to be put
back.  A rollback fails for no other reason.

* `Event.losesDelete` says that a deletion is entered and then refused;
* `Blocked` is what such a deletion leaves behind among the writes; `Blocked.undoAll` says that no rollback
  gets past it, and `Turn.blocked` that nothing else removes it;
* `abort_ok_iff` is the result: which transactions can be rolled back, and to what.
-/

namespace NoWait

open Database

/-- Whether a call is a deletion of a transaction whose record the log refuses. -/
def Event.losesDelete (event : Event) (h : Handle) : Bool :=
  match event.call with
  | .run h' (.delete ..) => h' = h && event.failsLog
  | _ => false

/-- Whether among writes, given newest first, there is a deletion that would find a row at its position
once the newer ones are taken back. -/
def Blocked : Rows → List WriteRecord → Prop
  | _, [] => False
  | rows, write :: older =>
    (write.kind = .delete ∧ rows write.table write.rid ≠ none) ∨ Blocked (write.revert rows) older

variable {start s : Session} {call : Call} {answer : Except StatementError Answer} {db' : Database}
  {trace : List Event} {h : Handle} {rows rows' : Rows} {newer base : List WriteRecord}

/-! ### Writes that block a rollback -/

/-- Whether writes block a rollback depends on the rows at their positions alone. -/
theorem Blocked.congr (hblocked : Blocked rows newer)
    (hrows : ∀ write ∈ newer, rows' write.table write.rid = rows write.table write.rid) :
    Blocked rows' newer := by
  induction newer generalizing rows rows' with
  | nil => exact hblocked
  | cons write older ih =>
    rcases hblocked with ⟨hkind, hrow⟩ | hblocked
    · left
      rw [hrows write List.mem_cons_self]
      exact ⟨hkind, hrow⟩
    · right
      apply ih hblocked
      intro w hw
      simp only [WriteRecord.revert, Rows.set]
      rw [hrows w (List.mem_cons_of_mem _ hw)]

theorem Blocked.append (hblocked : Blocked rows newer) (base : List WriteRecord) :
    Blocked rows (newer ++ base) := by
  induction newer generalizing rows with
  | nil => exact absurd hblocked id
  | cons write older ih => exact hblocked.imp_right ih

/-- A row is not put back where there is one. -/
theorem Catalog.exists_error_of_undo {catalog : Catalog} {write : WriteRecord}
    (hkind : write.kind = .delete) (hrow : catalog.rows write.table write.rid ≠ none) :
    ∃ error, catalog.undo write = .error error := by
  cases hundo : catalog.undo write with
  | error error => exact ⟨error, rfl⟩
  | ok catalog' =>
    exfalso
    obtain ⟨table, table', hget, htable, rfl⟩ := Catalog.of_undo_eq_ok hundo
    rw [Catalog.rows_of_get? hget] at hrow
    obtain ⟨hinsert, _⟩ | ⟨_, before, _, hplace⟩ | ⟨hupdate, _⟩ := Table.undo_cases htable
    · cases hkind.symm.trans hinsert
    · exact hrow (Table.of_placeRow_eq_ok hplace).2
    · cases hkind.symm.trans hupdate

/-- No rollback gets past writes that block it, and those that it leaves go on blocking. -/
theorem Blocked.undoAll {catalog : Catalog} (hblocked : Blocked catalog.rows newer)
    (hs : catalog.Sound) (base : List WriteRecord) :
    ∃ error undone left catalog', catalog.undoAll (newer ++ base) = (.error error, left ++ base, catalog') ∧
      newer = undone ++ left ∧ catalog'.rows = catalog.rows.revertAll undone ∧
      Blocked catalog'.rows left := by
  induction newer generalizing catalog with
  | nil => exact absurd hblocked id
  | cons write older ih =>
    cases hundo : catalog.undo write with
    | error error =>
      have hcons : catalog.undoAll (write :: older ++ base) =
          (.error error, write :: (older ++ base), catalog) := by
        rw [List.cons_append, Catalog.undoAll, hundo]
      exact ⟨error, [], write :: older, catalog, hcons, rfl, rfl, hblocked⟩
    | ok mid =>
      obtain ⟨hsound, _, hrows⟩ := Catalog.undo_spec hs hundo
      have hblocked' : Blocked mid.rows older := by
        rw [hrows]
        refine hblocked.resolve_left fun hfound => ?_
        obtain ⟨error, hfails⟩ := Catalog.exists_error_of_undo hfound.1 hfound.2
        rw [hundo] at hfails
        cases hfails
      have hcons : catalog.undoAll (write :: older ++ base) = mid.undoAll (older ++ base) := by
        rw [List.cons_append, Catalog.undoAll, hundo]
      obtain ⟨error, undone, left, catalog', hall, rfl, hrows', hleft⟩ := ih hblocked' hsound
      refine ⟨error, write :: undone, left, catalog', hcons.trans hall, rfl, ?_, hleft⟩
      rw [hrows', hrows]
      rfl

/-- A further write leaves those below it as much in the way as they were. -/
theorem Blocked.wrote {db : Database} {write : WriteRecord} {row : Option Bytes}
    (hblocked : Blocked db.catalog.rows newer) (hw : Wrote h write row db db') (hs : db.catalog.Sound) :
    Blocked db'.catalog.rows (write :: newer) := by
  right
  rw [(hw.change hs).revert]
  exact hblocked

/-- As long as a transaction does not end, what blocks its rollback stays in the way. -/
theorem Turn.blocked (hturn : Turn h s call answer db') (hg : s.db.Guarded)
    (hlt : h < s.db.transactions.size) (hwrites : (s.db.txn h).writes = newer ++ base)
    (hblocked : Blocked s.db.catalog.rows newer)
    (hgoing : call = .commit h ∨ call = .abort h → ¬ Over h answer db') :
    ∃ newer', (db'.txn h).writes = newer' ++ base ∧ Blocked db'.catalog.rows newer' := by
  have hwrote : ∀ {write : WriteRecord} {row : Option Bytes}, Wrote h write row s.db db' →
      ∃ newer', (db'.txn h).writes = newer' ++ base ∧ Blocked db'.catalog.rows newer' := by
    intro write row hw
    exact ⟨write :: newer, by rw [hw.writes, hwrites]; rfl, hblocked.wrote hw hg.catalog⟩
  have hquiet : Quiet h s.db db' →
      ∃ newer', (db'.txn h).writes = newer' ++ base ∧ Blocked db'.catalog.rows newer' := by
    intro hq
    exact ⟨newer, hq.writes.trans hwrites, (hq.rows hg.catalog).rows ▸ hblocked⟩
  cases hturn with
  | bystander htxn _ hrows _ =>
    refine ⟨newer, htxn ▸ hwrites, hblocked.congr fun write hmem => ?_⟩
    have hmem' : write ∈ (s.db.txn h).writes := hwrites ▸ List.mem_append_left base hmem
    exact hrows _ _ (hg.holdsRow hlt hmem' ⟨rfl, rfl⟩)
  | quiet hq _ => exact hquiet hq
  | ran statement _ houtcome =>
    cases houtcome.did with
    | quiet hq _ => exact hquiet hq
    | wrote _ _ hw _ _ _ => exact hwrote hw
    | missed _ hw _ _ _ => exact hwrote hw
  | stuck error left catalog _ _ _ hundo hdb =>
    obtain ⟨_, _, left', catalog', hall, _, _, hleft⟩ := hblocked.undoAll hg.catalog base
    rw [hwrites, hall] at hundo
    cases hundo
    refine ⟨left', ?_, ?_⟩
    · rw [hdb, txn_rolledBack hlt]
    · rw [hdb]
      exact hleft
  | ended hcall hover => exact absurd hover (hgoing hcall)

/-! ### Deletions that the log refuses -/

/-- A statement that enters a deletion is one. -/
theorem Statement.exists_delete_of_write? {statement : Statement} {row : Option Bytes}
    (hwrite : statement.write? = some (.delete, row)) :
    ∃ name rid, statement = .delete name rid := by
  cases statement with
  | delete name rid => exact ⟨name, rid, rfl⟩
  | insert | update | read | acquire => cases hwrite

theorem Event.losesDelete_of_ne_run (hrun : ∀ statement, call ≠ .run h statement) :
    (⟨s, call⟩ : Event).losesDelete h = false := by
  unfold Event.losesDelete
  split
  · rename_i h' name rid hcall
    have hne : h' ≠ h := fun heq => hrun (.delete name rid) (heq ▸ hcall)
    simp [hne]
  · rfl

theorem Event.of_losesDelete (hlost : (⟨s, call⟩ : Event).losesDelete h = true) :
    ∃ name rid, call = .run h (.delete name rid) ∧ Answer.isLogFailure (s.step call).1 = true := by
  unfold Event.losesDelete at hlost
  split at hlost
  · rename_i h' name rid hcall
    obtain ⟨rfl, hlog⟩ : h' = h ∧ (⟨s, call⟩ : Event).failsLog = true := by simpa using hlost
    exact ⟨name, rid, hcall, hlog⟩
  · cases hlost

/-- A deletion that the log refuses leaves its row where it was, and a write that cannot be taken back. -/
theorem Statement.Outcome.blocked {name : String} {rid : Rid} {db : Database}
    (houtcome : Statement.Outcome h (.delete name rid) answer db db') (hs : db.catalog.Sound)
    (hlost : Answer.isLogFailure answer = true) :
    db'.isActive h = true ∧ ∃ write, (db'.txn h).writes = [write] ++ (db.txn h).writes ∧
      Blocked db'.catalog.rows [write] := by
  cases houtcome.did with
  | quiet hquiet _ => exact absurd hquiet.writes (houtcome.entered hs hlost)
  | wrote write _ _ _ _ hwrite =>
    have hkind := hwrite.2.2 hlost
    have hdelete := hwrite.1
    rw [hkind] at hdelete
    cases hdelete
  | missed write hw _ _ hwrite =>
    obtain ⟨row, hkind⟩ := hwrite.1
    have hchange := hw.change hs
    have hactive : db'.isActive h = true := by
      rw [Database.isActive, hw.state]
      exact hw.active
    refine ⟨hactive, write, hw.writes, .inl ⟨?_, ?_⟩⟩
    · simpa [Statement.write?] using congrArg (Option.map Prod.fst) hkind.symm
    · rw [hchange.rows, Rows.set_self]
      exact hchange.image_ne_none hwrite.2.1

theorem Event.blocked_of_losesDelete (hlost : (⟨s, call⟩ : Event).losesDelete h = true)
    (hs : s.db.catalog.Sound) :
    (s.step call).2.db.isActive h = true ∧
      ∃ write, ((s.step call).2.db.txn h).writes = [write] ++ (s.db.txn h).writes ∧
        Blocked (s.step call).2.db.catalog.rows [write] := by
  obtain ⟨name, rid, rfl, hlog⟩ := Event.of_losesDelete hlost
  exact (s.step_outcome h _).blocked hs hlog

/-- A transaction can be rolled back after one of its own statements, unless that is a deletion that the
log has refused. -/
theorem Revertible.of_kept {statement : Statement} (hr : Revertible (·.alters h) trace h s)
    (hg : s.db.Guarded) (hkept : (⟨s, .run h statement⟩ : Event).losesDelete h = false)
    (houtcome : Statement.Outcome h statement (s.step (.run h statement)).1 s.db
      (s.step (.run h statement)).2.db) :
    Revertible (·.alters h) (trace ++ [⟨s, .run h statement⟩]) h (s.step (.run h statement)).2 := by
  have hwrote : ∀ {write : WriteRecord} {row : Option Bytes},
      Wrote h write row s.db (s.step (.run h statement)).2.db → (write.kind = .delete ↔ row = none) →
      Revertible (·.alters h) (trace ++ [⟨s, .run h statement⟩]) h (s.step (.run h statement)).2 := by
    intro write row hw hkind
    have hchange := hw.change hg.catalog
    apply hr.of_wrote hw hg.catalog hkind
    · intro name rid
      rw [Event.alters_run_iff, Event.alters_run_iff, hchange.rows]
      by_cases hat : write.isAt name rid
      · obtain ⟨rfl, rfl⟩ := hat
        simp [WriteRecord.isAt]
      · simp [Rows.set_of_ne hat, hat]
    · intro hnone
      rw [Bool.eq_false_iff, Ne, Event.alters_run_iff, not_not, hchange.rows, Rows.set_self] at hnone
      exact hnone.trans hchange.image.symm
    · rfl
  cases houtcome.did with
  | quiet hquiet _ =>
    refine hr.of_quiet hg hquiet (fun name rid => ?_) rfl
    rw [Bool.eq_false_iff, Ne, Event.alters_run_iff, not_not, (hquiet.rows hg.catalog).rows]
  | wrote write row hw _ _ hwrite => exact hwrote hw (Statement.kind_eq_delete_iff hwrite.1)
  | missed write hw _ _ hwrite =>
    refine hwrote hw ?_
    have himage := (hw.change hg.catalog).image_ne_none hwrite.2.1
    have hkind : write.kind ≠ .delete := by
      intro hdelete
      obtain ⟨row, hwrite?⟩ := hwrite.1
      rw [hdelete] at hwrite?
      obtain ⟨name, rid, rfl⟩ := Statement.exists_delete_of_write? hwrite?
      have hlog : Answer.isLogFailure (s.step (.run h (.delete name rid))).1 = false := by
        simpa [Event.losesDelete, Event.failsLog, Event.answer] using hkept
      rw [hwrite.2.2 hlog] at hdelete
      cases hdelete
    simp [hkind, himage]

/-- An abort that is blocked does not succeed. -/
theorem Blocked.abort (hblocked : Blocked s.db.catalog.rows (s.db.txn h).writes) (hg : s.db.Guarded) :
    (s.step (.abort h)).1 ≠ .ok .done := by
  intro hok
  obtain ⟨error, _, left, catalog', hall, _⟩ := hblocked.undoAll hg.catalog []
  rw [List.append_nil] at hall
  have heffect := s.step_effect (.abort h)
  rw [hok] at heffect
  cases heffect with
  | untouched _ hends _ => exact absurd rfl (hends h).2
  | quiet _ hends _ => exact absurd rfl (hends h).2
  | aborted _ hundo _ _ =>
    rw [hundo] at hall
    cases hall

/-! ### Runs -/

/-- A transaction that has not ended can be rolled back as long as no deletion of it has been refused by the
log, and never again after that. -/
theorem Run.revertible_or_blocked (hrun : Run start trace s) (hfresh : start.IsFresh)
    (hcatalog : start.db.catalog.Sound) (hids : s.db.DistinctIds)
    (hhand : ∀ event ∈ trace, event.call.isByHand = false) (hroom : start.db.log.HasRoom 36)
    (hopen : ∀ event ∈ trace, event.commits h = false ∧ event.aborts h = false) :
    ((∀ event ∈ trace, event.losesDelete h = false) → Revertible (·.alters h) trace h s) ∧
      ((∃ event ∈ trace, event.losesDelete h = true) →
        (s.db.txn h).state ≠ .committed ∧ Blocked s.db.catalog.rows (s.db.txn h).writes) := by
  induction hrun with
  | nil => exact ⟨fun _ => hfresh.revertible _ h, by simp⟩
  | @snoc trace s call hrun ih =>
    have hlast : (⟨s, call⟩ : Event) ∈ trace ++ [⟨s, call⟩] := by simp
    obtain ⟨hg, hids₀, hhand₀, hnow⟩ := hrun.before_last (hfresh.guarded hcatalog) hids hhand
    obtain ⟨hrevertible, hblocked⟩ := ih hids₀ hhand₀ fun event hmem =>
      hopen event (List.mem_append_left _ hmem)
    have hgoing : call = .commit h ∨ call = .abort h →
        ¬ ((s.step call).1.isOk = true ∨ Answer.isLogFailure (s.step call).1 = true) := by
      intro hcall
      have hlog := s.step_end_hasRoom hcall (((hrun.hasRoom_iff 36).1).mpr hroom)
      simp [Event.isOk_eq_false hcall (hopen _ hlast), hlog]
    constructor
    · intro hkept
      have hr := hrevertible fun event hmem => hkept event (List.mem_append_left _ hmem)
      apply hr.of_step hg hids hnow hgoing fun hrun _ _ => Event.alters_of_ne_run hrun
      intro statement hcall houtcome
      subst hcall
      exact hr.of_kept hg (hkept _ hlast) houtcome
    · intro hlost
      have hcase : (∃ event ∈ trace, event.losesDelete h = true) ∨
          (⟨s, call⟩ : Event).losesDelete h = true := by
        simpa [or_and_right, exists_or] using hlost
      rcases hcase with hbefore | hloses
      · obtain ⟨hstate, hblocked⟩ := hblocked hbefore
        have hlt : h < s.db.transactions.size := by
          by_contra hge
          exact hstate (by simp [Database.txn, hge])
        have hturn := (s.step_effect call).turn hg hids hnow hlt
        have hover : call = .commit h ∨ call = .abort h → ¬ Over h (s.step call).1 (s.step call).2.db :=
          fun hcall hover => hgoing hcall hover.isOk
        obtain ⟨newer, hwrites, hblocked'⟩ :=
          hturn.blocked hg hlt (List.append_nil _).symm hblocked hover
        refine ⟨?_, ?_⟩
        · rcases hturn.state hover with hsame | haborted
          · rwa [hsame]
          · rw [haborted]
            decide
        · rwa [hwrites, List.append_nil]
      · obtain ⟨hactive, write, hwrites, hblocked'⟩ := Event.blocked_of_losesDelete hloses hg.catalog
        refine ⟨?_, ?_⟩
        · intro hstate
          simp [isActive, hstate, TransactionState.isFinished] at hactive
        · rw [hwrites]
          exact hblocked'.append _

/-- The rollback of a transaction that has not ended succeeds if and only if no deletion of it has been
refused by the log.  It then leaves every row as it was just before the transaction first left another one
at its position, and all other rows as they are. -/
theorem abort_ok_iff (hrun : Run start trace s) (hfresh : start.IsFresh)
    (hcatalog : start.db.catalog.Sound) (hids : s.db.DistinctIds)
    (hhand : ∀ event ∈ trace, event.call.isByHand = false)
    (hbegun : ∃ event ∈ trace, event.call = .begin ∧ event.answer = .ok (.handle h))
    (hopen : ∀ event ∈ trace, event.commits h = false ∧ event.aborts h = false) :
    ((s.step (.abort h)).1 = .ok .done ↔ ∀ event ∈ trace, event.losesDelete h = false) ∧
      ((s.step (.abort h)).1 = .ok .done → ∀ name rid,
        (s.step (.abort h)).2.db.catalog.rows name rid =
          (firstBefore (·.alters h name rid) trace s).db.catalog.rows name rid) := by
  obtain ⟨hroom, hlt⟩ := hrun.hasRoom_of_begun hbegun
  have hg := (hrun.guarded (hfresh.guarded hcatalog) hids hhand).1
  have hlog : (⟨s, .abort h⟩ : Event).failsLog = false :=
    s.step_end_hasRoom (.inr rfl) (((hrun.hasRoom_iff 36).1).mpr hroom)
  obtain ⟨hrevertible, hblocked⟩ :=
    hrun.revertible_or_blocked hfresh hcatalog hids hhand hroom hopen
  by_cases hlost : ∃ event ∈ trace, event.losesDelete h = true
  · have hfails := (hblocked hlost).2.abort hg
    obtain ⟨event, hmem, hlost⟩ := hlost
    refine ⟨⟨fun hok => absurd hok hfails, fun hkept => ?_⟩, fun hok => absurd hok hfails⟩
    rw [hkept event hmem] at hlost
    cases hlost
  · have hkept : ∀ event ∈ trace, event.losesDelete h = false := by
      intro event hmem
      by_contra hloses
      exact hlost ⟨event, hmem, by simpa using hloses⟩
    obtain ⟨hok, _, _, hrows⟩ := (hrevertible hkept).abort hg hlt hlog
    exact ⟨⟨fun _ => hkept, fun _ => hok⟩, fun _ => hrows⟩

/-! ### A log that takes small rows only -/

namespace Session

/-- An empty table for rows of a given size, two on a page. -/
def emptyTable (name : String) (id : TableId) (rowSize : Nat) : Table where
  name := name
  heap := { table := id, config := { rowSize, slotsPerPage := 2 } }

/-- A session with two tables, and a log that takes what concerns a row of the one and nothing that
concerns a row of the other. -/
def tightLog : Session where
  db :=
    { log :=
        { trail := .empty, buffer := { config := { bufferSize := 60 }, threshold := 45 }, nextLsn := 1,
          flushedLsn := 0 }
      catalog := (({} : Catalog).put (emptyTable "small" 1 1)).put (emptyTable "large" 2 20) }

theorem tightLog_isFresh : tightLog.IsFresh := ⟨rfl, rfl, rfl, rfl⟩

theorem tightLog_sound : tightLog.db.catalog.Sound := by
  have hempty : ∀ name id rowSize, (emptyTable name id rowSize).Sound := by
    intro name id rowSize
    apply Table.Sound.of_empty rfl
    intro index hindex
    cases hindex
  exact (Catalog.Sound.empty.put (hempty "small" 1 1)).put (hempty "large" 2 20)

end Session

/-- A transaction is rolled back of whose four statements all but the first have failed: the log has refused
an update and an insertion, and another update was of the wrong size. -/
theorem abort_ok_iff_refused_update :
    let calls : List Call := [.begin, .run 0 (.insert "small" [5]), .commit 0, .begin,
      .run 1 (.insert "small" [6]), .run 1 (.update "small" ⟨0, 0⟩ [7]),
      .run 1 (.update "small" ⟨0, 0⟩ []), .run 1 (.insert "large" (List.replicate 20 5))]
    let s := Session.tightLog.play calls
    (Session.tightLog.trace calls).map (·.answer.isOk) =
      [true, true, true, true, true, false, false, false] ∧
    s.db.catalog.rows "large" ⟨0, 0⟩ = some (List.replicate 20 5) ∧ (s.step (.abort 1)).1 = .ok .done ∧
      (s.step (.abort 1)).2.db.catalog.rows "large" ⟨0, 0⟩ = none := by
  intro calls s
  have hrun : Run Session.tightLog (Session.tightLog.trace calls) s := .of_calls _ calls
  have hbefore : (firstBefore (·.alters 1 "large" ⟨0, 0⟩) (Session.tightLog.trace calls) s).db.catalog.rows
      "large" ⟨0, 0⟩ = none := by decide +kernel
  have hbegun : ∃ event ∈ Session.tightLog.trace calls,
      event.call = .begin ∧ event.answer = .ok (.handle 1) := by decide +kernel
  obtain ⟨hiff, hrestores⟩ := abort_ok_iff (h := 1) hrun Session.tightLog_isFresh Session.tightLog_sound
    (by decide +kernel) (by decide +kernel) hbegun (by decide +kernel)
  have hok := hiff.mpr (by decide +kernel)
  exact ⟨by decide +kernel, by decide +kernel, hok, (hrestores hok _ _).trans hbefore⟩

/-- A transaction inserts a row and deletes it again; the log refuses either record, and the transaction
cannot be rolled back. -/
theorem abort_fails_after_refused_delete :
    ∃ (trace : List Event) (s : Session), Run Session.tightLog trace s ∧ s.db.DistinctIds ∧
      (∀ event ∈ trace, event.call.isByHand = false) ∧
      (∃ event ∈ trace, event.call = .begin ∧ event.answer = .ok (.handle 0)) ∧
      (∀ event ∈ trace, event.commits 0 = false ∧ event.aborts 0 = false) ∧
      (s.step (.abort 0)).1 = .error (.transaction (.storage (.occupied ⟨0, 0⟩))) ∧
      Session.tightLog.db.catalog.rows "large" ⟨0, 0⟩ = none ∧
      (s.step (.abort 0)).2.db.catalog.rows "large" ⟨0, 0⟩ = some (List.replicate 20 5) := by
  let calls : List Call := [.begin, .run 0 (.insert "large" (List.replicate 20 5)), .run 0 (.delete "large" ⟨0, 0⟩)]
  have hrun : Run Session.tightLog (Session.tightLog.trace calls) (Session.tightLog.play calls) :=
    .of_calls _ calls
  exact ⟨_, _, hrun, by decide +kernel, by decide +kernel, by decide +kernel, by decide +kernel,
    by decide +kernel, by decide +kernel, by decide +kernel⟩

end NoWait
