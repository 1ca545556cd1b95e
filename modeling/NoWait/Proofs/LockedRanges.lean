import NoWait.Proofs.LogRoom
import NoWait.Proofs.RangeScans
import NoWait.Proofs.Recovery
import NoWait.Proofs.Sides
import NoWait.Proofs.Turns

/-!
# The ranges that are locked

When gaps are taken for ranges of keys only, and given up at the end of their transaction only, the gaps
that are held at any time are those of the ranges that have been locked and not been let go of.

* `LockedRange` is a range with its table and its transaction, `unreleased` are the ones that have been locked
  in a run and not been let go of, and `OthersAdmit` asks whether one of another transaction admits a key;
* `Session.step_gaps` is what a call does to the gaps, `Run.gaps_eq` what a run has done to them;
* `Run.blocks_iff` says that a key is blocked exactly if another transaction's range admits it.
-/

namespace NoWait

open Database

/-! ### Ranges that are locked -/

/-- A range of keys that a transaction has locked on a table. -/
structure LockedRange where
  txn : TxnId
  table : String
  range : KeyRange
  deriving DecidableEq, Repr

/-- The gap that is held for a range, with the number of its table. -/
def LockedRange.asGap? (shapes : String → Option TableShape) (locked : LockedRange) :
    Option (TableId × Gap) :=
  (shapes locked.table).map fun shape =>
    (shape.id, { txn := locked.txn, start := locked.range.start, stop := locked.range.stop })

/-- Whether gaps are taken for ranges only, and given up by ending a transaction only. -/
def Call.isByRange : Call → Bool
  | .lockGap .. | .releaseGaps _ => false
  | _ => true

/-- The range that a scan locks when it is opened, if it is a range scan. -/
def Scan.lockedRange? (scan : Scan) (db : Database) : Option LockedRange :=
  match scan.plan with
  | .range range => some { txn := (db.txn scan.owner).id, table := scan.table, range }
  | .sequential => none

namespace Event

/-- The range that a call locks, by asking for it or by opening a range scan. -/
def lockedRange? (event : Event) : Option LockedRange :=
  if event.answer.isOk then
    match event.call with
    | .lockRange h table range => some { txn := (event.before.db.txn h).id, table, range }
    | .initScan i => event.before.scans[i]?.bind (·.lockedRange? event.before.db)
    | _ => none
  else none

/-- The number of the transaction that lets go of everything at a call. -/
def letGo? (event : Event) : Option TxnId :=
  match event.call with
  | .commit h | .abort h => if event.letsGo h then some (event.before.db.txn h).id else none
  | _ => none

end Event

/-- The ranges that have been locked in a run and have not been let go of. -/
def unreleased (trace : List Event) : List LockedRange :=
  trace.foldl (fun ranges event =>
    ranges.filter (fun locked => event.letGo? ≠ some locked.txn) ++ event.lockedRange?.toList) []

/-- Whether a range that another transaction has locked on a table, and has not let go of, admits a key. -/
def OthersAdmit (trace : List Event) (txn : TxnId) (name : String) (key : Bytes) : Prop :=
  ∃ locked ∈ unreleased trace, locked.txn ≠ txn ∧ locked.table = name ∧ locked.range.contains key = true

instance (trace : List Event) (txn : TxnId) (name : String) (key : Bytes) :
    Decidable (OthersAdmit trace txn name key) :=
  inferInstanceAs (Decidable (∃ locked ∈ _, _))

variable {start s : Session} {call : Call} {trace : List Event} {h : Handle} {name : String}
  {range : KeyRange}

@[simp] theorem unreleased_snoc (trace : List Event) (event : Event) :
    unreleased (trace ++ [event]) =
      (unreleased trace).filter (fun locked => event.letGo? ≠ some locked.txn) ++
        event.lockedRange?.toList := by
  simp [unreleased]

/-! ### The gaps that are held -/

namespace Database

/-- A range that is locked adds its gap to the gaps that are held; one that is refused adds nothing. -/
theorem lockRange_gaps (h : Handle) (name : String) (range : KeyRange) (db : Database) :
    (lockRange h name range).Ends db
      (fun _ db' => ∃ table, db.catalog.get? name = some table ∧ table.index.isSome = true ∧
        db'.catalog = db.catalog ∧ db'.gaps.entries = db.gaps.entries ++
          [(table.id, { txn := (db.txn h).id, start := range.start, stop := range.stop })])
      fun _ db' => db'.gaps = db.gaps := by
  simp only [lockRange]
  rw [Action.ends_bind]
  apply (table_ends name db).mono
  · intro table db hfound
    obtain ⟨rfl, hget⟩ := hfound
    split
    · rfl
    · rename_i hindex
      simp only [Action.ends_bind, Action.ends_mapError, lockGap]
      apply (ensureActive_ends h db).mono
      · intro _ db hactive
        obtain ⟨rfl, -⟩ := hactive
        simp only [Action.ends_get]
        split
        · rename_i gaps hlock
          refine ⟨table, hget, by simpa [Option.isSome_iff_ne_none] using hindex, rfl, ?_⟩
          unfold GapTable.lock? at hlock
          split at hlock
          · cases hlock
          · cases hlock
            rfl
        · exact refuse_frame (R := SameGaps) (α := Unit) h .gapConflict db
      · intro _ db hstopped
        rw [hstopped.1]
  · intro _ db hmissing
    rw [hmissing.1]

end Database

/-- Opening a range scan adds the gap of its range, and opening any other scan adds nothing. -/
theorem Scan.positions_gaps (scan : Scan) (db : Database) :
    scan.positions.Ends db
      (fun _ db' => db'.gaps.entries =
        db.gaps.entries ++ ((scan.lockedRange? db).bind (·.asGap? db.catalog.shapes)).toList)
      fun _ db' => db'.gaps = db.gaps := by
  unfold positions Scan.lockedRange?
  cases scan.plan with
  | sequential =>
    simp only [Option.bind_none, Option.toList_none, List.append_nil]
    have hwithin : (do
        let id := (← Database.table scan.table).id
        (Database.acquire scan.owner (.table id) .shared).mapError .transaction
        return (← Database.table scan.table).heap.scan : Action StatementError (List Rid)).Within
          SameGaps := by
      refine (table_frame _).bind fun table => ((acquire_frame _ _ _).mapError _).bind fun _ => ?_
      exact (table_frame _).bind fun _ => Action.within_pure _
    exact (hwithin db).mono (fun _ _ hgaps => congrArg _ hgaps) fun _ _ hgaps => hgaps
  | range range =>
    simp only [Action.ends_bind]
    apply (lockRange_gaps scan.owner scan.table range db).mono
    · intro ends mid hlocked
      obtain ⟨table, hget, hindex, hcatalog, hgaps⟩ := hlocked
      have hmid : mid.catalog.get? scan.table = some table := by rw [hcatalog, hget]
      refine (table_succeeds hmid).ends ?_
      rintro table last ⟨rfl, rfl⟩
      obtain ⟨index, hsome⟩ := Option.isSome_iff_exists.mp hindex
      rw [hsome]
      show last.gaps.entries = _
      rw [hgaps, Option.bind_some, LockedRange.asGap?, Catalog.shapes_of_get? hget]
      rfl
    · intro _ _ hgaps
      exact hgaps

namespace Database

/-- A commit gives up the gaps of its transaction, if it gets so far. -/
theorem commit_gaps (h : Handle) (db : Database) :
    (commit h).Ends db (fun _ db' => db'.gaps = db.gaps.release (db.txn h).id) fun error db' =>
      db'.gaps = if (StatementError.transaction error).isLogFailure then
        db.gaps.release (db.txn h).id else db.gaps := by
  apply (commit_ends h db).mono
  · intro _ db' hcommitted
    exact hcommitted.2.1.gaps
  · rintro error db' (⟨rfl, -, rfl⟩ | ⟨hleft, hlost⟩)
    · rfl
    · rw [if_pos hlost, hleft.gaps]

/-- An abort gives up the gaps of its transaction, if it gets so far. -/
theorem abort_gaps (h : Handle) (db : Database) :
    (abort h).Ends db (fun _ db' => db'.gaps = db.gaps.release (db.txn h).id) fun error db' =>
      db'.gaps = if (StatementError.transaction error).isLogFailure then
        db.gaps.release (db.txn h).id else db.gaps := by
  apply (abort_ends h db).mono
  · rintro _ db' ⟨-, catalog, -, hleft, -⟩
    rw [hleft.gaps, (keeps_rolledBack h db [] catalog).id]
    rfl
  · rintro error db' (⟨rfl, -, rfl⟩ | ⟨-, left, catalog, hundo, rfl⟩ | ⟨-, catalog, -, hleft, hlost⟩)
    · rfl
    · rw [(Catalog.isUndoFailure_of_undoAll hundo).isLogFailure_eq_false]
      rfl
    · rw [if_pos hlost, hleft.gaps, (keeps_rolledBack h db [] catalog).id]
      rfl

end Database

namespace Session

/-- The beginning of a transaction leaves the gaps as they are. -/
theorem begin_gaps (s : Session) : (s.step .begin).2.db.gaps = s.db.gaps := by
  refine act_spec (P := fun _ db' => db'.gaps = s.db.gaps) ?_
  simp only [Action.ends_bind, Action.ends_mapError]
  exact (begin_ends s.db).mono (fun _ _ hbegun => hbegun.2.gaps) fun _ _ hlost => hlost.1.gaps

/-- The end of a transaction takes away the gaps of the transaction if it lets go, and no others. -/
theorem end_gaps (s : Session) (hcall : call = .commit h ∨ call = .abort h) :
    (s.step call).2.db.gaps =
      if (⟨s, call⟩ : Event).letsGo h then s.db.gaps.release (s.db.txn h).id else s.db.gaps := by
  have hgoes : (⟨s, call⟩ : Event).letsGo h =
      ((s.step call).1.isOk || Answer.isLogFailure (s.step call).1) := by
    rcases hcall with rfl | rfl <;> simp [Event.letsGo, Event.answer, Event.failsLog]
  rw [hgoes]
  exact step_end_spec (P := fun answer db' => db'.gaps =
      if answer.isOk || Answer.isLogFailure answer then s.db.gaps.release (s.db.txn h).id else s.db.gaps)
    hcall (fun _ => commit_gaps h s.db) fun _ => abort_gaps h s.db

/-- What a request for a range and the opening of a scan do to the gaps: the gap of a range that is locked
comes after the others. -/
theorem lockRange_gaps (s : Session) (h : Handle) (name : String) (range : KeyRange) :
    (s.step (.lockRange h name range)).2.db.gaps.entries = s.db.gaps.entries ++
      ((⟨s, .lockRange h name range⟩ : Event).lockedRange?.bind (·.asGap? s.db.catalog.shapes)).toList := by
  unfold Event.lockedRange? Event.answer
  let locked : LockedRange := { txn := (s.db.txn h).id, table := name, range }
  refine act_spec (P := fun answer db' => db'.gaps.entries = s.db.gaps.entries ++
    ((if answer.isOk then some locked else none).bind (·.asGap? s.db.catalog.shapes)).toList) ?_
  rw [Action.ends_bind]
  apply (Database.lockRange_gaps h name range s.db).mono
  · intro ends db' hlocked
    obtain ⟨table, hget, -, -, hgaps⟩ := hlocked
    show db'.gaps.entries = s.db.gaps.entries ++ (locked.asGap? s.db.catalog.shapes).toList
    rw [hgaps, LockedRange.asGap?, Catalog.shapes_of_get? hget]
    rfl
  · intro error db' hgaps
    show db'.gaps.entries = _
    rw [hgaps]
    simp [Except.isOk, Except.toBool]

theorem initScan_gaps (s : Session) (i : Nat) :
    (s.step (.initScan i)).2.db.gaps.entries = s.db.gaps.entries ++
      ((⟨s, .initScan i⟩ : Event).lockedRange?.bind (·.asGap? s.db.catalog.shapes)).toList := by
  unfold Event.lockedRange? Event.answer
  cases hscan : s.scans[i]? with
  | none =>
    rw [show s.step (.initScan i) = (.ok .done, s) from actOnScan_of_none hscan _]
    simp [hscan]
  | some scan =>
    have hgaps := scan.positions_gaps s.db
    unfold Action.Ends at hgaps
    have hstep := step_initScan hscan
    cases hrun : scan.positions s.db with
    | ok pending db' =>
      rw [hrun] at hgaps
      simp only [hrun] at hstep
      simp only [hstep, hscan]
      exact hgaps
    | error error db' =>
      rw [hrun] at hgaps
      simp only [hrun] at hstep
      simp only [hstep]
      rw [hgaps]
      simp [Except.isOk, Except.toBool]

/-- What a call does to the gaps that are held: it takes away those of a transaction that lets go, and adds
the one of a range that is locked. -/
theorem step_gaps (s : Session) (hcall : call.isByRange = true) :
    (s.step call).2.db.gaps.entries =
      s.db.gaps.entries.filter (fun entry => (⟨s, call⟩ : Event).letGo? ≠ some entry.2.txn) ++
        ((⟨s, call⟩ : Event).lockedRange?.bind (·.asGap? s.db.catalog.shapes)).toList := by
  have hkept : (⟨s, call⟩ : Event).letGo? = none →
      s.db.gaps.entries.filter (fun entry => (⟨s, call⟩ : Event).letGo? ≠ some entry.2.txn) =
        s.db.gaps.entries := by
    intro hnone
    rw [hnone]
    simp
  have hend : ∀ h, call = .commit h ∨ call = .abort h → (s.step call).2.db.gaps.entries =
      s.db.gaps.entries.filter (fun entry => (⟨s, call⟩ : Event).letGo? ≠ some entry.2.txn) ++
        ((⟨s, call⟩ : Event).lockedRange?.bind (·.asGap? s.db.catalog.shapes)).toList := by
    intro h hcall
    have hgo : (⟨s, call⟩ : Event).letGo? =
        if (⟨s, call⟩ : Event).letsGo h then some (s.db.txn h).id else none := by
      rcases hcall with rfl | rfl <;> rfl
    have hnone : (⟨s, call⟩ : Event).lockedRange? = none := by
      rcases hcall with rfl | rfl <;> simp [Event.lockedRange?]
    rw [s.end_gaps hcall, hgo, hnone]
    split
    · simp [GapTable.release, eq_comm]
    · simp
  have hsame : call.isAside = true ∨ call = .begin → (⟨s, call⟩ : Event).letGo? = none →
      (⟨s, call⟩ : Event).lockedRange? = none → (s.step call).2.db.gaps.entries =
      s.db.gaps.entries.filter (fun entry => (⟨s, call⟩ : Event).letGo? ≠ some entry.2.txn) ++
        ((⟨s, call⟩ : Event).lockedRange?.bind (·.asGap? s.db.catalog.shapes)).toList := by
    intro haside hends hnone
    have hgaps : (s.step call).2.db.gaps = s.db.gaps := by
      rcases haside with haside | rfl
      · exact step_frame (R := SameGaps) haside
      · exact s.begin_gaps
    rw [hgaps, hkept hends, hnone]
    simp
  cases call with
  | lockRange h name range =>
    rw [hkept rfl]
    exact s.lockRange_gaps h name range
  | initScan i =>
    rw [hkept rfl]
    exact s.initScan_gaps i
  | commit h => exact hend h (.inl rfl)
  | abort h => exact hend h (.inr rfl)
  | begin => exact hsame (.inr rfl) rfl (by simp [Event.lockedRange?])
  | adopt | run | checkGap | openScan | nextScan | release | releaseAll =>
    exact hsame (.inl rfl) rfl (by simp [Event.lockedRange?])
  | lockGap | releaseGaps => cases hcall

end Session

/-- The gaps that are held after a run are those of the ranges that have been locked in it and not been let
go of. -/
theorem Run.gaps_eq (hrun : Run start trace s) (hfresh : start.IsFresh)
    (hcatalog : start.db.catalog.Sound) (hranges : ∀ event ∈ trace, event.call.isByRange = true) :
    s.db.gaps.entries = (unreleased trace).filterMap (·.asGap? start.db.catalog.shapes) := by
  induction hrun with
  | nil =>
    rw [hfresh.gaps]
    rfl
  | @snoc trace s call hrun ih =>
    have hranges₀ : ∀ event ∈ trace, event.call.isByRange = true :=
      fun event hmem => hranges event (List.mem_append_left _ hmem)
    rw [unreleased_snoc, List.filterMap_append, s.step_gaps (hranges ⟨s, call⟩ (by simp)), ih hranges₀,
      (hrun.tables hcatalog).2]
    congr 1
    · rw [List.filter_filterMap, List.filterMap_filter]
      refine List.filterMap_congr fun locked _ => ?_
      rw [LockedRange.asGap?]
      cases start.db.catalog.shapes locked.table with
      | none => simp
      | some shape => simp [Option.filter]
    · cases (⟨s, call⟩ : Event).lockedRange? with
      | none => rfl
      | some locked => cases hentry : locked.asGap? start.db.catalog.shapes <;> simp [hentry]

/-- What blocks a position on an index before a key are the ranges of others that admit the key. -/
theorem Run.blocks_iff (hrun : Run start trace s) (hfresh : start.IsFresh)
    (hcatalog : start.db.catalog.Sound) (hnumbers : start.db.catalog.DistinctNumbers)
    (hranges : ∀ event ∈ trace, event.call.isByRange = true) {shape : TableShape}
    (hshape : s.db.catalog.shapes name = some shape) (txn : TxnId) (key : Bytes) :
    s.db.gaps.blocks txn shape.id (.before key) = true ↔ OthersAdmit trace txn name key := by
  rw [(hrun.tables hcatalog).2] at hshape
  rw [GapTable.blocks_iff, hrun.gaps_eq hfresh hcatalog hranges]
  simp only [List.mem_filterMap]
  constructor
  · rintro ⟨gap, ⟨locked, hmem, hentry⟩, hne, hcontains⟩
    obtain ⟨shape', hshape', heq⟩ := Option.map_eq_some_iff.mp hentry
    obtain ⟨hid, rfl⟩ := Prod.mk.inj heq
    rw [Gap.contains_range] at hcontains
    exact ⟨locked, hmem, hne, hnumbers _ _ _ _ hshape' hshape hid, hcontains⟩
  · rintro ⟨locked, hmem, hne, rfl, hcontains⟩
    refine ⟨{ txn := locked.txn, start := locked.range.start, stop := locked.range.stop },
      ⟨locked, hmem, ?_⟩, hne, ?_⟩
    · rw [LockedRange.asGap?, hshape]
      rfl
    · rw [Gap.contains_range]
      exact hcontains

end NoWait
