import NoWait.Proofs.Finished
import NoWait.Proofs.LogNumbers
import NoWait.Proofs.LoggedChanges
import NoWait.Proofs.SerialRuns

/-!
# The records of how transactions have ended

Every end that succeeds is logged.  A transaction commits once at most, and has no record after that; but one that
has been rolled back can be rolled back again, and each time the log takes one more record of it.

* `endings` are the ends of a transaction in a run, `ownRecords` its records, and `EndsOnce` says that at most the
  last of them is of an end;
* `Session.step_state` says that a transaction which cannot go on stays as it is until it is rolled back, and
  `Event.leaves` which record a call leaves;
* `Database.Closed` says that the records of a transaction are closed by those of its ends, and `Database.Accounts`
  that this is so for all transactions; `Run.accounts` says that it is so all along a run;
* `Database.abortedAgain` is what rolling back once more comes to, by `Session.step_abort_again`;
* `end_records_exact` is the result.
-/

namespace NoWait

open Database

variable {start s : Session} {trace : List Event} {call : Call} {h h' : Handle} {db db' : Database}
  {event : Event} {record : LogRecord} {records own before closing : List LogRecord} {kinds : List RecordKind}

/-! ### Records of ends -/

/-- Whether a record of the kind says how a transaction has ended. -/
def RecordKind.isEnd : RecordKind → Bool
  | .commit | .abort => true
  | .begin | .insert | .delete | .update => false

theorem WriteKind.isEnd_recordKind (kind : WriteKind) : kind.recordKind.isEnd = false := by
  cases kind <;> rfl

/-- The records of one transaction, oldest first. -/
def ownRecords (txn : TxnId) (records : List LogRecord) : List LogRecord :=
  records.filter (·.txn = txn)

theorem ownRecords_snoc_self {txn : TxnId} (htxn : record.txn = txn) :
    ownRecords txn (records ++ [record]) = ownRecords txn records ++ [record] := by
  rw [ownRecords, ownRecords, List.filter_append]
  simp [htxn]

theorem ownRecords_snoc_of_ne {txn : TxnId} (hne : record.txn ≠ txn) :
    ownRecords txn (records ++ [record]) = ownRecords txn records := by
  rw [ownRecords, ownRecords, List.filter_append]
  simp [hne]

/-- Whether no record comes after one that says how the transaction has ended. -/
def EndsOnce (records : List LogRecord) : Prop :=
  ∀ before record after, records = before ++ record :: after → record.kind.isEnd = true → after = []

theorem endsOnce_append (hbefore : ∀ record ∈ before, record.kind.isEnd = false)
    (hclosing : ∀ record ∈ closing, record.kind.isEnd = true) :
    EndsOnce (before ++ closing) ↔ closing.length ≤ 1 := by
  constructor
  · intro honce
    cases closing with
    | nil => exact Nat.zero_le 1
    | cons first rest =>
      have hnil : rest = [] := honce before first rest rfl (hclosing first List.mem_cons_self)
      rw [hnil, List.length_singleton]
  · intro hlength older record after heq hend
    by_contra hafter
    -- Without the last one of all, there is still the record of an end, which is not one of those before.
    obtain ⟨rest, last, rfl⟩ : ∃ rest last, after = rest ++ [last] := by
      exact ⟨_, _, (List.dropLast_append_getLast hafter).symm⟩
    have hmem : record ∈ before := by
      match closing, hlength, heq with
      | [], _, heq =>
        rw [List.append_nil] at heq
        rw [heq]
        simp
      | [only], _, heq =>
        have hsplit : before ++ [only] = (older ++ record :: rest) ++ [last] := by
          rw [heq, List.append_assoc, List.cons_append]
        rw [(List.append_inj' hsplit rfl).1]
        simp
    exact absurd (hend.symm.trans (hbefore record hmem)) (by decide)

/-! ### Ends in a run -/

/-- The kind of the record of an end that has succeeded. -/
def Event.endKind (event : Event) (h : Handle) : RecordKind := if event.commits h then .commit else .abort

/-- The ends of a transaction in a run, each by the kind of its record. -/
def endings (h : Handle) (trace : List Event) : List RecordKind :=
  (trace.filter (·.finishes h)).map (·.endKind h)

theorem endings_snoc (h : Handle) (trace : List Event) (event : Event) :
    endings h (trace ++ [event]) = endings h trace ++ if event.finishes h then [event.endKind h] else [] := by
  rw [endings, endings, List.filter_append, List.map_append]
  cases hfinishes : event.finishes h with
  | true => rw [List.filter_singleton, hfinishes]; rfl
  | false => rw [List.filter_singleton, hfinishes]; rfl

/-- A transaction that has ended has begun before. -/
theorem Run.lt_of_endings (hrun : Run start trace s) (hends : endings h trace ≠ []) :
    h < s.db.transactions.size := by
  obtain ⟨kind, hkind⟩ := List.exists_mem_of_ne_nil _ hends
  obtain ⟨event, hmem, _⟩ := List.mem_map.mp hkind
  obtain ⟨hmem, hfinishes⟩ := List.mem_filter.mp hmem
  exact hrun.lt_of_begins ⟨event, hmem, .inr hfinishes⟩

/-- Only a transaction that can go on is committed. -/
theorem Event.committed (hcommits : event.commits h = true) :
    event.before.db.isActive h = true ∧ (event.after.db.txn h).state = .committed ∧
      event.endKind h = .commit := by
  obtain ⟨s, call⟩ := event
  have hsplit := hcommits
  simp only [Event.commits, Bool.and_eq_true, decide_eq_true_eq] at hsplit
  obtain ⟨rfl, hok⟩ := hsplit
  have hended : (s.step (.commit h)).1.isOk = true →
      s.db.isActive h = true ∧ ((s.step (.commit h)).2.db.txn h).state = .committed := by
    refine Session.step_end_spec (P := fun answer db' => answer.isOk = true →
      s.db.isActive h = true ∧ (db'.txn h).state = .committed) (.inl rfl) (fun _ => ?_)
        fun hcall => by cases hcall
    apply (commit_ends h s.db).mono
    · intro _ db' hcommitted _
      exact ⟨hcommitted.1, hcommitted.2.2⟩
    · intro _ _ _ hfails
      cases hfails
  exact ⟨(hended hok).1, (hended hok).2, if_pos hcommits⟩

theorem Database.abort_fails (hcommitted : (db.txn h).state = .committed) :
    (abort h).Fails db fun error => error = .finished (db.txn h).id := by
  rw [Action.Fails, abort, Action.ends_bind, Action.ends_get, if_pos hcommitted]
  exact ⟨rfl, rfl⟩

/-- No committed transaction is rolled back. -/
theorem Event.aborted (haborts : event.aborts h = true) :
    (event.before.db.txn h).state ≠ .committed ∧ (event.after.db.txn h).state = .aborted ∧
      event.endKind h = .abort := by
  obtain ⟨s, call⟩ := event
  simp only [Event.aborts, Bool.and_eq_true, decide_eq_true_eq] at haborts
  obtain ⟨rfl, hok⟩ := haborts
  have hended : (s.step (.abort h)).1.isOk = true → ((s.step (.abort h)).2.db.txn h).state = .aborted := by
    refine Session.step_end_spec (P := fun answer db' => answer.isOk = true → (db'.txn h).state = .aborted)
      (.inr rfl) (fun hcall => by cases hcall) fun _ => ?_
    apply (abort_ends h s.db).mono
    · intro _ db' haborted _
      obtain ⟨_, catalog, _, _, hstate⟩ := haborted
      exact hstate
    · intro _ _ _ hfails
      cases hfails
  refine ⟨fun hcommitted => ?_, hended hok, if_neg (by simp [Event.commits])⟩
  have hfails : (s.step (.abort h)).1.isOk = false := by
    obtain ⟨error, hact, _⟩ := Session.act_fails (s := s) (.bind (.mapError (E := fun _ => True)
      ((abort_fails hcommitted).mono fun _ _ => trivial)))
    rw [Session.step, hact]
    rfl
  rw [Event.answer, hfails] at hok
  cases hok

/-! ### A transaction that cannot go on -/

theorem Database.state_updateTxn (db : Database) (h h' : Handle) {change : Transaction → Transaction}
    (hstate : ∀ t, (change t).state = t.state) :
    ((db.updateTxn h change).txn h').state = (db.txn h').state := by
  by_cases hh : h = h'
  · subst hh
    by_cases hlt : h < db.transactions.size
    · rw [txn_updateTxn_self db change hlt, hstate]
    · simp [txn, updateTxn, hlt]
  · rw [txn_updateTxn_of_ne db change hh]

namespace Session

/-- An end that fails leaves its transaction in its state. -/
theorem step_end_state (hend : call = .commit h ∨ call = .abort h) (hfails : (s.step call).1.isOk = false) :
    ((s.step call).2.db.txn h).state = (s.db.txn h).state := by
  apply step_end_spec (P := fun answer db' => answer.isOk = false →
    (db'.txn h).state = (s.db.txn h).state) hend (fun _ => ?_) (fun _ => ?_) hfails
  · exact (commit_marks h s.db).mono (fun _ _ _ => nofun) fun _ _ hmarks _ => hmarks.1
  · exact (abort_marks h s.db).mono (fun _ _ _ => nofun) fun _ _ hmarks _ => hmarks.1

/-- What is given up by hand changes no state that the change does not change. -/
theorem giveUp_state {change : Database → Database} (hchange : ((change s.db).txn h).state = (s.db.txn h).state) :
    ((s.giveUp h' change).2.db.txn h).state = (s.db.txn h).state := by
  unfold giveUp
  split
  · exact hchange
  · rfl

/-- A transaction that cannot go on stays in its state, unless it is rolled back. -/
theorem step_state (hlt : h < s.db.transactions.size) (hinactive : s.db.isActive h = false)
    (hends : (⟨s, call⟩ : Event).finishes h = false) :
    ((s.step call).2.db.txn h).state = (s.db.txn h).state := by
  cases hasks : s.asker? call with
  | none =>
    obtain harrived | huntouched := step_unasked hasks
    · rw [harrived.txn h hlt]
    · rw [huntouched.txn h]
  | some h' =>
    by_cases hend : call = .commit h' ∨ call = .abort h'
    · by_cases hh : h' = h
      · subst hh
        apply step_end_state hend
        rw [Bool.eq_false_iff]
        intro hok
        exact absurd (hends.symm.trans (Event.finishes_iff.mpr ⟨hend, hok⟩)) (by decide)
      · obtain hsame | ⟨hk, _⟩ | ⟨catalog, hleft⟩ := (s.step_effect call).end_cases hend
        · rw [hsame]
        · rw [hk.txn h hh]
        · exact congrArg (·.state) (hleft.txn h hh)
    · cases hhand : call.isByHand with
      | false =>
        by_cases hh : h' = h
        · subst hh
          rw [step_idle hinactive hasks (not_or.mp hend).2 hhand]
        · rw [(asked_keeps hasks (not_or.mp hend) hhand).txn h hh]
      | true =>
        cases call with
        | release h₀ resource => exact giveUp_state (state_updateTxn _ h₀ h fun _ => rfl)
        | releaseAll h₀ => exact giveUp_state (state_updateTxn _ h₀ h fun _ => rfl)
        | releaseGaps h₀ => exact giveUp_state rfl
        | begin | adopt | run | lockGap | checkGap | lockRange | openScan | initScan | nextScan | commit
          | abort => cases hhand

end Session

/-! ### The record that a call leaves -/

/-- What it is for a call to leave a record of a transaction: the log has taken it and no other, and either the
call has ended the transaction and the record says how, or the call has ended nobody, and the transaction has just
begun or could go on. -/
structure Event.Leaves (event : Event) (h : Handle) (record : LogRecord) : Prop where
  took : event.before.db.log.Took event.after.db.log [record]
  lt : h < event.after.db.transactions.size
  txn : record.txn = (event.after.db.txn h).id
  kind : event.finishes h = true ∧ record.kind = event.endKind h ∨
    record.kind.isEnd = false ∧ (∀ h', event.finishes h' = false) ∧
      (h < event.before.db.transactions.size → event.before.db.isActive h = true)

/-- A call that leaves a record of one transaction ends no other. -/
theorem Event.Leaves.finishes_of_ne (hleaves : event.Leaves h record) (hne : h ≠ h') :
    event.finishes h' = false := by
  obtain ⟨hfinishes, _⟩ | ⟨_, hgoing, _⟩ := hleaves.kind
  · rw [Bool.eq_false_iff]
    intro hfinishes'
    have hcall := (Event.finishes_iff.mp hfinishes).1
    obtain heq | heq := (Event.finishes_iff.mp hfinishes').1
    · simp [heq, Ne.symm hne] at hcall
    · simp [heq, Ne.symm hne] at hcall
  · exact hgoing h'

/-- A statement leaves no record of an end. -/
theorem Statement.Takes.cases {statement : Statement} {answer : Except StatementError Answer}
    (htakes : statement.Takes h answer db db') :
    db.log.Took db'.log [] ∨ ∃ kind content, kind.isEnd = false ∧ TookRecord h kind content db db' := by
  cases answer with
  | ok value =>
    by_cases hwrite : statement.write? = none
    · exact .inl (htakes.1 hwrite)
    · obtain ⟨kind, row, name, rid, _, _, shape, _, htook⟩ := htakes.2 hwrite
      exact .inr ⟨_, _, kind.isEnd_recordKind, htook⟩
  | error error =>
    cases hlogged : statement.loggedThough error with
    | false => exact .inl (htakes.1 hlogged)
    | true =>
      obtain ⟨name, rid, row, _, shape, _, htook⟩ := htakes.2 hlogged
      exact .inr ⟨_, _, WriteKind.update.isEnd_recordKind, htook⟩

/-- An end leaves a record of itself, if it succeeds. -/
theorem Event.leaves_of_end {kind : RecordKind}
    (hcall : call = .commit h ∧ kind = .commit ∨ call = .abort h ∧ kind = .abort) :
    (s.db.log.Took (s.step call).2.db.log [] ∧ ∀ h', (⟨s, call⟩ : Event).finishes h' = false) ∨
      ∃ record, (⟨s, call⟩ : Event).Leaves h record := by
  have hend : call = .commit h ∨ call = .abort h := hcall.imp And.left And.left
  obtain ⟨hok, _, hlt, record, hkind, htried⟩ | ⟨hfails, htried⟩ := s.step_end_tried hcall
  · right
    have hfinishes : (⟨s, call⟩ : Event).finishes h = true := Event.finishes_iff.mpr ⟨hend, hok⟩
    refine ⟨record, htried.took, ?_, ?_, .inl ⟨hfinishes, hkind.trans ?_⟩⟩
    · exact Nat.lt_of_lt_of_le hlt (s.step_effect call).keepsIds.size
    · cases htried with
      | taken _ _ _ htxn _ _ _ _ _ => exact htxn
    · obtain ⟨rfl, rfl⟩ | ⟨rfl, rfl⟩ := hcall
      · simp [Event.endKind, Event.commits, Event.answer, hok]
      · simp [Event.endKind, Event.commits]
  · left
    refine ⟨htried.took, fun h' => ?_⟩
    rw [Bool.eq_false_iff]
    intro hfinishes
    have hok : (s.step call).1.isOk = true := (Event.finishes_iff.mp hfinishes).2
    exact absurd (hfails.symm.trans hok) (by decide)

/-- A call leaves one record at most. -/
theorem Event.leaves (event : Event) (hs : event.before.db.catalog.Sound) :
    (event.before.db.log.Took event.after.db.log [] ∧ ∀ h, event.finishes h = false) ∨
      ∃ h record, event.Leaves h record := by
  obtain ⟨s, call⟩ := event
  have hgoing : (∀ h, call ≠ .commit h ∧ call ≠ .abort h) → ∀ h, (⟨s, call⟩ : Event).finishes h = false :=
    fun hends h => Event.finishes_eq_false (hends h).1 (hends h).2
  cases hsparing : call.isSparing with
  | true =>
    left
    refine ⟨Log.took_nil (Session.step_sameStore hsparing).log, hgoing fun h => ⟨?_, ?_⟩⟩
    · rintro rfl
      cases hsparing
    · rintro rfl
      cases hsparing
  | false =>
    cases call with
    | begin =>
      obtain ⟨harrived, record, hkind, htried⟩ | ⟨_, htried⟩ := s.step_begin_tried
      · right
        refine ⟨s.db.nextHandle, record, htried.took, ?_, ?_, .inr ⟨?_, hgoing (by simp), ?_⟩⟩
        · exact lt_of_isActive harrived.active
        · cases htried with
          | taken _ _ _ htxn _ _ _ _ _ => exact htxn
        · rw [hkind]
          rfl
        · exact fun hlt => absurd hlt (Nat.lt_irrefl _)
      · exact .inl ⟨htried.took, hgoing (by simp)⟩
    | run h statement =>
      cases hactive : s.db.isActive h with
      | false =>
        have hsame : (s.step (.run h statement)).2.db = s.db := Session.step_idle hactive rfl (by simp) rfl
        exact .inl ⟨Log.took_nil (by rw [Event.after, hsame]), hgoing (by simp)⟩
      | true =>
        obtain htook | ⟨kind, content, hkind, record, htook, htxn, hrecord, _⟩ :=
          (s.step_takes h statement hs).cases
        · exact .inl ⟨htook, hgoing (by simp)⟩
        · right
          refine ⟨h, record, htook, ?_, htxn, .inr ⟨hrecord ▸ hkind, hgoing (by simp), fun _ => hactive⟩⟩
          exact Nat.lt_of_lt_of_le (lt_of_isActive hactive) (s.step_effect _).keepsIds.size
    | commit h => exact (Event.leaves_of_end (.inl ⟨rfl, rfl⟩)).imp_right fun hleaves => ⟨h, hleaves⟩
    | abort h => exact (Event.leaves_of_end (.inr ⟨rfl, rfl⟩)).imp_right fun hleaves => ⟨h, hleaves⟩
    | adopt | lockGap | checkGap | lockRange | openScan | initScan | nextScan | release | releaseAll
      | releaseGaps => cases hsparing

/-! ### Records that are closed by those of the ends -/

/-- Whether the records of a transaction are some that are of no end, and then one for each of the given ends; these
are its commit or any number of times that it was rolled back. -/
structure Database.Closed (db : Database) (h : Handle) (kinds : List RecordKind) (own : List LogRecord) :
    Prop where
  split : ∃ before closing, own = before ++ closing ∧ (∀ record ∈ before, record.kind.isEnd = false) ∧
    closing.map (·.kind) = kinds
  ended : kinds = [] ∨ (kinds = [.commit] ∧ (db.txn h).state = .committed) ∨
    ∃ n, kinds = List.replicate (n + 1) .abort ∧ (db.txn h).state = .aborted

namespace Database.Closed

theorem fresh (db : Database) (h : Handle) : db.Closed h [] [] where
  split := ⟨[], [], rfl, by simp, rfl⟩
  ended := .inl rfl

theorem inactive (hclosed : db.Closed h kinds own) (hends : kinds ≠ []) : db.isActive h = false := by
  obtain hnil | ⟨_, hstate⟩ | ⟨n, _, hstate⟩ := hclosed.ended
  · exact absurd hnil hends
  · rw [isActive, hstate]
    rfl
  · rw [isActive, hstate]
    rfl

/-- The records stay closed as long as the transaction stays ended. -/
theorem keep (hclosed : db.Closed h kinds own) (hstate : kinds ≠ [] → (db'.txn h).state = (db.txn h).state) :
    db'.Closed h kinds own where
  split := hclosed.split
  ended := by
    by_cases hends : kinds = []
    · exact .inl hends
    · rw [hstate hends]
      exact hclosed.ended

/-- Until it has ended, a transaction may have another record. -/
theorem write (hclosed : db.Closed h kinds own) (hgoing : kinds = []) (hkind : record.kind.isEnd = false) :
    db'.Closed h kinds (own ++ [record]) where
  split := by
    obtain ⟨before, closing, rfl, hbefore, hclosing⟩ := hclosed.split
    obtain rfl : closing = [] := List.map_eq_nil_iff.mp (hclosing.trans hgoing)
    refine ⟨before ++ [record], [], by simp, ?_, hclosing⟩
    rw [List.forall_mem_append, List.forall_mem_singleton]
    exact ⟨hbefore, hkind⟩
  ended := .inl hgoing

/-- An end closes the records, or adds one to those that do. -/
theorem finish (hclosed : event.before.db.Closed h kinds own) (hfinishes : event.finishes h = true)
    (hkind : record.kind = event.endKind h) :
    event.after.db.Closed h (kinds ++ [event.endKind h]) (own ++ [record]) where
  split := by
    obtain ⟨before, closing, rfl, hbefore, hclosing⟩ := hclosed.split
    refine ⟨before, closing ++ [record], List.append_assoc .., hbefore, ?_⟩
    rw [List.map_append, hclosing, List.map_singleton, hkind]
  ended := by
    right
    obtain hcommits | haborts := Bool.or_eq_true_iff.mp hfinishes
    · obtain ⟨hactive, hstate, hend⟩ := Event.committed hcommits
      left
      have hnone : kinds = [] := by
        by_contra hends
        exact absurd ((hclosed.inactive hends).symm.trans hactive) (by decide)
      rw [hnone, hend]
      exact ⟨rfl, hstate⟩
    · obtain ⟨hgoing, hstate, hend⟩ := Event.aborted haborts
      right
      rw [hend]
      obtain rfl | ⟨_, hcommitted⟩ | ⟨n, rfl, _⟩ := hclosed.ended
      · exact ⟨0, rfl, hstate⟩
      · exact absurd hcommitted hgoing
      · exact ⟨n + 1, List.replicate_succ'.symm, hstate⟩

end Database.Closed

/-- Whether a run accounts for records: each is of a transaction that is there, and those of each transaction are
closed by the records of its ends. -/
structure Database.Accounts (db : Database) (trace : List Event) (records : List LogRecord) : Prop where
  owned : ∀ record ∈ records, ∃ h < db.transactions.size, record.txn = (db.txn h).id
  closed : ∀ h < db.transactions.size, db.Closed h (endings h trace) (ownRecords (db.txn h).id records)

namespace Database.Accounts

/-- What has been accounted for is so for every transaction that is there behind a call, too. -/
theorem closed_before (haccounts : s.db.Accounts trace records) (hrun : Run start trace s)
    (hids : (s.step call).2.db.DistinctIds) (hlt : h < (s.step call).2.db.transactions.size) :
    s.db.Closed h (endings h trace) (ownRecords ((s.step call).2.db.txn h).id records) := by
  have hkeeps : KeepsIds s.db (s.step call).2.db := (s.step_effect call).keepsIds
  by_cases hold : h < s.db.transactions.size
  · rw [hkeeps.id h hold]
    exact haccounts.closed h hold
  · have hends : endings h trace = [] := by
      by_contra hends
      exact hold (hrun.lt_of_endings hends)
    have hnone : ownRecords ((s.step call).2.db.txn h).id records = [] :=
      filter_txn_eq_nil hkeeps hids hold hlt haccounts.owned
    rw [hends, hnone]
    exact .fresh _ h

/-- It stays so for a transaction that the call does not end. -/
theorem closed_after (haccounts : s.db.Accounts trace records) (hrun : Run start trace s)
    (hids : (s.step call).2.db.DistinctIds) (hlt : h < (s.step call).2.db.transactions.size)
    (hgoing : (⟨s, call⟩ : Event).finishes h = false) :
    (s.step call).2.db.Closed h (endings h (trace ++ [⟨s, call⟩]))
      (ownRecords ((s.step call).2.db.txn h).id records) := by
  have hclosed := haccounts.closed_before hrun hids hlt
  rw [endings_snoc, hgoing, if_neg (by decide), List.append_nil]
  apply hclosed.keep
  intro hends
  exact Session.step_state (hrun.lt_of_endings hends) (hclosed.inactive hends) hgoing

/-- A record that a call leaves closes the records of its transaction, or goes before those that do. -/
theorem closed_leaves (haccounts : s.db.Accounts trace records) (hrun : Run start trace s)
    (hids : (s.step call).2.db.DistinctIds) (hleaves : (⟨s, call⟩ : Event).Leaves h record) :
    (s.step call).2.db.Closed h (endings h (trace ++ [⟨s, call⟩]))
      (ownRecords ((s.step call).2.db.txn h).id records ++ [record]) := by
  have hclosed := haccounts.closed_before hrun hids hleaves.lt
  rw [endings_snoc]
  obtain ⟨hfinishes, hkind⟩ | ⟨hkind, hgoing, hactive⟩ := hleaves.kind
  · rw [if_pos hfinishes]
    exact hclosed.finish hfinishes hkind
  · rw [if_neg (by simp [hgoing h]), List.append_nil]
    apply hclosed.write _ hkind
    by_contra hends
    exact absurd ((hclosed.inactive hends).symm.trans (hactive (hrun.lt_of_endings hends))) (by decide)

theorem owned_after (haccounts : s.db.Accounts trace records) (call : Call) :
    ∀ record ∈ records, ∃ h < (s.step call).2.db.transactions.size,
      record.txn = ((s.step call).2.db.txn h).id := by
  have hkeeps : KeepsIds s.db (s.step call).2.db := (s.step_effect call).keepsIds
  intro record hmem
  obtain ⟨h, hlt, htxn⟩ := haccounts.owned record hmem
  exact ⟨h, Nat.lt_of_lt_of_le hlt hkeeps.size, htxn.trans (hkeeps.id h hlt).symm⟩

/-- A call that leaves no record leaves the records accounted for. -/
theorem step_nothing (haccounts : s.db.Accounts trace records) (hrun : Run start trace s)
    (hids : (s.step call).2.db.DistinctIds) (hgoing : ∀ h, (⟨s, call⟩ : Event).finishes h = false) :
    (s.step call).2.db.Accounts (trace ++ [⟨s, call⟩]) records where
  owned := haccounts.owned_after call
  closed := fun h hlt => haccounts.closed_after hrun hids hlt (hgoing h)

/-- So does one that leaves a record, with that record. -/
theorem step_leaves (haccounts : s.db.Accounts trace records) (hrun : Run start trace s)
    (hids : (s.step call).2.db.DistinctIds) (hleaves : (⟨s, call⟩ : Event).Leaves h record) :
    (s.step call).2.db.Accounts (trace ++ [⟨s, call⟩]) (records ++ [record]) where
  owned := by
    rw [List.forall_mem_append, List.forall_mem_singleton]
    exact ⟨haccounts.owned_after call, h, hleaves.lt, hleaves.txn⟩
  closed := by
    intro h' hlt
    have htxn : record.txn = ((s.step call).2.db.txn h).id := hleaves.txn
    by_cases hh : h = h'
    · subst hh
      rw [ownRecords_snoc_self htxn]
      exact haccounts.closed_leaves hrun hids hleaves
    · have hother : record.txn ≠ ((s.step call).2.db.txn h').id := by
        rw [htxn]
        exact fun heq => hh (hids h hleaves.lt h' hlt heq)
      rw [ownRecords_snoc_of_ne hother]
      exact haccounts.closed_after hrun hids hlt (hleaves.finishes_of_ne hh)

end Database.Accounts

/-- A run accounts for all that the log has taken in it. -/
theorem Run.accounts (hrun : Run start trace s) (hcatalog : start.db.catalog.Sound) (hids : s.db.DistinctIds) :
    ∃ records, start.db.log.Took s.db.log records ∧ s.db.Accounts trace records := by
  induction hrun with
  | nil => exact ⟨[], Log.took_nil rfl, by simp, fun h _ => .fresh _ h⟩
  | @snoc trace s call hrun ih =>
    have hkeeps : KeepsIds s.db (s.step call).2.db := (s.step_effect call).keepsIds
    obtain ⟨records, htook, haccounts⟩ := ih (hkeeps.distinctIds hids)
    obtain ⟨hnothing, hgoing⟩ | ⟨h, record, hleaves⟩ := (⟨s, call⟩ : Event).leaves (hrun.tables hcatalog).1
    · refine ⟨records, ?_, haccounts.step_nothing hrun hids hgoing⟩
      have hlog := htook.trans hnothing
      rwa [List.append_nil] at hlog
    · exact ⟨records ++ [record], htook.trans hleaves.took, haccounts.step_leaves hrun hids hleaves⟩

/-! ### Rolling back once more -/

/-- The database in which a transaction that was rolled back has been so once more: the log has one more record of
that in its file, and the transaction knows its number. -/
def Database.abortedAgain (db : Database) (h : Handle) : Database :=
  let record : LogRecord :=
    { lsn := db.log.nextLsn, txn := (db.txn h).id, prev := (db.txn h).lastLsn, kind := .abort,
      content := .control db.clock }
  { db with log := (db.log.take record).flush }.updateTxn h (·.recordLsn record.lsn)

namespace Database

theorem Gone.rolledBack_eq (hgone : db.Gone h) : db.rolledBack h [] db.catalog = db := by
  apply updateTxn_eq_self
  rw [← hgone.writes]

/-- A transaction that holds nothing lets go of nothing. -/
theorem Gone.letGo_eq (hgone : db.Gone h) : db.letGo h = db := by
  have hwrites : (db.updateTxn h fun t => { t with writes := [] }) = db := hgone.rolledBack_eq
  have hlocks : db.releaseAll h = db := by
    rw [releaseAll, hgone.lockSet]
    apply updateTxn_eq_self
    show { db.txn h with locks := {} } = db.txn h
    rw [← hgone.lockSet]
  have hgaps : db.releaseGaps h = db := by
    have hnone : db.gaps.entries.filter (·.2.txn ≠ (db.txn h).id) = db.gaps.entries :=
      List.filter_eq_self.mpr fun entry hmem => decide_eq_true (hgone.gaps entry hmem)
    rw [releaseGaps, GapTable.release, hnone]
  rw [letGo, hwrites, hlocks, hgaps]

theorem erase_activeHandle? {id : TxnId} (hstruck : db.activeHandle? id = none) : db.active.erase id = db.active := by
  apply Std.ExtTreeMap.ext_getElem?
  intro other
  rw [Std.ExtTreeMap.getElem?_erase]
  split
  · rename_i heq
    rw [← Std.compare_eq_iff_eq.mp heq]
    exact hstruck.symm
  · rfl

/-- A record that there is room for is taken, and is in the file after a flush. -/
theorem append_of_hasRoom (log : Log) (txn : TxnId) (prev : Lsn) (kind : RecordKind) (content : RecordContent)
    (hroom : log.HasRoom (LogRecord.encode { lsn := log.nextLsn, txn, prev, kind, content }).length) :
    ∃ log', log.append txn prev kind content = (.ok log.nextLsn, log') ∧
      log'.flush = (log.take { lsn := log.nextLsn, txn, prev, kind, content }).flush := by
  obtain hrefused | ⟨_, happend⟩ := log.append_cases txn prev kind content
  · exact absurd hroom ((log.append_refuses_iff txn prev kind content).mp ⟨_, by rw [hrefused]⟩)
  · refine ⟨_, happend, ?_⟩
    split
    · exact Log.flush_of_nil (Log.buffer_flush _)
    · rfl

/-- The end of a transaction that is off the register is logged all the same, if there is room for its record. -/
theorem finish_again (hstate : (db.txn h).state = .aborted) (hstruck : db.activeHandle? (db.txn h).id = none)
    (hroom : db.log.HasRoom 36) :
    (finish h .abort .aborted).Ends db (fun _ db' => db' = db.abortedAgain h) fun _ _ => False := by
  obtain ⟨log, happend, hflushed⟩ := append_of_hasRoom db.log (db.txn h).id (db.txn h).lastLsn .abort
    (.control db.clock) (by rwa [LogRecord.length_encode_control])
  simp only [finish, logRecord, Action.ends_bind, Action.ends_get, Action.ends_mapError, happend,
    Action.ends_set, Action.ends_ofExcept_ok, Action.ends_modify]
  let logged : Database := { db with log }
  have hkeeps : Keeps h logged (logged.updateTxn h (·.recordLsn db.log.nextLsn)) :=
    .updateTxn h logged (fun _ => rfl) fun _ => rfl
  rw [hkeeps.id]
  let flushed : Database := { db with log := log.flush, active := db.active.erase (db.txn h).id }
  show (flushed.updateTxn h (·.recordLsn db.log.nextLsn)).updateTxn h (fun t => { t with state := .aborted }) = _
  rw [updateTxn_updateTxn]
  have hflushed' : flushed = { db with log := log.flush } := by
    simp only [flushed, erase_activeHandle? hstruck]
  rw [hflushed', hflushed]
  apply updateTxn_congr
  show ({ (db.txn h).recordLsn db.log.nextLsn with state := .aborted } : Transaction) = _
  rw [← hstate]
  rfl

/-- A transaction that has been rolled back and holds nothing can be rolled back once more, which has nothing to do
but to be logged. -/
theorem Gone.abort_again (hgone : db.Gone h) (hstate : (db.txn h).state = .aborted)
    (hstruck : db.activeHandle? (db.txn h).id = none) (hroom : db.log.HasRoom 36) :
    (abort h).Ends db (fun _ db' => db' = db.abortedAgain h) fun _ _ => False := by
  apply abort_ends_of
  · intro hcommitted
    cases hstate.symm.trans hcommitted
  · intro error left catalog _ hundo
    rw [hgone.writes] at hundo
    cases hundo
  · intro catalog _ hundo
    rw [hgone.writes] at hundo
    obtain rfl : db.catalog = catalog := congrArg (·.2.2) hundo
    rw [hgone.rolledBack_eq, hgone.letGo_eq]
    exact finish_again hstate hstruck hroom

end Database

theorem Session.step_abort_again (hgone : s.db.Gone h) (hstate : (s.db.txn h).state = .aborted)
    (hstruck : s.db.activeHandle? (s.db.txn h).id = none) (hroom : s.db.log.HasRoom 36) :
    s.step (.abort h) = (.ok .done, { s with db := s.db.abortedAgain h }) := by
  obtain ⟨hanswer, hdb⟩ : (s.step (.abort h)).1 = .ok .done ∧
      (s.step (.abort h)).2.db = s.db.abortedAgain h := by
    apply step_end_spec (P := fun answer db' => answer = .ok .done ∧ db' = s.db.abortedAgain h) (.inr rfl)
    · intro hcall
      cases hcall
    intro _
    exact (hgone.abort_again hstate hstruck hroom).mono (fun _ _ hsame => ⟨rfl, hsame⟩)
      fun _ _ hfails => hfails.elim
  have hscans : (s.step (.abort h)).2.scans = s.scans := s.act_scans _
  rw [← hdb, ← hscans, ← hanswer]

/-- An end that has succeeded has found room for its record. -/
theorem Session.hasRoom_of_end (hcall : call = .commit h ∨ call = .abort h) (hok : (s.step call).1.isOk = true) :
    s.db.log.HasRoom 36 := by
  obtain ⟨kind, hkind⟩ : ∃ kind, call = .commit h ∧ kind = RecordKind.commit ∨ call = .abort h ∧ kind = .abort := by
    obtain rfl | rfl := hcall
    · exact ⟨.commit, .inl ⟨rfl, rfl⟩⟩
    · exact ⟨.abort, .inr ⟨rfl, rfl⟩⟩
  obtain ⟨_, _, _, record, _, htried⟩ | ⟨hfails, _⟩ := s.step_end_tried hkind
  · cases htried with
    | taken _ _ _ _ _ hfits _ _ _ =>
      have hroom : s.db.log.HasRoom record.encode.length := hfits
      exact hroom.mono record.le_length_encode
  · exact absurd (hfails.symm.trans hok) (by decide)

/-! ### The records of the ends of a run -/

theorem RecordKind.isEnd_of_mem_endings {kind : RecordKind} (hmem : kind ∈ endings h trace) : kind.isEnd = true := by
  obtain ⟨event, _, rfl⟩ := List.mem_map.mp hmem
  unfold Event.endKind
  split <;> rfl

/-- In a run on sound tables, in which no two transactions get one number, the log takes for each transaction first
records that are of no end, and then one for each time that its commit or its abort has succeeded: none, one of its
commit, or any number of its being rolled back.  So the record of its end is the last one, and no other is of an end,
as long as it has not been rolled back more than once.  A transaction that has been rolled back can be so again at
any time; this changes neither tables nor locks nor the register, but it is logged. -/
theorem end_records_exact (hrun : Run start trace s) (hcatalog : start.db.catalog.Sound)
    (hregister : start.db.active = {}) (hids : s.db.DistinctIds) :
    ∃ records, start.db.log.Took s.db.log records ∧ ∀ h < s.db.transactions.size,
      (∃ before closing, ownRecords (s.db.txn h).id records = before ++ closing ∧
        (∀ record ∈ before, record.kind.isEnd = false) ∧ closing.map (·.kind) = endings h trace) ∧
      (endings h trace = [] ∨ endings h trace = [.commit] ∨ ∃ n, endings h trace = List.replicate (n + 1) .abort) ∧
      (EndsOnce (ownRecords (s.db.txn h).id records) ↔ (endings h trace).length ≤ 1) ∧
      (.abort ∈ endings h trace → s.step (.abort h) = (.ok .done, { s with db := s.db.abortedAgain h })) := by
  obtain ⟨records, htook, haccounts⟩ := hrun.accounts hcatalog hids
  refine ⟨records, htook, fun h hlt => ?_⟩
  have hmine := haccounts.closed h hlt
  refine ⟨hmine.split, hmine.ended.imp_right (.imp And.left fun ⟨n, hends, _⟩ => ⟨n, hends⟩), ?_, fun haborted => ?_⟩
  · obtain ⟨before, closing, hown, hbefore, hclosing⟩ := hmine.split
    rw [hown, endsOnce_append hbefore, ← hclosing, List.length_map]
    intro record hmem
    have hkind : record.kind ∈ endings h trace := by
      rw [← hclosing]
      exact List.mem_map_of_mem hmem
    exact RecordKind.isEnd_of_mem_endings hkind
  · obtain ⟨event, hmem, _⟩ := List.mem_map.mp haborted
    obtain ⟨hmem, hfinishes⟩ := List.mem_filter.mp hmem
    obtain ⟨hcall, hok⟩ := Event.finishes_iff.mp hfinishes
    apply Session.step_abort_again (hrun.gone hids hmem hfinishes)
    · obtain hnone | ⟨hcommit, _⟩ | ⟨n, _, hstate⟩ := hmine.ended
      · rw [hnone] at haborted
        cases haborted
      · rw [hcommit] at haborted
        simp at haborted
      · exact hstate
    · exact hrun.activeHandle?_eq_none hregister hids hmem hfinishes
    · have hroom : event.before.db.log.HasRoom 36 := Session.hasRoom_of_end hcall hok
      exact (hrun.hasRoom_iff 36).1.mpr (((hrun.hasRoom_iff 36).2 event hmem).mp hroom)

/-- A transaction is rolled back, and then once more. -/
theorem end_records_exact_twice :
    let calls : List Call := [.begin, .run 0 (.insert "t" [5]), .abort 0, .abort 0]
    let s := Session.oneTable.play calls
    ∃ records, Session.oneTable.db.log.Took s.db.log records ∧ ¬ EndsOnce (ownRecords 1 records) ∧
      s.step (.abort 0) = (.ok .done, { s with db := s.db.abortedAgain 0 }) := by
  intro calls s
  have hends : endings 0 (Session.oneTable.trace calls) = [.abort, .abort] := by decide +kernel
  have hid : (s.db.txn 0).id = 1 := by decide +kernel
  obtain ⟨records, htook, hrecords⟩ := end_records_exact (.of_calls Session.oneTable calls)
    Session.oneTable_sound rfl (by decide +kernel)
  obtain ⟨_, _, honce, hagain⟩ := hrecords 0 (by decide +kernel)
  rw [hid, hends] at honce
  rw [hends] at hagain
  refine ⟨records, htook, ?_, hagain (by decide)⟩
  rw [honce]
  decide

/-- A transaction that has been rolled back is so again; the log has two records of that, and has given out another
number. -/
theorem aborted_twice_logged_twice :
    let s := Session.oneTable.play [.begin, .abort 0]
    let s' := (s.step (.abort 0)).2
    let begun : LogRecord := { lsn := 1, txn := 1, prev := 0, kind := .begin, content := .control 0 }
    let first : LogRecord := { lsn := 2, txn := 1, prev := 1, kind := .abort, content := .control 0 }
    let second : LogRecord := { lsn := 3, txn := 1, prev := 2, kind := .abort, content := .control 0 }
    (s.step (.abort 0)).1 = .ok .done ∧
      s.db.log.bytes = [begun, first].flatMap LogRecord.frame ∧
      s'.db.log.bytes = [begun, first, second].flatMap LogRecord.frame ∧
      s'.db.log.nextLsn = s.db.log.nextLsn + 1 := by
  decide +kernel

end NoWait
