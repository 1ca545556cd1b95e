import NoWait.Proofs.ReadLocks
import NoWait.Proofs.Register
import NoWait.Proofs.Serializability

/-!
# A finished transaction leaves nothing behind

A commit or an abort gives up locks by the lock-set of the transaction, and gaps by its number.  Nothing of it
is left then, and nothing comes back: whatever is asked for on its behalf is refused before anything is
touched.

* `Action.Fails` says that an action fails and leaves everything as it was; all that a transaction can ask for
  fails so once it cannot go on (`perform_fails`, `lockRange_fails`, `Session.step_turned`,
  `Session.step_idle`);
* `Database.Gone` says that a transaction is over and holds nothing, `Event.gone` that it is so after its commit or
  its abort, `Session.step_gone` that it stays so, whatever anyone calls, and `Run.gone` both of a run;
* `Database.HasNothingOf` adds the queues and the register, and `Database.SparesOthers` is what an end is to
  the other transactions;
* `finished_transaction_leaves_nothing` is the result.
-/

namespace NoWait

open Database

variable {start s : Session} {call : Call} {answer : Except StatementError Answer} {db db' : Database}
  {trace : List Event} {h h' : Handle} {i : Nat} {name : String} {scan : Scan}

/-! ### Actions that fail and change nothing -/

namespace Action

variable {ε ε' α β : Type} {action : Action ε α} {E E' : ε → Prop}

/-- Whether an action fails with an error of a kind, and leaves the database as it finds it. -/
def Fails (action : Action ε α) (db : Database) (E : ε → Prop) : Prop :=
  action.Ends db (fun _ _ => False) fun error db' => db' = db ∧ E error

theorem Fails.mono (hfails : action.Fails db E) (h : ∀ error, E error → E' error) :
    action.Fails db E' :=
  Ends.mono hfails (fun _ _ hfalse => hfalse) fun error _ ⟨hsame, herror⟩ => ⟨hsame, h error herror⟩

theorem Fails.bind {next : α → Action ε β} (hfails : action.Fails db E) : (action >>= next).Fails db E :=
  ends_bind.mpr (Ends.mono hfails (fun _ _ hfalse => hfalse.elim) fun _ _ herror => herror)

theorem Fails.mapError {f : ε → ε'} {E : ε' → Prop} (hfails : action.Fails db fun error => E (f error)) :
    (action.mapError f).Fails db E := ends_mapError.mpr hfails

end Action

/-- The table that a statement is on. -/
def Statement.table? : Statement → Option String
  | .insert name _ | .update name _ _ | .delete name _ | .read name _ => some name
  | .acquire .. => none

namespace Database

/-- Whether an error says that a transaction cannot go on. -/
def Turned (db : Database) (h : Handle) (error : StatementError) : Prop :=
  error = .transaction (.finished (db.txn h).id)

theorem ensureActive_fails (hinactive : db.isActive h = false) :
    (ensureActive h).Fails db fun error => db.Turned h (.transaction error) := by
  apply (ensureActive_ends h db).mono
  · rintro _ _ ⟨rfl, hactive⟩
    rw [hinactive] at hactive
    cases hactive
  · rintro _ _ ⟨rfl, -, rfl⟩
    exact ⟨rfl, rfl⟩

theorem acquire_fails (hinactive : db.isActive h = false) (resource : Resource) (mode : Mode) :
    (acquire h resource mode).Fails db fun error => db.Turned h (.transaction error) :=
  (ensureActive_fails hinactive).bind

theorem lockGap_fails (hinactive : db.isActive h = false) (table : TableId) (start stop : Position) :
    (lockGap h table start stop).Fails db fun error => db.Turned h (.transaction error) :=
  (ensureActive_fails hinactive).bind

theorem checkGap_fails (hinactive : db.isActive h = false) (table : TableId) (position : Position) :
    (checkGap h table position).Fails db fun error => db.Turned h (.transaction error) :=
  (ensureActive_fails hinactive).bind

theorem commit_fails (hinactive : db.isActive h = false) :
    (commit h).Fails db fun error => db.Turned h (.transaction error) :=
  (ensureActive_fails hinactive).bind

/-- Where there is a table, what comes next decides about the error. -/
theorem table_bind_fails {α : Type} {next : Table → Action StatementError α} {E : StatementError → Prop}
    (hnext : ∀ table, db.catalog.get? name = some table → (next table).Fails db E) :
    (table name >>= next).Fails db fun error => db.catalog.get? name ≠ none → E error := by
  refine Action.ends_bind.mpr ((table_ends name db).mono ?_ ?_)
  · rintro table db ⟨rfl, hget⟩
    exact (hnext table hget).mono fun _ herror _ => herror
  · rintro _ _ ⟨rfl, hnone, -⟩
    exact ⟨rfl, fun hsome => absurd hnone hsome⟩

theorem lockRow_fails (hinactive : db.isActive h = false) (name : String) (rid : Rid) (mode : Mode) :
    (lockRow h name rid mode).Fails db fun error => db.catalog.get? name ≠ none → db.Turned h error :=
  table_bind_fails fun _ _ => (acquire_fails hinactive _ mode).mapError

/-- A statement on behalf of a transaction that cannot go on fails for that reason, if its table exists. -/
theorem perform_fails (hinactive : db.isActive h = false) (statement : Statement) :
    (statement.perform h).Fails db fun error =>
      (∀ name, statement.table? = some name → db.catalog.get? name ≠ none) → db.Turned h error := by
  have hnamed : ∀ {name error}, statement.table? = some name →
      (db.catalog.get? name ≠ none → db.Turned h error) →
      (∀ name, statement.table? = some name → db.catalog.get? name ≠ none) → db.Turned h error :=
    fun hname herror hthere => herror (hthere _ hname)
  cases statement with
  | insert name row =>
    refine Action.Fails.bind (.mono ?_ fun _ => hnamed rfl)
    exact table_bind_fails fun _ _ => .bind (.mapError (acquire_fails hinactive _ _))
  | update name rid row => exact .bind (.bind ((lockRow_fails hinactive _ _ _).mono fun _ => hnamed rfl))
  | delete name rid => exact .bind (.bind ((lockRow_fails hinactive _ _ _).mono fun _ => hnamed rfl))
  | read name rid => exact .bind (.bind ((lockRow_fails hinactive _ _ _).mono fun _ => hnamed rfl))
  | acquire resource mode =>
    exact .bind (.mono (.mapError (acquire_fails hinactive resource mode)) fun _ herror _ => herror)

/-- So does a request for a range, if its table exists and has an index. -/
theorem lockRange_fails (hinactive : db.isActive h = false) (name : String) (range : KeyRange) :
    (lockRange h name range).Fails db fun error =>
      (∃ table, db.catalog.get? name = some table ∧ table.index.isSome = true) → db.Turned h error := by
  refine Action.ends_bind.mpr ((table_ends name db).mono ?_ ?_)
  · rintro table db ⟨rfl, hget⟩
    have hrest : (do
        let granted ← (lockGap h table.id range.start range.stop).mapError .transaction
        if !granted then (refuse h .gapConflict).mapError .transaction
        return (range.start, range.stop) : Action StatementError (Position × Position)).Fails db
          fun error => db.Turned h error :=
      .bind (.mapError (lockGap_fails hinactive _ _ _))
    split
    · rename_i hnone
      refine Action.Fails.bind ⟨rfl, fun ⟨table', hget', hsome⟩ => ?_⟩
      obtain rfl : table = table' := Option.some.inj (hget.symm.trans hget')
      rw [Option.isNone_iff_eq_none.mp hnone] at hsome
      cases hsome
    · exact hrest.mono fun _ herror _ => herror
  · rintro _ _ ⟨rfl, hnone, -⟩
    refine ⟨rfl, fun ⟨table, hget, _⟩ => ?_⟩
    rw [hnone] at hget
    cases hget

end Database

namespace Scan

/-- A scan whose owner cannot go on is not opened. -/
theorem positions_fails (hinactive : db.isActive scan.owner = false) :
    scan.positions.Fails db fun _ => True := by
  unfold positions
  cases scan.plan with
  | sequential =>
    exact .mono (table_bind_fails fun _ _ => .bind (.mapError (acquire_fails hinactive _ _)))
      fun _ _ => trivial
  | range range => exact .bind ((lockRange_fails hinactive _ range).mono fun _ _ => trivial)

/-- A scan whose owner cannot go on leaves the database as it is when it is asked for a tuple. -/
theorem nextFrom_idle (hinactive : db.isActive scan.owner = false) (pending : List Rid) :
    match scan.nextFrom db pending with
    | .ok _ (db', _) | .error _ (db', _) => db' = db := by
  cases hplan : scan.plan with
  | sequential =>
    have hnext := nextFrom_sequential hplan db pending
    cases hrun : scan.nextFrom db pending with
    | ok tuple last =>
      rw [hrun] at hnext
      exact hnext.1
    | error error last =>
      rw [hrun] at hnext
      exact hnext.1
  | range range =>
    cases pending with
    | nil => rfl
    | cons rid rest =>
      have hvisit : (scan.visit rid).Fails db fun _ => True := by
        unfold visit
        rw [hplan]
        exact .bind ((lockRow_fails hinactive _ _ _).mono fun _ _ => trivial)
      unfold Action.Fails Action.Ends at hvisit
      unfold nextFrom
      cases hrun : scan.visit rid db with
      | ok row mid =>
        rw [hrun] at hvisit
        exact hvisit.elim
      | error error mid =>
        rw [hrun] at hvisit
        exact hvisit.1

end Scan

/-! ### Calls on behalf of a transaction that cannot go on -/

/-- Whether a call asks for something on behalf of a transaction: a statement on a table that exists, a gap, a
check of a position, a range on a table that exists and has an index, or its commit. -/
def Call.AsksFor (call : Call) (h : Handle) (catalog : Catalog) : Prop :=
  match call with
  | .run h' statement =>
    h' = h ∧ ∀ name, statement.table? = some name → catalog.get? name ≠ none
  | .lockRange h' name _ => h' = h ∧ ∃ table, catalog.get? name = some table ∧ table.index.isSome = true
  | .lockGap h' .. | .checkGap h' .. | .commit h' => h' = h
  | _ => False

namespace Session

/-- The transaction that a call is made for, if it is one's: the caller, or the owner of the scan. -/
def asker? (s : Session) : Call → Option Handle
  | .run h _ | .lockGap h .. | .checkGap h .. | .lockRange h .. | .commit h | .abort h | .release h _
  | .releaseAll h | .releaseGaps h => some h
  | .initScan i | .nextScan i => s.scans[i]?.map (·.owner)
  | .begin | .adopt _ | .openScan .. => none

theorem act_fails {action : Action StatementError Answer} {E : StatementError → Prop}
    (hfails : action.Fails s.db E) : ∃ error, s.act action = (.error error, s) ∧ E error := by
  unfold Action.Fails Action.Ends at hfails
  unfold act
  cases hrun : action s.db with
  | ok answer db' =>
    rw [hrun] at hfails
    exact hfails.elim
  | error error db' =>
    rw [hrun] at hfails
    obtain ⟨rfl, herror⟩ := hfails
    exact ⟨error, rfl, herror⟩

/-- Whatever is asked for on behalf of a transaction that cannot go on is refused for that reason, and nothing
changes. -/
theorem step_turned (hinactive : s.db.isActive h = false) (hasks : call.AsksFor h s.db.catalog) :
    s.step call = (.error (.transaction (.finished (s.db.txn h).id)), s) := by
  have hturned : ∀ {action : Action StatementError Answer},
      action.Fails s.db (fun error => s.db.Turned h error) →
      s.act action = (.error (.transaction (.finished (s.db.txn h).id)), s) := by
    intro action hfails
    obtain ⟨_, hact, rfl⟩ := act_fails hfails
    exact hact
  cases call with
  | run h' statement =>
    obtain ⟨rfl, hthere⟩ := hasks
    exact hturned ((perform_fails hinactive statement).mono fun _ herror => herror hthere)
  | lockRange h' name range =>
    obtain ⟨rfl, hthere⟩ := hasks
    exact hturned (.bind ((lockRange_fails hinactive name range).mono fun _ herror => herror hthere))
  | lockGap h' table start stop =>
    obtain rfl : h' = h := hasks
    exact hturned (.bind (.mapError (lockGap_fails hinactive table start stop)))
  | checkGap h' table position =>
    obtain rfl : h' = h := hasks
    exact hturned (.bind (.mapError (checkGap_fails hinactive table position)))
  | commit h' =>
    obtain rfl : h' = h := hasks
    exact hturned (.bind (.mapError (commit_fails hinactive)))
  | begin | adopt | openScan | initScan | nextScan | abort | release | releaseAll | releaseGaps => cases hasks

/-- A transaction that cannot go on touches nothing, unless it is rolled back or gives something up by hand. -/
theorem step_idle (hinactive : s.db.isActive h = false) (hasks : s.asker? call = some h)
    (habort : call ≠ .abort h) (hhand : call.isByHand = false) : (s.step call).2.db = s.db := by
  have hact : ∀ {action : Action StatementError Answer} {E : StatementError → Prop},
      action.Fails s.db E → (s.act action).2.db = s.db := by
    intro action E hfails
    obtain ⟨_, hact, -⟩ := act_fails hfails
    rw [hact]
  cases call with
  | run h' statement =>
    obtain rfl := Option.some.inj hasks
    exact hact (perform_fails hinactive statement)
  | lockRange h' name range =>
    obtain rfl := Option.some.inj hasks
    exact hact (.bind (lockRange_fails hinactive name range))
  | lockGap h' table start stop =>
    obtain rfl := Option.some.inj hasks
    exact hact (.bind (.mapError (lockGap_fails hinactive table start stop)))
  | checkGap h' table position =>
    obtain rfl := Option.some.inj hasks
    exact hact (.bind (.mapError (checkGap_fails hinactive table position)))
  | commit h' =>
    obtain rfl := Option.some.inj hasks
    exact hact (.bind (.mapError (commit_fails hinactive)))
  | initScan i =>
    obtain ⟨scan, hscan, rfl⟩ := Option.map_eq_some_iff.mp hasks
    have hfails := Scan.positions_fails hinactive
    unfold Action.Fails Action.Ends at hfails
    rw [step_initScan hscan]
    cases hrun : scan.positions s.db with
    | ok pending db' =>
      rw [hrun] at hfails
      exact hfails.elim
    | error error db' =>
      rw [hrun] at hfails
      exact hfails.1
  | nextScan i =>
    obtain ⟨scan, hscan, rfl⟩ := Option.map_eq_some_iff.mp hasks
    have hidle := Scan.nextFrom_idle hinactive scan.pending
    rw [step_nextScan hscan]
    cases hrun : scan.nextFrom s.db scan.pending with
    | ok tuple last =>
      rw [hrun] at hidle
      exact hidle
    | error error last =>
      rw [hrun] at hidle
      exact hidle
  | abort h' => exact absurd (congrArg Call.abort (Option.some.inj hasks)) habort
  | begin | adopt | openScan => cases hasks
  | release | releaseAll | releaseGaps => cases hhand

end Session

/-! ### A transaction that has let go of everything -/

namespace Database

/-- Whether a transaction is over and holds nothing: neither its lock-set nor the gaps have anything of it. -/
structure Gone (db : Database) (h : Handle) : Prop extends db.Over h where
  lockSet : (db.txn h).locks = {}
  gaps : ∀ entry ∈ db.gaps.entries, entry.2.txn ≠ (db.txn h).id

theorem LeftBehind.gone (hleft : LeftBehind h db db') (hinactive : db'.isActive h = false) :
    db'.Gone h where
  lt := hleft.size ▸ hleft.lt
  inactive := hinactive
  writes := hleft.writes
  lockSet := hleft.lockSet
  gaps := by
    intro entry hmem
    rw [hleft.gaps] at hmem
    rw [hleft.id]
    simpa using (List.mem_filter.mp hmem).2

/-- A transaction stays gone as long as it is left as it is and gets no gap. -/
theorem Gone.of_same (hgone : db.Gone h) (hsize : db.transactions.size ≤ db'.transactions.size)
    (htxn : db'.txn h = db.txn h)
    (hgaps : ∀ entry ∈ db'.gaps.entries, entry.2.txn = (db.txn h).id → entry ∈ db.gaps.entries) :
    db'.Gone h where
  lt := Nat.lt_of_lt_of_le hgone.lt hsize
  inactive := by
    rw [isActive, htxn]
    exact hgone.inactive
  writes := by rw [htxn, hgone.writes]
  lockSet := by rw [htxn, hgone.lockSet]
  gaps := by
    intro entry hmem howner
    rw [htxn] at howner
    exact hgone.gaps entry (hgaps entry hmem howner) howner

theorem Gone.arrived (hgone : db.Gone h) (harrived : Arrived db db') : db'.Gone h :=
  hgone.of_same (harrived.size ▸ Nat.le_succ _) (harrived.txn h hgone.lt) fun _ hmem _ =>
    harrived.gaps ▸ hmem

theorem Gone.untouched (hgone : db.Gone h) (huntouched : Untouched db db') : db'.Gone h :=
  hgone.of_same (Nat.le_of_eq (by rw [huntouched.transactions])) (huntouched.txn h) fun _ hmem _ =>
    huntouched.gaps ▸ hmem

/-- Another transaction that takes locks or gaps takes them for itself. -/
theorem Gone.keeps (hgone : db.Gone h) (hids : db.DistinctIds) (hk : Keeps h' db db')
    (hlt : h' < db.transactions.size) (hne : h' ≠ h) : db'.Gone h := by
  refine hgone.of_same (Nat.le_of_eq hk.size.symm) (hk.txn h hne) fun entry hmem howner => ?_
  exact hk.otherGaps entry hmem fun heq => hne (hids h' hlt h hgone.lt (heq.symm.trans howner))

theorem Gone.leftBehind (hgone : db.Gone h) (hleft : LeftBehind h' db db')
    (hinactive : h' = h → db'.isActive h = false) : db'.Gone h := by
  by_cases hh : h' = h
  · subst hh
    exact hleft.gone (hinactive rfl)
  · refine hgone.of_same (Nat.le_of_eq hleft.size.symm) (hleft.txn h hh) fun entry hmem _ => ?_
    rw [hleft.gaps] at hmem
    exact (List.mem_filter.mp hmem).1

/-- A transaction stays gone through a change to a transaction that does nothing to one that has nothing. -/
theorem Gone.update (hgone : db.Gone h) (h' : Handle) (change : Transaction → Transaction)
    (htransactions : db'.transactions = (db.updateTxn h' change).transactions)
    (hchange : h' = h → change (db.txn h) = db.txn h)
    (hgaps : ∀ entry ∈ db'.gaps.entries, entry ∈ db.gaps.entries) : db'.Gone h := by
  refine hgone.of_same (Nat.le_of_eq (by rw [htransactions]; simp [updateTxn])) ?_
    fun entry hmem _ => hgaps entry hmem
  rw [Database.txn, htransactions]
  by_cases hh : h' = h
  · subst hh
    exact (txn_updateTxn_self db change hgone.lt).trans (hchange rfl)
  · exact txn_updateTxn_of_ne db change hh

/-- An abort, even one that gets lost in the log, does not let a transaction go on. -/
theorem abort_inactive (hinactive : db.isActive h = false) :
    (abort h).Ends db (fun _ db' => db'.isActive h = false) fun _ db' => db'.isActive h = false := by
  have hrolled : ∀ left catalog, h < db.transactions.size →
      (db.rolledBack h left catalog).isActive h = false := by
    intro left catalog hlt
    rw [isActive, txn_rolledBack hlt]
    exact hinactive
  refine abort_ends_of (fun _ => hinactive) (fun _ left catalog hlt _ => hrolled left catalog hlt)
    fun catalog hlt _ => ?_
  have hlt' : h < (db.rolledBack h [] catalog).transactions.size :=
    (keeps_rolledBack h db [] catalog).size ▸ hlt
  simp only [finish, Action.ends_bind, Action.ends_get, Action.ends_mapError]
  refine (logRecord_ends h .abort _ ((db.rolledBack h [] catalog).letGo h)).mono ?_ ?_
  · rintro _ mid -
    exact isActive_setState_aborted h _
  · rintro _ mid hlogged
    rw [isActive, hlogged.state, txn_letGo hlt']
    exact hrolled [] catalog hlt

end Database

namespace Session

/-- No end of a transaction brings one back that is gone. -/
theorem effect_end_gone (heffect : Effect s call answer db') (hcall : call = .commit h' ∨ call = .abort h')
    (hgone : s.db.Gone h) (hinactive : h' = h → db'.isActive h = false) : db'.Gone h := by
  cases heffect with
  | arrived harrived _ => exact hgone.arrived harrived
  | untouched huntouched _ _ => exact hgone.untouched huntouched
  | ran _ => simp at hcall
  | quiet _ hends _ => exact absurd hcall (not_or.mpr (hends h'))
  | commitRefused _ => exact hgone
  | @committed h₀ _ _ hleft _ =>
    obtain rfl : h₀ = h' := by simpa using hcall
    exact hgone.leftBehind hleft hinactive
  | @commitLost h₀ _ _ hleft _ =>
    obtain rfl : h₀ = h' := by simpa using hcall
    exact hgone.leftBehind hleft hinactive
  | abortRefused _ => exact hgone
  | @abortStuck h₀ _ left catalog _ hundo =>
    refine hgone.update h₀ (fun t => { t with writes := left }) rfl ?_ fun _ hmem => hmem
    rintro rfl
    rw [hgone.writes] at hundo
    cases hundo
  | @aborted h₀ catalog _ _ hlt _ hleft _ =>
    obtain rfl : h₀ = h' := by simpa using hcall
    have hgone' : ({ s.db with catalog } : Database).Gone h :=
      hgone.of_same (Nat.le_refl _) rfl fun _ hmem _ => hmem
    exact hgone'.leftBehind (hleft.of_rolledBack hlt) hinactive
  | released _ => simp at hcall
  | releasedAll _ => simp at hcall
  | releasedGaps _ => simp at hcall

theorem giveUp_gone {change : Database → Database} (hgone : s.db.Gone h) (hchange : (change s.db).Gone h) :
    (s.giveUp h' change).2.db.Gone h := by
  unfold giveUp
  split
  · exact hchange
  · exact hgone

/-- A call that is not made for a transaction begins one, or touches none. -/
theorem step_unasked (hasks : s.asker? call = none) :
    Arrived s.db (s.step call).2.db ∨ Untouched s.db (s.step call).2.db := by
  have hunchanged : (s.step call).2.db = s.db → Untouched s.db (s.step call).2.db := by
    intro hdb
    rw [hdb]
    exact .refl s.db
  cases call with
  | begin =>
    refine act_spec (P := fun _ db' => Arrived s.db db' ∨ Untouched s.db db') ?_
    rw [Action.ends_bind, Action.ends_mapError]
    exact (begin_ends s.db).mono (fun _ _ hbegun => .inl hbegun.2) fun _ _ hrefused => .inr hrefused.1
  | adopt id => exact .inl (adopt_spec s.db id)
  | openScan => exact .inr (hunchanged rfl)
  | initScan i =>
    have hscan : s.scans[i]? = none := by simpa [asker?] using hasks
    exact .inr (hunchanged (congrArg (·.2.db) (actOnScan_of_none hscan _)))
  | nextScan i =>
    have hscan : s.scans[i]? = none := by simpa [asker?] using hasks
    exact .inr (hunchanged (congrArg (·.2.db) (actOnScan_of_none hscan _)))
  | run | lockGap | checkGap | lockRange | commit | abort | release | releaseAll | releaseGaps => cases hasks

/-- A call that is made for a transaction takes things for it and from nobody, unless it ends the transaction or
gives something up by hand. -/
theorem asked_keeps (hasks : s.asker? call = some h) (hends : call ≠ .commit h ∧ call ≠ .abort h)
    (hhand : call.isByHand = false) : Keeps h s.db (s.step call).2.db := by
  cases call with
  | run h' statement =>
    obtain rfl := Option.some.inj hasks
    exact (s.step_outcome h' statement).keeps
  | lockGap h' table start stop =>
    obtain rfl := Option.some.inj hasks
    exact (s.lockGap_quiet h' table start stop).toKeeps
  | checkGap h' table position =>
    obtain rfl := Option.some.inj hasks
    exact (s.checkGap_quiet h' table position).toKeeps
  | lockRange h' name range =>
    obtain rfl := Option.some.inj hasks
    exact (s.lockRange_quiet h' name range).toKeeps
  | initScan i =>
    obtain ⟨scan, hscan, rfl⟩ := Option.map_eq_some_iff.mp hasks
    exact (s.initScan_quiet hscan).toKeeps
  | nextScan i =>
    obtain ⟨scan, hscan, rfl⟩ := Option.map_eq_some_iff.mp hasks
    exact (s.nextScan_quiet hscan).toKeeps
  | commit h' => exact absurd (congrArg Call.commit (Option.some.inj hasks)) hends.1
  | abort h' => exact absurd (congrArg Call.abort (Option.some.inj hasks)) hends.2
  | begin | adopt | openScan => cases hasks
  | release | releaseAll | releaseGaps => cases hhand

/-- A transaction that is gone stays so, whatever is called. -/
theorem step_gone (hgone : s.db.Gone h) (hids : s.db.DistinctIds) (call : Call) :
    (s.step call).2.db.Gone h := by
  cases hasks : s.asker? call with
  | none =>
    obtain harrived | huntouched := step_unasked hasks
    · exact hgone.arrived harrived
    · exact hgone.untouched huntouched
  | some h' =>
    by_cases hends : call = .commit h' ∨ call = .abort h'
    · apply effect_end_gone (s.step_effect call) hends hgone
      rintro rfl
      obtain rfl | rfl := hends
      · rw [step_idle hgone.inactive rfl (by simp) rfl]
        exact hgone.inactive
      · exact step_end_spec (P := fun _ db' => db'.isActive h' = false) (.inr rfl) nofun
          fun _ => abort_inactive hgone.inactive
    cases hhand : call.isByHand with
    | false =>
      -- Whoever can still go on is another transaction, and whoever cannot touches nothing.
      cases hactive : s.db.isActive h' with
      | true =>
        apply hgone.keeps hids (asked_keeps hasks (not_or.mp hends) hhand) (lt_of_isActive hactive)
        rintro rfl
        exact absurd (hgone.inactive.symm.trans hactive) (by decide)
      | false =>
        rw [step_idle hactive hasks (not_or.mp hends).2 hhand]
        exact hgone
    | true =>
      cases call with
      | release h' resource =>
        refine giveUp_gone hgone (hgone.update h' (·.removeLock resource) rfl ?_ fun _ hmem => hmem)
        rintro rfl
        rw [Transaction.removeLock, hgone.lockSet, Std.ExtTreeSet.erase_empty, ← hgone.lockSet]
      | releaseAll h' =>
        refine giveUp_gone hgone
          (hgone.update h' (fun t => { t with locks := {} }) rfl ?_ fun _ hmem => hmem)
        rintro rfl
        rw [← hgone.lockSet]
      | releaseGaps h' =>
        refine giveUp_gone hgone (hgone.of_same (Nat.le_refl _) rfl fun entry hmem _ => ?_)
        exact (List.mem_filter.mp hmem).1
      | begin | adopt | run | lockGap | checkGap | lockRange | openScan | initScan | nextScan | commit | abort =>
        cases hhand

end Session

/-! ### The end of a transaction and what comes after -/

namespace Database

/-- Whether nothing of a transaction is left: it has no writes to take back and an empty lock-set, no queue has
a request of it and no table a gap, and the register does not know its number. -/
structure HasNothingOf (db : Database) (h : Handle) : Prop where
  writes : (db.txn h).writes = []
  lockSet : (db.txn h).locks = {}
  requests : ∀ resource, ∀ request ∈ db.locks.requests resource, request.txn ≠ (db.txn h).id
  gaps : ∀ table, ∀ gap ∈ db.gaps.gaps table, gap.txn ≠ (db.txn h).id
  register : db.activeHandle? (db.txn h).id = none

/-- Whether every other transaction has the writes and the lock-set that it had, the modes and the gaps. -/
def SparesOthers (h : Handle) (db db' : Database) : Prop :=
  ∀ h' < db.transactions.size, h' ≠ h →
    db'.txn h' = db.txn h' ∧
    (∀ resource, db'.locks.heldMode (db.txn h').id resource = db.locks.heldMode (db.txn h').id resource) ∧
    ∀ table, (db'.gaps.gaps table).filter (·.txn = (db.txn h').id) =
      (db.gaps.gaps table).filter (·.txn = (db.txn h').id)

/-- A transaction that is gone has left nothing, if the lock-sets are exact and it is not running. -/
theorem Gone.hasNothingOf (hgone : db.Gone h) (hl : db.LocksExact)
    (hregister : db.activeHandle? (db.txn h).id = none) : db.HasNothingOf h where
  writes := hgone.writes
  lockSet := hgone.lockSet
  requests := by
    intro resource
    have hexact := hl.exact h hgone.lt resource
    rw [Transaction.holdsLock, hgone.lockSet] at hexact
    have hnone : db.locks.heldMode (db.txn h).id resource = none := by simpa using hexact
    exact Queue.heldMode_eq_none_iff.mp hnone
  gaps := by
    intro table gap hmem
    obtain ⟨entry, hentry, heq⟩ := List.mem_filterMap.mp hmem
    split at heq
    · obtain rfl := Option.some.inj heq
      exact hgone.gaps entry hentry
    · cases heq
  register := hregister

/-- Who lets go lets go of nothing of others. -/
theorem LeftBehind.sparesOthers (hleft : LeftBehind h db db') (hl : db.LocksExact) (hids : db.DistinctIds) :
    SparesOthers h db db' := by
  intro h' hlt' hne
  refine ⟨hleft.txn h' (Ne.symm hne), hleft.heldMode_of_ne hl hids hlt' (Ne.symm hne), fun table => ?_⟩
  have hother : (db.txn h').id ≠ (db.txn h).id := fun heq => hne (hids h' hlt' h hleft.lt heq)
  rw [hleft.gaps, GapTable.gaps_release, List.filter_filter]
  refine List.filter_congr fun gap _ => ?_
  by_cases howner : gap.txn = (db.txn h').id
  · simp [howner, hother]
  · simp [howner]

end Database

/-- An end of a transaction that has succeeded leaves it gone. -/
theorem Event.gone {event : Event} (hfinishes : event.finishes h = true) : event.after.db.Gone h := by
  obtain ⟨hcall, hok⟩ := Event.finishes_iff.mp hfinishes
  obtain ⟨catalog, hleft, hinactive⟩ := (event.before.step_effect event.call).ended hcall hok
  exact hleft.gone hinactive

/-- It spares the others. -/
theorem Event.sparesOthers {event : Event} (hfinishes : event.finishes h = true)
    (hl : event.before.db.LocksExact) (hids : event.before.db.DistinctIds) :
    SparesOthers h event.before.db event.after.db := by
  obtain ⟨hcall, hok⟩ := Event.finishes_iff.mp hfinishes
  obtain ⟨catalog, hleft, hinactive⟩ := (event.before.step_effect event.call).ended hcall hok
  have hl' : ({ event.before.db with catalog } : Database).LocksExact := ⟨hl.sound, hl.exact, hl.owned⟩
  exact hleft.sparesOthers hl' hids

/-- A transaction that has ended in a run is gone from there on, since no call brings it back. -/
theorem Run.gone (hrun : Run start trace s) (hids : s.db.DistinctIds) {event : Event} (hmem : event ∈ trace)
    (hfinishes : event.finishes h = true) : s.db.Gone h := by
  obtain ⟨before, rest, htrace, hbefore, hrest⟩ := hrun.split hmem
  apply hrest.invariant (fun t => t.db.Gone h) (Event.gone hfinishes)
  intro later hlater hgone
  have hmem' : later ∈ trace := htrace ▸ List.mem_append_right _ (List.mem_cons_of_mem _ hlater)
  exact Session.step_gone hgone ((hrun.distinctIds hids).2 later hmem').1 later.call

/-- Nor is its number in the register. -/
theorem Run.activeHandle?_eq_none (hrun : Run start trace s) (hregister : start.db.active = {})
    (hids : s.db.DistinctIds) {event : Event} (hmem : event ∈ trace) (hfinishes : event.finishes h = true) :
    s.db.activeHandle? (s.db.txn h).id = none := by
  rw [Option.eq_none_iff_forall_ne_some]
  intro h' hactive
  obtain ⟨hrunning, hid⟩ := (hrun.registered hregister hids _ h').mp hactive
  obtain rfl := hids h' (hrun.lt_of_isRunning hrunning) h (hrun.gone hids hmem hfinishes).lt hid
  exact absurd (hfinishes.symm.trans (hrunning.2 event hmem)) (by decide)

/-- In a run on a database with nothing in it but rows, in which no two transactions get one number: once the
commit or the abort of a transaction has succeeded, nothing is left of the transaction, whatever is called
after that, and all that is asked for on its behalf is refused and changes nothing.  The end itself takes nothing
from the other transactions.  The register always has exactly the transactions that have begun and whose
commit or abort has not succeeded yet. -/
theorem finished_transaction_leaves_nothing (hrun : Run start trace s) (hfresh : start.IsFresh)
    (hregister : start.db.active = {}) (hids : s.db.DistinctIds) :
    (∀ event ∈ trace, ∀ h, event.finishes h = true →
      s.db.HasNothingOf h ∧
      (∀ call : Call, call.AsksFor h s.db.catalog →
        s.step call = (.error (.transaction (.finished (s.db.txn h).id)), s)) ∧
      SparesOthers h event.before.db event.after.db) ∧
    ∀ id h, s.db.activeHandle? id = some h ↔ IsRunning trace h ∧ (s.db.txn h).id = id := by
  refine ⟨fun event hmem h hfinishes => ?_, hrun.registered hregister hids⟩
  obtain ⟨before, rest, -, hbefore, -⟩ := hrun.split hmem
  have hids₀ := ((hrun.distinctIds hids).2 event hmem).1
  have hgone : s.db.Gone h := hrun.gone hids hmem hfinishes
  have hstruck := hrun.activeHandle?_eq_none hregister hids hmem hfinishes
  exact ⟨hgone.hasNothingOf (hrun.locksExact hfresh hids) hstruck,
    fun call hasks => Session.step_turned hgone.inactive hasks,
    Event.sparesOthers hfinishes (hbefore.locksExact hfresh hids₀) hids₀⟩

/-- Two transactions hold locks and gaps on one table.  The first commits, the second reads what the first has
written; the first asks for another row then, and does not get it. -/
theorem finished_transaction_leaves_nothing_commit :
    let calls : List Call := [.begin, .begin, .run 0 (.insert "t" [5]),
      .lockRange 0 "t" { lower := .included [7] }, .lockRange 1 "t" { upper := .excluded [3] }, .commit 0,
      .run 1 (.read "t" ⟨0, 0⟩)]
    let s := Session.oneTable.play calls
    s.db.HasNothingOf 0 ∧ s.step (.run 0 (.insert "t" [9])) = (.error (.transaction (.finished 1)), s) ∧
      s.db.activeHandle? 2 = some 1 := by
  intro calls s
  have hrun : Run Session.oneTable (Session.oneTable.trace calls) s := .of_calls _ calls
  have hcommit : ∃ event ∈ Session.oneTable.trace calls, event.finishes 0 = true := by decide +kernel
  have hthere : ∀ name, (Statement.insert "t" [9]).table? = some name → s.db.catalog.get? name ≠ none := by
    rintro _ ⟨⟩
    decide +kernel
  have hid : (s.db.txn 0).id = 1 := by decide +kernel
  obtain ⟨hfinished, hregistered⟩ := finished_transaction_leaves_nothing hrun Session.oneTable_isFresh rfl
    (by decide +kernel)
  obtain ⟨event, hmem, hfinishes⟩ := hcommit
  obtain ⟨hnothing, hrefused, -⟩ := hfinished event hmem 0 hfinishes
  refine ⟨hnothing, ?_, (hregistered 2 1).mpr ⟨⟨by decide +kernel, by decide +kernel⟩, by decide +kernel⟩⟩
  rw [hrefused (.run 0 (.insert "t" [9])) ⟨rfl, hthere⟩, hid]

end NoWait
