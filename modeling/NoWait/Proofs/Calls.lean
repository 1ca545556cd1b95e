import NoWait.Proofs.Endings

/-!
# What a call does to a session

Every call is a beginning, an end, a statement, a quiet step, or a release by hand.

* `Effect` lists the cases, with what each leaves of the database;
* `Session.step_effect` says that every call is one of them, so that a proof about runs goes through the
  cases and not through the calls;
* `Effect.tables`, `Effect.rewrites` and `Run.tables` are what follows for the tables: they stay sound and
  in their shapes, and only statements that write and aborts alter rows.
-/

namespace NoWait

open Database

/-- What a call does to the database of a session, with its answer. -/
inductive Effect (s : Session) : Call → Except StatementError Answer → Database → Prop where
  /-- A transaction has begun. -/
  | arrived {call : Call} {db' : Database} : Arrived s.db db' →
    (call = .begin ∨ ∃ id, call = .adopt id) → Effect s call (.ok (.handle s.db.nextHandle)) db'
  /-- No transaction is concerned. -/
  | untouched {call : Call} {answer : Except StatementError Answer} {db' : Database} :
    Untouched s.db db' → (∀ h, call ≠ .commit h ∧ call ≠ .abort h) →
    (∀ h statement, call ≠ .run h statement) → Effect s call answer db'
  /-- A transaction has run a statement. -/
  | ran {h : Handle} {statement : Statement} {answer : Except StatementError Answer} {db' : Database} :
    Statement.Outcome h statement answer s.db db' → Effect s (.run h statement) answer db'
  /-- A transaction has taken locks or gaps, by itself or for a scan. -/
  | quiet {h : Handle} {call : Call} {answer : Except StatementError Answer} {db' : Database} :
    Quiet h s.db db' → (∀ h, call ≠ .commit h ∧ call ≠ .abort h) →
    (∀ h statement, call ≠ .run h statement) → Effect s call answer db'
  /-- A transaction that cannot go on has asked for its commit. -/
  | commitRefused {h : Handle} : s.db.isActive h = false →
    Effect s (.commit h) (.error (.transaction (.finished (s.db.txn h).id))) s.db
  | committed {h : Handle} {db' : Database} : s.db.isActive h = true → LeftBehind h s.db db' →
    (db'.txn h).state = .committed → Effect s (.commit h) (.ok .done) db'
  | commitLost {h : Handle} {error : StatementError} {db' : Database} : LeftBehind h s.db db' →
    error.isLogFailure = true → Effect s (.commit h) (.error error) db'
  /-- A committed transaction has asked for its abort. -/
  | abortRefused {h : Handle} {error : StatementError} : (s.db.txn h).state = .committed →
    Effect s (.abort h) (.error error) s.db
  /-- A transaction has not got all its writes taken back. -/
  | abortStuck {h : Handle} {error : TransactionError} {left : List WriteRecord} {catalog : Catalog} :
    h < s.db.transactions.size →
    s.db.catalog.undoAll (s.db.txn h).writes = (.error error, left, catalog) →
    Effect s (.abort h) (.error (.transaction error)) (s.db.rolledBack h left catalog)
  | aborted {h : Handle} {catalog : Catalog} {answer : Except StatementError Answer} {db' : Database} :
    h < s.db.transactions.size →
    s.db.catalog.undoAll (s.db.txn h).writes = (.ok (), [], catalog) →
    LeftBehind h (s.db.rolledBack h [] catalog) db' →
    (answer = .ok .done ∧ (db'.txn h).state = .aborted ∨ Answer.isLogFailure answer = true) →
    Effect s (.abort h) answer db'
  | released {h : Handle} {resource : Resource} : h < s.db.transactions.size →
    Effect s (.release h resource) (.ok .done) (s.db.release h resource)
  | releasedAll {h : Handle} : h < s.db.transactions.size →
    Effect s (.releaseAll h) (.ok .done) (s.db.releaseAll h)
  | releasedGaps {h : Handle} : h < s.db.transactions.size →
    Effect s (.releaseGaps h) (.ok .done) (s.db.releaseGaps h)

namespace Session

variable {s : Session}

/-- A session goes on with the database that an action leaves, and with the same scans. -/
theorem act_spec {action : Action StatementError Answer}
    {P : Except StatementError Answer → Database → Prop}
    (h : action.Ends s.db (fun answer db' => P (.ok answer) db') fun error db' => P (.error error) db') :
    P (s.act action).1 (s.act action).2.db := by
  unfold Action.Ends at h
  unfold act
  cases hrun : action s.db with
  | ok answer db' =>
    rw [hrun] at h
    exact h
  | error error db' =>
    rw [hrun] at h
    exact h

/-- What is to be shown of the end of a transaction is shown of its commit and of its abort. -/
theorem step_end_spec {call : Call} {h : Handle} {P : Except StatementError Answer → Database → Prop}
    (hcall : call = .commit h ∨ call = .abort h)
    (hcommit : call = .commit h → (commit h).Ends s.db (fun _ db' => P (.ok .done) db')
      fun error db' => P (.error (.transaction error)) db')
    (habort : call = .abort h → (abort h).Ends s.db (fun _ db' => P (.ok .done) db')
      fun error db' => P (.error (.transaction error)) db') :
    P (s.step call).1 (s.step call).2.db := by
  rcases hcall with rfl | rfl
  · apply act_spec
    rw [Action.ends_bind, Action.ends_mapError]
    exact hcommit rfl
  · apply act_spec
    rw [Action.ends_bind, Action.ends_mapError]
    exact habort rfl

theorem step_outcome (s : Session) (h : Handle) (statement : Statement) :
    Statement.Outcome h statement (s.step (.run h statement)).1 s.db (s.step (.run h statement)).2.db := by
  apply act_spec (P := fun answer db' => Statement.Outcome h statement answer s.db db')
  exact Statement.perform_ends h statement s.db

theorem step_initScan {i : Nat} {scan : Scan} (hscan : s.scans[i]? = some scan) :
    s.step (.initScan i) =
      match scan.positions s.db with
      | .ok pending db => (.ok .done,
          { db, scans := s.scans.setIfInBounds i { scan with pending } })
      | .error error db => (.error error, { db, scans := s.scans.setIfInBounds i scan }) := by
  simp only [step, actOnScan, hscan, bind, EStateM.bind, Scan.init]
  cases scan.positions s.db <;> rfl

theorem step_nextScan {i : Nat} {scan : Scan} (hscan : s.scans[i]? = some scan) :
    s.step (.nextScan i) =
      match scan.nextFrom s.db scan.pending with
      | .ok tuple (db, scan) => (.ok (.tuple tuple), { db, scans := s.scans.setIfInBounds i scan })
      | .error error (db, scan) => (.error error, { db, scans := s.scans.setIfInBounds i scan }) := by
  simp only [step, actOnScan, hscan, bind, EStateM.bind, Scan.next]
  cases scan.nextFrom s.db scan.pending <;> rfl

theorem actOnScan_of_none {i : Nat} (hscan : s.scans[i]? = none) (step : ScanAction Answer) :
    s.actOnScan i step = (.ok .done, s) := by
  simp only [actOnScan, hscan]

/-! ### The scans of a session -/

theorem act_scans (s : Session) (action : Action StatementError Answer) :
    (s.act action).2.scans = s.scans := by
  unfold act
  split <;> rfl

theorem giveUp_scans (s : Session) (h : Handle) (change : Database → Database) :
    (s.giveUp h change).2.scans = s.scans := by
  unfold giveUp
  split <;> rfl

theorem actOnScan_scans_of_ne (s : Session) {i k : Nat} (hne : k ≠ i) (step : ScanAction Answer) :
    (s.actOnScan k step).2.scans[i]? = s.scans[i]? := by
  unfold actOnScan
  split
  · rfl
  · split
    · exact Array.getElem?_setIfInBounds_ne hne
    · exact Array.getElem?_setIfInBounds_ne hne

/-- Only opening a scan and asking it for a tuple move it, and a scan that is new has nothing pending. -/
theorem step_scans_cases (s : Session) {call : Call} {i : Nat} (hinit : call ≠ .initScan i)
    (hnext : call ≠ .nextScan i) :
    (s.step call).2.scans[i]? = s.scans[i]? ∨ s.scans[i]? = none ∧
      ∀ scan, (s.step call).2.scans[i]? = some scan → scan.pending = [] := by
  cases call with
  | openScan owner table plan =>
    show (s.scans.push _)[i]? = _ ∨ _ ∧ ∀ scan, (s.scans.push _)[i]? = some scan → _
    by_cases hlt : i < s.scans.size
    · exact .inl (by rw [Array.getElem?_push_lt hlt, Array.getElem?_eq_getElem hlt])
    · refine .inr ⟨Array.getElem?_eq_none (Nat.le_of_not_lt hlt), fun scan hscan => ?_⟩
      rw [Array.getElem?_push] at hscan
      split at hscan
      · cases hscan
        rfl
      · rw [Array.getElem?_eq_none (Nat.le_of_not_lt hlt)] at hscan
        cases hscan
  | initScan k => exact .inl (actOnScan_scans_of_ne s (fun heq => hinit (by rw [heq])) _)
  | nextScan k => exact .inl (actOnScan_scans_of_ne s (fun heq => hnext (by rw [heq])) _)
  | release h resource => exact .inl (by rw [step, giveUp_scans])
  | releaseAll h => exact .inl (by rw [step, giveUp_scans])
  | releaseGaps h => exact .inl (by rw [step, giveUp_scans])
  | adopt id => exact .inl rfl
  | begin => exact .inl (by rw [step, act_scans])
  | run h statement => exact .inl (by rw [step, act_scans])
  | lockGap h table start stop => exact .inl (by rw [step, act_scans])
  | checkGap h table position => exact .inl (by rw [step, act_scans])
  | lockRange h table range => exact .inl (by rw [step, act_scans])
  | commit h => exact .inl (by rw [step, act_scans])
  | abort h => exact .inl (by rw [step, act_scans])

theorem step_scans (s : Session) {call : Call} {i : Nat} {scan : Scan}
    (hscan : s.scans[i]? = some scan) (hinit : call ≠ .initScan i) (hnext : call ≠ .nextScan i) :
    (s.step call).2.scans[i]? = some scan := by
  rcases s.step_scans_cases hinit hnext with hsame | ⟨hnone, _⟩
  · rw [hsame, hscan]
  · rw [hscan] at hnone
    cases hnone

/-! ### Calls that take locks or gaps at most -/

theorem lockGap_quiet (s : Session) (h : Handle) (table : TableId) (start stop : Position) :
    Quiet h s.db (s.step (.lockGap h table start stop)).2.db := by
  refine act_spec (P := fun _ db' => Quiet h s.db db') ?_
  rw [Action.ends_bind, Action.ends_mapError]
  refine (lockGap_ends h table start stop s.db).mono ?_ ?_
  · rintro granted db' ⟨_, hgranted, _⟩
    exact hgranted.toQuiet
  · rintro error db' ⟨hstop, _⟩
    exact hstop.toQuiet

theorem checkGap_quiet (s : Session) (h : Handle) (table : TableId) (position : Position) :
    Quiet h s.db (s.step (.checkGap h table position)).2.db := by
  refine act_spec (P := fun _ db' => Quiet h s.db db') ?_
  rw [Action.ends_bind, Action.ends_mapError]
  refine (checkGap_ends h table position s.db).mono ?_ ?_
  · rintro _ db' ⟨rfl, _⟩
    exact .refl h _
  · rintro error db' ⟨hstop, _⟩
    exact hstop.toQuiet

theorem lockRange_quiet (s : Session) (h : Handle) (table : String) (range : KeyRange) :
    Quiet h s.db (s.step (.lockRange h table range)).2.db := by
  refine act_spec (P := fun _ db' => Quiet h s.db db') ?_
  rw [Action.ends_bind]
  refine (lockRange_ends h table range s.db).mono ?_ ?_
  · rintro ends db' ⟨rfl, _, hgranted, _⟩
    exact hgranted.toQuiet
  · rintro error db' hquiet
    exact hquiet

theorem initScan_quiet (s : Session) {i : Nat} {scan : Scan} (hscan : s.scans[i]? = some scan) :
    Quiet scan.owner s.db (s.step (.initScan i)).2.db := by
  have hends := scan.positions_ends s.db
  unfold Action.Ends at hends
  rw [step_initScan hscan]
  cases hrun : scan.positions s.db with
  | ok pending db' =>
    rw [hrun] at hends
    exact hends.1
  | error error db' =>
    rw [hrun] at hends
    exact hends

theorem nextScan_quiet (s : Session) {i : Nat} {scan : Scan} (hscan : s.scans[i]? = some scan) :
    Quiet scan.owner s.db (s.step (.nextScan i)).2.db := by
  have hnext := scan.nextFrom_spec s.db scan.pending
  rw [step_nextScan hscan]
  cases hrun : scan.nextFrom s.db scan.pending with
  | ok tuple last =>
    rw [hrun] at hnext
    exact hnext.1
  | error error last =>
    rw [hrun] at hnext
    exact hnext.1

/-! ### All calls -/

/-- What is given up by hand is given up by a transaction, or not at all. -/
theorem giveUp_effect {call : Call} {h : Handle} {change : Database → Database}
    (hcommit : ∀ h, call ≠ .commit h ∧ call ≠ .abort h) (hrun : ∀ h statement, call ≠ .run h statement)
    (heffect : h < s.db.transactions.size → Effect s call (.ok .done) (change s.db)) :
    Effect s call (s.giveUp h change).1 (s.giveUp h change).2.db := by
  unfold giveUp
  split
  · rename_i hlt
    exact heffect hlt
  · exact .untouched (.refl s.db) hcommit hrun

/-- Every call has one of the effects. -/
theorem step_effect (s : Session) (call : Call) : Effect s call (s.step call).1 (s.step call).2.db := by
  cases call with
  | begin =>
    refine act_spec (P := fun answer db' => Effect s .begin answer db') ?_
    rw [Action.ends_bind, Action.ends_mapError]
    refine (begin_ends s.db).mono ?_ ?_
    · rintro h db' ⟨rfl, harrived⟩
      exact .arrived harrived (.inl rfl)
    · rintro error db' ⟨huntouched, _⟩
      exact .untouched huntouched (by simp) (by simp)
  | adopt id => exact .arrived (adopt_spec s.db id) (.inr ⟨id, rfl⟩)
  | run h statement => exact .ran (s.step_outcome h statement)
  | lockGap h table start stop => exact .quiet (s.lockGap_quiet h table start stop) (by simp) (by simp)
  | checkGap h table position => exact .quiet (s.checkGap_quiet h table position) (by simp) (by simp)
  | lockRange h table range => exact .quiet (s.lockRange_quiet h table range) (by simp) (by simp)
  | openScan owner table plan => exact .untouched (.refl s.db) (by simp) (by simp)
  | initScan i =>
    cases hscan : s.scans[i]? with
    | none =>
      rw [show s.step (.initScan i) = (.ok .done, s) from actOnScan_of_none hscan _]
      exact .untouched (.refl s.db) (by simp) (by simp)
    | some scan => exact .quiet (s.initScan_quiet hscan) (by simp) (by simp)
  | nextScan i =>
    cases hscan : s.scans[i]? with
    | none =>
      rw [show s.step (.nextScan i) = (.ok .done, s) from actOnScan_of_none hscan _]
      exact .untouched (.refl s.db) (by simp) (by simp)
    | some scan => exact .quiet (s.nextScan_quiet hscan) (by simp) (by simp)
  | commit h =>
    refine act_spec (P := fun answer db' => Effect s (.commit h) answer db') ?_
    rw [Action.ends_bind, Action.ends_mapError]
    refine (commit_ends h s.db).mono ?_ ?_
    · rintro _ db' ⟨hactive, hleft, hstate⟩
      exact .committed hactive hleft hstate
    · rintro error db' (⟨rfl, hinactive, rfl⟩ | ⟨hleft, hlog⟩)
      · exact .commitRefused hinactive
      · exact .commitLost hleft hlog
  | abort h =>
    refine act_spec (P := fun answer db' => Effect s (.abort h) answer db') ?_
    rw [Action.ends_bind, Action.ends_mapError]
    refine (abort_ends h s.db).mono ?_ ?_
    · rintro _ db' ⟨hlt, catalog, hundo, hleft, hstate⟩
      exact .aborted hlt hundo hleft (.inl ⟨rfl, hstate⟩)
    · rintro error db' (⟨rfl, hcommitted, _⟩ | ⟨hlt, left, catalog, hundo, rfl⟩ |
        ⟨hlt, catalog, hundo, hleft, hlog⟩)
      · exact .abortRefused hcommitted
      · exact .abortStuck hlt hundo
      · exact .aborted hlt hundo hleft (.inr hlog)
  | release h resource => exact giveUp_effect (by simp) (by simp) .released
  | releaseAll h => exact giveUp_effect (by simp) (by simp) .releasedAll
  | releaseGaps h => exact giveUp_effect (by simp) (by simp) .releasedGaps

end Session

/-! ### The tables after a call -/

variable {start s : Session} {call : Call} {answer : Except StatementError Answer} {db' : Database}
  {trace : List Event}

/-- Every call leaves a sound catalog sound, and every table in its shape. -/
theorem Effect.tables (heffect : Effect s call answer db') (hs : s.db.catalog.Sound) :
    db'.catalog.Sound ∧ db'.catalog.shapes = s.db.catalog.shapes := by
  have hsame : db'.catalog = s.db.catalog →
      db'.catalog.Sound ∧ db'.catalog.shapes = s.db.catalog.shapes := by
    intro hcatalog
    rw [hcatalog]
    exact ⟨hs, rfl⟩
  cases heffect with
  | arrived harrived _ => exact hsame harrived.catalog
  | untouched huntouched _ _ => exact hsame huntouched.catalog
  | ran houtcome =>
    cases houtcome.did with
    | quiet hquiet _ => exact ⟨(hquiet.rows hs).sound, (hquiet.rows hs).shapes⟩
    | wrote _ _ hw _ _ _ => exact ⟨(hw.change hs).sound, (hw.change hs).shapes⟩
    | missed _ hw _ _ _ => exact ⟨(hw.change hs).sound, (hw.change hs).shapes⟩
  | quiet hquiet _ _ => exact ⟨(hquiet.rows hs).sound, (hquiet.rows hs).shapes⟩
  | commitRefused _ => exact hsame rfl
  | committed _ hleft _ => exact hsame hleft.catalog
  | commitLost hleft _ => exact hsame hleft.catalog
  | abortRefused _ => exact hsame rfl
  | abortStuck _ hundo =>
    obtain ⟨hsound, hshapes, -⟩ := Catalog.undoAll_spec hs hundo
    exact ⟨hsound, hshapes⟩
  | aborted _ hundo hleft _ =>
    obtain ⟨hsound, hshapes, -⟩ := Catalog.undoAll_spec hs hundo
    rw [hleft.catalog]
    exact ⟨hsound, hshapes⟩
  | released _ => exact hsame rfl
  | releasedAll _ => exact hsame rfl
  | releasedGaps _ => exact hsame rfl

/-- Only a statement that writes into a table and an abort alter a row of the table. -/
theorem Effect.rewrites (heffect : Effect s call answer db') (hs : s.db.catalog.Sound) {name : String}
    {rid : Rid} (hne : db'.catalog.rows name rid ≠ s.db.catalog.rows name rid) :
    (∃ h statement, call = .run h statement ∧ statement.written? = some name) ∨
      ∃ h, call = .abort h := by
  have hsame : db'.catalog.rows = s.db.catalog.rows →
      (∃ h statement, call = .run h statement ∧ statement.written? = some name) ∨
        ∃ h, call = .abort h := fun hrows => absurd (by rw [hrows]) hne
  -- A write alters a row of the table that it is entered for, and of no other.
  have htable : ∀ {h : Handle} {write : WriteRecord} {row : Option Bytes},
      Wrote h write row s.db db' → write.table = name := by
    intro h write row hw
    by_contra hother
    exact hne (by rw [(hw.change hs).rows, Rows.set_of_ne fun hat => hother hat.1])
  cases heffect with
  | arrived harrived _ => exact hsame (by rw [harrived.catalog])
  | untouched huntouched _ _ => exact hsame (by rw [huntouched.catalog])
  | @ran h statement _ _ houtcome =>
    cases houtcome.did with
    | quiet hquiet _ => exact hsame (hquiet.rows hs).rows
    | wrote _ _ hw hwritten _ _ => exact .inl ⟨h, statement, rfl, by rw [hwritten, htable hw]⟩
    | missed _ hw hwritten _ _ => exact .inl ⟨h, statement, rfl, by rw [hwritten, htable hw]⟩
  | quiet hquiet _ _ => exact hsame (hquiet.rows hs).rows
  | commitRefused _ => exact hsame rfl
  | committed _ hleft _ => exact hsame (by rw [hleft.catalog])
  | commitLost hleft _ => exact hsame (by rw [hleft.catalog])
  | abortRefused _ => exact hsame rfl
  | abortStuck _ _ => exact .inr ⟨_, rfl⟩
  | aborted _ _ _ _ => exact .inr ⟨_, rfl⟩
  | released _ => exact hsame rfl
  | releasedAll _ => exact hsame rfl
  | releasedGaps _ => exact hsame rfl

/-- A run leaves a sound catalog sound, and every table in its shape. -/
theorem Run.tables (hrun : Run start trace s) (hs : start.db.catalog.Sound) :
    s.db.catalog.Sound ∧ s.db.catalog.shapes = start.db.catalog.shapes := by
  refine hrun.invariant (fun t => t.db.catalog.Sound ∧ t.db.catalog.shapes = start.db.catalog.shapes)
    ⟨hs, rfl⟩ ?_
  rintro event _ ⟨hsound, hshapes⟩
  obtain ⟨hsound', hshapes'⟩ := (event.before.step_effect event.call).tables hsound
  exact ⟨hsound', hshapes'.trans hshapes⟩

end NoWait
