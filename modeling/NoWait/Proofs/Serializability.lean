import NoWait.Proofs.Rollback

/-!
# Transactions are serializable in the order of their commits

Whatever order the calls of several transactions come in, the committed ones have got the answers that
they would have got one after another, in the order of their commits, and once no transaction is left
unfinished the rows are the ones that this leads to.

* `Ledger` keeps the statements of each transaction with their answers, and hands them over in the order
  of the commits;
* `Settled` says of a map of rows that it is what is left when all unfinished writes are taken back, and
  `Replayable` that the statements of a transaction give the same answers again on any map that agrees
  with what the transaction has locked;
* `Serializes` is the invariant, `Serializes.step` one call, and `committed_replay` the result.
-/

namespace NoWait

open Database

/-! ### The ledger -/

/-- The statements of each transaction since it began, with their answers, and those of the committed
transactions in the order of their commits. -/
structure Ledger where
  pending : Handle → Transcript := fun _ => []
  committed : List Transcript := []

namespace Ledger

/-- The ledger with the statements of one transaction replaced. -/
def setPending (ledger : Ledger) (h : Handle) (transcript : Transcript) : Ledger :=
  { ledger with pending := fun h' => if h = h' then transcript else ledger.pending h' }

/-- Enters a call: a statement of a transaction, or its commit. -/
def enter (ledger : Ledger) (event : Event) : Ledger :=
  match event.call with
  | .run h statement =>
    if h < event.before.db.transactions.size then
      ledger.setPending h (ledger.pending h ++ [(statement, event.answer)])
    else ledger
  | .commit h =>
    if event.answer.isOk then
      { ledger with committed := ledger.committed ++ [ledger.pending h] }.setPending h []
    else ledger
  | _ => ledger

/-- The ledger of a run. -/
def ofTrace (trace : List Event) : Ledger := trace.foldl enter {}

theorem ofTrace_snoc (trace : List Event) (event : Event) :
    ofTrace (trace ++ [event]) = (ofTrace trace).enter event := by
  simp [ofTrace]

@[simp] theorem pending_setPending (ledger : Ledger) (h h' : Handle) (transcript : Transcript) :
    (ledger.setPending h transcript).pending h' = if h = h' then transcript else ledger.pending h' :=
  rfl

@[simp] theorem committed_setPending (ledger : Ledger) (h : Handle) (transcript : Transcript) :
    (ledger.setPending h transcript).committed = ledger.committed := rfl

/-- A call that is no statement and no commit leaves the ledger as it is. -/
theorem enter_of_other {ledger : Ledger} {s : Session} {call : Call}
    (hrun : ∀ h statement, call ≠ .run h statement) (hcommit : ∀ h, call ≠ .commit h) :
    ledger.enter ⟨s, call⟩ = ledger := by
  unfold enter
  split
  · rename_i h statement hcall
    exact absurd hcall (hrun h statement)
  · rename_i h hcall
    exact absurd hcall (hcommit h)
  · rfl

end Ledger

/-! ### What unfinished transactions leave behind -/

/-- Whether a map of rows is what is left when all unfinished writes are taken back. -/
structure Database.Settled (db : Database) (rows : Rows) : Prop where
  untouched : ∀ name rid,
    (∀ h < db.transactions.size, ∀ write ∈ (db.txn h).writes, ¬ write.isAt name rid) →
      rows name rid = db.catalog.rows name rid
  touched : ∀ h < db.transactions.size, ∀ write ∈ (db.txn h).writes, ∀ name rid,
    write.isAt name rid → rows name rid = db.catalog.rows.revertAll (db.txn h).writes name rid

/-- Whether statements of a transaction give the same answers once more from any map of rows that agrees,
where the transaction has a hold, with the rows from before its writes; they lead to the present rows
there, and change nothing elsewhere. -/
def Database.Replayable (db : Database) (h : Handle) (transcript : Transcript) : Prop :=
  ∀ first : Rows,
    (∀ name rid, db.HoldsRow h name rid →
      first name rid = db.catalog.rows.revertAll (db.txn h).writes name rid) →
    ∃ last, Replays db.catalog.shapes first transcript last ∧
      (∀ name rid, db.HoldsRow h name rid → last name rid = db.catalog.rows name rid) ∧
      ∀ name rid, ¬ db.HoldsRow h name rid → last name rid = first name rid

namespace Database

variable {db db' : Database} {h h' : Handle} {rows : Rows} {name : String} {rid : Rid}
  {write : WriteRecord} {row : Option Bytes} {transcript : Transcript}

/-- Where a transaction has a hold, only its own writes are unfinished. -/
theorem Settled.of_holdsRow (hsettled : db.Settled rows) (hg : db.Guarded) (hids : db.DistinctIds)
    (hlt : h < db.transactions.size) (hholds : db.HoldsRow h name rid) :
    rows name rid = db.catalog.rows.revertAll (db.txn h).writes name rid := by
  by_cases hown : ∃ write ∈ (db.txn h).writes, write.isAt name rid
  · obtain ⟨write, hmem, hat⟩ := hown
    exact hsettled.touched h hlt write hmem name rid hat
  · have hnone : ∀ write ∈ (db.txn h).writes, ¬ write.isAt name rid :=
      fun write hmem hat => hown ⟨write, hmem, hat⟩
    rw [Rows.revertAll_of_not_isAt hnone]
    refine hsettled.untouched name rid fun h' hlt' write hmem hat => ?_
    have heq : h = h' := hg.eq_of_holdsRow hids hlt' hlt hmem hat hholds
    subst heq
    exact hnone write hmem hat

/-- A step of one transaction after which taking back its writes gives the same rows as before, and which
leaves the rows alone that others have written, settles to the same map of rows. -/
theorem Settled.of_step (hsettled : db.Settled rows) (hg : db'.Guarded) (hids : db'.DistinctIds)
    (hsize : db'.transactions.size = db.transactions.size) (htxn : ∀ h', h ≠ h' → db'.txn h' = db.txn h')
    (hrevert : db'.catalog.rows.revertAll (db'.txn h).writes =
      db.catalog.rows.revertAll (db.txn h).writes)
    (hother : ∀ h', h ≠ h' → ∀ write ∈ (db.txn h').writes, ∀ name rid, write.isAt name rid →
      db'.catalog.rows name rid = db.catalog.rows name rid) : db'.Settled rows := by
  -- Where no other transaction has written, the map has the row from before the writes of this one.
  have hown : ∀ name rid,
      (∀ h' < db.transactions.size, h ≠ h' → ∀ write ∈ (db.txn h').writes, ¬ write.isAt name rid) →
      rows name rid = db.catalog.rows.revertAll (db.txn h).writes name rid := by
    intro name rid hnone
    by_cases hwritten : ∃ write ∈ (db.txn h).writes, write.isAt name rid
    · obtain ⟨write, hmem, hat⟩ := hwritten
      exact hsettled.touched h (lt_of_mem_writes hmem) write hmem name rid hat
    · have hnot : ∀ write ∈ (db.txn h).writes, ¬ write.isAt name rid :=
        fun write hmem hat => hwritten ⟨write, hmem, hat⟩
      rw [Rows.revertAll_of_not_isAt hnot]
      refine hsettled.untouched name rid fun h' hlt' => ?_
      by_cases hh : h = h'
      · exact hh ▸ hnot
      · exact hnone h' hlt' hh
  refine ⟨fun name rid hnone => ?_, fun h' hlt' write hmem name rid hat => ?_⟩
  · rw [hown name rid fun h' hlt' hne write hmem =>
      hnone h' (hsize ▸ hlt') write (htxn h' hne ▸ hmem), ← hrevert]
    refine Rows.revertAll_of_not_isAt fun write hmem => ?_
    exact hnone h (lt_of_mem_writes hmem) write hmem
  · by_cases hh : h = h'
    · subst hh
      rw [hrevert]
      refine hown name rid fun h' hlt₁ hne other hother hat' => ?_
      have hholds : db'.HoldsRow h' name rid :=
        hg.holdsRow (hsize ▸ hlt₁) (htxn h' hne ▸ hother) hat'
      exact hne (hg.eq_of_holdsRow hids hlt' (hsize ▸ hlt₁) hmem hat hholds).symm
    · rw [htxn h' hh] at hmem ⊢
      rw [hsettled.touched h' (hsize ▸ hlt') write hmem name rid hat]
      exact Rows.revertAll_congr (hother h' hh write hmem name rid hat).symm

/-! ### Replaying a transaction after each kind of step -/

/-- A step of others that leaves a transaction's writes, its holds, and the rows under them alone. -/
theorem Replayable.of_other (hr : db.Replayable h transcript)
    (hshapes : db'.catalog.shapes = db.catalog.shapes) (hwrites : (db'.txn h).writes = (db.txn h).writes)
    (hholds : ∀ name rid, db'.HoldsRow h name rid ↔ db.HoldsRow h name rid)
    (hrows : ∀ name rid, db.HoldsRow h name rid →
      db'.catalog.rows name rid = db.catalog.rows name rid) : db'.Replayable h transcript := by
  intro first hfirst
  obtain ⟨last, hreplays, hlast, helse⟩ := hr first fun name rid hhold => by
    rw [hfirst name rid ((hholds name rid).mpr hhold), hwrites]
    exact Rows.revertAll_congr (hrows name rid hhold)
  refine ⟨last, hshapes ▸ hreplays, fun name rid hhold => ?_, fun name rid hnot => ?_⟩
  · have hhold := (hholds name rid).mp hhold
    rw [hlast name rid hhold, hrows name rid hhold]
  · exact helse name rid fun hhold => hnot ((hholds name rid).mpr hhold)

/-- A step of the transaction itself: what it had run before replays on the rows that it has a hold on by
now, and leads to the rows from before the step there. -/
theorem Replayable.grow (hr : db.Replayable h transcript) (hk : Keeps h db db')
    (hshapes : db'.catalog.shapes = db.catalog.shapes)
    (hrevert : db'.catalog.rows.revertAll (db'.txn h).writes =
      db.catalog.rows.revertAll (db.txn h).writes)
    (hcovered : ∀ write ∈ (db.txn h).writes, db.HoldsRow h write.table write.rid) {first : Rows}
    (hfirst : ∀ name rid, db'.HoldsRow h name rid →
      first name rid = db'.catalog.rows.revertAll (db'.txn h).writes name rid) :
    ∃ last, Replays db.catalog.shapes first transcript last ∧
      (∀ name rid, db'.HoldsRow h name rid → last name rid = db.catalog.rows name rid) ∧
      ∀ name rid, ¬ db'.HoldsRow h name rid → last name rid = first name rid := by
  have hmore : ∀ name rid, db.HoldsRow h name rid → db'.HoldsRow h name rid :=
    fun name rid hhold => hhold.keeps hk hshapes
  obtain ⟨last, hreplays, hlast, helse⟩ := hr first fun name rid hhold => by
    rw [hfirst name rid (hmore name rid hhold), hrevert]
  refine ⟨last, hreplays, fun name rid hhold' => ?_, fun name rid hnot => ?_⟩
  · by_cases hhold : db.HoldsRow h name rid
    · exact hlast name rid hhold
    · rw [helse name rid hhold, hfirst name rid hhold', hrevert]
      refine Rows.revertAll_of_not_isAt fun write hmem hat => hhold ?_
      obtain ⟨rfl, rfl⟩ := hat
      exact hcovered write hmem
  · exact helse name rid fun hhold => hnot (hmore name rid hhold)

theorem Replayable.quiet (hr : db.Replayable h transcript) (hg : db.Guarded) (hq : Quiet h db db') :
    db'.Replayable h transcript := by
  have hrows := hq.rows hg.catalog
  intro first hfirst
  obtain ⟨last, hreplays, hlast, helse⟩ := hr.grow hq.toKeeps hrows.shapes
    (by rw [hq.writes, hrows.rows])
    (fun write hmem => hg.holdsRow (lt_of_mem_writes hmem) hmem ⟨rfl, rfl⟩) hfirst
  refine ⟨last, hrows.shapes ▸ hreplays, fun name rid hhold => ?_, helse⟩
  rw [hlast name rid hhold, hrows.rows]

/-- A statement that gives the answer that it gives on its own can be replayed behind the others. -/
theorem Replayable.statement (hr : db.Replayable h transcript) (hg : db.Guarded) (hk : Keeps h db db')
    (hshapes : db'.catalog.shapes = db.catalog.shapes)
    (hrevert : db'.catalog.rows.revertAll (db'.txn h).writes =
      db.catalog.rows.revertAll (db.txn h).writes)
    {statement : Statement} {answer : Except StatementError Answer}
    (hserial : Statement.IsSerial h statement answer db db') :
    db'.Replayable h (transcript ++ [(statement, answer)]) := by
  intro first hfirst
  obtain ⟨mid, hreplays, hmid, helse⟩ := hr.grow hk hshapes hrevert
    (fun write hmem => hg.holdsRow (lt_of_mem_writes hmem) hmem ⟨rfl, rfl⟩) hfirst
  obtain ⟨slot, hfinds, hserial, hsite⟩ := hserial
  obtain ⟨last, hlast, hsame, hnone⟩ := Statement.serial_congr hserial fun name rid hsome =>
    hmid name rid (hsite name rid hsome)
  refine ⟨last, ?_, fun name rid hhold => ?_, fun name rid hnot => ?_⟩
  · rw [hshapes]
    exact .snoc slot hreplays hfinds hlast
  · exact hsame name rid (hmid name rid hhold)
  · rw [hnone name rid fun hsome => hnot (hsite name rid hsome), helse name rid hnot]

theorem replayable_nil (h : Handle) (hwrites : (db.txn h).writes = []) : db.Replayable h [] := by
  intro first hfirst
  refine ⟨first, .nil, fun name rid hhold => ?_, fun _ _ _ => rfl⟩
  rw [hfirst name rid hhold, hwrites]
  rfl

/-- A step of another transaction in which it gives nothing up. -/
theorem Replayable.keeps_of_ne (hr : db.Replayable h transcript) (hk : Keeps h' db db')
    (hids : db.DistinctIds) (hlt : h < db.transactions.size) (hne : h' ≠ h)
    (hshapes : db'.catalog.shapes = db.catalog.shapes)
    (hrows : ∀ name rid, db.HoldsRow h name rid →
      db'.catalog.rows name rid = db.catalog.rows name rid) : db'.Replayable h transcript := by
  refine hr.of_other hshapes (by rw [hk.txn h hne]) (fun name rid => ⟨fun hhold => ?_, fun hhold => ?_⟩)
    hrows
  · refine hhold.congr (fun r => ?_) (hk.ids h).symm hshapes.symm
    rw [hk.ids, hk.heldMode_of_ne hids hlt hne]
  · exact hhold.keeps_of_ne hk hids hlt hne hshapes

/-- The end of another transaction. -/
theorem Replayable.leftBehind (hr : db.Replayable h transcript) (hleft : LeftBehind h' db db')
    (hl : db.LocksExact) (hids : db.DistinctIds) (hlt : h < db.transactions.size) (hne : h' ≠ h) :
    db'.Replayable h transcript := by
  have htxn := hleft.txn h hne
  refine hr.of_other (by rw [hleft.catalog]) (by rw [htxn])
    (fun name rid => ⟨fun hhold => ?_, fun hhold => ?_⟩)
    fun _ _ _ => by rw [hleft.catalog]
  · refine hhold.congr (fun r => ?_) (by rw [htxn]) (by rw [hleft.catalog])
    rw [htxn, hleft.heldMode_of_ne hl hids hlt hne]
  · exact hhold.leftBehind hleft hl hids hlt hne

/-- The beginning of another transaction. -/
theorem Replayable.arrived (hr : db.Replayable h transcript) (harrived : Arrived db db')
    (hlt : h < db.transactions.size) : db'.Replayable h transcript := by
  have htxn := harrived.txn h hlt
  refine hr.of_other (by rw [harrived.catalog]) (by rw [htxn])
    (fun name rid => ⟨fun hhold => ?_, fun hhold => hhold.arrived hlt harrived⟩)
    fun _ _ _ => by rw [harrived.catalog]
  exact hhold.congr (fun r => by rw [harrived.locks]) (by rw [htxn]) (by rw [harrived.catalog])

/-- What a committed transaction has done is settled once its statements have been replayed. -/
theorem Settled.committed (hsettled : db.Settled rows) (hg : db.Guarded) (hids : db.DistinctIds)
    (hleft : LeftBehind h db db') {last : Rows}
    (hlast : ∀ name rid, db.HoldsRow h name rid → last name rid = db.catalog.rows name rid)
    (helse : ∀ name rid, ¬ db.HoldsRow h name rid → last name rid = rows name rid) : db'.Settled last where
  untouched := by
    intro name rid hnone
    rw [hleft.catalog]
    by_cases hhold : db.HoldsRow h name rid
    · exact hlast name rid hhold
    · rw [helse name rid hhold]
      refine hsettled.untouched name rid fun h' hlt' write hmem hat => ?_
      by_cases hh : h = h'
      · subst hh
        exact hhold (hg.holdsRow hlt' hmem hat)
      · exact hnone h' (hleft.size ▸ hlt') write (hleft.txn h' hh ▸ hmem) hat
  touched := by
    intro h' hlt' write hmem name rid hat
    rw [hleft.size] at hlt'
    by_cases hh : h = h'
    · rw [← hh, hleft.writes] at hmem
      cases hmem
    · rw [hleft.txn h' hh] at hmem ⊢
      rw [hleft.catalog, ← hsettled.touched h' hlt' write hmem name rid hat]
      exact helse name rid fun hhold =>
        hh (hg.eq_of_holdsRow hids hlt' hleft.lt hmem hat hhold)

/-- Whether a transaction has ended: it can do nothing more, and has nothing to take back. -/
structure Over (db : Database) (h : Handle) : Prop where
  lt : h < db.transactions.size
  inactive : db.isActive h = false
  writes : (db.txn h).writes = []

end Database

variable {start s : Session} {call : Call} {answer : Except StatementError Answer} {db' : Database}
  {trace : List Event} {h : Handle} {rows : Rows}

/-- A transaction that has ended stays so. -/
theorem Effect.over (heffect : Effect s call answer db') (hover : s.db.Over h)
    (hhand : call.isByHand = false) (hlog : Answer.isLogFailure answer = false) : db'.Over h := by
  have hsame : db'.transactions.size = s.db.transactions.size → db'.txn h = s.db.txn h → db'.Over h := by
    intro hsize htxn
    exact ⟨hsize ▸ hover.lt, by rw [isActive, htxn]; exact hover.inactive, by rw [htxn, hover.writes]⟩
  have hquiet : ∀ {h'}, Quiet h' s.db db' → db'.Over h := by
    intro h' hq
    by_cases hh : h' = h
    · subst hh
      refine ⟨hq.size ▸ hover.lt, ?_, by rw [hq.writes, hover.writes]⟩
      rcases hq.state with heq | haborted
      · rw [isActive, heq]
        exact hover.inactive
      · rw [isActive, haborted]
        rfl
    · exact hsame hq.size (hq.txn h hh)
  have hwrote : ∀ {h' write row}, Wrote h' write row s.db db' → db'.Over h := by
    intro h' write row hw
    by_cases hh : h' = h
    · subst hh
      exact absurd (hover.inactive.symm.trans hw.active) (by decide)
    · exact hsame hw.size (hw.txn h hh)
  cases heffect with
  | arrived harrived _ =>
    have htxn := harrived.txn h hover.lt
    refine ⟨?_, by rw [isActive, htxn]; exact hover.inactive, by rw [htxn, hover.writes]⟩
    rw [harrived.size]
    exact Nat.lt_succ_of_lt hover.lt
  | untouched huntouched _ _ => exact hsame (by rw [huntouched.transactions]) (huntouched.txn h)
  | ran houtcome =>
    cases houtcome.did with
    | quiet hq _ => exact hquiet hq
    | wrote _ _ hw _ _ _ => exact hwrote hw
    | missed _ hw _ _ _ => exact hwrote hw
  | quiet hq _ _ => exact hquiet hq
  | commitRefused _ => exact hover
  | @committed h' _ hactive hleft _ =>
    have hne : h' ≠ h := by
      rintro rfl
      exact absurd (hover.inactive.symm.trans hactive) (by decide)
    exact hsame hleft.size (hleft.txn h hne)
  | commitLost _ hlost => exact absurd (hlost.symm.trans hlog) (by decide)
  | abortRefused _ => exact hover
  | @abortStuck h' _ _ _ hlt hundo =>
    have hne : h' ≠ h := by
      rintro rfl
      rw [hover.writes] at hundo
      cases hundo
    exact hsame (keeps_rolledBack h' s.db _ _).size ((keeps_rolledBack h' s.db _ _).txn h hne)
  | @aborted h' catalog _ _ _ _ hleft hended =>
    have hkeeps := keeps_rolledBack h' s.db [] catalog
    by_cases hh : h' = h
    · subst hh
      rcases hended with ⟨_, hstate⟩ | hlost
      · refine ⟨?_, by rw [isActive, hstate]; rfl, hleft.writes⟩
        rw [hleft.size, hkeeps.size]
        exact hover.lt
      · exact absurd (hlost.symm.trans hlog) (by decide)
    · exact hsame (hleft.size.trans hkeeps.size) ((hleft.txn h hh).trans (hkeeps.txn h hh))
  | released _ => cases hhand
  | releasedAll _ => cases hhand
  | releasedGaps _ => cases hhand

/-- A commit or an abort that succeeds ends its transaction. -/
theorem Effect.over_of_ends (heffect : Effect s call answer db') (hok : answer.isOk = true)
    (hlog : Answer.isLogFailure answer = false) (hcall : call = .commit h ∨ call = .abort h) :
    db'.Over h := by
  cases heffect with
  | arrived _ hbegun =>
    rcases hbegun with rfl | ⟨id, rfl⟩ <;> simp at hcall
  | untouched _ hends _ => exact absurd hcall (not_or.mpr (hends h))
  | ran _ => simp at hcall
  | quiet _ hends _ => exact absurd hcall (not_or.mpr (hends h))
  | commitRefused _ => cases hok
  | @committed h' _ _ hleft hstate =>
    obtain rfl : h' = h := by simpa using hcall
    refine ⟨hleft.size ▸ hleft.lt, ?_, hleft.writes⟩
    rw [isActive, hstate]
    rfl
  | commitLost _ _ => cases hok
  | abortRefused _ => cases hok
  | abortStuck _ _ => cases hok
  | @aborted h' _ _ _ _ _ hleft hended =>
    obtain rfl : h' = h := by simpa using hcall
    rcases hended with ⟨_, hstate⟩ | hlost
    · refine ⟨hleft.size ▸ hleft.lt, ?_, hleft.writes⟩
      rw [isActive, hstate]
      rfl
    · exact absurd (hlost.symm.trans hlog) (by decide)
  | released _ => simp at hcall
  | releasedAll _ => simp at hcall
  | releasedGaps _ => simp at hcall

/-- A transaction that has been committed or rolled back in a run is over at its end. -/
theorem Run.over (hrun : Run start trace s) (hmanaged : Managed trace)
    (hended : ∃ event ∈ trace, event.commits h = true ∨ event.aborts h = true) : s.db.Over h := by
  induction hrun with
  | nil => simp at hended
  | @snoc trace s call hrun ih =>
    have hlast : (⟨s, call⟩ : Event) ∈ trace ++ [⟨s, call⟩] := by simp
    have heffect := s.step_effect call
    obtain ⟨hhand, hlog⟩ := hmanaged _ hlast
    obtain ⟨event, hmem, hends⟩ := hended
    rcases List.mem_append.mp hmem with hmem | hmem
    · exact heffect.over (ih (fun e he => hmanaged e (List.mem_append_left _ he)) ⟨event, hmem, hends⟩)
        hhand hlog
    · rw [List.mem_singleton.mp hmem] at hends
      simp only [Event.commits, Event.aborts, Bool.and_eq_true, decide_eq_true_eq] at hends
      rcases hends with ⟨hcall, hok⟩ | ⟨hcall, hok⟩
      · exact heffect.over_of_ends hok hlog (.inl hcall)
      · exact heffect.over_of_ends hok hlog (.inr hcall)

/-! ### The invariant -/

/-- What a map of rows has to do with a run: the committed transactions lead to it one after another, it
is what is left when all unfinished writes are taken back, and the statements of every active
transaction can be replayed. -/
structure Serializes (start : Session) (trace : List Event) (s : Session) (rows : Rows) : Prop where
  replay : Replays start.db.catalog.shapes start.db.catalog.rows
    (Ledger.ofTrace trace).committed.flatten rows
  settled : s.db.Settled rows
  pending : ∀ h < s.db.transactions.size, s.db.isActive h = true →
    s.db.Replayable h ((Ledger.ofTrace trace).pending h)
  unbegun : ∀ h, ¬ h < s.db.transactions.size → (Ledger.ofTrace trace).pending h = []

/-- A call that enters nothing into the ledger. -/
theorem Serializes.of_same (hs : Serializes start trace s rows) {event : Event}
    (hledger : (Ledger.ofTrace trace).enter event = Ledger.ofTrace trace) {s' : Session}
    (hsettled : s'.db.Settled rows)
    (hpending : ∀ h < s'.db.transactions.size, s'.db.isActive h = true →
      s'.db.Replayable h ((Ledger.ofTrace trace).pending h))
    (hsize : s.db.transactions.size ≤ s'.db.transactions.size) :
    Serializes start (trace ++ [event]) s' rows := by
  have hsame : Ledger.ofTrace (trace ++ [event]) = Ledger.ofTrace trace := by
    rw [Ledger.ofTrace_snoc, hledger]
  refine ⟨hsame ▸ hs.replay, hsettled, hsame ▸ hpending, fun h hge => ?_⟩
  rw [hsame]
  exact hs.unbegun h fun hlt => hge (Nat.lt_of_lt_of_le hlt hsize)

/-- A quiet step of any transaction. -/
theorem Serializes.of_quiet {h' : Handle} (hs : Serializes start trace s rows) (hg : s.db.Guarded)
    (hq : Quiet h' s.db db') (hids : db'.DistinctIds) {event : Event}
    (hledger : (Ledger.ofTrace trace).enter event = Ledger.ofTrace trace) {s' : Session}
    (hs' : s'.db = db') : Serializes start (trace ++ [event]) s' rows := by
  have hids₀ : s.db.DistinctIds := hq.toKeeps.keepsIds.distinctIds hids
  have hrows := hq.rows hg.catalog
  refine hs.of_same hledger ?_ ?_ (hs' ▸ Nat.le_of_eq hq.size.symm)
  · rw [hs']
    exact hs.settled.of_step (hg.quiet hids₀ hq) hids hq.size hq.txn (by rw [hq.writes, hrows.rows])
      fun _ _ _ _ _ _ _ => by rw [hrows.rows]
  · rw [hs']
    intro h hlt hactive
    rw [hq.size] at hlt
    by_cases hh : h' = h
    · subst hh
      refine (hs.pending h' hlt ?_).quiet hg hq
      rcases hq.state with heq | haborted
      · rwa [isActive, heq] at hactive
      · simp [isActive, haborted, TransactionState.isFinished] at hactive
    · refine (hs.pending h hlt ?_).keeps_of_ne hq.toKeeps hids₀ hlt hh hrows.shapes
        fun _ _ _ => by rw [hrows.rows]
      rwa [isActive, hq.txn h hh] at hactive

/-- What all outcomes of a statement have in common: taking back the transaction's writes gives the same
rows as before, and rows that others have a hold on are left alone. -/
structure Database.Stepped (h : Handle) (db db' : Database) : Prop extends Keeps h db db' where
  guarded : db'.Guarded
  shapes : db'.catalog.shapes = db.catalog.shapes
  revert : db'.catalog.rows.revertAll (db'.txn h).writes = db.catalog.rows.revertAll (db.txn h).writes
  rows : ∀ h' < db.transactions.size, h ≠ h' → ∀ name rid, db.HoldsRow h' name rid →
    db'.catalog.rows name rid = db.catalog.rows name rid
  active : db'.isActive h = true → db.isActive h = true

theorem Database.Quiet.stepped {db : Database} (hq : Quiet h db db') (hg : db.Guarded)
    (hids : db.DistinctIds) : Stepped h db db' := by
  have hrows := hq.rows hg.catalog
  refine ⟨hq.toKeeps, hg.quiet hids hq, hrows.shapes, by rw [hq.writes, hrows.rows],
    fun _ _ _ _ _ _ => by rw [hrows.rows], fun hactive => ?_⟩
  rcases hq.state with heq | haborted
  · rwa [isActive, heq] at hactive
  · simp [isActive, haborted, TransactionState.isFinished] at hactive

theorem Database.Wrote.stepped {db : Database} {write : WriteRecord} {row : Option Bytes}
    (hw : Wrote h write row db db') (hg : db.Guarded) (hids : db.DistinctIds) : Stepped h db db' := by
  have hchange := hw.change hg.catalog
  refine ⟨hw.toKeeps, hg.wrote hids hw, hchange.shapes, ?_, fun h' hlt' hne name rid hhold => ?_,
    fun _ => hw.active⟩
  · rw [hw.writes, Rows.revertAll_cons, hchange.revert]
  · rw [hchange.rows]
    refine Rows.set_of_ne fun hat => hne ?_
    exact (hw.eq_of_holdsRow hg hids hlt' hat hhold).symm

theorem Statement.Outcome.stepped {statement : Statement} {db : Database}
    (houtcome : Statement.Outcome h statement answer db db') (hg : db.Guarded) (hids : db.DistinctIds) :
    Stepped h db db' := by
  cases houtcome.did with
  | quiet hq _ => exact hq.stepped hg hids
  | wrote _ _ hw _ _ _ => exact hw.stepped hg hids
  | missed _ hw _ _ _ => exact hw.stepped hg hids

/-- A step of one transaction leads to nothing else being left when all writes are taken back. -/
theorem Database.Settled.stepped {db : Database} (hsettled : db.Settled rows) (hg : db.Guarded)
    (hstep : Stepped h db db') (hids : db'.DistinctIds) : db'.Settled rows := by
  refine hsettled.of_step hstep.guarded hids hstep.size hstep.txn hstep.revert ?_
  intro h' hne write hmem name rid hat
  have hlt := lt_of_mem_writes hmem
  exact hstep.rows h' hlt hne name rid (hg.holdsRow hlt hmem hat)

/-- A step of one transaction settles to the same map, and leaves the others replayable. -/
theorem Serializes.of_stepped {h' : Handle} (hs : Serializes start trace s rows) (hg : s.db.Guarded)
    (hstep : Stepped h' s.db db') (hids : db'.DistinctIds) :
    db'.Settled rows ∧ ∀ h < db'.transactions.size, h' ≠ h → db'.isActive h = true →
      db'.Replayable h ((Ledger.ofTrace trace).pending h) := by
  have hids₀ : s.db.DistinctIds := hstep.toKeeps.keepsIds.distinctIds hids
  refine ⟨hs.settled.stepped hg hstep hids, fun h hlt hne hactive => ?_⟩
  rw [hstep.size] at hlt
  refine (hs.pending h hlt ?_).keeps_of_ne hstep.toKeeps hids₀ hlt hne hstep.shapes
    (hstep.rows h hlt hne)
  rwa [isActive, hstep.txn h hne] at hactive

/-- A statement of a transaction that has begun. -/
theorem Serializes.of_statement {statement : Statement} (hs : Serializes start trace s rows)
    (hg : s.db.Guarded) (houtcome : Statement.Outcome h statement answer s.db db')
    (hids : db'.DistinctIds) (hlog : Answer.isLogFailure answer = false)
    (hanswer : (⟨s, .run h statement⟩ : Event).answer = answer) (hlt : h < s.db.transactions.size)
    {s' : Session} (hs' : s'.db = db') : Serializes start (trace ++ [⟨s, .run h statement⟩]) s' rows := by
  have hids₀ : s.db.DistinctIds := houtcome.keeps.keepsIds.distinctIds hids
  have hstep := houtcome.stepped hg hids₀
  obtain ⟨hsettled, hothers⟩ := hs.of_stepped hg hstep hids
  have hledger : Ledger.ofTrace (trace ++ [⟨s, .run h statement⟩]) = (Ledger.ofTrace trace).setPending h
      ((Ledger.ofTrace trace).pending h ++ [(statement, answer)]) := by
    rw [Ledger.ofTrace_snoc, ← hanswer]
    exact if_pos hlt
  rw [← hs'] at hsettled hothers
  refine ⟨?_, hsettled, fun h' hlt' hactive => ?_, fun h' hge => ?_⟩
  · rw [hledger]
    exact hs.replay
  · rw [hledger, Ledger.pending_setPending]
    by_cases hh : h = h'
    · subst hh
      rw [if_pos rfl, hs']
      rw [hs'] at hactive
      exact (hs.pending h hlt (hstep.active hactive)).statement hg hstep.toKeeps hstep.shapes hstep.revert
        (houtcome.serial hg.catalog hactive hlog)
    · rw [if_neg hh]
      exact hothers h' hlt' hh hactive
  · rw [hs', hstep.size] at hge
    have hh : h ≠ h' := fun heq => hge (heq ▸ hlt)
    rw [hledger, Ledger.pending_setPending, if_neg hh]
    exact hs.unbegun h' hge

/-- A commit hands the statements of its transaction over, and they lead from the old map of rows to a
new one. -/
theorem Serializes.of_committed (hs : Serializes start trace s rows) (hg : s.db.Guarded)
    (hactive : s.db.isActive h = true) (hleft : LeftBehind h s.db db') (hids : db'.DistinctIds)
    (hover : db'.Over h) (hshapes : s.db.catalog.shapes = start.db.catalog.shapes)
    (hanswer : (⟨s, .commit h⟩ : Event).answer.isOk = true) {s' : Session} (hs' : s'.db = db') :
    ∃ rows', Serializes start (trace ++ [⟨s, .commit h⟩]) s' rows' := by
  have hids₀ : s.db.DistinctIds := hleft.keepsIds.distinctIds hids
  obtain ⟨last, hreplays, hlast, helse⟩ := hs.pending h hleft.lt hactive rows fun name rid hhold =>
    hs.settled.of_holdsRow hg hids₀ hleft.lt hhold
  have hledger : Ledger.ofTrace (trace ++ [⟨s, .commit h⟩]) =
      { Ledger.ofTrace trace with
        committed := (Ledger.ofTrace trace).committed ++ [(Ledger.ofTrace trace).pending h]
      : Ledger }.setPending h [] := by
    rw [Ledger.ofTrace_snoc]
    exact if_pos hanswer
  refine ⟨last, ?_, ?_, fun h' hlt' hactive' => ?_, fun h' hge => ?_⟩
  · rw [hledger, Ledger.committed_setPending, List.flatten_append, List.flatten_singleton]
    rw [hshapes] at hreplays
    exact hs.replay.append hreplays
  · rw [hs']
    exact hs.settled.committed hg hids₀ hleft hlast helse
  · rw [hs', hleft.size] at hlt'
    rw [hs'] at hactive' ⊢
    by_cases hh : h = h'
    · subst hh
      exact absurd (hover.inactive.symm.trans hactive') (by decide)
    · rw [hledger, Ledger.pending_setPending, if_neg hh]
      refine (hs.pending h' hlt' ?_).leftBehind hleft hg.toLocksExact hids₀ hlt' hh
      rwa [isActive, hleft.txn h' hh] at hactive'
  · rw [hs', hleft.size] at hge
    rw [hledger, Ledger.pending_setPending]
    split
    · rfl
    · exact hs.unbegun h' hge

/-- A transaction whose writes have all been taken back. -/
theorem Database.stepped_rolledBack {db : Database} (hg : db.Guarded) (hids : db.DistinctIds)
    (hlt : h < db.transactions.size) {catalog : Catalog}
    (hundo : db.catalog.undoAll (db.txn h).writes = (.ok (), [], catalog)) :
    Stepped h db (db.rolledBack h [] catalog) := by
  obtain ⟨_, hshapes, undone, hwrites, hrows⟩ := Catalog.undoAll_spec hg.catalog hundo
  have htxn := txn_rolledBack hlt [] catalog
  rw [List.append_nil] at hwrites
  refine ⟨keeps_rolledBack h db [] catalog, hg.rolledBack hids hlt hundo, hshapes, ?_, ?_, ?_⟩
  · rw [htxn, hwrites]
    exact hrows
  · intro h' hlt' hne name rid hhold
    exact (hhold.rolledBack hg hids hlt' hlt hne hundo).2
  · rw [isActive, htxn]
    exact id

/-- A transaction whose writes have all been taken back leaves nothing when it ends. -/
theorem Database.Settled.aborted {db : Database} {catalog : Catalog} (hsettled : db.Settled rows)
    (hg : db.Guarded) (hlt : h < db.transactions.size)
    (hundo : db.catalog.undoAll (db.txn h).writes = (.ok (), [], catalog))
    (hleft : LeftBehind h (db.rolledBack h [] catalog) db') (hids : db'.DistinctIds) :
    db'.Settled rows := by
  have hids₁ : (db.rolledBack h [] catalog).DistinctIds := hleft.keepsIds.distinctIds hids
  have hids₀ : db.DistinctIds := (keeps_rolledBack h db [] catalog).keepsIds.distinctIds hids₁
  have hstep := stepped_rolledBack hg hids₀ hlt hundo
  refine (hsettled.stepped hg hstep hids₁).of_step (hstep.guarded.leftBehind hids₁ hleft) hids hleft.size
    hleft.txn ?_ fun _ _ _ _ _ _ _ => ?_
  · rw [hleft.catalog, hleft.writes, txn_rolledBack hlt]
  · rw [hleft.catalog]

/-- An abort takes nothing into the map of rows. -/
theorem Serializes.of_aborted {catalog : Catalog} (hs : Serializes start trace s rows)
    (hg : s.db.Guarded) (hlt : h < s.db.transactions.size)
    (hundo : s.db.catalog.undoAll (s.db.txn h).writes = (.ok (), [], catalog))
    (hleft : LeftBehind h (s.db.rolledBack h [] catalog) db') (hids : db'.DistinctIds)
    (hover : db'.Over h) {s' : Session} (hs' : s'.db = db') :
    Serializes start (trace ++ [⟨s, .abort h⟩]) s' rows := by
  have hids₁ : (s.db.rolledBack h [] catalog).DistinctIds := hleft.keepsIds.distinctIds hids
  have hids₀ : s.db.DistinctIds := (keeps_rolledBack h s.db [] catalog).keepsIds.distinctIds hids₁
  have hstep := stepped_rolledBack hg hids₀ hlt hundo
  obtain ⟨_, hothers⟩ := hs.of_stepped hg hstep hids₁
  have hsize : db'.transactions.size = s.db.transactions.size := hleft.size.trans hstep.size
  refine hs.of_same (Ledger.enter_of_other (by simp) (by simp)) ?_ (fun h' hlt' hactive => ?_)
    (hs' ▸ Nat.le_of_eq hsize.symm)
  · rw [hs']
    exact hs.settled.aborted hg hlt hundo hleft hids
  · rw [hs'] at hlt' hactive ⊢
    have hh : h ≠ h' := fun heq => by
      subst heq
      exact absurd (hover.inactive.symm.trans hactive) (by decide)
    rw [hleft.size] at hlt'
    refine (hothers h' hlt' hh ?_).leftBehind hleft hstep.guarded.toLocksExact hids₁ hlt' hh
    rwa [isActive, hleft.txn h' hh] at hactive

/-- A transaction that has just begun has written nothing. -/
theorem Database.Arrived.writes_eq_nil {db : Database} (harrived : Arrived db db')
    (hlt : h < db'.transactions.size) (hge : ¬ h < db.transactions.size) : (db'.txn h).writes = [] := by
  rw [harrived.size] at hlt
  have heq : h = db.nextHandle := Nat.le_antisymm (Nat.le_of_lt_succ hlt) (Nat.le_of_not_lt hge)
  rw [heq, harrived.writes]

/-- A transaction that begins has nothing to take back. -/
theorem Database.Settled.arrived {db : Database} (hsettled : db.Settled rows)
    (harrived : Arrived db db') : db'.Settled rows where
  untouched := by
    intro name rid hnone
    rw [harrived.catalog]
    refine hsettled.untouched name rid fun h hlt write hmem => ?_
    refine hnone h ?_ write (harrived.txn h hlt ▸ hmem)
    rw [harrived.size]
    exact Nat.lt_succ_of_lt hlt
  touched := by
    intro h hlt write hmem name rid hat
    by_cases hh : h < db.transactions.size
    · rw [harrived.txn h hh] at hmem ⊢
      rw [harrived.catalog]
      exact hsettled.touched h hh write hmem name rid hat
    · rw [harrived.writes_eq_nil hlt hh] at hmem
      cases hmem

/-- A transaction that begins has nothing to replay yet. -/
theorem Serializes.of_arrived (hs : Serializes start trace s rows) (harrived : Arrived s.db db')
    {event : Event} (hledger : (Ledger.ofTrace trace).enter event = Ledger.ofTrace trace) {s' : Session}
    (hs' : s'.db = db') : Serializes start (trace ++ [event]) s' rows := by
  refine hs.of_same hledger ?_ ?_ ?_
  · rw [hs']
    exact hs.settled.arrived harrived
  · rw [hs']
    intro h hlt hactive
    by_cases hh : h < s.db.transactions.size
    · refine (hs.pending h hh ?_).arrived harrived hh
      rwa [isActive, harrived.txn h hh] at hactive
    · rw [hs.unbegun h hh]
      exact replayable_nil h (harrived.writes_eq_nil hlt hh)
  · rw [hs', harrived.size]
    exact Nat.le_succ _

/-- Every call of a run in which nothing is given up by hand and the log takes every record leads from
one map of rows to another. -/
theorem Serializes.step (hs : Serializes start trace s rows) (hg : s.db.Guarded)
    (hids : (s.step call).2.db.DistinctIds) (hhand : call.isByHand = false)
    (hlog : (⟨s, call⟩ : Event).failsLog = false)
    (hshapes : s.db.catalog.shapes = start.db.catalog.shapes)
    (hundoable : ∀ h, call = .abort h →
      Undoable s.db.catalog.shapes s.db.catalog.rows (s.db.txn h).writes) :
    ∃ rows', Serializes start (trace ++ [⟨s, call⟩]) (s.step call).2 rows' := by
  have heffect := s.step_effect call
  generalize hanswer : (s.step call).1 = answer at heffect
  generalize hdb : (s.step call).2.db = db' at heffect hids
  have hevent : (⟨s, call⟩ : Event).answer = answer := hanswer
  rw [Event.failsLog, hevent] at hlog
  have heffect₀ := heffect
  cases heffect with
  | arrived harrived hcall =>
    refine ⟨rows, hs.of_arrived harrived (Ledger.enter_of_other ?_ ?_) hdb⟩
    · rintro h statement rfl
      simp at hcall
    · rintro h rfl
      simp at hcall
  | untouched huntouched hends hrun =>
    have hq : Quiet 0 s.db db' := by
      refine .of_keeps (.of_eq 0 huntouched.transactions huntouched.locks huntouched.gaps) ?_ ?_
        huntouched.catalog
      · rw [huntouched.txn]
      · rw [huntouched.txn]
    exact ⟨rows, hs.of_quiet hg hq hids (Ledger.enter_of_other hrun fun h => (hends h).1) hdb⟩
  | @ran h statement _ _ houtcome =>
    by_cases hlt : h < s.db.transactions.size
    · exact ⟨rows, hs.of_statement hg houtcome hids hlog hevent hlt hdb⟩
    · have hledger : (Ledger.ofTrace trace).enter ⟨s, .run h statement⟩ = Ledger.ofTrace trace :=
        if_neg hlt
      cases houtcome.did with
      | quiet hq _ => exact ⟨rows, hs.of_quiet hg hq hids hledger hdb⟩
      | wrote _ _ hw _ _ _ => exact absurd (lt_of_isActive hw.active) hlt
      | missed _ hw _ _ _ => exact absurd (lt_of_isActive hw.active) hlt
  | quiet hq hends hrun =>
    exact ⟨rows, hs.of_quiet hg hq hids (Ledger.enter_of_other hrun fun h => (hends h).1) hdb⟩
  | @commitRefused h _ =>
    refine ⟨rows, hs.of_quiet hg (.refl h s.db) hids ?_ hdb⟩
    show (if (⟨s, .commit h⟩ : Event).answer.isOk = true then _ else _) = _
    rw [hevent]
    rfl
  | committed hactive hleft _ =>
    exact hs.of_committed hg hactive hleft hids
      (heffect₀.over_of_ends rfl hlog (.inl rfl)) hshapes (by rw [hevent]; rfl) hdb
  | commitLost _ hlost => exact absurd (hlost.symm.trans hlog) (by decide)
  | @abortRefused h _ _ =>
    exact ⟨rows, hs.of_quiet hg (.refl h s.db) hids (Ledger.enter_of_other (by simp) (by simp)) hdb⟩
  | abortStuck _ hundo =>
    obtain ⟨catalog', hall⟩ := Catalog.undoAll_of_undoable hg.catalog (hundoable _ rfl)
    rw [hundo] at hall
    cases hall
  | aborted hlt hundo hleft hended =>
    rcases hended with ⟨rfl, _⟩ | hlost
    · exact ⟨rows, hs.of_aborted hg hlt hundo hleft hids
        (heffect₀.over_of_ends rfl hlog (.inr rfl)) hdb⟩
    · exact absurd (hlost.symm.trans hlog) (by decide)
  | released _ => cases hhand
  | releasedAll _ => cases hhand
  | releasedGaps _ => cases hhand

/-- The writes of every transaction can be taken back, throughout a run in which nothing is given up by hand
and the log takes every record. -/
theorem Run.undoable (hrun : Run start trace s) (hfresh : start.IsFresh)
    (hcatalog : start.db.catalog.Sound) (hids : s.db.DistinctIds) (hmanaged : Managed trace) (h : Handle) :
    Undoable s.db.catalog.shapes s.db.catalog.rows (s.db.txn h).writes := by
  -- A transaction that has ended has nothing to take back; any other can be rolled back.
  by_cases hended : ∃ event ∈ trace, event.commits h = true ∨ event.aborts h = true
  · rw [(hrun.over hmanaged hended).writes]
    trivial
  · refine (hrun.revertible hfresh hcatalog hids hmanaged fun event hmem => ?_).undoable
    simpa using fun hends => hended ⟨event, hmem, hends⟩

/-- Every run in which nothing is given up by hand and the log takes every record leads to a map of rows
that serializes it. -/
theorem Run.serializes (hrun : Run start trace s) (hfresh : start.IsFresh)
    (hcatalog : start.db.catalog.Sound) (hids : s.db.DistinctIds) (hmanaged : Managed trace) :
    ∃ rows, Serializes start trace s rows := by
  induction hrun with
  | nil =>
    have hnone : ∀ h, ¬ h < start.db.transactions.size := by
      intro h hlt
      rw [hfresh.transactions] at hlt
      exact Nat.not_lt_zero h hlt
    exact ⟨start.db.catalog.rows, .nil,
      ⟨fun _ _ _ => rfl, fun h hlt => absurd hlt (hnone h)⟩, fun h hlt => absurd hlt (hnone h),
      fun _ _ => rfl⟩
  | @snoc trace s call hrun ih =>
    have hids₀ : s.db.DistinctIds := (s.step_effect call).keepsIds.distinctIds hids
    have hmanaged₀ : Managed trace := fun event hmem => hmanaged event (List.mem_append_left _ hmem)
    have hlast : (⟨s, call⟩ : Event) ∈ trace ++ [⟨s, call⟩] := by simp
    obtain ⟨hg, hguarded⟩ :=
      hrun.guarded (hfresh.guarded hcatalog) hids₀ fun event hmem => (hmanaged₀ event hmem).1
    obtain ⟨rows, hs⟩ := ih hids₀ hmanaged₀
    exact hs.step hg hids (hmanaged _ hlast).1 (hmanaged _ hlast).2 (hrun.shapes hguarded).1
      fun h _ => hrun.undoable hfresh hcatalog hids₀ hmanaged₀ h

/-- The statements of the committed transactions, run one transaction after another in the order of the
commits, give the answers that they gave in the run; and when every transaction has ended, they lead
to the rows that there are. -/
theorem committed_replay (hrun : Run start trace s) (hfresh : start.IsFresh)
    (hcatalog : start.db.catalog.Sound) (hids : s.db.DistinctIds) (hmanaged : Managed trace) :
    ∃ last, Replays start.db.catalog.shapes start.db.catalog.rows
        (Ledger.ofTrace trace).committed.flatten last ∧
      ((∀ h < s.db.transactions.size, ∃ event ∈ trace,
        event.commits h = true ∨ event.aborts h = true) → s.db.catalog.rows = last) := by
  obtain ⟨last, hs⟩ := hrun.serializes hfresh hcatalog hids hmanaged
  refine ⟨last, hs.replay, fun hended => ?_⟩
  funext name rid
  refine (hs.settled.untouched name rid fun h hlt write hmem => ?_).symm
  rw [(hrun.over hmanaged (hended h hlt)).writes] at hmem
  cases hmem

/-- Two transactions take turns: the second looks in vain for a row, and then commits before the first,
which has written one elsewhere. -/
theorem committed_replay_taking_turns :
    let calls : List Call := [.begin, .begin, .run 0 (.insert "t" [5]), .run 1 (.read "t" ⟨0, 1⟩),
      .run 0 (.update "t" ⟨0, 0⟩ [6]), .run 1 (.insert "t" [7]), .commit 1, .commit 0]
    let s := Session.oneTable.play calls
    ∃ last, Replays Session.oneTable.db.catalog.shapes Session.oneTable.db.catalog.rows
        (Ledger.ofTrace (Session.oneTable.trace calls)).committed.flatten last ∧
      s.db.catalog.rows = last := by
  intro calls s
  have hmanaged : Managed (Session.oneTable.trace calls) := by
    unfold Managed
    decide +kernel
  have hrun : Run Session.oneTable (Session.oneTable.trace calls) s := .of_calls _ calls
  have hended : ∀ h < s.db.transactions.size, ∃ event ∈ Session.oneTable.trace calls,
      event.commits h = true ∨ event.aborts h = true := by decide +kernel
  obtain ⟨last, hreplays, hlast⟩ := committed_replay hrun Session.oneTable_isFresh
    Session.oneTable_sound (by decide +kernel) hmanaged
  exact ⟨last, hreplays, hlast hended⟩

end NoWait
