import NoWait.Proofs.LogRoom
import NoWait.Proofs.Sides

/-!
# The register of transactions

A transaction is entered in the register under its number when it has begun, and is struck off when it has
committed or has been rolled back.  An end that gets lost in the log leaves it there.

* `Effect.ended` says what a commit or an abort leaves that succeeds;
* `RegisterChange` lists what a call can do to the register, `Session.step_register` says that there is nothing
  else;
* `Registered` says what the register has to do with the calls so far, `Run.registered` that it has.
-/

namespace NoWait

open Database

variable {start s : Session} {call : Call} {answer : Except StatementError Answer} {db db' : Database}
  {trace : List Event} {h : Handle} {id : TxnId}

/-! ### Ends that succeed -/

namespace Event

/-- Whether the call begins the transaction of a handle. -/
def begins (event : Event) (h : Handle) : Bool :=
  event.call = .begin && event.answer = .ok (.handle h)

/-- Whether the call ends the transaction of a handle, by a commit or by an abort that succeeds. -/
def finishes (event : Event) (h : Handle) : Bool := event.commits h || event.aborts h

theorem begins_iff {event : Event} :
    event.begins h = true ↔ event.call = .begin ∧ event.answer = .ok (.handle h) := by
  simp [begins]

theorem finishes_iff {event : Event} : event.finishes h = true ↔
    (event.call = .commit h ∨ event.call = .abort h) ∧ event.answer.isOk = true := by
  simp only [finishes, commits, aborts, Bool.or_eq_true, Bool.and_eq_true, decide_eq_true_eq]
  exact or_and_right.symm

end Event

/-- A transaction that has taken its writes back and let go has let go of what it had, in the tables as they are
then. -/
theorem Database.LeftBehind.of_rolledBack {catalog : Catalog} (hlt : h < db.transactions.size)
    (hleft : LeftBehind h (db.rolledBack h [] catalog) db') : LeftBehind h { db with catalog } db' := by
  have hk := keeps_rolledBack h db [] catalog
  have hself := txn_rolledBack hlt [] catalog
  refine ⟨hlt, hleft.size.trans hk.size, fun h' hne => (hleft.txn h' hne).trans (hk.txn h' hne),
    hleft.id.trans hk.id, hleft.writes, hleft.lockSet, ?_, ?_, hleft.catalog⟩
  · rw [hleft.locks, hself]
    rfl
  · rw [hleft.gaps, hself]
    rfl

/-- A commit or an abort that succeeds lets go of everything, and its transaction cannot go on. -/
theorem Effect.ended (heffect : Effect s call answer db') (hcall : call = .commit h ∨ call = .abort h)
    (hok : answer.isOk = true) :
    ∃ catalog, LeftBehind h { s.db with catalog } db' ∧ db'.isActive h = false := by
  rcases hcall with rfl | rfl
  · cases heffect with
    | arrived _ hcall => rcases hcall with hcall | ⟨_, hcall⟩ <;> cases hcall
    | untouched _ hends _ => exact absurd rfl (hends h).1
    | quiet _ hends _ => exact absurd rfl (hends h).1
    | commitRefused _ => cases hok
    | committed _ hleft hstate => exact ⟨s.db.catalog, hleft, by rw [isActive, hstate]; rfl⟩
    | commitLost _ _ => cases hok
  · cases heffect with
    | arrived _ hcall => rcases hcall with hcall | ⟨_, hcall⟩ <;> cases hcall
    | untouched _ hends _ => exact absurd rfl (hends h).2
    | quiet _ hends _ => exact absurd rfl (hends h).2
    | abortRefused _ => cases hok
    | abortStuck _ _ => cases hok
    | @aborted _ catalog _ _ hlt _ hleft hended =>
      rcases hended with ⟨-, hstate⟩ | hlost
      · exact ⟨catalog, hleft.of_rolledBack hlt, by rw [isActive, hstate]; rfl⟩
      · cases answer with
        | ok _ => cases hlost
        | error _ => cases hok

/-! ### What a call does to the register -/

namespace Database

/-- A transaction that begins is entered under its number, unless the log refuses the record of that. -/
theorem begin_register (db : Database) :
    begin.Ends db (fun h db' => h = db.nextHandle ∧ db'.active = db.active.insert (db'.txn h).id h)
      fun _ db' => db'.active = db.active := by
  simp only [begin, Action.ends_bind, Action.ends_get]
  generalize db.log.append db.nextTxn 0 .begin (.control db.clock) = appended
  obtain ⟨result, log⟩ := appended
  simp only [Action.ends_set, Action.ends_mapError]
  cases result with
  | error error => rfl
  | ok lsn =>
    simp only [Action.ends_ofExcept_ok, Action.ends_modify, Action.ends_pure]
    refine ⟨rfl, ?_⟩
    have hself : (addTxn { db with
        log, nextTxn := db.nextTxn + 1, active := db.active.insert db.nextTxn db.nextHandle }
        (({ id := db.nextTxn } : Transaction).recordLsn lsn)).txn db.nextHandle =
        ({ id := db.nextTxn } : Transaction).recordLsn lsn := txn_addTxn_self _ _
    exact (congrArg (fun t => db.active.insert t.id db.nextHandle) hself).symm

/-- The end of a transaction strikes it off, unless the log refuses the record of that. -/
theorem finish_register (h : Handle) (kind : RecordKind) (state : TransactionState) (db : Database) :
    (finish h kind state).Ends db (fun _ db' => db'.active = db.active.erase (db.txn h).id)
      fun _ db' => db'.active = db.active := by
  simp only [finish, Action.ends_bind, Action.ends_get, Action.ends_mapError]
  apply ((logRecord_ends h kind _ db).and (logRecord_frame (R := SameRegister) h kind _ db)).mono
  · rintro _ mid ⟨hlogged, hsame⟩
    rw [Action.ends_modify]
    show mid.active.erase (mid.txn h).id = _
    rw [show mid.active = db.active from hsame, hlogged.id]
  · rintro _ mid ⟨-, hsame⟩
    exact hsame

theorem commit_register (h : Handle) (db : Database) :
    (commit h).Ends db (fun _ db' => db'.active = db.active.erase (db.txn h).id)
      fun _ db' => db'.active = db.active := by
  refine commit_ends_of (fun _ => rfl) fun hactive => ?_
  have hid := (letGo_spec (lt_of_isActive hactive)).id
  exact (finish_register h .commit .committed (db.letGo h)).mono
    (fun _ _ herased => by rw [herased, hid]; rfl) fun _ _ hsame => hsame

theorem abort_register (h : Handle) (db : Database) :
    (abort h).Ends db (fun _ db' => db'.active = db.active.erase (db.txn h).id)
      fun _ db' => db'.active = db.active := by
  refine abort_ends_of (fun _ => rfl) (fun _ _ _ _ _ => rfl) fun catalog hlt _ => ?_
  have hk := keeps_rolledBack h db [] catalog
  have hlt' : h < (db.rolledBack h [] catalog).transactions.size := hk.size ▸ hlt
  have hid := (letGo_spec hlt').id
  exact (finish_register h .abort .aborted ((db.rolledBack h [] catalog).letGo h)).mono
    (fun _ _ herased => by rw [herased, hid, hk.id]; rfl) fun _ _ hsame => hsame

end Database

/-- What a call does to the register. -/
inductive RegisterChange (s : Session) (call : Call) (db' : Database) : Prop where
  | entered : (⟨s, call⟩ : Event).begins s.db.nextHandle = true → Arrived s.db db' →
    db'.active = s.db.active.insert (db'.txn s.db.nextHandle).id s.db.nextHandle →
    RegisterChange s call db'
  | struck (h : Handle) : (⟨s, call⟩ : Event).finishes h = true → h < s.db.transactions.size →
    db'.active = s.db.active.erase (s.db.txn h).id → RegisterChange s call db'
  | same : (∀ h, (⟨s, call⟩ : Event).begins h = false ∧ (⟨s, call⟩ : Event).finishes h = false) →
    db'.active = s.db.active → RegisterChange s call db'

theorem Event.begins_eq_false (hcall : call ≠ .begin) : (⟨s, call⟩ : Event).begins h = false := by
  simp [Event.begins, hcall]

theorem Event.finishes_eq_false (hcommit : call ≠ .commit h) (habort : call ≠ .abort h) :
    (⟨s, call⟩ : Event).finishes h = false := by
  simp [Event.finishes, Event.commits, Event.aborts, hcommit, habort]

namespace Session

/-- The calls that neither begin a transaction nor end one leave the register alone. -/
theorem step_sameRegister (hbegin : call ≠ .begin) (hcommit : ∀ h, call ≠ .commit h)
    (habort : ∀ h, call ≠ .abort h) : (s.step call).2.db.active = s.db.active := by
  cases call with
  | begin => exact absurd rfl hbegin
  | commit h => exact absurd rfl (hcommit h)
  | abort h => exact absurd rfl (habort h)
  | lockGap h table start stop =>
    exact act_within (R := SameRegister) (((lockGap_frame h _ _ _).mapError _).bind fun _ =>
      Action.within_pure _)
  | lockRange h name range =>
    exact act_within (R := SameRegister) ((lockRange_frame h _ _).bind fun _ => Action.within_pure _)
  | initScan i => exact s.initScan_frame (R := SameRegister) i
  | releaseGaps h => exact giveUp_frame (R := SameRegister) h rfl
  | adopt | run | checkGap | openScan | nextScan | release | releaseAll =>
    exact step_frame (R := SameRegister) rfl

/-- An end of a transaction strikes it off if it succeeds. -/
theorem step_end_register (s : Session) (hcall : call = .commit h ∨ call = .abort h) :
    (s.step call).2.db.active =
      if (s.step call).1.isOk then s.db.active.erase (s.db.txn h).id else s.db.active :=
  step_end_spec (P := fun answer db' => db'.active =
      if answer.isOk then s.db.active.erase (s.db.txn h).id else s.db.active)
    hcall (fun _ => commit_register h s.db) fun _ => abort_register h s.db

/-- A call does one of these things to the register. -/
theorem step_register (s : Session) (call : Call) : RegisterChange s call (s.step call).2.db := by
  by_cases hend : ∃ h, call = .commit h ∨ call = .abort h
  · obtain ⟨h, hcall⟩ := hend
    have hregister := s.step_end_register hcall
    by_cases hok : (s.step call).1.isOk = true
    · obtain ⟨catalog, hleft, -⟩ := (s.step_effect call).ended hcall hok
      rw [if_pos hok] at hregister
      exact .struck h (Event.finishes_iff.mpr ⟨hcall, hok⟩) hleft.lt hregister
    · rw [if_neg hok] at hregister
      refine .same (fun h' => ⟨Event.begins_eq_false ?_, ?_⟩) hregister
      · rcases hcall with rfl | rfl <;> simp
      · rw [Bool.eq_false_iff]
        exact fun hfinishes => hok (Event.finishes_iff.mp hfinishes).2
  · have hneither : ∀ h, call ≠ .commit h ∧ call ≠ .abort h := fun h => not_or.mp fun hcall => hend ⟨h, hcall⟩
    have hfinishes : ∀ h, (⟨s, call⟩ : Event).finishes h = false := fun h =>
      Event.finishes_eq_false (hneither h).1 (hneither h).2
    by_cases hbegin : call = .begin
    · subst hbegin
      refine act_spec (P := fun answer db' => (s.step .begin).1 = answer →
        RegisterChange s .begin db') ?_ rfl
      rw [Action.ends_bind, Action.ends_mapError]
      apply ((begin_ends s.db).and (begin_register s.db)).mono
      · rintro h db' ⟨⟨rfl, harrived⟩, -, hentered⟩ hanswer
        exact .entered (Event.begins_iff.mpr ⟨rfl, hanswer⟩) harrived hentered
      · rintro _ db' ⟨-, hsame⟩ hanswer
        refine .same (fun h => ⟨?_, hfinishes h⟩) hsame
        rw [Bool.eq_false_iff]
        intro hbegins
        have hsome := (Event.begins_iff.mp hbegins).2
        rw [Event.answer, hanswer] at hsome
        cases hsome
    · exact .same (fun h => ⟨Event.begins_eq_false hbegin, hfinishes h⟩)
        (step_sameRegister hbegin (fun h => (hneither h).1) fun h => (hneither h).2)

end Session

/-! ### What the register has to do with the calls so far -/

/-- Whether a transaction has begun in a run and has not ended, by a commit or an abort that succeeds. -/
def IsRunning (trace : List Event) (h : Handle) : Prop :=
  (∃ event ∈ trace, event.begins h = true) ∧ ∀ event ∈ trace, event.finishes h = false

/-- Whether the register has exactly the transactions that are running, under their numbers. -/
def Registered (trace : List Event) (db : Database) : Prop :=
  ∀ id h, db.activeHandle? id = some h ↔ IsRunning trace h ∧ (db.txn h).id = id

theorem isRunning_snoc {event : Event} : IsRunning (trace ++ [event]) h ↔
    (IsRunning trace h ∨ event.begins h = true ∧ ∀ event ∈ trace, event.finishes h = false) ∧
      event.finishes h = false := by
  simp only [IsRunning, List.mem_append, List.mem_singleton, or_and_right, exists_or, exists_eq_left,
    or_imp, forall_and, forall_eq, and_assoc]

/-- A transaction that has begun or ended in a run is there. -/
theorem Run.lt_of_begins (hrun : Run start trace s)
    (hcalls : ∃ event ∈ trace, event.begins h = true ∨ event.finishes h = true) :
    h < s.db.transactions.size := by
  obtain ⟨event, hmem, hcall⟩ := hcalls
  obtain ⟨before, rest, -, -, hrest⟩ := hrun.split hmem
  refine Nat.lt_of_lt_of_le ?_ hrest.keepsIds.size
  rcases hcall with hbegins | hfinishes
  · obtain ⟨hcall, hanswer⟩ := Event.begins_iff.mp hbegins
    rw [Event.answer, hcall] at hanswer
    have hsize := (event.before.hasRoom_of_begin hanswer).2
    rw [Event.after, hcall, hsize]
    exact Nat.lt_succ_self h
  · obtain ⟨hcall, hok⟩ := Event.finishes_iff.mp hfinishes
    have heffect := event.before.step_effect event.call
    obtain ⟨catalog, hleft, -⟩ := heffect.ended hcall hok
    exact Nat.lt_of_lt_of_le hleft.lt heffect.keepsIds.size

/-- A transaction that is running is there. -/
theorem Run.lt_of_isRunning (hrun : Run start trace s) (hrunning : IsRunning trace h) :
    h < s.db.transactions.size := by
  obtain ⟨event, hmem, hbegins⟩ := hrunning.1
  exact hrun.lt_of_begins ⟨event, hmem, .inl hbegins⟩

/-- A call that begins a transaction adds it to those that are running. -/
theorem Run.isRunning_of_begins (hrun : Run start trace s)
    (hbegins : (⟨s, call⟩ : Event).begins s.db.nextHandle = true) :
    IsRunning (trace ++ [⟨s, call⟩]) h ↔ h = s.db.nextHandle ∨ IsRunning trace h := by
  obtain ⟨hcall, hanswer⟩ := Event.begins_iff.mp hbegins
  obtain rfl : call = .begin := hcall
  have hnew : (⟨s, .begin⟩ : Event).begins h = true ↔ h = s.db.nextHandle := by
    rw [Event.begins_iff, hanswer]
    simp [eq_comm]
  rw [isRunning_snoc, hnew, Event.finishes_eq_false (by simp) (by simp), and_iff_left rfl, or_comm]
  refine or_congr_left (and_iff_left_of_imp ?_)
  rintro rfl event hmem
  rw [Bool.eq_false_iff]
  intro hended
  exact Nat.lt_irrefl _ (hrun.lt_of_begins ⟨event, hmem, .inr hended⟩)

/-- A call that ends a transaction takes it from those that are running. -/
theorem isRunning_of_finishes {h₀ : Handle} (hfinishes : (⟨s, call⟩ : Event).finishes h₀ = true) :
    IsRunning (trace ++ [⟨s, call⟩]) h ↔ IsRunning trace h ∧ h ≠ h₀ := by
  obtain ⟨hcall, hok⟩ := Event.finishes_iff.mp hfinishes
  have hbegins : (⟨s, call⟩ : Event).begins h = false := by
    refine Event.begins_eq_false ?_
    rcases hcall with hcall | hcall <;> simp [show call = _ from hcall]
  have hends : (⟨s, call⟩ : Event).finishes h = false ↔ h ≠ h₀ := by
    rw [Bool.eq_false_iff, Ne, Event.finishes_iff, and_iff_left hok, not_iff_not]
    rcases hcall with hcall | hcall <;> simp [show call = _ from hcall, eq_comm]
  rw [isRunning_snoc, hbegins, hends]
  simp

/-- The register is right after a call if it was before, as long as no two transactions have one number. -/
theorem Registered.step (hregistered : Registered trace s.db) (hrun : Run start trace s)
    (hids : (s.step call).2.db.DistinctIds) : Registered (trace ++ [⟨s, call⟩]) (s.step call).2.db := by
  have hkeeps := (s.step_effect call).keepsIds
  have hids₀ := hkeeps.distinctIds hids
  intro id h
  have hold : s.db.active[id]? = some h ↔ IsRunning trace h ∧ (s.db.txn h).id = id := hregistered id h
  -- A transaction that was running has kept its number.
  have hkept : IsRunning trace h → ((s.step call).2.db.txn h).id = (s.db.txn h).id :=
    fun hrunning => hkeeps.id h (hrun.lt_of_isRunning hrunning)
  have hold' : s.db.active[id]? = some h ↔ IsRunning trace h ∧ ((s.step call).2.db.txn h).id = id := by
    rw [hold]
    exact and_congr_right fun hrunning => by rw [hkept hrunning]
  unfold activeHandle?
  cases s.step_register call with
  | entered hbegins harrived hactive =>
    rw [hactive, Std.ExtTreeMap.getElem?_insert, hrun.isRunning_of_begins hbegins]
    have hlt : s.db.nextHandle < (s.step call).2.db.transactions.size :=
      harrived.size ▸ Nat.lt_succ_self _
    by_cases hsame : ((s.step call).2.db.txn s.db.nextHandle).id = id
    · rw [if_pos (by simpa using hsame), Option.some.injEq]
      constructor
      · rintro rfl
        exact ⟨.inl rfl, hsame⟩
      · rintro ⟨rfl | hrunning, hother⟩
        · rfl
        · have hlt' := Nat.lt_of_lt_of_le (hrun.lt_of_isRunning hrunning) hkeeps.size
          exact hids _ hlt _ hlt' (hsame.trans hother.symm)
    · rw [if_neg (by simpa using hsame), hold', or_and_right, or_iff_right]
      rintro ⟨rfl, hother⟩
      exact hsame hother
  | struck h₀ hfinishes hlt hactive =>
    rw [hactive, Std.ExtTreeMap.getElem?_erase, isRunning_of_finishes hfinishes]
    by_cases hsame : (s.db.txn h₀).id = id
    · rw [if_pos (by simpa using hsame)]
      refine iff_of_false (by simp) ?_
      rintro ⟨⟨hrunning, hne⟩, hother⟩
      rw [hkept hrunning, ← hsame] at hother
      exact hne (hids₀ h (hrun.lt_of_isRunning hrunning) h₀ hlt hother)
    · rw [if_neg (by simpa using hsame), hold', and_right_comm, iff_self_and]
      rintro ⟨hrunning, hother⟩ rfl
      exact hsame ((hkept hrunning).symm.trans hother)
  | same hneither hactive =>
    obtain ⟨hbegins, hfinishes⟩ := hneither h
    rw [hactive, hold', isRunning_snoc, hbegins, hfinishes]
    simp

/-- The register is right throughout a run that begins with an empty one. -/
theorem Run.registered (hrun : Run start trace s) (hregister : start.db.active = {})
    (hids : s.db.DistinctIds) : Registered trace s.db := by
  induction hrun with
  | nil =>
    intro id h
    simp [activeHandle?, hregister, IsRunning]
  | @snoc trace s call hrun ih =>
    exact (ih ((s.step_effect call).keepsIds.distinctIds hids)).step hrun hids

end NoWait
