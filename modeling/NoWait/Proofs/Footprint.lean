import NoWait.Proofs.Locks
import NoWait.Proofs.Revert
import NoWait.Proofs.Serial

/-!
# What a transaction's actions leave alone

Until it ends, whatever a transaction does leaves the other transactions alone, their locks and their
gaps, and only adds to its own locks and gaps.  Most actions leave the rows alone, too; the others change
one row.

* `Action.Ends` says what an action leaves when it succeeds and when it fails, `Action.Succeeds` that it does
  not fail;
* `Keeps` is what all actions leave alone, `Quiet` is `Keeps` with the rows, and `Wrote` is `Keeps` with
  one row changed and the write entered for undo;
* `lockResource_ends`, `acquire_ends`, `lockGap_ends`, `checkGap_ends` and `enterWrite_ends` are the
  actions that statements and scans are made of.
-/

namespace NoWait

/-! ### How an action ends -/

namespace Action

variable {ε ε' α β : Type} {db : Database} {action : Action ε α}
  {ok ok' : α → Database → Prop} {err err' : ε → Database → Prop}

/-- Whether what an action leaves satisfies `ok` if it succeeds, and `err` if it fails. -/
def Ends (action : Action ε α) (db : Database) (ok : α → Database → Prop)
    (err : ε → Database → Prop) : Prop :=
  match action db with
  | .ok value db' => ok value db'
  | .error error db' => err error db'

instance [∀ value db, Decidable (ok value db)] [∀ error db, Decidable (err error db)] :
    Decidable (action.Ends db ok err) :=
  match h : action db with
  | .ok value db' => decidable_of_iff (ok value db') (by rw [Ends, h])
  | .error error db' => decidable_of_iff (err error db') (by rw [Ends, h])

@[simp] theorem ends_pure {value : α} : (pure value : Action ε α).Ends db ok err ↔ ok value db := Iff.rfl

@[simp] theorem ends_throw {error : ε} : (throw error : Action ε α).Ends db ok err ↔ err error db :=
  Iff.rfl

@[simp] theorem ends_get {ok : Database → Database → Prop} :
    (get : Action ε Database).Ends db ok err ↔ ok db db := Iff.rfl

@[simp] theorem ends_set {db' : Database} {ok : PUnit → Database → Prop} :
    (set db' : Action ε PUnit).Ends db ok err ↔ ok ⟨⟩ db' := Iff.rfl

@[simp] theorem ends_modify {change : Database → Database} {ok : PUnit → Database → Prop} :
    (modify change : Action ε PUnit).Ends db ok err ↔ ok ⟨⟩ (change db) := Iff.rfl

@[simp] theorem ends_bind {next : α → Action ε β} {ok : β → Database → Prop} :
    (action >>= next).Ends db ok err ↔
      action.Ends db (fun value mid => (next value).Ends mid ok err) err := by
  unfold Ends
  cases h : action db <;> simp [bind, EStateM.bind, h]

@[simp] theorem ends_mapError {f : ε → ε'} {err : ε' → Database → Prop} :
    (action.mapError f).Ends db ok err ↔ action.Ends db ok fun error => err (f error) := by
  unfold Ends
  cases h : action db <;> simp [mapError, EStateM.adaptExcept, h]

@[simp] theorem ends_onFailure {repair : Database → Database} :
    (action.onFailure repair).Ends db ok err ↔
      action.Ends db ok fun error mid => err error (repair mid) := by
  unfold Ends
  cases h : action db <;> simp [onFailure, h]

@[simp] theorem ends_ofExcept_ok {value : α} :
    (ofExcept (.ok value) : Action ε α).Ends db ok err ↔ ok value db := Iff.rfl

@[simp] theorem ends_ofExcept_error {error : ε} :
    (ofExcept (.error error) : Action ε α).Ends db ok err ↔ err error db := Iff.rfl

/-- What comes first may be left out once it is known how it ends. -/
theorem bind_eq_of_ok {next : α → Action ε β} {value : α} {mid : Database} (h : action db = .ok value mid) :
    (action >>= next) db = next value mid := by
  simp [bind, EStateM.bind, h]

theorem bind_eq_of_error {next : α → Action ε β} {error : ε} {mid : Database}
    (h : action db = .error error mid) : (action >>= next) db = .error error mid := by
  simp [bind, EStateM.bind, h]

theorem get_bind_eq {next : Database → Action ε β} : (get >>= next) db = next db db := rfl

theorem Ends.mono (h : action.Ends db ok err) (hok : ∀ value db', ok value db' → ok' value db')
    (herr : ∀ error db', err error db' → err' error db') : action.Ends db ok' err' := by
  unfold Ends at h ⊢
  cases hrun : action db with
  | ok value db' =>
    rw [hrun] at h
    exact hok value db' h
  | error error db' =>
    rw [hrun] at h
    exact herr error db' h

theorem Ends.and (h : action.Ends db ok err) (h' : action.Ends db ok' err') :
    action.Ends db (fun value db' => ok value db' ∧ ok' value db')
      fun error db' => err error db' ∧ err' error db' := by
  unfold Ends at h h' ⊢
  cases hrun : action db with
  | ok value db' =>
    rw [hrun] at h h'
    exact ⟨h, h'⟩
  | error error db' =>
    rw [hrun] at h h'
    exact ⟨h, h'⟩

/-- Whether an action succeeds, and what it leaves satisfies `ok`. -/
def Succeeds (action : Action ε α) (db : Database) (ok : α → Database → Prop) : Prop :=
  action.Ends db ok fun _ _ => False

instance [∀ value db, Decidable (ok value db)] : Decidable (action.Succeeds db ok) :=
  inferInstanceAs (Decidable (action.Ends db ok fun _ _ => False))

theorem succeeds_iff : action.Succeeds db ok ↔ ∃ value db', action db = .ok value db' ∧ ok value db' := by
  unfold Succeeds Ends
  cases action db <;> simp

/-- An action of which it is said only how it fails does so. -/
theorem ends_false_iff {err : ε → Database → Prop} : action.Ends db (fun _ _ => False) err ↔
    ∃ error db', action db = .error error db' ∧ err error db' := by
  unfold Ends
  cases action db <;> simp

theorem Succeeds.mono (hsucceeds : action.Succeeds db ok) (h : ∀ value db', ok value db' → ok' value db') :
    action.Succeeds db ok' :=
  Ends.mono hsucceeds h fun _ _ hfalse => hfalse

theorem Succeeds.ends {err : ε → Database → Prop} (hsucceeds : action.Succeeds db ok)
    (h : ∀ value db', ok value db' → ok' value db') : action.Ends db ok' err :=
  Ends.mono hsucceeds h fun _ _ hfalse => False.elim hfalse

/-- How an action ends that succeeds is how it succeeds. -/
theorem Succeeds.and {err : ε → Database → Prop} (hsucceeds : action.Succeeds db ok)
    (hends : action.Ends db ok' err) : action.Succeeds db fun value db' => ok value db' ∧ ok' value db' :=
  (Ends.and hsucceeds hends).mono (fun _ _ hboth => hboth) fun _ _ hboth => hboth.1

theorem Succeeds.bind_ends {next : α → Action ε β} {okNext : β → Database → Prop}
    {err : ε → Database → Prop} (hsucceeds : action.Succeeds db ok)
    (hnext : ∀ value mid, ok value mid → (next value).Ends mid okNext err) :
    (action >>= next).Ends db okNext err :=
  ends_bind.mpr (Ends.mono hsucceeds hnext fun _ _ hfalse => False.elim hfalse)

theorem Succeeds.bind {next : α → Action ε β} {okNext : β → Database → Prop}
    (hsucceeds : action.Succeeds db ok) (hnext : ∀ value mid, ok value mid → (next value).Succeeds mid okNext) :
    (action >>= next).Succeeds db okNext :=
  hsucceeds.bind_ends hnext

theorem Succeeds.mapError (hsucceeds : action.Succeeds db ok) (f : ε → ε') :
    (action.mapError f).Succeeds db ok := ends_mapError.mpr hsucceeds

end Action

/-! ### What every action keeps -/

namespace Database

/-- Whether a transaction's lock-set has exactly the resources on which it holds a mode. -/
def LockSetExact (db : Database) (h : Handle) : Prop :=
  ∀ r, (db.txn h).holdsLock r = true ↔ db.locks.heldMode (db.txn h).id r ≠ none

/-- What a transaction keeps, whatever it does before it ends. -/
structure Keeps (h : Handle) (db db' : Database) : Prop where
  size : db'.transactions.size = db.transactions.size
  txn : ∀ h', h ≠ h' → db'.txn h' = db.txn h'
  id : (db'.txn h).id = (db.txn h).id
  idle : ¬ h < db.transactions.size → db'.locks = db.locks
  modes : ∀ other r, (db.txn h).id ≠ other → db'.locks.heldMode other r = db.locks.heldMode other r
  mode : ∀ r held, db.locks.heldMode (db.txn h).id r = some held →
    ∃ held', db'.locks.heldMode (db.txn h).id r = some held' ∧ held'.covers held = true
  locks : db.locks.Sound → db'.locks.Sound
  intended : db.locks.Intended → db'.locks.Intended
  lockSet : h < db.transactions.size → db.LockSetExact h → db'.LockSetExact h
  gaps : ∀ entry ∈ db.gaps.entries, entry ∈ db'.gaps.entries
  otherGaps : ∀ entry ∈ db'.gaps.entries, entry.2.txn ≠ (db.txn h).id → entry ∈ db.gaps.entries

namespace Keeps

variable {h : Handle} {db mid db' : Database}

theorem ids (hk : Keeps h db db') (h' : Handle) : (db'.txn h').id = (db.txn h').id := by
  by_cases hh : h = h'
  · rw [← hh, hk.id]
  · rw [hk.txn h' hh]

theorem trans (hk : Keeps h db mid) (hk' : Keeps h mid db') : Keeps h db db' where
  size := hk'.size.trans hk.size
  txn := fun h' hne => (hk'.txn h' hne).trans (hk.txn h' hne)
  id := hk'.id.trans hk.id
  idle := fun hlt => (hk'.idle (hk.size ▸ hlt)).trans (hk.idle hlt)
  modes := fun other r hne => (hk'.modes other r (hk.id ▸ hne)).trans (hk.modes other r hne)
  mode := by
    intro r held hheld
    obtain ⟨held₁, hheld₁, hcovers₁⟩ := hk.mode r held hheld
    obtain ⟨held₂, hheld₂, hcovers₂⟩ := hk'.mode r held₁ (hk.id ▸ hheld₁)
    exact ⟨held₂, hk.id ▸ hheld₂, Mode.covers_trans hcovers₂ hcovers₁⟩
  locks := fun hs => hk'.locks (hk.locks hs)
  intended := fun hi => hk'.intended (hk.intended hi)
  lockSet := fun hlt hexact => hk'.lockSet (hk.size ▸ hlt) (hk.lockSet hlt hexact)
  gaps := fun entry hmem => hk'.gaps entry (hk.gaps entry hmem)
  otherGaps := fun entry hmem hne => hk.otherGaps entry (hk'.otherGaps entry hmem (hk.id ▸ hne)) hne

/-- Changes to the log, the catalog, the register and the like keep everything. -/
theorem of_eq (h : Handle) (htxns : db'.transactions = db.transactions) (hlocks : db'.locks = db.locks)
    (hgaps : db'.gaps = db.gaps) : Keeps h db db' := by
  have htxn : ∀ h', db'.txn h' = db.txn h' := fun h' => by rw [Database.txn, Database.txn, htxns]
  exact
    { size := by rw [htxns]
      txn := fun h' _ => htxn h'
      id := by rw [htxn]
      idle := fun _ => hlocks
      modes := fun _ _ _ => by rw [hlocks]
      mode := fun r held hheld => ⟨held, by rw [hlocks, hheld], Mode.covers_self held⟩
      locks := fun hs => hlocks ▸ hs
      intended := fun hi => hlocks ▸ hi
      lockSet := fun _ hexact r => by rw [htxn, hlocks]; exact hexact r
      gaps := fun entry hmem => hgaps ▸ hmem
      otherGaps := fun entry hmem _ => hgaps ▸ hmem }

theorem refl (h : Handle) (db : Database) : Keeps h db db := of_eq h rfl rfl rfl

/-- A transaction may change anything of its own but its number and its lock-set. -/
theorem updateTxn (h : Handle) (db : Database) {change : Transaction → Transaction}
    (hid : ∀ t, (change t).id = t.id) (hlocks : ∀ t, (change t).locks = t.locks) :
    Keeps h db (db.updateTxn h change) := by
  have hself : ((db.updateTxn h change).txn h).id = (db.txn h).id ∧
      ((db.updateTxn h change).txn h).locks = (db.txn h).locks := by
    by_cases hlt : h < db.transactions.size
    · rw [txn_updateTxn_self db change hlt]
      exact ⟨hid _, hlocks _⟩
    · simp [Database.txn, Database.updateTxn, hlt]
  exact
    { size := by simp [Database.updateTxn]
      txn := fun h' hne => txn_updateTxn_of_ne db change hne
      id := hself.1
      idle := fun _ => rfl
      modes := fun _ _ _ => rfl
      mode := fun r held hheld => ⟨held, hheld, Mode.covers_self held⟩
      locks := fun hs => hs
      intended := fun hi => hi
      lockSet := by
        intro _ hexact r
        rw [hself.1, Transaction.holdsLock, hself.2]
        exact hexact r
      gaps := fun entry hmem => hmem
      otherGaps := fun entry hmem _ => hmem }

/-- The database in which a transaction has been granted a mode on a resource, which it has announced on
the table if the resource is a record. -/
theorem grant (hlt : h < db.transactions.size) {resource : Resource} {mode : Mode} {locks : LockTable}
    (hannounced : ∀ table rid, resource = .record table rid →
      db.locks.Announced (db.txn h).id table mode)
    (hrequest : db.locks.request (db.txn h).id resource mode = .ok locks) :
    Keeps h db (if (db.locks.heldMode (db.txn h).id resource).isNone then
      ({ db with locks } : Database).updateTxn h (·.addLock resource) else { db with locks }) := by
  have hheld : ∀ other r, locks.heldMode other r =
      if (db.txn h).id = other ∧ resource = r then
        some (db.locks.strengthened (db.txn h).id resource mode)
      else db.locks.heldMode other r := fun _ _ => LockTable.heldMode_request hrequest
  -- What the transaction's lock-set is called after the grant is settled last; the rest is the same
  -- whether or not the resource is new to it.
  have hgrant : ∀ db' : Database, db'.locks = locks → db'.gaps = db.gaps →
      db'.transactions.size = db.transactions.size → (∀ h', h ≠ h' → db'.txn h' = db.txn h') →
      (db'.txn h).id = (db.txn h).id →
      (db.LockSetExact h → ∀ r, (db'.txn h).holdsLock r = true ↔
        resource = r ∨ (db.txn h).holdsLock r = true) → Keeps h db db' := by
    intro db' hlocks hgaps hsize htxn hid hset
    refine ⟨hsize, htxn, hid, fun hge => absurd hlt hge, ?_, ?_, ?_, ?_, ?_, ?_, ?_⟩
    · intro other r hne
      rw [hlocks, hheld, if_neg (fun heq => hne heq.1)]
    · intro r held hr
      rw [hlocks, hheld]
      split
      · rename_i heq
        exact ⟨_, rfl, LockTable.covers_strengthened_of_heldMode (heq.2 ▸ hr)⟩
      · exact ⟨held, hr, Mode.covers_self held⟩
    · intro hs
      rw [hlocks]
      exact hs.request hrequest
    · intro hi
      rw [hlocks]
      exact hi.request hrequest hannounced
    · intro _ hexact r
      rw [hset hexact r, hid, hlocks, hheld]
      by_cases hr : resource = r
      · simp [hr]
      · simpa [hr] using hexact r
    · intro entry hmem
      rwa [hgaps]
    · intro entry hmem _
      rwa [hgaps] at hmem
  split
  · refine hgrant _ rfl rfl (by simp [Database.updateTxn])
      (fun h' hne => txn_updateTxn_of_ne _ _ hne) ?_ ?_
    · rw [txn_updateTxn_self ({ db with locks } : Database) _ hlt]
      rfl
    · intro _ r
      rw [txn_updateTxn_self ({ db with locks } : Database) _ hlt]
      show ((db.txn h).locks.insert resource).contains r = true ↔ _
      rw [Std.ExtTreeSet.contains_insert]
      simp [Transaction.holdsLock]
  · rename_i hsome
    refine hgrant _ rfl rfl rfl (fun _ _ => rfl) rfl ?_
    intro hexact r
    show (db.txn h).holdsLock r = true ↔ _
    constructor
    · exact .inr
    · rintro (rfl | hr)
      · rw [hexact]
        simpa using hsome
      · exact hr

/-- An exclusive lock stays one. -/
theorem exclusive (hk : Keeps h db db') {r : Resource}
    (hheld : db.locks.heldMode (db.txn h).id r = some .exclusive) :
    db'.locks.heldMode (db.txn h).id r = some .exclusive := by
  obtain ⟨held, hheld', hcovers⟩ := hk.mode r .exclusive hheld
  rw [hheld', Mode.eq_exclusive_of_covers hcovers]

end Keeps

/-! ### Quiet steps, and steps that write -/

/-- Whether one catalog is as sound as another and has the same rows in tables of the same shapes. -/
structure SameRows (catalog catalog' : Catalog) : Prop where
  sound : catalog'.Sound
  shapes : catalog'.shapes = catalog.shapes
  rows : catalog'.rows = catalog.rows

/-- What a transaction does without writing anything. -/
structure Quiet (h : Handle) (db db' : Database) : Prop extends Keeps h db db' where
  writes : (db'.txn h).writes = (db.txn h).writes
  state : (db'.txn h).state = (db.txn h).state ∨ (db'.txn h).state = .aborted
  rows : db.catalog.Sound → SameRows db.catalog db'.catalog

/-- What a write does to the rows: it changes the one at its position, which the transaction has locked
exclusively; its image is the row from before, and the key of a new row is in no other transaction's
gap, unless the old row had it, too. -/
structure Change (h : Handle) (write : WriteRecord) (row : Option Bytes) (db db' : Database) : Prop where
  sound : db'.catalog.Sound
  shapes : db'.catalog.shapes = db.catalog.shapes
  rows : db'.catalog.rows = db.catalog.rows.set write.table write.rid row
  image : write.image = db.catalog.rows write.table write.rid
  kind : write.kind = .insert ↔ write.image = none
  lock : ∃ shape, db.catalog.shapes write.table = some shape ∧
    db'.locks.heldMode (db.txn h).id (.record shape.id write.rid) = some .exclusive ∧
    ∀ key, row.bind shape.keyOf? = some key → write.image.bind shape.keyOf? ≠ some key →
      db.gaps.blocks (db.txn h).id shape.id (.before key) = false

/-- What an active transaction does when it writes a row. -/
structure Wrote (h : Handle) (write : WriteRecord) (row : Option Bytes) (db db' : Database) : Prop
    extends Keeps h db db' where
  active : db.isActive h = true
  writes : (db'.txn h).writes = write :: (db.txn h).writes
  state : (db'.txn h).state = (db.txn h).state
  change : db.catalog.Sound → Change h write row db db'

variable {h : Handle} {db mid db' : Database}

theorem SameRows.refl {catalog : Catalog} (hs : catalog.Sound) : SameRows catalog catalog :=
  ⟨hs, rfl, rfl⟩

theorem SameRows.trans {a b c : Catalog} (hab : SameRows a b) (hbc : SameRows b c) : SameRows a c :=
  ⟨hbc.sound, hbc.shapes.trans hab.shapes, hbc.rows.trans hab.rows⟩

/-- A transaction that has written something has a write more to take back. -/
theorem Wrote.writes_ne {write : WriteRecord} {row : Option Bytes} (hw : Wrote h write row db db') :
    (db'.txn h).writes ≠ (db.txn h).writes := by
  rw [hw.writes]
  exact List.cons_ne_self _ _

/-- Taking a write back right away gives the rows from before it. -/
theorem Change.revert {write : WriteRecord} {row : Option Bytes} (hc : Change h write row db db') :
    write.revert db'.catalog.rows = db.catalog.rows := by
  rw [WriteRecord.revert, hc.rows, Rows.set_set, Rows.set_eq_self hc.image.symm]

/-- There is a row where a write is entered that is no insertion. -/
theorem Change.image_ne_none {write : WriteRecord} {row : Option Bytes} (hc : Change h write row db db')
    (hkind : write.kind ≠ .insert) : write.image ≠ none :=
  fun hnone => hkind (hc.kind.mpr hnone)

namespace Quiet

theorem trans (hq : Quiet h db mid) (hq' : Quiet h mid db') : Quiet h db db' where
  toKeeps := hq.toKeeps.trans hq'.toKeeps
  writes := hq'.writes.trans hq.writes
  state := by
    rcases hq'.state with heq | heq
    · rw [heq]
      exact hq.state
    · exact .inr heq
  rows := fun hs => (hq.rows hs).trans (hq'.rows (hq.rows hs).sound)

theorem refl (h : Handle) (db : Database) : Quiet h db db where
  toKeeps := .refl h db
  writes := rfl
  state := .inl rfl
  rows := .refl

/-- A step that leaves the catalog, the writes and the state of the transaction as they are. -/
theorem of_keeps (hk : Keeps h db db') (hwrites : (db'.txn h).writes = (db.txn h).writes)
    (hstate : (db'.txn h).state = (db.txn h).state) (hcatalog : db'.catalog = db.catalog) :
    Quiet h db db' where
  toKeeps := hk
  writes := hwrites
  state := .inl hstate
  rows := by
    intro hs
    rw [hcatalog]
    exact .refl hs

/-- Marking a transaction aborted is quiet. -/
theorem setState_aborted (h : Handle) (db : Database) : Quiet h db (db.setState h .aborted) := by
  refine ⟨.updateTxn h db (fun _ => rfl) (fun _ => rfl), ?_, ?_, .refl⟩
  · by_cases hlt : h < db.transactions.size
    · rw [setState, txn_updateTxn_self db _ hlt]
    · simp [Database.txn, setState, Database.updateTxn, hlt]
  · by_cases hlt : h < db.transactions.size
    · rw [setState, txn_updateTxn_self db _ hlt]
      exact .inr rfl
    · simp [Database.txn, setState, Database.updateTxn, hlt]

end Quiet

/-- An active transaction has a handle that was given out. -/
theorem lt_of_isActive (hactive : db.isActive h = true) : h < db.transactions.size := by
  by_contra hge
  simp [isActive, Database.txn, hge, TransactionState.isFinished] at hactive

theorem isActive_setState_aborted (h : Handle) (db : Database) :
    (db.setState h .aborted).isActive h = false := by
  by_cases hlt : h < db.transactions.size
  · simp [isActive, setState, txn_updateTxn_self db _ hlt, TransactionState.isFinished]
  · simp [isActive, Database.txn, setState, Database.updateTxn, hlt, TransactionState.isFinished]

/-! ### Locks and gaps -/

/-- What is left of a lock or gap request that was granted: only locks and gaps have changed, and the
transaction is as active as it was. -/
structure Granted (h : Handle) (db db' : Database) : Prop extends Quiet h db db' where
  catalog : db'.catalog = db.catalog
  active : db'.isActive h = true

theorem Granted.trans (hg : Granted h db mid) (hg' : Granted h mid db') : Granted h db db' where
  toQuiet := hg.toQuiet.trans hg'.toQuiet
  catalog := hg'.catalog.trans hg.catalog
  active := hg'.active

theorem Granted.refl (hactive : db.isActive h = true) : Granted h db db := ⟨.refl h db, rfl, hactive⟩

theorem Granted.state_eq (hg : Granted h db db') : (db'.txn h).state = (db.txn h).state := by
  rcases hg.state with heq | haborted
  · exact heq
  · have hactive := hg.active
    simp [isActive, haborted, TransactionState.isFinished] at hactive

theorem Granted.active_before (hg : Granted h db db') : db.isActive h = true := by
  rw [isActive, ← hg.state_eq]
  exact hg.active

/-- What is left when a transaction can go on no further. -/
structure Stopped (h : Handle) (db db' : Database) : Prop extends Quiet h db db' where
  inactive : db'.isActive h = false

theorem Quiet.stopped (hq : Quiet h db mid) (hstop : Stopped h mid db') : Stopped h db db' :=
  ⟨hq.trans hstop.toQuiet, hstop.inactive⟩

theorem ensureActive_ends (h : Handle) (db : Database) :
    (ensureActive h).Ends db (fun _ db' => db' = db ∧ db.isActive h = true)
      fun error db' => db' = db ∧ Stopped h db db' ∧ error = .finished (db.txn h).id := by
  simp only [ensureActive, Action.ends_bind, Action.ends_get]
  split
  · rename_i hfinished
    have hinactive : db.isActive h = false := by simpa [isActive] using hfinished
    exact ⟨rfl, ⟨.refl h db, hinactive⟩, rfl⟩
  · rename_i hgoing
    exact ⟨rfl, by simpa [isActive] using hgoing⟩

theorem ensureActive_succeeds (hactive : db.isActive h = true) :
    (ensureActive h).Succeeds db fun _ db' => db' = db := by
  refine (ensureActive_ends h db).mono (fun _ _ hended => hended.1) ?_
  rintro _ _ ⟨rfl, hstop, -⟩
  exact absurd (hactive.symm.trans hstop.inactive) (by decide)

theorem ensureActive_eq (hactive : db.isActive h = true) : ensureActive h db = .ok () db := by
  obtain ⟨_, _, hrun, rfl⟩ := Action.succeeds_iff.mp (ensureActive_succeeds hactive)
  exact hrun

theorem refuse_ends {α : Type} (h : Handle) (reason : AbortReason) (db : Database)
    {ok : α → Database → Prop} :
    (refuse h reason).Ends db ok fun error db' =>
      Stopped h db db' ∧ error = .aborted (db.txn h).id reason :=
  ⟨⟨.setState_aborted h db, isActive_setState_aborted h db⟩, rfl⟩

/-- A transaction that gets a mode on a resource holds at least that mode there. -/
theorem lockResource_ends (hactive : db.isActive h = true) (resource : Resource) (mode : Mode)
    (hannounced : ∀ table rid, resource = .record table rid →
      db.locks.Announced (db.txn h).id table mode) :
    (lockResource h resource mode).Ends db
      (fun _ db' => Granted h db db' ∧ ∃ held,
        db'.locks.heldMode (db.txn h).id resource = some held ∧ held.covers mode = true)
      fun error db' => Stopped h db db' ∧ ∃ reason, error = .aborted (db.txn h).id reason := by
  have hlt := lt_of_isActive hactive
  simp only [lockResource, Action.ends_bind, Action.ends_get]
  cases hrequest : db.locks.request (db.txn h).id resource mode with
  | error reason =>
    refine (refuse_ends h reason db).mono (fun _ _ hfalse => hfalse) fun error db' hstop => ?_
    exact ⟨hstop.1, reason, hstop.2⟩
  | ok locks =>
    have hkeeps := Keeps.grant hlt hannounced hrequest
    have hheld : locks.heldMode (db.txn h).id resource =
        some (db.locks.strengthened (db.txn h).id resource mode) := by
      rw [LockTable.heldMode_request hrequest, if_pos ⟨rfl, rfl⟩]
    simp only [Action.ends_bind, Action.ends_set]
    split
    · rename_i hnone
      rw [if_pos hnone] at hkeeps
      have htxn := txn_updateTxn_self ({ db with locks } : Database) (·.addLock resource) hlt
      refine ⟨⟨.of_keeps hkeeps (by rw [htxn]; rfl) (by rw [htxn]; rfl) rfl, rfl, ?_⟩,
        _, hheld, LockTable.covers_strengthened⟩
      show isActive (({ db with locks } : Database).updateTxn h (·.addLock resource)) h = true
      rw [isActive, htxn]
      exact hactive
    · rename_i hsome
      rw [if_neg hsome] at hkeeps
      exact ⟨⟨.of_keeps hkeeps rfl rfl rfl, rfl, hactive⟩, _, hheld, LockTable.covers_strengthened⟩

/-- A granted request leaves the transaction holding at least the mode; only a request for another mode
than shared or exclusive on a record fails without ending the transaction. -/
theorem acquire_ends (h : Handle) (resource : Resource) (mode : Mode) (db : Database) :
    (acquire h resource mode).Ends db
      (fun _ db' => db.isActive h = true ∧ Granted h db db' ∧
        (resource.rid?.isSome = true → mode = .shared ∨ mode = .exclusive) ∧ ∃ held,
          db'.locks.heldMode (db.txn h).id resource = some held ∧ held.covers mode = true)
      fun error db' =>
        (Stopped h db db' ∧ (StatementError.transaction error).isLogFailure = false) ∨
        db' = db ∧ resource.rid?.isSome = true ∧ (mode ≠ .shared ∧ mode ≠ .exclusive) ∧
          error = .recordMode mode := by
  simp only [acquire, Action.ends_bind]
  refine (ensureActive_ends h db).mono ?_ ?_
  · rintro _ db ⟨rfl, hactive⟩
    cases resource with
    | table id =>
      refine (lockResource_ends hactive (.table id) mode (by simp)).mono ?_ ?_
      · rintro _ db' ⟨hgranted, hheld⟩
        exact ⟨hactive, hgranted, by simp [Resource.rid?], hheld⟩
      · rintro _ db' ⟨hstop, reason, rfl⟩
        exact .inl ⟨hstop, rfl⟩
    | record id rid =>
      simp only
      split
      · rename_i hmode
        exact .inr ⟨rfl, rfl, hmode, rfl⟩
      · rename_i hmode
        simp only [Action.ends_bind]
        have hkind : mode = .shared ∨ mode = .exclusive := by
          by_contra hneither
          exact hmode (not_or.mp hneither)
        refine (lockResource_ends hactive _ _ (by simp [Resource.parent])).mono ?_ ?_
        · rintro _ mid ⟨hparent, held, hheld, hcovers⟩
          -- The record comes after its table, on which the mode is announced by now.
          have hannounced : mid.locks.Announced (mid.txn h).id id mode := by
            rw [hparent.id]
            exact ⟨hkind, held, hheld, hcovers⟩
          refine (lockResource_ends hparent.active (.record id rid) mode ?_).mono ?_ ?_
          · intro table rid' heq
            cases heq
            exact hannounced
          · rintro _ db' ⟨hgranted, hheld⟩
            exact ⟨hactive, hparent.trans hgranted, fun _ => hkind, hparent.id ▸ hheld⟩
          · rintro _ db' ⟨hstop, reason, rfl⟩
            exact .inl ⟨hparent.toQuiet.stopped hstop, rfl⟩
        · rintro _ db' ⟨hstop, reason, rfl⟩
          exact .inl ⟨hstop, rfl⟩
  · rintro _ db' ⟨_, hstop, rfl⟩
    exact .inl ⟨hstop, rfl⟩

end Database

/-- A position is blocked when it lies in a gap of someone else. -/
theorem GapTable.blocks_iff {gaps : GapTable} {txn : TxnId} {table : TableId} {position : Position} :
    gaps.blocks txn table position = true ↔
      ∃ gap, (table, gap) ∈ gaps.entries ∧ gap.txn ≠ txn ∧ gap.contains position = true := by
  simp only [blocks, GapTable.gaps, List.any_eq_true, List.mem_filterMap, Bool.and_eq_true,
    decide_eq_true_eq]
  constructor
  · rintro ⟨gap, ⟨entry, hmem, hentry⟩, hne, hcontains⟩
    split at hentry
    · rename_i htable
      cases hentry
      exact ⟨entry.2, htable ▸ hmem, hne, hcontains⟩
    · cases hentry
  · rintro ⟨gap, hmem, hne, hcontains⟩
    exact ⟨gap, ⟨(table, gap), hmem, if_pos rfl⟩, hne, hcontains⟩

namespace Database

variable {h : Handle} {db mid db' : Database}

/-- What blocks a transaction is not its own doing. -/
theorem Keeps.blocks_eq (hk : Keeps h db db') (table : TableId) (position : Position) :
    db'.gaps.blocks (db.txn h).id table position = db.gaps.blocks (db.txn h).id table position := by
  rw [Bool.eq_iff_iff, GapTable.blocks_iff, GapTable.blocks_iff]
  constructor
  · rintro ⟨gap, hmem, hne, hcontains⟩
    exact ⟨gap, hk.otherGaps _ hmem hne, hne, hcontains⟩
  · rintro ⟨gap, hmem, hne, hcontains⟩
    exact ⟨gap, hk.gaps _ hmem, hne, hcontains⟩

/-- A granted gap is entered among the gaps; one that is not granted changes nothing. -/
theorem lockGap_ends (h : Handle) (table : TableId) (start stop : Position) (db : Database) :
    (lockGap h table start stop).Ends db
      (fun granted db' => db.isActive h = true ∧ Granted h db db' ∧ (granted = true →
        (table, { txn := (db.txn h).id, start, stop }) ∈ db'.gaps.entries))
      fun error db' => Stopped h db db' ∧ error = .finished (db.txn h).id := by
  simp only [lockGap, Action.ends_bind]
  refine (ensureActive_ends h db).mono ?_ ?_
  · rintro _ db ⟨rfl, hactive⟩
    simp only [Action.ends_get]
    split
    · rename_i gaps hlock
      have hentries : gaps.entries =
          db.gaps.entries ++ [(table, { txn := (db.txn h).id, start, stop })] := by
        unfold GapTable.lock? at hlock
        split at hlock
        · cases hlock
        · cases hlock
          rfl
      have hmore : ∀ entry ∈ gaps.entries, entry ∈ db.gaps.entries ∨
          entry = (table, { txn := (db.txn h).id, start, stop }) := by
        intro entry hmem
        rw [hentries] at hmem
        simpa using hmem
      refine ⟨hactive, ⟨.of_keeps ?_ rfl rfl rfl, rfl, hactive⟩, fun _ => ?_⟩
      · have hlog := Keeps.refl h db
        refine { hlog with gaps := fun entry hmem => ?_, otherGaps := fun entry hmem hne => ?_ }
        · show entry ∈ gaps.entries
          rw [hentries]
          exact List.mem_append_left _ hmem
        · rcases hmore entry hmem with hold | rfl
          · exact hold
          · exact absurd rfl hne
      · show _ ∈ gaps.entries
        rw [hentries]
        exact List.mem_append_right _ (List.mem_singleton_self _)
    · exact ⟨hactive, .refl hactive, fun hfalse => by cases hfalse⟩
  · rintro _ db' ⟨_, hstop, rfl⟩
    exact ⟨hstop, rfl⟩

theorem checkGap_ends (h : Handle) (table : TableId) (position : Position) (db : Database) :
    (checkGap h table position).Ends db
      (fun _ db' => db' = db ∧ db.isActive h = true ∧
        db.gaps.blocks (db.txn h).id table position = false)
      fun error db' => Stopped h db db' ∧ (StatementError.transaction error).isLogFailure = false := by
  simp only [checkGap, Action.ends_bind]
  refine (ensureActive_ends h db).mono ?_ ?_
  · rintro _ db ⟨rfl, hactive⟩
    simp only [Action.ends_get]
    split
    · refine (refuse_ends h .gapConflict db).mono (fun _ _ hfalse => hfalse) ?_
      rintro _ db' ⟨hstop, rfl⟩
      exact ⟨hstop, rfl⟩
    · rename_i hfree
      exact ⟨rfl, hactive, by simpa using hfree⟩
  · rintro _ db' ⟨_, hstop, rfl⟩
    exact ⟨hstop, rfl⟩

/-- A position that is in nobody's gap passes the check. -/
theorem checkGap_succeeds {table : TableId} {position : Position} (hactive : db.isActive h = true)
    (hfree : db.gaps.blocks (db.txn h).id table position = false) :
    (checkGap h table position).Succeeds db fun _ db' => db' = db := by
  refine (ensureActive_succeeds hactive).bind ?_
  rintro _ _ rfl
  simp [Action.Succeeds, hfree]

/-! ### Access to the rows -/

theorem table_ends (name : String) (db : Database) :
    (table name).Ends db (fun table db' => db' = db ∧ db.catalog.get? name = some table)
      fun error db' => db' = db ∧ db.catalog.get? name = none ∧
        error = .transaction (.unknownTable name) := by
  simp only [table, Action.ends_bind, Action.ends_get]
  cases hget : db.catalog.get? name with
  | none => exact ⟨rfl, rfl, rfl⟩
  | some table => exact ⟨rfl, rfl⟩

/-- A table that is there is found. -/
theorem table_succeeds {name : String} {table : Table} (hget : db.catalog.get? name = some table) :
    (Database.table name).Succeeds db fun found db' => db' = db ∧ found = table := by
  refine (table_ends name db).mono ?_ ?_
  · rintro found db ⟨rfl, hfound⟩
    exact ⟨rfl, Option.some.inj (hfound.symm.trans hget)⟩
  · rintro _ _ ⟨rfl, hnone, -⟩
    rw [hget] at hnone
    cases hnone

/-- Locking the position of a row fails for good, or because there is no table. -/
theorem lockRow_ends (h : Handle) (name : String) (rid : Rid) {mode : Mode}
    (hmode : mode = .shared ∨ mode = .exclusive) (db : Database) :
    (lockRow h name rid mode).Ends db
      (fun _ db' => ∃ table, db.catalog.get? name = some table ∧ db.isActive h = true ∧
        Granted h db db' ∧ ∃ held,
          db'.locks.heldMode (db.txn h).id (.record table.id rid) = some held ∧
            held.covers mode = true)
      fun error db' =>
        (Stopped h db db' ∧ error.isLogFailure = false) ∨
        (db' = db ∧ db.catalog.get? name = none ∧ error = .transaction (.unknownTable name)) := by
  simp only [lockRow, Action.ends_bind]
  refine (table_ends name db).mono ?_ fun error db' hnone => .inr hnone
  rintro table db ⟨rfl, hget⟩
  rw [Action.ends_mapError]
  refine (acquire_ends h _ mode db).mono ?_ ?_
  · rintro _ db' ⟨hactive, hgranted, _, hheld⟩
    exact ⟨table, hget, hactive, hgranted, hheld⟩
  · rintro error db' (hstop | ⟨_, _, hneither, _⟩)
    · exact .inl hstop
    · rcases hmode with rfl | rfl
      · exact absurd rfl hneither.1
      · exact absurd rfl hneither.2

theorem rowAt_ends {name : String} {table : Table} (hget : db.catalog.get? name = some table)
    (rid : Rid) :
    (rowAt name rid).Ends db (fun row db' => db' = db ∧ table.heap.row? rid = some row)
      fun error db' => db' = db ∧ table.heap.row? rid = none ∧ error = .storage (.notFound rid) := by
  refine (table_succeeds hget).bind_ends ?_
  rintro table db ⟨rfl, rfl⟩
  rw [Heap.get_eq]
  cases hrow : table.heap.row? rid with
  | some row => exact ⟨rfl, rfl⟩
  | none => exact ⟨rfl, rfl, rfl⟩

theorem rowAt_succeeds {name : String} {table : Table} {rid : Rid} {row : Bytes}
    (hget : db.catalog.get? name = some table) (hrow : table.heap.row? rid = some row) :
    (rowAt name rid).Succeeds db fun found db' => db' = db ∧ found = row := by
  refine (rowAt_ends hget rid).mono ?_ ?_
  · rintro found db' ⟨rfl, hfound⟩
    exact ⟨rfl, Option.some.inj (hfound.symm.trans hrow)⟩
  · rintro _ _ ⟨-, hnone, -⟩
    rw [hrow] at hnone
    cases hnone

theorem onTable_ends {α : Type} {name : String} {operation : Table → Except StorageError (α × Table)}
    {table : Table} (hget : db.catalog.get? name = some table)
    {ok : α → Database → Prop} {err : StatementError → Database → Prop}
    (hok : ∀ value table', operation table = .ok (value, table') → ok value (db.putTable table'))
    (herr : ∀ error, operation table = .error error → err (.storage error) db) :
    (onTable name operation).Ends db ok err := by
  refine (table_succeeds hget).bind_ends ?_
  rintro table db ⟨rfl, rfl⟩
  simp only [Action.ends_bind, Action.ends_mapError]
  cases hoperation : operation table with
  | error error => exact herr error hoperation
  | ok result => exact hok result.1 result.2 hoperation

/-- What is left when a write has been entered for undo, before or after the row is changed. -/
structure Entered (h : Handle) (write : WriteRecord) (db db' : Database) : Prop
    extends Keeps h db db' where
  writes : (db'.txn h).writes = write :: (db.txn h).writes
  state : (db'.txn h).state = (db.txn h).state
  catalog : db'.catalog = db.catalog

/-- What is left when a record has been logged for a transaction, or refused: only the log and the
transaction's last numbers may have changed. -/
structure Logged (h : Handle) (db db' : Database) : Prop where
  size : db'.transactions.size = db.transactions.size
  txn : ∀ h', h ≠ h' → db'.txn h' = db.txn h'
  id : (db'.txn h).id = (db.txn h).id
  writes : (db'.txn h).writes = (db.txn h).writes
  lockSet : (db'.txn h).locks = (db.txn h).locks
  state : (db'.txn h).state = (db.txn h).state
  locks : db'.locks = db.locks
  gaps : db'.gaps = db.gaps
  catalog : db'.catalog = db.catalog

theorem Logged.keeps (hl : Logged h db db') : Keeps h db db' where
  size := hl.size
  txn := hl.txn
  id := hl.id
  idle := fun _ => hl.locks
  modes := fun _ _ _ => by rw [hl.locks]
  mode := fun r held hheld => ⟨held, by rw [hl.locks, hheld], Mode.covers_self held⟩
  locks := fun hs => hl.locks ▸ hs
  intended := fun hi => hl.locks ▸ hi
  lockSet := by
    intro _ hexact r
    rw [Transaction.holdsLock, hl.lockSet, hl.id, hl.locks]
    exact hexact r
  gaps := fun entry hmem => hl.gaps ▸ hmem
  otherGaps := fun entry hmem _ => hl.gaps ▸ hmem

theorem logRecord_ends (h : Handle) (kind : RecordKind) (content : RecordContent) (db : Database) :
    (logRecord h kind content).Ends db (fun _ db' => Logged h db db') fun _ db' => Logged h db db' := by
  simp only [logRecord, Action.ends_bind, Action.ends_get]
  generalize db.log.append (db.txn h).id (db.txn h).lastLsn kind content = appended
  obtain ⟨result, log⟩ := appended
  simp only [Action.ends_set]
  cases result with
  | error error => exact ⟨rfl, fun _ _ => rfl, rfl, rfl, rfl, rfl, rfl, rfl, rfl⟩
  | ok lsn =>
    simp only [Action.ends_ofExcept_ok, Action.ends_modify]
    have htxn : (({ db with log } : Database).updateTxn h (·.recordLsn lsn)).txn h =
        db.txn h ∨ (({ db with log } : Database).updateTxn h (·.recordLsn lsn)).txn h =
          (db.txn h).recordLsn lsn := by
      by_cases hlt : h < db.transactions.size
      · exact .inr (txn_updateTxn_self ({ db with log } : Database) _ hlt)
      · exact .inl (by simp [Database.txn, Database.updateTxn, hlt])
    refine ⟨by simp [Database.updateTxn], fun h' hne => txn_updateTxn_of_ne _ _ hne, ?_, ?_, ?_, ?_,
      rfl, rfl, rfl⟩ <;> rcases htxn with htxn | htxn <;> rw [htxn] <;> rfl

/-- A record is logged for a transaction if and only if the log has room for it. -/
theorem logRecord_room (h : Handle) (kind : RecordKind) (content : RecordContent) {size : Nat}
    (hsize : ∀ lsn txn prev,
      (LogRecord.encode { lsn, txn, prev, kind, content }).length = size) (db : Database) :
    (logRecord h kind content).Ends db (fun _ db' => db'.log.HasRoom size)
      fun _ db' => ¬ db'.log.HasRoom size := by
  simp only [logRecord, Action.ends_bind, Action.ends_get]
  have hrefuses := db.log.append_refuses_iff (db.txn h).id (db.txn h).lastLsn kind content
  have hconfig := db.log.config_append (db.txn h).id (db.txn h).lastLsn kind content
  rw [hsize] at hrefuses
  cases happend : db.log.append (db.txn h).id (db.txn h).lastLsn kind content with
  | mk result log =>
    rw [happend] at hrefuses hconfig
    have hroom : log.HasRoom size ↔ db.log.HasRoom size := Log.hasRoom_congr hconfig size
    simp only [Action.ends_set]
    cases result with
    | error error => exact fun hlog => hrefuses.mp ⟨error, rfl⟩ (hroom.mp hlog)
    | ok lsn =>
      refine hroom.mpr (Classical.byContradiction fun hnone => ?_)
      obtain ⟨error, herror⟩ := hrefuses.mpr hnone
      cases herror

end Database

/-- The number of bytes of the log record of a write that leaves a row behind. -/
def WriteRecord.logSize (write : WriteRecord) (after : Option Bytes) : Nat :=
  40 + (LogRecord.encodeImage write.image).length + (LogRecord.encodeImage after).length

namespace Database

variable {h : Handle} {db mid db' : Database}

theorem entered_addWrite (hlt : h < db.transactions.size) (write : WriteRecord) :
    Entered h write db (db.updateTxn h (·.addWrite write)) := by
  refine ⟨.updateTxn h db (fun _ => rfl) fun _ => rfl, ?_, ?_, rfl⟩
  · rw [txn_updateTxn_self db _ hlt]
    rfl
  · rw [txn_updateTxn_self db _ hlt]
    rfl

/-- An active transaction enters a write, whether or not the log has room for the record of it. -/
theorem enterWrite_ends (hactive : db.isActive h = true) {write : WriteRecord} {table : Table}
    (hget : db.catalog.get? write.table = some table) (hbefore : write.before = write.image)
    (after : Option Bytes) :
    (enterWrite h write after).Ends db
      (fun _ db' => Entered h write db db' ∧ db'.log.HasRoom (write.logSize after))
      fun error db' => Entered h write db db' ∧ error.isLogFailure = true ∧
        ¬ db'.log.HasRoom (write.logSize after) := by
  have hlt := lt_of_isActive hactive
  refine (table_succeeds hget).bind_ends ?_
  rintro table db ⟨rfl, rfl⟩
  have hentered := entered_addWrite hlt write
  have hafter : ∀ db' : Database, Logged h (db.updateTxn h (·.addWrite write)) db' →
      Entered h write db db' := fun db' hlogged =>
    ⟨hentered.toKeeps.trans hlogged.keeps, hlogged.writes.trans hentered.writes,
      hlogged.state.trans hentered.state, hlogged.catalog⟩
  simp only [addWrite, Action.ends_bind, Action.ends_mapError]
  refine (ensureActive_succeeds hactive).ends ?_
  rintro _ db rfl
  simp only [Action.ends_modify]
  let change : RowChange := { table := table.id, rid := write.rid, before := write.before, after }
  have hsize : ∀ lsn txn prev,
      (LogRecord.encode ⟨lsn, txn, prev, write.kind.recordKind, .data change⟩).length =
        write.logSize after := by
    intro lsn txn prev
    rw [WriteRecord.logSize, ← hbefore]
    exact LogRecord.length_encode_data lsn prev txn _ change
  have hroom := logRecord_room h _ _ hsize
  exact ((logRecord_ends h _ _ _).and (hroom _)).mono
    (fun _ db' ⟨hlogged, hfits⟩ => ⟨hafter db' hlogged, hfits⟩)
    fun error db' ⟨hlogged, hlarge⟩ => ⟨hafter db' hlogged, rfl, hlarge⟩

end Database

end NoWait
