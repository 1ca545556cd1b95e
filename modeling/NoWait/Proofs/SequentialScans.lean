import Mathlib.Data.List.Sort
import NoWait.Proofs.InStep
import NoWait.Proofs.LogRoom
import NoWait.Proofs.RangeBounds
import NoWait.Proofs.ReadLocks

/-!
# Sequential scans are isolated

A sequential scan locks its table when it is opened, and no row on its way out.  That is enough: whoever has
altered a row of the table and not let go of it, or alters one, has it locked exclusively, and has said so on
the table, which the lock of the scan does not go together with.  So nobody else alters the table until the
owner of the scan lets go, not even by a rollback.

* `Catalog.liveRows` and `Catalog.indexEntries` are the contents of a table, `liveRows_congr` and
  `indexEntries_congr` say that they follow from the rows at its positions;
* `Effect.holdsWritten` says who alters a row, and `Effect.rows_of_holdsTable` that it is nobody else;
* `pulledSinceOpened` counts the tuples that a scan has been asked for, and `Run.pending_eq` says which
  positions it then has pending;
* `Event.letsGo_eq` and `Run.letsGo_eq_false` say that a transaction that was begun lets go at its commit or its
  rollback and not before;
* `sequential_scan_isolated` is the result.
-/

namespace NoWait

open Database

variable {start s₀ s : Session} {call : Call} {answer : Except StatementError Answer} {db db' : Database}
  {before rest trace : List Event} {h h' : Handle} {i n : Nat} {name : String} {rid : Rid}
  {scan : Scan}

/-! ### The contents of a table -/

/-- Two ascending lists with the same members are the same. -/
theorem eq_of_ascending {α : Type} {c : α → α → Ordering} [Std.OrientedCmp c] {l l' : List α}
    (hl : l.Pairwise fun a b => c a b = .lt) (hl' : l'.Pairwise fun a b => c a b = .lt)
    (hmem : ∀ a, a ∈ l ↔ a ∈ l') : l = l' := by
  have hirrefl : Std.Irrefl fun a b => c a b = .lt := ⟨fun a hlt => by
    have hself : c a a = .eq := Std.ReflCmp.compare_self
    rw [hself] at hlt
    cases hlt⟩
  have hantisymm : Std.Antisymm fun a b => c a b = .lt := ⟨fun a b hlt hgt => by
    have hswap : c a b = (c b a).swap := Std.OrientedCmp.eq_swap
    rw [hlt, hgt] at hswap
    cases hswap⟩
  exact hl.eq_of_mem_iff hl' hmem

namespace Catalog

variable {catalog catalog' : Catalog} {row : Bytes}

/-- The rows of the table of a name with their positions, in storage order. -/
def liveRows (catalog : Catalog) (name : String) : List (Rid × Bytes) :=
  ((catalog.get? name).map fun table => table.heap.rows).getD []

/-- The entries of the index of a table, if it has one, in index order. -/
def indexEntries (catalog : Catalog) (name : String) : Option (List IndexEntry) :=
  ((catalog.get? name).bind (·.index)).map (·.keys.entries)

theorem Sound.mem_liveRows (h : catalog.Sound) :
    (rid, row) ∈ catalog.liveRows name ↔ catalog.rows name rid = some row := by
  unfold liveRows rows
  cases hget : catalog.get? name with
  | none => simp
  | some table => exact (h.table name table hget).heap.mem_rows

theorem Sound.pairwise_liveRows (h : catalog.Sound) (name : String) :
    (catalog.liveRows name).Pairwise fun a b => compare a.1 b.1 = .lt := by
  unfold liveRows
  cases hget : catalog.get? name with
  | none => exact .nil
  | some table => exact (h.table name table hget).heap.pairwise_rows

theorem liveRows_congr (hs : catalog.Sound) (hs' : catalog'.Sound)
    (hrows : ∀ rid, catalog'.rows name rid = catalog.rows name rid) :
    catalog'.liveRows name = catalog.liveRows name := by
  refine eq_of_ascending (c := compareOn Prod.fst) (hs'.pairwise_liveRows name) (hs.pairwise_liveRows name)
    fun ⟨rid, row⟩ => ?_
  rw [hs'.mem_liveRows, hs.mem_liveRows, hrows]

/-- In sound tables of one shape, the same rows come with the same index entries. -/
theorem indexEntries_congr (hs : catalog.Sound) (hs' : catalog'.Sound)
    (hshapes : catalog'.shapes = catalog.shapes)
    (hrows : ∀ rid, catalog'.rows name rid = catalog.rows name rid) :
    catalog'.indexEntries name = catalog.indexEntries name := by
  have hshape : catalog'.shapes name = catalog.shapes name := by rw [hshapes]
  have hkeyOf := keyOf?_congr hshapes
  unfold indexEntries
  unfold shapes at hshape
  cases hget : catalog.get? name with
  | none =>
    rw [hget, Option.map_none, Option.map_eq_none_iff] at hshape
    rw [hshape]
  | some table =>
    cases hget' : catalog'.get? name with
    | none => simp [hget, hget'] at hshape
    | some table' =>
      rw [hget, hget', Option.map_some, Option.map_some, Option.some.injEq] at hshape
      have hkey : table'.index.map (fun index => (index.offset, index.length)) =
          table.index.map fun index => (index.offset, index.length) := congrArg TableShape.key hshape
      cases hindex : table.index with
      | none =>
        rw [hindex] at hkey
        simp [Option.map_eq_none_iff.mp hkey, hindex]
      | some index =>
        cases hindex' : table'.index with
        | none => simp [hindex, hindex'] at hkey
        | some index' =>
          obtain ⟨-, hsorted⟩ := (hs.table _ _ hget).perm_entries hindex
          obtain ⟨-, hsorted'⟩ := (hs'.table _ _ hget').perm_entries hindex'
          simp only [Option.bind_some, hindex, hindex', Option.map_some, Option.some.injEq]
          refine eq_of_ascending hsorted' hsorted fun ⟨key, rid⟩ => ?_
          rw [hs'.mem_entries hget' hindex', hs.mem_entries hget hindex, hrows, hkeyOf]

end Catalog

/-! ### Who alters a row -/

/-- Whether a call is a statement or an abort of a transaction; no other call alters rows. -/
def Call.mayWriteFor (call : Call) (h : Handle) : Bool :=
  match call with
  | .run h' _ | .abort h' => h' = h
  | _ => false

/-- Who alters a row has the lock of a writer on it: a statement from then on, and a rollback from the
statement on whose write it takes back. -/
theorem Effect.holdsWritten (heffect : Effect s call answer db') (hg : s.db.Guarded)
    (halters : db'.catalog.rows name rid ≠ s.db.catalog.rows name rid) :
    ∃ h < s.db.transactions.size, call.mayWriteFor h = true ∧
      (s.db.HoldsWritten h name rid ∨ db'.HoldsWritten h name rid) := by
  have hsame : db'.catalog.rows = s.db.catalog.rows → False := fun hrows => halters (by rw [hrows])
  -- A rollback puts back rows only where there is an entry in the write-set.
  have hundone : ∀ {h : Handle} {result : Except TransactionError Unit} {left : List WriteRecord},
      h < s.db.transactions.size →
      s.db.catalog.undoAll (s.db.txn h).writes = (result, left, db'.catalog) →
      s.db.HoldsWritten h name rid := by
    intro h result left hlt hundo
    obtain ⟨-, -, undone, hwrites, hrows⟩ := Catalog.undoAll_spec hg.catalog hundo
    by_contra hfree
    refine halters ?_
    rw [hrows]
    refine Rows.revertAll_of_not_isAt fun write hmem hat => hfree ?_
    obtain ⟨rfl, rfl⟩ := hat
    exact hg.covered h hlt write (hwrites ▸ List.mem_append_left left hmem)
  cases heffect with
  | arrived harrived _ => exact (hsame (by rw [harrived.catalog])).elim
  | untouched huntouched _ _ => exact (hsame (by rw [huntouched.catalog])).elim
  | @ran h _ _ _ houtcome =>
    obtain ⟨hlt, hwritten⟩ := houtcome.holdsWritten hg.catalog halters
    exact ⟨h, hlt, by simp [Call.mayWriteFor], .inr hwritten⟩
  | quiet hquiet _ _ => exact (hsame (hquiet.rows hg.catalog).rows).elim
  | commitRefused _ => exact (hsame rfl).elim
  | committed _ hleft _ => exact (hsame (by rw [hleft.catalog])).elim
  | commitLost hleft _ => exact (hsame (by rw [hleft.catalog])).elim
  | abortRefused _ => exact (hsame rfl).elim
  | @abortStuck h _ _ _ hlt hundo =>
    exact ⟨h, hlt, by simp [Call.mayWriteFor], .inl (hundone hlt hundo)⟩
  | @aborted h catalog _ _ hlt hundo hleft _ =>
    have hcatalog : db'.catalog = catalog := hleft.catalog
    exact ⟨h, hlt, by simp [Call.mayWriteFor], .inl (hundone hlt (hcatalog ▸ hundo))⟩
  | released _ => exact (hsame rfl).elim
  | releasedAll _ => exact (hsame rfl).elim
  | releasedGaps _ => exact (hsame rfl).elim

/-- While a transaction holds a table, nobody else alters a row of it. -/
theorem Effect.rows_of_holdsTable (heffect : Effect s call answer db') (hg : s.db.Guarded)
    (hi : s.db.locks.Intended) (hids : db'.DistinctIds) (hhand : call.isByHand = false)
    (hlt : h < s.db.transactions.size) (hholds : s.db.HoldsTable h name) (hholds' : db'.HoldsTable h name)
    (hothers : call.mayWriteFor h = false) (rid : Rid) :
    db'.catalog.rows name rid = s.db.catalog.rows name rid := by
  by_contra halters
  obtain ⟨h', hlt', hwrites, hwritten⟩ := heffect.holdsWritten hg halters
  have hkeeps := heffect.keepsIds
  have hsame : h' = h := by
    rcases hwritten with hwritten | hwritten
    · exact (Protects.of_holdsTable hholds).eq_of_holdsWritten hi hg.sound (hkeeps.distinctIds hids) hlt
        hlt' hwritten
    · have hi' : db'.locks.Intended := by
        refine heffect.intended hi hg.toLocksExact ?_
        rintro h table rfl
        cases hhand
      have hg' := heffect.guarded hg hids hhand
      exact (Protects.of_holdsTable hholds').eq_of_holdsWritten hi' hg'.sound hids
        (Nat.lt_of_lt_of_le hlt hkeeps.size) (Nat.lt_of_lt_of_le hlt' hkeeps.size) hwritten
  rw [hsame, hothers] at hwrites
  cases hwrites

/-- A table that a transaction holds is its own to alter for as long as it does not let go. -/
theorem Run.isolated (hrun : Run start trace s) (hg : start.db.Guarded) (hi : start.db.locks.Intended)
    (hids : s.db.DistinctIds) (hhand : ∀ event ∈ trace, event.call.isByHand = false)
    (hlt : h < start.db.transactions.size) (hholds : start.db.HoldsTable h name)
    (hheld : ∀ event ∈ trace, event.letsGo h = false) :
    (h < s.db.transactions.size ∧ s.db.locks.Intended ∧ s.db.HoldsTable h name) ∧
      ∀ event ∈ trace, event.call.mayWriteFor h = false → ∀ rid,
        event.after.db.catalog.rows name rid = event.before.db.catalog.rows name rid := by
  induction hrun with
  | nil => exact ⟨⟨hlt, hi, hholds⟩, by simp⟩
  | @snoc trace s call hrun ih =>
    have heffect := s.step_effect call
    obtain ⟨hg₀, hids₀, hhand₀, hnow⟩ := hrun.before_last hg hids hhand
    obtain ⟨⟨hlt₀, hi₀, hholds₀⟩, hrows⟩ :=
      ih hids₀ hhand₀ fun event hmem => hheld event (List.mem_append_left _ hmem)
    have hholds' := (heffect.turn hg₀ hids hnow hlt₀).holdsTable (heffect.shapes hg₀)
      (hheld ⟨s, call⟩ (by simp)) hholds₀
    have hi' : (s.step call).2.db.locks.Intended := by
      refine heffect.intended hi₀ hg₀.toLocksExact ?_
      rintro h table rfl
      cases hnow
    refine ⟨⟨Nat.lt_of_lt_of_le hlt₀ heffect.keepsIds.size, hi', hholds'⟩, ?_⟩
    refine List.forall_mem_append.mpr ⟨hrows, List.forall_mem_singleton.mpr fun hothers rid => ?_⟩
    exact heffect.rows_of_holdsTable hg₀ hi₀ hids hnow hlt₀ hholds₀ hholds' hothers rid

/-! ### What a scan lists and hands out -/

theorem LockTable.request_of_covers {locks : LockTable} {txn : TxnId} {resource : Resource}
    {held mode : Mode} (hheld : locks.heldMode txn resource = some held) (hcovers : held.covers mode = true) :
    locks.request txn resource mode = .ok locks := by
  unfold LockTable.request
  simp only
  rw [show (locks.queue resource).heldMode txn = some held from hheld]
  simp [hcovers]

/-- A lock that a transaction has already is granted again. -/
theorem Database.acquire_of_covers {table : TableId} {held mode : Mode} (hactive : db.isActive h = true)
    (hheld : db.locks.heldMode (db.txn h).id (.table table) = some held) (hcovers : held.covers mode = true) :
    (acquire h (.table table) mode).Succeeds db fun _ db' => db' = db := by
  refine (ensureActive_succeeds hactive).bind ?_
  rintro _ db rfl
  simp only [Action.Succeeds, lockResource, Action.ends_bind, Action.ends_get,
    LockTable.request_of_covers hheld hcovers, Action.ends_set, hheld]
  rfl

namespace Scan

/-- A sequential scan lists the positions of the rows in its table. -/
theorem positions_sequential (hplan : scan.plan = .sequential) (db : Database) :
    scan.positions.Ends db (fun rids _ => rids = (db.catalog.liveRows scan.table).map (·.1))
      fun _ _ => True := by
  unfold positions
  rw [hplan]
  simp only [Action.ends_bind]
  apply (table_ends scan.table db).mono
  · rintro table db ⟨rfl, hget⟩
    rw [Action.ends_mapError]
    apply (acquire_ends scan.owner (.table table.id) .shared db).mono
    · rintro _ mid ⟨-, hgranted, -⟩
      apply (table_ends scan.table mid).mono
      · rintro table' mid ⟨rfl, hget'⟩
        rw [hgranted.catalog] at hget'
        show table'.heap.scan = _
        rw [Catalog.liveRows, hget', table'.heap.scan_eq]
        rfl
      · intro _ _ _
        trivial
    · intro _ _ _
      trivial
  · intro _ _ _
    trivial

/-- A sequential scan whose owner can go on and has the table locked can be opened. -/
theorem positions_succeeds (hplan : scan.plan = .sequential) (hactive : db.isActive scan.owner = true)
    (hholds : db.HoldsTable scan.owner scan.table) :
    scan.positions.Succeeds db fun _ _ => True := by
  obtain ⟨shape, held, hshape, hheld, hcovers⟩ := hholds
  obtain ⟨table, hget, rfl⟩ := Option.map_eq_some_iff.mp hshape
  unfold positions
  rw [hplan]
  refine (table_succeeds hget).bind ?_
  rintro table db ⟨rfl, rfl⟩
  refine ((acquire_of_covers hactive hheld hcovers).mapError _).bind ?_
  rintro _ db rfl
  exact (table_succeeds hget).bind fun _ _ _ => trivial

/-- A sequential scan finds any row that is there. -/
theorem visit_of_row {row : Bytes} (hplan : scan.plan = .sequential)
    (hrow : db.catalog.rows scan.table rid = some row) :
    (scan.visit rid).Succeeds db fun row' db' => row' = some row ∧ db' = db := by
  obtain ⟨table, hget, hfound⟩ := Option.bind_eq_some_iff.mp hrow
  unfold visit
  rw [hplan]
  refine (rowAt_succeeds hget hfound).bind ?_
  rintro _ _ ⟨rfl, rfl⟩
  exact ⟨rfl, rfl⟩

theorem nextFrom_of_rows (hplan : scan.plan = .sequential) (live : List (Rid × Bytes))
    (hrows : ∀ tuple ∈ live, db.catalog.rows scan.table tuple.1 = some tuple.2) :
    scan.nextFrom db (live.map (·.1)) =
      .ok live.head? (db, { scan with pending := live.tail.map (·.1) }) := by
  cases live with
  | nil => rfl
  | cons tuple rest =>
    obtain ⟨_, _, hvisit, rfl, rfl⟩ :=
      Action.succeeds_iff.mp (visit_of_row hplan (hrows tuple List.mem_cons_self))
    rw [List.map_cons, nextFrom, hvisit]
    rfl

end Scan

/-! ### How far a scan has come -/

/-- How many tuples a scan has been asked for since it was last opened, if it was opened at all. -/
def pulledSinceOpened (trace : List Event) (i : Nat) : Option Nat :=
  trace.foldl (fun pulled event =>
    if event.opens i && event.before.scans[i]?.isSome then some 0
    else if event.call = .nextScan i then pulled.map (· + 1) else pulled) none

@[simp] theorem pulledSinceOpened_snoc (trace : List Event) (event : Event) (i : Nat) :
    pulledSinceOpened (trace ++ [event]) i =
      if event.opens i && event.before.scans[i]?.isSome then some 0
      else if event.call = .nextScan i then (pulledSinceOpened trace i).map (· + 1)
      else pulledSinceOpened trace i := by
  simp [pulledSinceOpened]

namespace Session

/-- A sequential scan that is opened has the rows of its table pending; one that is not stays as it is. -/
theorem initScan_lists (hscan : s.scans[i]? = some scan) : ∃ pending,
    (s.step (.initScan i)).2.scans[i]? = some { scan with pending } ∧
      if (⟨s, .initScan i⟩ : Event).opens i then
        scan.plan = .sequential → pending = (s.db.catalog.liveRows scan.table).map (·.1)
      else pending = scan.pending := by
  obtain ⟨hlt, -⟩ := Array.getElem?_eq_some_iff.mp hscan
  have hstep := step_initScan hscan
  have hopens : (⟨s, .initScan i⟩ : Event).opens i = (s.step (.initScan i)).1.isOk := by
    simp [Event.opens, Event.answer]
  rw [hopens]
  cases hrun : scan.positions s.db with
  | error error db =>
    simp only [hrun] at hstep
    rw [hstep]
    exact ⟨scan.pending, Array.getElem?_setIfInBounds_self_of_lt hlt, rfl⟩
  | ok pending db =>
    simp only [hrun] at hstep
    rw [hstep]
    refine ⟨pending, Array.getElem?_setIfInBounds_self_of_lt hlt, fun hplan => ?_⟩
    have hlists := Scan.positions_sequential hplan s.db
    unfold Action.Ends at hlists
    rwa [hrun] at hlists

/-- The owner of a sequential scan that is opened can go on, and has its table locked. -/
theorem initScan_holdsTable (hscan : s.scans[i]? = some scan) (hplan : scan.plan = .sequential)
    (hopen : (s.step (.initScan i)).1 = .ok .done) :
    s.db.isActive scan.owner = true ∧ (s.step (.initScan i)).2.db.HoldsTable scan.owner scan.table := by
  have hlocks := Scan.positions_locks hplan s.db
  unfold Action.Ends at hlocks
  have hstep := step_initScan hscan
  cases hrun : scan.positions s.db with
  | error error db =>
    simp only [hrun] at hstep
    rw [hstep] at hopen
    cases hopen
  | ok pending db =>
    rw [hrun] at hlocks
    simp only [hrun] at hstep
    rw [hstep]
    exact hlocks

/-- A sequential scan can be opened if its owner can go on and has its table locked. -/
theorem initScan_succeeds (hscan : s.scans[i]? = some scan) (hplan : scan.plan = .sequential)
    (hactive : s.db.isActive scan.owner = true) (hholds : s.db.HoldsTable scan.owner scan.table) :
    (s.step (.initScan i)).1 = .ok .done := by
  obtain ⟨pending, db, hpositions, -⟩ :=
    Action.succeeds_iff.mp (Scan.positions_succeeds hplan hactive hholds)
  rw [step_initScan hscan, hpositions]

/-- Where the rows are that a sequential scan has pending, it hands out the first of them. -/
theorem nextScan_of_rows {live : List (Rid × Bytes)} (hscan : s.scans[i]? = some scan)
    (hplan : scan.plan = .sequential) (hpending : scan.pending = live.map (·.1))
    (hrows : ∀ tuple ∈ live, s.db.catalog.rows scan.table tuple.1 = some tuple.2) :
    (s.step (.nextScan i)).1 = .ok (.tuple live.head?) := by
  rw [step_nextScan hscan, hpending, Scan.nextFrom_of_rows hplan live hrows]

theorem actOnScan_scans_size (s : Session) (i : Nat) (step : ScanAction Answer) :
    (s.actOnScan i step).2.scans.size = s.scans.size := by
  unfold actOnScan
  split
  · rfl
  · split <;> exact Array.size_setIfInBounds

/-- No scan goes away. -/
theorem scans_size_le (s : Session) (call : Call) : s.scans.size ≤ (s.step call).2.scans.size := by
  cases call with
  | openScan owner table plan => exact (Array.size_push _).symm ▸ Nat.le_succ _
  | initScan i => exact (s.actOnScan_scans_size i _).ge
  | nextScan i => exact (s.actOnScan_scans_size i _).ge
  | adopt id => exact Nat.le_refl _
  | release | releaseAll | releaseGaps => rw [step, giveUp_scans]
  | begin | run | lockGap | checkGap | lockRange | commit | abort => rw [step, act_scans]

end Session

/-- As long as a table has the same rows, a sequential scan of it has them pending from the one on that it is
to hand out next. -/
theorem Run.pending_eq (hrun : Run start trace s)
    (hkept : ∀ event ∈ trace, event.before.db.catalog.liveRows name = start.db.catalog.liveRows name)
    (hpulled : pulledSinceOpened trace i = some n) :
    i < s.scans.size ∧ ∀ scan, s.scans[i]? = some scan → scan.table = name → scan.plan = .sequential →
      scan.pending = ((start.db.catalog.liveRows name).drop n).map (·.1) := by
  induction hrun generalizing n with
  | nil => cases hpulled
  | @snoc trace s call hrun ih =>
    have hkept₀ : ∀ event ∈ trace,
        event.before.db.catalog.liveRows name = start.db.catalog.liveRows name :=
      fun event hmem => hkept event (List.mem_append_left _ hmem)
    have hnow : s.db.catalog.liveRows name = start.db.catalog.liveRows name := hkept ⟨s, call⟩ (by simp)
    have hsize := s.scans_size_le call
    rw [pulledSinceOpened_snoc] at hpulled
    split at hpulled
    · -- The scan has just been opened.
      rename_i hopens
      obtain ⟨hopens, hsome⟩ := Bool.and_eq_true_iff.mp hopens
      obtain rfl : call = .initScan i := by simpa [Event.opens] using (Bool.and_eq_true_iff.mp hopens).1
      obtain ⟨scan₀, hscan₀⟩ := Option.isSome_iff_exists.mp hsome
      obtain ⟨hlt, -⟩ := Array.getElem?_eq_some_iff.mp hscan₀
      obtain ⟨pending, hscan', hpending⟩ := Session.initScan_lists hscan₀
      cases hpulled
      refine ⟨Nat.lt_of_lt_of_le hlt hsize, fun scan hscan htable hplan => ?_⟩
      obtain rfl := Option.some.inj (hscan'.symm.trans hscan)
      rw [if_pos hopens] at hpending
      rw [hpending hplan, show scan₀.table = name from htable, hnow, List.drop_zero]
    · rename_i hopens
      split at hpulled
      · rename_i hnext
        obtain rfl : call = .nextScan i := hnext
        obtain ⟨m, hm, rfl⟩ := Option.map_eq_some_iff.mp hpulled
        obtain ⟨hlt, hpending⟩ := ih hkept₀ hm
        refine ⟨Nat.lt_of_lt_of_le hlt hsize, fun scan hscan htable hplan => ?_⟩
        obtain ⟨scan₀, hscan₀, hplan₀, -, htable₀, hrest⟩ := Session.nextScan_scan hscan
        rw [hplan₀] at hplan
        rw [hrest hplan, hpending scan₀ hscan₀ (htable₀ ▸ htable) hplan, ← List.map_tail, List.tail_drop]
      · rename_i hnext
        obtain ⟨hlt, hpending⟩ := ih hkept₀ hpulled
        refine ⟨Nat.lt_of_lt_of_le hlt hsize, fun scan hscan htable hplan => ?_⟩
        by_cases hinit : call = .initScan i
        · subst hinit
          have hscan₀ := Array.getElem?_eq_getElem hlt
          obtain ⟨pending, hscan', hsame⟩ := Session.initScan_lists hscan₀
          rw [if_neg fun hopened => hopens (by rw [hopened, hscan₀]; rfl)] at hsame
          obtain rfl := Option.some.inj (hscan'.symm.trans hscan)
          rw [show pending = _ from hsame]
          exact hpending _ hscan₀ htable hplan
        · rcases s.step_scans_cases hinit hnext with hsame | ⟨hnone, -⟩
          · exact hpending scan (hsame ▸ hscan) htable hplan
          · exact absurd (Array.getElem?_eq_none_iff.mp hnone) (Nat.not_le_of_lt hlt)

/-- As long as no call changes the rows of a table, a sequential scan of it hands them out one after the other. -/
theorem Run.nextScan_eq (hrun : Run start trace s) (hsound : s.db.catalog.Sound)
    (hkept : ∀ event ∈ trace, event.before.db.catalog.liveRows name = start.db.catalog.liveRows name →
      event.after.db.catalog.liveRows name = start.db.catalog.liveRows name)
    (hscan : s.scans[i]? = some scan) (htable : scan.table = name) (hplan : scan.plan = .sequential)
    (hpulled : pulledSinceOpened trace i = some n) :
    (s.step (.nextScan i)).1 = .ok (.tuple (start.db.catalog.liveRows name)[n]?) := by
  have hlive : s.db.catalog.liveRows name = start.db.catalog.liveRows name :=
    hrun.invariant (fun t => t.db.catalog.liveRows name = start.db.catalog.liveRows name) rfl hkept
  have hbefore := hrun.invariant_before
    (fun t => t.db.catalog.liveRows name = start.db.catalog.liveRows name) rfl hkept
  obtain ⟨-, hpending⟩ := hrun.pending_eq hbefore hpulled
  rw [← List.head?_drop]
  refine Session.nextScan_of_rows hscan hplan (hpending scan hscan htable hplan) ?_
  intro tuple hmem
  rw [htable, ← hsound.mem_liveRows, hlive]
  exact List.mem_of_mem_drop hmem

/-! ### Isolation -/

/-- A transaction lets go of everything exactly when it commits or is rolled back, unless the record of its end
is lost in the log. -/
theorem Event.letsGo_eq {event : Event}
    (hsure : event.call = .commit h ∨ event.call = .abort h → event.failsLog = false) :
    event.letsGo h = (event.commits h || event.aborts h) := by
  by_cases hcall : event.call = .commit h ∨ event.call = .abort h
  · rw [Event.letsGo, hsure hcall, Bool.or_false, Bool.and_or_distrib_right]
    rfl
  · obtain ⟨hcommit, habort⟩ := not_or.mp hcall
    simp [Event.letsGo, Event.commits, Event.aborts, hcommit, habort]

/-- The end of a transaction that was begun in a run is not lost in the log. -/
theorem Run.not_failsLog_of_begun {event : Event} (hrun : Run start trace event.before)
    (hbegun : ∃ event ∈ trace, event.call = .begin ∧ event.answer = .ok (.handle h))
    (hcall : event.call = .commit h ∨ event.call = .abort h) : event.failsLog = false :=
  event.before.step_end_hasRoom hcall ((hrun.hasRoom_iff 36).1.mpr (hrun.hasRoom_of_begun hbegun).1)

/-- A transaction that is neither committed nor rolled back after a while has not let go, if it was begun or no
end of it is lost. -/
theorem Run.letsGo_eq_false (hbefore : Run start before s₀) (hrest : Run s₀ rest s)
    (hheld : ∀ event ∈ rest, event.commits h = false ∧ event.aborts h = false)
    (hends : (∃ event ∈ before, event.call = .begin ∧ event.answer = .ok (.handle h)) ∨
      ∀ event ∈ rest, event.call = .commit h ∨ event.call = .abort h → event.failsLog = false) :
    ∀ event ∈ rest, event.letsGo h = false := by
  intro event hmem
  obtain ⟨hcommits, haborts⟩ := hheld event hmem
  rw [Event.letsGo_eq, hcommits, haborts, Bool.or_false]
  rcases hends with ⟨begun, hbegun, hhandle⟩ | hsure
  · obtain ⟨_, _, -, hmeanwhile, -⟩ := hrest.split hmem
    exact (hbefore.append hmeanwhile).not_failsLog_of_begun ⟨begun, List.mem_append_left _ hbegun, hhandle⟩
  · exact hsure event hmem

/-- A transaction opens a sequential scan of a table.  Until it commits or is rolled back, no call but a
statement or an abort of its own changes a row or an index entry of the table, and no row of it is altered by
another transaction that has not let go.  So if the transaction leaves the table as it is too, any sequential
scan of the table that is opened meanwhile hands out, however it is interleaved with other calls, the rows that
were there at first, each once and in storage order, and then nothing; and the transaction can open one again
unless it has been marked aborted.

An end whose record is lost in the log lets go of the table as well, without the transaction being committed
or rolled back.  This does not happen to a transaction that was begun, but may to one that was taken in. -/
theorem sequential_scan_isolated (hbefore : Run start before s₀) (hfresh : start.IsFresh)
    (hcatalog : start.db.catalog.Sound) (hscan : s₀.scans[i]? = some scan) (hplan : scan.plan = .sequential)
    (hopen : (s₀.step (.initScan i)).1 = .ok .done) (hrest : Run (s₀.step (.initScan i)).2 rest s)
    (hhand : ∀ event ∈ before ++ rest, event.call.isByHand = false)
    (hheld : ∀ event ∈ rest, event.commits scan.owner = false ∧ event.aborts scan.owner = false)
    (hends : (∃ event ∈ before, event.call = .begin ∧ event.answer = .ok (.handle scan.owner)) ∨
      ∀ event ∈ rest, event.call = .commit scan.owner ∨ event.call = .abort scan.owner →
        event.failsLog = false)
    (hids : s.db.DistinctIds) :
    let live := s₀.db.catalog.liveRows scan.table
    let since : List Event := ⟨s₀, .initScan i⟩ :: rest
    (∀ event ∈ rest, event.call.mayWriteFor scan.owner = false →
      event.after.db.catalog.liveRows scan.table = event.before.db.catalog.liveRows scan.table ∧
        event.after.db.catalog.indexEntries scan.table =
          event.before.db.catalog.indexEntries scan.table) ∧
    (∀ h, h ≠ scan.owner → ∀ rid, isUncommitted (before ++ since) h scan.table rid = false) ∧
    ((∀ event ∈ rest, event.call.mayWriteFor scan.owner = true →
        event.after.db.catalog.liveRows scan.table = event.before.db.catalog.liveRows scan.table) →
      (live.Pairwise fun a b => compare a.1 b.1 = .lt) ∧
      (∀ rid row, (rid, row) ∈ live ↔ s₀.db.catalog.rows scan.table rid = some row) ∧
      ∀ j again, s.scans[j]? = some again → again.table = scan.table → again.plan = .sequential →
        (∀ n, pulledSinceOpened since j = some n → (s.step (.nextScan j)).1 = .ok (.tuple live[n]?)) ∧
        (again.owner = scan.owner → s.db.isActive scan.owner = true →
          (s.step (.initScan j)).1 = .ok .done)) := by
  intro live since
  have heffect := s₀.step_effect (.initScan i)
  have hsince : Run s₀ since s := .cons _ hrest
  have hids₁ := (hrest.distinctIds hids).1
  have hids₀ := (hsince.distinctIds hids).1
  obtain ⟨hhand₀, hhand₁⟩ := List.forall_mem_append.mp hhand
  have hg₀ := (hbefore.guarded (hfresh.guarded hcatalog) hids₀ hhand₀).1
  have hg₁ := heffect.guarded hg₀ hids₁ rfl
  have hi₀ : s₀.db.locks.Intended := by
    refine hbefore.intended hfresh hids₀ fun event hmem h table heq => ?_
    have hkept := hhand₀ event hmem
    rw [heq] at hkept
    cases hkept
  have hi₁ := heffect.intended hi₀ hg₀.toLocksExact (by simp)
  have hkeeping : ∀ event ∈ rest, event.letsGo scan.owner = false := by
    refine (hbefore.snoc (.initScan i)).letsGo_eq_false hrest hheld (hends.imp_left ?_)
    rintro ⟨begun, hbegun, hhandle⟩
    exact ⟨begun, List.mem_append_left _ hbegun, hhandle⟩
  obtain ⟨hactive₀, hholds₁⟩ := Session.initScan_holdsTable hscan hplan hopen
  have hlt₁ := Nat.lt_of_lt_of_le (lt_of_isActive hactive₀) heffect.keepsIds.size
  obtain ⟨⟨hlt, hi, hholds⟩, hrows⟩ := hrest.isolated hg₁ hi₁ hids hhand₁ hlt₁ hholds₁ hkeeping
  have htables : ∀ event ∈ since, event.before.db.catalog.Sound ∧ event.after.db.catalog.Sound ∧
      event.after.db.catalog.shapes = event.before.db.catalog.shapes := by
    intro event hmem
    obtain ⟨_, _, -, hrun, -⟩ := hsince.split hmem
    have hs := (hrun.tables hg₀.catalog).1
    exact ⟨hs, (event.before.step_effect event.call).tables hs⟩
  refine ⟨fun event hmem hothers => ?_, fun h hne rid => ?_, fun hown => ?_⟩
  · obtain ⟨hs, hs', hshapes⟩ := htables event (List.mem_cons_of_mem _ hmem)
    have hsame := hrows event hmem hothers
    exact ⟨Catalog.liveRows_congr hs hs' hsame, Catalog.indexEntries_congr hs hs' hshapes hsame⟩
  · rw [Bool.eq_false_iff]
    intro hopen'
    have hfull := hbefore.append hsince
    have hhand' : ∀ event ∈ before ++ since, event.call.isByHand = false :=
      List.forall_mem_append.mpr ⟨hhand₀, List.forall_mem_cons.mpr ⟨rfl, hhand₁⟩⟩
    obtain ⟨hlt', hwritten⟩ := hfull.holdsWritten (hfresh.guarded hcatalog) hids hhand' hopen'
    have hs := (hfull.guarded (hfresh.guarded hcatalog) hids hhand').1.sound
    exact hne ((Protects.of_holdsTable hholds).eq_of_holdsWritten hi hs hids hlt hlt' hwritten)
  · refine ⟨hg₀.catalog.pairwise_liveRows _, fun rid row => hg₀.catalog.mem_liveRows, ?_⟩
    intro j again hagain htable hplan'
    -- Nobody has altered the table: not by opening the scan, not meanwhile.
    have hkept : ∀ event ∈ since, event.before.db.catalog.liveRows scan.table = live →
        event.after.db.catalog.liveRows scan.table = live := by
      intro event hmem hlive
      obtain ⟨hs, hs', -⟩ := htables event hmem
      rw [← hlive]
      rcases List.mem_cons.mp hmem with rfl | hmem
      · refine Catalog.liveRows_congr hs hs' fun rid => ?_
        by_contra halters
        obtain ⟨_, -, hwrites, -⟩ := heffect.holdsWritten hg₀ halters
        cases hwrites
      · cases hmine : event.call.mayWriteFor scan.owner with
        | true => exact hown event hmem hmine
        | false => exact Catalog.liveRows_congr hs hs' (hrows event hmem hmine)
    have hsound := (hsince.tables hg₀.catalog).1
    refine ⟨fun n hpulled => hsince.nextScan_eq hsound hkept hagain htable hplan' hpulled,
      fun howner hactive => ?_⟩
    exact Session.initScan_succeeds hagain hplan' (howner ▸ hactive) (howner ▸ htable ▸ hholds)

/-- Between two tuples of a scan, another transaction wants to update the row that comes next, is refused and is
rolled back; the scan hands the row out as it was, and can be opened again. -/
theorem sequential_scan_isolated_update :
    let calls : List Call := [.begin, .run 0 (.insert "t" [5]), .run 0 (.insert "t" [3]), .commit 0,
      .begin, .openScan 1 "t" .sequential]
    let meanwhile : List Call := [.nextScan 0, .begin, .run 2 (.update "t" ⟨0, 1⟩ [9]), .abort 2]
    let s := ((Session.oneTable.play calls).step (.initScan 0)).2.play meanwhile
    (s.step (.nextScan 0)).1 = .ok (.tuple (some (⟨0, 1⟩, [3]))) ∧ (s.step (.initScan 0)).1 = .ok .done := by
  intro calls meanwhile s
  let scan : Scan := { owner := 1, table := "t", plan := .sequential }
  have hscan : (Session.oneTable.play calls).scans[0]? = some scan := by decide +kernel
  obtain ⟨-, -, hscans⟩ := sequential_scan_isolated (.of_calls Session.oneTable calls)
    Session.oneTable_isFresh Session.oneTable_sound hscan rfl (by decide +kernel)
    (.of_calls _ meanwhile) (by decide +kernel) (by decide +kernel) (.inl (by decide +kernel))
    (by decide +kernel)
  obtain ⟨-, -, hanswers⟩ := hscans (by decide +kernel)
  obtain ⟨hnext, hagain⟩ := hanswers 0 { scan with pending := [⟨0, 1⟩] } (by decide +kernel) rfl rfl
  refine ⟨?_, hagain rfl (by decide +kernel)⟩
  rw [hnext 1 (by decide +kernel)]
  decide +kernel

end NoWait
