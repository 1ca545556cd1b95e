import NoWait.Proofs.Statements

/-!
# What a scan hands out, and what it locks

A scan is quiet.  Opening a range scan locks the gap of its range and lists the positions that the index
has there; a visit locks the position, and hands out the row that it finds.

* `lockRange_ends` and `positions_ends` are about opening a scan;
* `visit_ends` is one visit, `nextFrom_spec` a row handed out: the positions visited on the way there are
  locked, and give exactly the tuple handed out, if there is one.
-/

namespace NoWait

open Database

/-- What a range scan has to do with a database: the owner holds the gap of the range, and the positions
are the ones that the index has in the range. -/
structure Listed (h : Handle) (name : String) (range : KeyRange) (rids : List Rid) (db db' : Database) :
    Prop extends Granted h db db' where
  active' : db.isActive h = true
  listed : ∃ table index, db.catalog.get? name = some table ∧ table.index = some index ∧
    rids = index.keys.ridsBetween range.start range.stop ∧
    (table.id, { txn := (db.txn h).id, start := range.start, stop := range.stop }) ∈ db'.gaps.entries

namespace Database

/-- A transaction that has the range locked holds its gap. -/
theorem lockRange_ends (h : Handle) (name : String) (range : KeyRange) (db : Database) :
    (lockRange h name range).Ends db
      (fun ends db' => ends = (range.start, range.stop) ∧ db.isActive h = true ∧ Granted h db db' ∧
        ∃ table, db.catalog.get? name = some table ∧
          (table.id, { txn := (db.txn h).id, start := range.start, stop := range.stop }) ∈
            db'.gaps.entries)
      fun _ db' => Quiet h db db' := by
  simp only [lockRange]
  rw [Action.ends_bind]
  refine (table_ends name db).mono ?_ ?_
  · rintro table db ⟨rfl, hget⟩
    split
    · exact .refl h db
    · rw [Action.ends_bind, Action.ends_mapError]
      refine (lockGap_ends h table.id range.start range.stop db).mono ?_ ?_
      · rintro granted db' ⟨hactive, hgranted, hentry⟩
        cases granted with
        | true => exact ⟨rfl, hactive, hgranted, table, hget, hentry rfl⟩
        | false =>
          simp only [Bool.not_false, if_true, Action.ends_bind, Action.ends_mapError]
          refine (refuse_ends h .gapConflict db').mono (fun _ _ hok => hok) ?_
          rintro _ last ⟨hstop, _⟩
          exact hgranted.toQuiet.trans hstop.toQuiet
      · rintro _ db' ⟨hstop, _⟩
        exact hstop.toQuiet
  · rintro _ db ⟨rfl, _⟩
    exact .refl h db

end Database

namespace Scan

variable {db db' : Database} {scan : Scan}

/-- Opening a scan is quiet; if it is a range scan, its range is locked and listed. -/
theorem positions_ends (scan : Scan) (db : Database) :
    scan.positions.Ends db
      (fun rids db' => Quiet scan.owner db db' ∧ ∀ range, scan.plan = .range range →
        Listed scan.owner scan.table range rids db db')
      fun _ db' => Quiet scan.owner db db' := by
  unfold positions
  cases hplan : scan.plan with
  | sequential =>
    simp only [Action.ends_bind]
    refine (table_ends scan.table db).mono ?_ ?_
    · rintro table db ⟨rfl, hget⟩
      rw [Action.ends_mapError]
      refine (acquire_ends scan.owner (.table table.id) .shared db).mono ?_ ?_
      · rintro _ mid ⟨_, hgranted, _⟩
        refine (table_ends scan.table mid).mono ?_ ?_
        · rintro _ mid ⟨rfl, _⟩
          exact ⟨hgranted.toQuiet, fun range hrange => by cases hrange⟩
        · rintro _ mid ⟨rfl, _⟩
          exact hgranted.toQuiet
      · rintro _ mid (⟨hstop, _⟩ | ⟨rfl, _⟩)
        · exact hstop.toQuiet
        · exact .refl _ _
    · rintro _ db ⟨rfl, _⟩
      exact .refl _ _
  | range range =>
    simp only [Action.ends_bind]
    refine (lockRange_ends scan.owner scan.table range db).mono ?_ fun _ _ hquiet => hquiet
    rintro ends mid ⟨rfl, hactive, hgranted, table, hget, hentry⟩
    have hmid : mid.catalog.get? scan.table = some table := by rw [hgranted.catalog, hget]
    refine (table_succeeds hmid).ends ?_
    rintro table mid ⟨rfl, rfl⟩
    cases hindex : table.index with
    | none => exact hgranted.toQuiet
    | some index =>
      refine ⟨hgranted.toQuiet, fun range' hrange => ?_⟩
      cases hrange
      exact ⟨hgranted, hactive, table, index, hget, hindex, rfl, hentry⟩

/-- A visit is quiet; that of a range scan locks the position and finds the row there, if any. -/
theorem visit_ends (scan : Scan) (rid : Rid) (db : Database) :
    (scan.visit rid).Ends db
      (fun row db' => Quiet scan.owner db db' ∧ ∀ range, scan.plan = .range range →
        Granted scan.owner db db' ∧ db'.HoldsRow scan.owner scan.table rid ∧
          row = db.catalog.rows scan.table rid)
      fun _ db' => Quiet scan.owner db db' := by
  unfold visit
  cases hplan : scan.plan with
  | sequential =>
    simp only [rowAt, Action.ends_bind]
    refine (table_ends scan.table db).mono ?_ ?_
    · rintro table db ⟨rfl, hget⟩
      cases hrow : table.heap.get rid with
      | ok row => exact ⟨.refl _ _, fun range hrange => by cases hrange⟩
      | error error => exact .refl _ _
    · rintro _ db ⟨rfl, _⟩
      exact .refl _ _
  | range range =>
    simp only [Action.ends_bind]
    refine (lockRow_ends scan.owner scan.table rid (.inl rfl) db).mono ?_ ?_
    · rintro _ mid ⟨table, hget, _, hgranted, held, hheld, hcovers⟩
      have hmid : mid.catalog.get? scan.table = some table := by rw [hgranted.catalog, hget]
      have hholds : mid.HoldsRow scan.owner scan.table rid :=
        .of_heldMode hmid hgranted.id hheld hcovers
      refine (table_succeeds hmid).ends ?_
      rintro table mid ⟨rfl, rfl⟩
      have hrows : db.catalog.rows scan.table rid = table.heap.row? rid := Catalog.rows_of_get? hget
      cases hrow : table.heap.row? rid with
      | some row =>
        simp only [Heap.get_eq, hrow]
        exact ⟨hgranted.toQuiet, fun _ _ => ⟨hgranted, hholds, by rw [hrows, hrow]⟩⟩
      | none =>
        simp only [Heap.get_eq, hrow]
        exact ⟨hgranted.toQuiet, fun _ _ => ⟨hgranted, hholds, by rw [hrows, hrow]⟩⟩
    · rintro _ mid (⟨hstop, _⟩ | ⟨rfl, _⟩)
      · exact hstop.toQuiet
      · exact .refl _ _

/-- The tuples at some positions: those at which there is a row. -/
def tuplesAt (rows : Rows) (name : String) (rids : List Rid) : List (Rid × Bytes) :=
  rids.filterMap fun rid => (rows name rid).map fun row => (rid, row)

theorem mem_tuplesAt {rows : Rows} {name : String} {rids : List Rid} {tuple : Rid × Bytes} :
    tuple ∈ tuplesAt rows name rids ↔ tuple.1 ∈ rids ∧ rows name tuple.1 = some tuple.2 := by
  unfold tuplesAt
  rw [List.mem_filterMap]
  constructor
  · rintro ⟨rid, hmem, htuple⟩
    obtain ⟨row, hrow, rfl⟩ := Option.map_eq_some_iff.mp htuple
    exact ⟨hmem, hrow⟩
  · rintro ⟨hmem, hrow⟩
    exact ⟨tuple.1, hmem, by rw [hrow]; rfl⟩

theorem tuplesAt_congr {rows rows' : Rows} {name : String} {rids : List Rid}
    (h : ∀ rid ∈ rids, rows' name rid = rows name rid) :
    tuplesAt rows' name rids = tuplesAt rows name rids :=
  List.filterMap_congr fun rid hmem => by rw [h rid hmem]

theorem tuplesAt_append {rows : Rows} {name : String} (rids rids' : List Rid) :
    tuplesAt rows name (rids ++ rids') = tuplesAt rows name rids ++ tuplesAt rows name rids' :=
  List.filterMap_append ..

/-- The positions that a range scan visits are locked, and what it hands out is what there is at them; only
an active transaction gets to visit any. -/
structure Visited (scan : Scan) (visited : List Rid) (tuple : Option (Rid × Bytes)) (db db' : Database) :
    Prop where
  catalog : db'.catalog = db.catalog
  holds : ∀ rid ∈ visited, db'.HoldsRow scan.owner scan.table rid
  tuple : tuple.toList = tuplesAt db.catalog.rows scan.table visited
  active : visited ≠ [] → db.isActive scan.owner = true

/-- Handing out the next tuple is quiet.  A range scan takes the positions that it visits off its list,
and takes all of them off when it has no tuple to hand out. -/
theorem nextFrom_spec (scan : Scan) (db : Database) (pending : List Rid) :
    match scan.nextFrom db pending with
    | .ok tuple (db', scan') =>
      Quiet scan.owner db db' ∧ (∃ rest, scan' = { scan with pending := rest } ∧
        ∀ range, scan.plan = .range range → ∃ visited, pending = visited ++ rest ∧
          Visited scan visited tuple db db' ∧ (tuple = none → rest = []))
    | .error _ (db', scan') =>
      Quiet scan.owner db db' ∧ ∃ rest, scan' = { scan with pending := rest } := by
  induction pending generalizing db with
  | nil =>
    refine ⟨.refl _ _, [], rfl, fun range _ => ⟨[], rfl, ⟨rfl, ?_, rfl, ?_⟩, fun _ => rfl⟩⟩
    · simp
    · simp
  | cons rid rest ih =>
    have hvisit := visit_ends scan rid db
    unfold Action.Ends at hvisit
    unfold nextFrom
    cases hrun : scan.visit rid db with
    | error error mid =>
      rw [hrun] at hvisit
      exact ⟨hvisit, rest, rfl⟩
    | ok row mid =>
      rw [hrun] at hvisit
      obtain ⟨hquiet, hrange⟩ := hvisit
      cases row with
      | some row =>
        refine ⟨hquiet, rest, rfl, fun range hplan => ?_⟩
        obtain ⟨hgranted, hholds, hrow⟩ := hrange range hplan
        refine ⟨[rid], rfl, ⟨hgranted.catalog, ?_, ?_, fun _ => hgranted.active_before⟩,
          fun hnone => by cases hnone⟩
        · intro r hr
          rw [List.mem_singleton.mp hr]
          exact hholds
        · simp [tuplesAt, ← hrow]
      | none =>
        simp only
        have hrest := ih mid
        cases hnext : scan.nextFrom mid rest with
        | error error last =>
          rw [hnext] at hrest
          exact ⟨hquiet.trans hrest.1, hrest.2⟩
        | ok tuple last =>
          rw [hnext] at hrest
          obtain ⟨hquiet', rest', hscan, hvisited⟩ := hrest
          refine ⟨hquiet.trans hquiet', rest', hscan, fun range hplan => ?_⟩
          obtain ⟨hgranted, hholds, hrow⟩ := hrange range hplan
          obtain ⟨visited, rfl, hv, hend⟩ := hvisited range hplan
          refine ⟨rid :: visited, rfl, ⟨hv.catalog.trans hgranted.catalog, ?_, ?_,
            fun _ => hgranted.active_before⟩, hend⟩
          · intro r hr
            rcases List.mem_cons.mp hr with rfl | hr
            · exact hholds.keeps hquiet'.toKeeps (by rw [hv.catalog])
            · exact hv.holds r hr
          · rw [hv.tuple, hgranted.catalog]
            simp [tuplesAt, ← hrow]

end Scan

end NoWait
