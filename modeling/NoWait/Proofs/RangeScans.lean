import NoWait.Proofs.Guard
import NoWait.Proofs.Ranges

/-!
# What a range scan may rely on

A transaction that has scanned a range holds the gap of the range and every row that it has looked at.
As long as it neither ends nor writes to the table itself, it keeps both: the rows stay as they are, and
nobody can write a new key into the range.  But the gap is not asked when another transaction is rolled
back.

* `Catalog.InRange` says that there is a row at a position with its key in a range, `IsAscending` that
  tuples come in the order of their keys;
* `Run.holdsRow` says that a row that is held stays, `Run.entered` that a row that comes into a range that
  is held is put there by the rollback of another transaction.
-/

namespace NoWait

open Database

/-! ### Tuples and ranges -/

/-- The key of a row in the table of a name, if it is there and is indexed. -/
def Catalog.keyOf? (catalog : Catalog) (name : String) (row : Bytes) : Option Bytes :=
  (catalog.shapes name).bind (·.keyOf? row)

/-- Whether there is a row at a position whose key lies in a range. -/
def Catalog.InRange (catalog : Catalog) (name : String) (range : KeyRange) (rid : Rid) : Prop :=
  ∃ key, (catalog.rows name rid).bind (catalog.keyOf? name) = some key ∧ range.contains key = true

/-- Whether tuples come in ascending order of their keys, and of their positions where keys are equal. -/
def Catalog.IsAscending (catalog : Catalog) (name : String) (tuples : List (Rid × Bytes)) : Prop :=
  tuples.Pairwise fun a b => ∀ k l, catalog.keyOf? name a.2 = some k → catalog.keyOf? name b.2 = some l →
    (IndexEntry.compare (k, a.1) (l, b.1)).isLE = true

namespace Catalog

variable {catalog : Catalog} {table : Table} {index : TableIndex} {name : String} {range : KeyRange}
  {rid : Rid}

theorem keyOf?_of_shapes {shape : TableShape} (hshape : catalog.shapes name = some shape) :
    catalog.keyOf? name = shape.keyOf? := by
  funext row
  rw [keyOf?, hshape, Option.bind_some]

theorem keyOf?_of_get? (hget : catalog.get? name = some table) :
    catalog.keyOf? name = table.keyOf? := by
  rw [keyOf?_of_shapes (shapes_of_get? hget)]
  exact (funext table.keyOf?_eq).symm

/-- The keys of rows follow from the shapes of the tables. -/
theorem keyOf?_congr {catalog' : Catalog} (hshapes : catalog'.shapes = catalog.shapes) :
    catalog'.keyOf? = catalog.keyOf? := by
  funext name row
  rw [keyOf?, hshapes, keyOf?]

theorem Sound.mem_entries (h : catalog.Sound) (hget : catalog.get? name = some table)
    (hindex : table.index = some index) (key : Bytes) (rid : Rid) :
    (key, rid) ∈ index.keys.entries ↔
      (catalog.rows name rid).bind (catalog.keyOf? name) = some key := by
  rw [(h.table _ _ hget).mem_entries hindex, rows_of_get? hget, keyOf?_of_get? hget]

/-- What an index lists are the positions of the rows with keys in the range. -/
theorem Sound.mem_ridsBetween (h : catalog.Sound) (hget : catalog.get? name = some table)
    (hindex : table.index = some index) :
    rid ∈ index.keys.ridsBetween range.start range.stop ↔ catalog.InRange name range rid := by
  rw [KeyIndex.ridsBetween_eq, List.mem_map]
  constructor
  · rintro ⟨⟨key, rid⟩, hmem, rfl⟩
    rw [List.mem_filter] at hmem
    exact ⟨key, (h.mem_entries hget hindex key rid).mp hmem.1, hmem.2⟩
  · rintro ⟨key, hkey, hcontains⟩
    exact ⟨(key, rid), List.mem_filter.mpr ⟨(h.mem_entries hget hindex key rid).mpr hkey, hcontains⟩, rfl⟩

/-- No position is listed twice. -/
theorem Sound.nodup_ridsBetween (h : catalog.Sound) (hget : catalog.get? name = some table)
    (hindex : table.index = some index) : (index.keys.ridsBetween range.start range.stop).Nodup := by
  rw [KeyIndex.ridsBetween_eq]
  refine List.Nodup.map_on ?_ (((h.table _ _ hget).nodup_entries hindex).filter _)
  rintro ⟨key, rid⟩ hmem ⟨key', rid'⟩ hmem' (rfl : rid = rid')
  rw [List.mem_filter, h.mem_entries hget hindex] at hmem hmem'
  rw [Option.some.inj (hmem.1.symm.trans hmem'.1)]

end Catalog

namespace Scan

variable {rows rows' : Rows} {name : String} {rids : List Rid} {tuple : Rid × Bytes}

theorem nodup_tuplesAt (h : rids.Nodup) : (tuplesAt rows name rids).Nodup := by
  unfold tuplesAt
  refine List.Nodup.filterMap (fun a a' b hb hb' => ?_) h
  obtain ⟨_, _, rfl⟩ := Option.map_eq_some_iff.mp hb
  obtain ⟨_, _, heq⟩ := Option.map_eq_some_iff.mp hb'
  exact (congrArg Prod.fst heq).symm

/-- Tuples whose keys are the ones under which they were listed come in ascending order. -/
theorem isAscending_tuplesAt {catalog last : Catalog} {table : Table} {index : TableIndex}
    {range : KeyRange} (h : catalog.Sound) (hget : catalog.get? name = some table)
    (hindex : table.index = some index) (hshapes : last.shapes = catalog.shapes)
    (hrows : ∀ tuple ∈ tuplesAt rows name (index.keys.ridsBetween range.start range.stop),
      catalog.rows name tuple.1 = some tuple.2) :
    last.IsAscending name (tuplesAt rows name (index.keys.ridsBetween range.start range.stop)) := by
  have hkeyOf : last.keyOf? = catalog.keyOf? := Catalog.keyOf?_congr hshapes
  -- A tuple that is handed out for an entry has the key of the entry.
  have hentry : ∀ entry ∈ index.keys.entries.filter fun entry => range.contains entry.1,
      ∀ row key, rows name entry.2 = some row → last.keyOf? name row = some key → key = entry.1 := by
    intro entry hmem row key hrow hkey
    have hlisted : (entry.2, row) ∈
        tuplesAt rows name (index.keys.ridsBetween range.start range.stop) := by
      rw [mem_tuplesAt, KeyIndex.ridsBetween_eq]
      exact ⟨List.mem_map_of_mem hmem, hrow⟩
    have hkey' := (h.mem_entries hget hindex entry.1 entry.2).mp (List.mem_of_mem_filter hmem)
    rw [hrows _ hlisted, Option.bind_some, ← hkeyOf, hkey] at hkey'
    exact Option.some.inj hkey'
  have hsorted := index.keys.pairwise_entries.filter fun entry => range.contains entry.1
  unfold Catalog.IsAscending
  conv => arg 2; rw [tuplesAt, KeyIndex.ridsBetween_eq, List.filterMap_map]
  rw [List.pairwise_filterMap]
  refine hsorted.imp_of_mem fun {a b} ha hb hle tuple htuple tuple' htuple' k l hk hl => ?_
  obtain ⟨row, hrow, rfl⟩ := Option.map_eq_some_iff.mp htuple
  obtain ⟨row', hrow', rfl⟩ := Option.map_eq_some_iff.mp htuple'
  rw [hentry a ha row k hrow hk, hentry b hb row' l hrow' hl]
  exact hle

end Scan

/-! ### What a transaction keeps while it is spared -/

/-- Whether a call neither ends a transaction nor writes for it into a table, and gives nothing up by
hand. -/
structure Call.Spares (call : Call) (h : Handle) (name : String) : Prop where
  byHand : call.isByHand = false
  ends : call ≠ .commit h ∧ call ≠ .abort h
  writes : ∀ statement, call = .run h statement → statement.written? ≠ some name

/-- Whether a transaction holds the gap of a range on the index of a table. -/
structure Database.HoldsRange (db : Database) (h : Handle) (name : String) (range : KeyRange) :
    Prop where
  lt : h < db.transactions.size
  gap : ∃ shape, db.catalog.shapes name = some shape ∧
    (shape.id, { txn := (db.txn h).id, start := range.start, stop := range.stop }) ∈ db.gaps.entries

variable {s s' : Session} {call : Call} {answer : Except StatementError Answer} {db' : Database}
  {trace : List Event} {h : Handle} {name : String} {range : KeyRange} {rid : Rid}

/-- A transaction keeps its gaps until it ends. -/
theorem Effect.gap (heffect : Effect s call answer db') (hids : db'.DistinctIds)
    (hspares : call.Spares h name) (hlt : h < s.db.transactions.size) {entry : TableId × Gap}
    (hmem : entry ∈ s.db.gaps.entries) (htxn : entry.2.txn = (s.db.txn h).id) :
    entry ∈ db'.gaps.entries := by
  have hids₀ : s.db.DistinctIds := heffect.keepsIds.distinctIds hids
  have hleftBehind : ∀ {h' db}, LeftBehind h' db db' → h' ≠ h → db.gaps = s.db.gaps →
      (∀ h, (db.txn h).id = (s.db.txn h).id) → h' < s.db.transactions.size →
      entry ∈ db'.gaps.entries := by
    intro h' db hleft hne hgaps hid hlt'
    rw [hleft.gaps, hgaps, hid, GapTable.release, List.mem_filter]
    refine ⟨hmem, ?_⟩
    rw [htxn, decide_eq_true_iff]
    exact fun heq => hne (hids₀ h hlt h' hlt' heq).symm
  cases heffect with
  | arrived harrived _ => rwa [harrived.gaps]
  | untouched huntouched _ _ => rwa [huntouched.gaps]
  | ran houtcome => exact houtcome.keeps.gaps entry hmem
  | quiet hquiet _ _ => exact hquiet.gaps entry hmem
  | commitRefused _ => exact hmem
  | committed _ hleft _ =>
    exact hleftBehind hleft (fun heq => hspares.ends.1 (by rw [heq])) rfl (fun _ => rfl) hleft.lt
  | commitLost hleft _ =>
    exact hleftBehind hleft (fun heq => hspares.ends.1 (by rw [heq])) rfl (fun _ => rfl) hleft.lt
  | abortRefused _ => exact hmem
  | abortStuck _ _ => exact hmem
  | aborted hlt' _ hleft _ =>
    exact hleftBehind hleft (fun heq => hspares.ends.2 (by rw [heq])) rfl
      (keeps_rolledBack _ s.db [] _).ids hlt'
  | released _ => cases hspares.byHand
  | releasedAll _ => cases hspares.byHand
  | releasedGaps _ => cases hspares.byHand

theorem Effect.holdsRange (heffect : Effect s call answer db') (hg : s.db.Guarded)
    (hids : db'.DistinctIds) (hspares : call.Spares h name) (hholds : s.db.HoldsRange h name range) :
    db'.HoldsRange h name range := by
  obtain ⟨hlt, shape, hshape, hmem⟩ := hholds
  have hkeeps := heffect.keepsIds
  refine ⟨Nat.lt_of_lt_of_le hlt hkeeps.size, shape, heffect.shapes hg ▸ hshape, ?_⟩
  rw [hkeeps.id h hlt]
  exact heffect.gap hids hspares hlt hmem rfl

theorem Catalog.InRange.congr {catalog catalog' : Catalog} (hin : catalog.InRange name range rid)
    (hshapes : catalog'.shapes = catalog.shapes)
    (hrow : catalog'.rows name rid = catalog.rows name rid) : catalog'.InRange name range rid := by
  obtain ⟨key, hkey, hcontains⟩ := hin
  exact ⟨key, by rw [hrow, keyOf?_congr hshapes, hkey], hcontains⟩

/-- No write brings a row into a range that another transaction holds. -/
theorem Database.Wrote.not_entered {db : Database} {h' : Handle} {write : WriteRecord}
    {row : Option Bytes} (hw : Wrote h' write row db db') (hg : db.Guarded) (hids : db.DistinctIds)
    (hholds : db.HoldsRange h name range) (hne : h' = h → write.table ≠ name)
    (hout : ¬ db.catalog.InRange name range rid) : ¬ db'.catalog.InRange name range rid := by
  intro hin
  have hchange := hw.change hg.catalog
  by_cases hat : write.isAt name rid
  · obtain ⟨rfl, rfl⟩ := hat
    have hh : h' ≠ h := fun heq => hne heq rfl
    obtain ⟨hlt, shape, hshape, hmem⟩ := hholds
    obtain ⟨shape', hshape', _, hgap⟩ := hchange.lock
    rw [hshape] at hshape'
    cases hshape'
    obtain ⟨key, hkey, hcontains⟩ := hin
    have hkeyOf : db.catalog.keyOf? write.table = shape.keyOf? := Catalog.keyOf?_of_shapes hshape
    rw [hchange.rows, Rows.set_self, Catalog.keyOf?_congr hchange.shapes, hkeyOf] at hkey
    have hfree := hgap key hkey fun hold =>
      hout ⟨key, by rw [← hchange.image, hkeyOf, hold], hcontains⟩
    have hblocks : db.gaps.blocks (db.txn h').id shape.id (.before key) = true := by
      refine GapTable.blocks_iff.mpr ⟨_, hmem, fun heq => ?_, ?_⟩
      · exact hh (hids h hlt h' (lt_of_isActive hw.active) heq).symm
      · rw [Gap.contains_range]
        exact hcontains
    rw [hfree] at hblocks
    cases hblocks
  · refine hout (hin.congr hchange.shapes.symm ?_)
    rw [hchange.rows, Rows.set_of_ne hat]

/-- A row that comes into a locked range is put there by the rollback of another transaction. -/
theorem Effect.entered (heffect : Effect s call answer db') (hg : s.db.Guarded) (hids : db'.DistinctIds)
    (hspares : call.Spares h name) (hholds : s.db.HoldsRange h name range)
    (hout : ¬ s.db.catalog.InRange name range rid) (hin : db'.catalog.InRange name range rid) :
    ∃ h', h' ≠ h ∧ call = .abort h' := by
  have hids₀ : s.db.DistinctIds := heffect.keepsIds.distinctIds hids
  have hshapes := heffect.shapes hg
  have hsame : db'.catalog.rows = s.db.catalog.rows → ∃ h', h' ≠ h ∧ call = .abort h' :=
    fun hrows => absurd (hin.congr hshapes.symm (by rw [hrows])) hout
  cases heffect with
  | arrived harrived _ => exact hsame (by rw [harrived.catalog])
  | untouched huntouched _ _ => exact hsame (by rw [huntouched.catalog])
  | @ran h' statement _ _ houtcome =>
    have hne : ∀ {write : WriteRecord}, statement.written? = some write.table → h' = h →
        write.table ≠ name := by
      rintro write hname rfl heq
      exact hspares.writes statement rfl (heq ▸ hname)
    cases houtcome.did with
    | quiet hquiet _ => exact hsame (hquiet.rows hg.catalog).rows
    | wrote _ _ hw hname _ _ => exact absurd hin (hw.not_entered hg hids₀ hholds (hne hname) hout)
    | missed _ hw hname _ _ => exact absurd hin (hw.not_entered hg hids₀ hholds (hne hname) hout)
  | quiet hquiet _ _ => exact hsame (hquiet.rows hg.catalog).rows
  | commitRefused _ => exact hsame rfl
  | committed _ hleft _ => exact hsame (by rw [hleft.catalog])
  | commitLost hleft _ => exact hsame (by rw [hleft.catalog])
  | abortRefused _ => exact hsame rfl
  | abortStuck _ _ => exact ⟨_, fun heq => hspares.ends.2 (by rw [heq]), rfl⟩
  | aborted _ _ _ _ => exact ⟨_, fun heq => hspares.ends.2 (by rw [heq]), rfl⟩
  | released _ => exact hsame rfl
  | releasedAll _ => exact hsame rfl
  | releasedGaps _ => exact hsame rfl

/-! ### Runs that spare a transaction -/

/-- A transaction that holds a range goes on holding it. -/
theorem Run.holdsRange (hrun : Run s trace s') (hg : s.db.Guarded) (hids : s'.db.DistinctIds)
    (hspares : ∀ event ∈ trace, event.call.Spares h name) (hholds : s.db.HoldsRange h name range) :
    s'.db.HoldsRange h name range ∧ ∀ event ∈ trace, event.before.db.HoldsRange h name range := by
  induction hrun with
  | nil => exact ⟨hholds, by simp⟩
  | @snoc trace mid call hrun ih =>
    have heffect := mid.step_effect call
    have hids₀ : mid.db.DistinctIds := heffect.keepsIds.distinctIds hids
    have hspares₀ : ∀ event ∈ trace, event.call.Spares h name :=
      fun event hmem => hspares event (List.mem_append_left _ hmem)
    have hmid := (hrun.guarded hg hids₀ fun event hmem => (hspares₀ event hmem).byHand).1
    obtain ⟨hholds₀, hbefore⟩ := ih hids₀ hspares₀
    refine ⟨heffect.holdsRange hmid hids (hspares ⟨mid, call⟩ (by simp)) hholds₀, fun event hmem => ?_⟩
    rcases List.mem_append.mp hmem with hmem | hmem
    · exact hbefore event hmem
    · rw [List.mem_singleton.mp hmem]
      exact hholds₀

/-- A row that has come into a locked range in a run was put there by the rollback of another
transaction. -/
theorem Run.entered (hrun : Run s trace s') (hg : s.db.Guarded) (hids : s'.db.DistinctIds)
    (hspares : ∀ event ∈ trace, event.call.Spares h name) (hholds : s.db.HoldsRange h name range)
    (hout : ¬ s.db.catalog.InRange name range rid) (hin : s'.db.catalog.InRange name range rid) :
    ∃ event ∈ trace, (∃ h', h' ≠ h ∧ event.call = .abort h') ∧
      ¬ event.before.db.catalog.InRange name range rid ∧
      event.after.db.catalog.InRange name range rid := by
  obtain ⟨-, hguarded⟩ := hrun.guarded hg hids fun event hmem => (hspares event hmem).byHand
  obtain ⟨-, hholds'⟩ := hrun.holdsRange hg hids hspares hholds
  obtain ⟨-, hids'⟩ := hrun.distinctIds hids
  by_contra hnone
  -- If no rollback puts a row there, there is none after any call.
  have hstays : ¬ s'.db.catalog.InRange name range rid := by
    refine hrun.invariant (fun t => ¬ t.db.catalog.InRange name range rid) hout ?_
    intro event hmem hout₀ hin₀
    have hrollback := (event.before.step_effect event.call).entered (hguarded event hmem)
      (hids' event hmem).2 (hspares event hmem) (hholds' event hmem) hout₀ hin₀
    exact hnone ⟨event, hmem, hrollback, hout₀, hin₀⟩
  exact hstays hin

/-- A row that a transaction has a hold on stays as it is, and the hold stays. -/
theorem Run.holdsRow (hrun : Run s trace s') (hg : s.db.Guarded) (hids : s'.db.DistinctIds)
    (hspares : ∀ event ∈ trace, event.call.Spares h name) (hlt : h < s.db.transactions.size)
    (hholds : s.db.HoldsRow h name rid) :
    s'.db.HoldsRow h name rid ∧ s'.db.catalog.rows name rid = s.db.catalog.rows name rid := by
  obtain ⟨-, hguarded⟩ := hrun.guarded hg hids fun event hmem => (hspares event hmem).byHand
  obtain ⟨-, hids'⟩ := hrun.distinctIds hids
  have hkept : s'.db.HoldsRow h name rid ∧
      s'.db.catalog.rows name rid = s.db.catalog.rows name rid ∧ h < s'.db.transactions.size := by
    refine hrun.invariant (fun t => t.db.HoldsRow h name rid ∧
      t.db.catalog.rows name rid = s.db.catalog.rows name rid ∧ h < t.db.transactions.size)
      ⟨hholds, rfl, hlt⟩ ?_
    rintro event hmem ⟨hholds₀, hrow₀, hlt₀⟩
    have heffect := event.before.step_effect event.call
    have hspared := hspares event hmem
    obtain ⟨hholds', hrow'⟩ := heffect.holdsRow (hguarded event hmem) (hids' event hmem).2
      hspared.byHand hlt₀ hholds₀ hspared.ends hspared.writes
    exact ⟨hholds', hrow'.trans hrow₀, Nat.lt_of_lt_of_le hlt₀ heffect.keepsIds.size⟩
  exact ⟨hkept.1, hkept.2.1⟩

end NoWait
