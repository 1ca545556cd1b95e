import NoWait.Bisect
import NoWait.Position
import NoWait.Rid

/-!
# The key index: a multiset of keys and positions in ascending order

An index holds pairs of a key and the position of a row with that key, and a pair may occur more than
once.  It is a list in ascending order of key and then of position, in which places are found by halving.

* `KeyIndex.insert` puts one more occurrence of a pair where it belongs, and `KeyIndex.delete` takes one
  away if there is one; `perm_insert` and `perm_delete` say so for the list, `count_insert` and
  `count_delete` for the number of occurrences;
* `KeyIndex.contains` says whether there is one to be taken away (`contains_iff`);
* `KeyIndex.ridsBetween` cuts out the entries between two index positions, and `KeyIndex.scan` those
  within a range of keys.
-/

namespace NoWait

/-- A key together with the position of a row that has it. -/
abbrev IndexEntry := Bytes × Rid

/-- The order of entries: by key, then by position. -/
def IndexEntry.compare : IndexEntry → IndexEntry → Ordering :=
  compareLex (compareOn Prod.fst) (compareOn Prod.snd)

instance : Std.TransCmp IndexEntry.compare :=
  inferInstanceAs (Std.TransCmp (compareLex (compareOn Prod.fst) (compareOn Prod.snd)))

instance : Std.LawfulEqCmp IndexEntry.compare where
  eq_of_compare {a b} h := by
    obtain ⟨hk, hr⟩ := compareLex_eq_eq.mp h
    exact Prod.ext (Std.LawfulEqOrd.eq_of_compare hk) (Std.LawfulEqOrd.eq_of_compare hr)

/-- Entries in ascending order, each as often as it occurs. -/
structure KeyIndex where
  entries : List IndexEntry
  pairwise_entries : entries.Pairwise fun a b => (IndexEntry.compare a b).isLE
  deriving DecidableEq, Repr

namespace KeyIndex

instance : EmptyCollection KeyIndex := ⟨⟨[], .nil⟩⟩

instance : Inhabited KeyIndex := ⟨{}⟩

/-! ### Views -/

/-- The number of occurrences of an entry. -/
def count (index : KeyIndex) (entry : IndexEntry) : Nat := index.entries.count entry

/-- The number of entries. -/
def size (index : KeyIndex) : Nat := index.entries.length

/-- Every position, in index order. -/
def rids (index : KeyIndex) : List Rid := index.entries.map (·.2)

/-- The place of an occurrence of an entry, or else the place where one belongs. -/
def find (index : KeyIndex) (entry : IndexEntry) : Except Nat Nat :=
  Bisect.find (IndexEntry.compare · entry) index.entries

/-- Whether an entry occurs. -/
def contains (index : KeyIndex) (key : Bytes) (rid : Rid) : Bool := (index.find (key, rid)).isOk

/-- The positions of the entries from the place `first` on as far as `last`, of which there are none if the places
are the other way round. -/
def ridsAt (index : KeyIndex) (first last : Nat) : List Rid :=
  if last ≤ first then [] else ((index.entries.take last).drop first).map (·.2)

/-- The positions of the entries in `[start, stop)`, in index order: of the entries ahead of `stop`,
those that `start` does not lie behind. -/
def ridsBetween (index : KeyIndex) (start stop : Position) : List Rid :=
  index.ridsAt (Bisect.partitionPoint (fun e => !start.isAtOrBefore e.1) index.entries)
    (Bisect.partitionPoint (fun e => stop.isPast e.1) index.entries)

/-- The positions of the entries whose keys lie in a range, in index order. -/
def scan (index : KeyIndex) (range : KeyRange) : List Rid :=
  index.ridsBetween range.start range.stop

@[simp] theorem entries_empty : (∅ : KeyIndex).entries = [] := rfl

theorem count_entries (index : KeyIndex) (entry : IndexEntry) :
    index.entries.count entry = index.count entry := rfl

theorem length_entries (index : KeyIndex) : index.entries.length = index.size := rfl

theorem ridsAt_eq (index : KeyIndex) (first last : Nat) :
    index.ridsAt first last = ((index.entries.take last).drop first).map (·.2) := by
  unfold ridsAt
  split
  · rename_i hle
    rw [List.drop_eq_nil_of_le (Nat.le_trans (List.length_take_le _ _) hle), List.map_nil]
  · rfl

/-! ### The order of the entries -/

/-- The entries ahead of a given one come first, then its occurrences, and then those behind it. -/
theorem ascending (index : KeyIndex) (entry : IndexEntry) :
    Bisect.Ascending (IndexEntry.compare · entry) index.entries := by
  apply index.pairwise_entries.imp
  intro a b hab
  constructor
  · intro hb
    have hle : (IndexEntry.compare b entry).isLE = true := Ordering.isLE_iff_ne_gt.mpr hb
    exact Ordering.isLE_iff_ne_gt.mp (Std.TransCmp.isLE_trans hab hle)
  · intro hb
    exact Std.TransCmp.lt_of_isLE_of_lt hab hb

theorem find_ok {index : KeyIndex} {entry : IndexEntry} {i : Nat} (h : index.find entry = .ok i) :
    ∃ hi : i < index.entries.length, index.entries[i] = entry := by
  obtain ⟨hi, heq⟩ := Bisect.find_ok h
  exact ⟨hi, Std.LawfulEqCmp.eq_of_compare heq⟩

theorem mem_of_find_ok {index : KeyIndex} {entry : IndexEntry} {i : Nat} (h : index.find entry = .ok i) :
    entry ∈ index.entries := by
  obtain ⟨hi, heq⟩ := find_ok h
  exact heq ▸ List.getElem_mem hi

theorem find_error {index : KeyIndex} {entry : IndexEntry} {i : Nat} (h : index.find entry = .error i) :
    entry ∉ index.entries := by
  obtain ⟨hahead, hbehind⟩ := Bisect.find_error_mem (index.ascending entry) h
  intro hmem
  have hself : IndexEntry.compare entry entry = .eq := Std.ReflCmp.compare_self
  rw [← List.take_append_drop i index.entries, List.mem_append] at hmem
  rcases hmem with hmem | hmem
  · exact absurd (hself.symm.trans (hahead entry hmem)) (by decide)
  · exact absurd (hself.symm.trans (hbehind entry hmem)) (by decide)

theorem contains_iff (index : KeyIndex) (key : Bytes) (rid : Rid) :
    index.contains key rid = true ↔ (key, rid) ∈ index.entries := by
  unfold contains
  cases hfind : index.find (key, rid) with
  | ok i => exact ⟨fun _ => mem_of_find_ok hfind, fun _ => rfl⟩
  | error i => exact ⟨fun h => (by cases h), fun hmem => absurd hmem (find_error hfind)⟩

/-- The place of a further occurrence of an entry: ahead of every entry that does not lie ahead of it. -/
def place (index : KeyIndex) (entry : IndexEntry) : Nat :=
  Bisect.partitionPoint (fun e => (IndexEntry.compare e entry).isLT) index.entries

/-- The entries in front of that place lie ahead of the given one, and those behind it do not. -/
theorem place_spec (index : KeyIndex) (entry : IndexEntry) :
    (∀ e ∈ index.entries.take (index.place entry), (IndexEntry.compare e entry).isLE) ∧
      ∀ e ∈ index.entries.drop (index.place entry), (IndexEntry.compare entry e).isLE := by
  have hsorted : index.entries.Pairwise fun a b =>
      (IndexEntry.compare b entry).isLT = true → (IndexEntry.compare a entry).isLT = true := by
    refine index.pairwise_entries.imp fun {a b} hab hb => ?_
    rw [Ordering.isLT_iff_eq_lt] at hb ⊢
    exact Std.TransCmp.lt_of_isLE_of_lt hab hb
  obtain ⟨hahead, hbehind⟩ := Bisect.partitionPoint_spec hsorted
  constructor
  · intro e hmem
    have hlt := Ordering.isLT_iff_eq_lt.mp (hahead e hmem)
    rw [hlt]
    rfl
  · intro e hmem
    have hnot := hbehind e hmem
    have hswap : IndexEntry.compare entry e = (IndexEntry.compare e entry).swap := Std.OrientedCmp.eq_swap
    rw [hswap]
    cases hcompare : IndexEntry.compare e entry with
    | lt =>
      rw [hcompare] at hnot
      cases hnot
    | eq => rfl
    | gt => rfl

/-- In that place one more occurrence is in order. -/
theorem pairwise_place (index : KeyIndex) (entry : IndexEntry) :
    (index.entries.take (index.place entry) ++ entry :: index.entries.drop (index.place entry)).Pairwise
      fun a b => (IndexEntry.compare a b).isLE := by
  have hentries := index.pairwise_entries
  rw [← List.take_append_drop (index.place entry) index.entries, List.pairwise_append] at hentries
  obtain ⟨hfront, hend, hacross⟩ := hentries
  obtain ⟨hahead, hbehind⟩ := index.place_spec entry
  rw [List.pairwise_append, List.pairwise_cons]
  refine ⟨hfront, ⟨hbehind, hend⟩, ?_⟩
  intro a ha b hb
  rcases List.mem_cons.mp hb with rfl | hb
  · exact hahead a ha
  · exact hacross a ha b hb

/-! ### Changes -/

/-- The index with one more occurrence of an entry. -/
def insert (index : KeyIndex) (key : Bytes) (rid : Rid) : KeyIndex :=
  let place := index.place (key, rid)
  ⟨index.entries.take place ++ (key, rid) :: index.entries.drop place, index.pairwise_place (key, rid)⟩

/-- The index with one occurrence fewer of an entry, if it has any. -/
def delete (index : KeyIndex) (key : Bytes) (rid : Rid) : KeyIndex :=
  match index.find (key, rid) with
  | .ok place => ⟨index.entries.eraseIdx place, index.pairwise_entries.sublist (List.eraseIdx_sublist _ _)⟩
  | .error _ => index

theorem perm_insert (index : KeyIndex) (key : Bytes) (rid : Rid) :
    (index.insert key rid).entries.Perm ((key, rid) :: index.entries) := by
  have hmiddle : (index.insert key rid).entries.Perm ((key, rid) ::
      (index.entries.take (index.place (key, rid)) ++ index.entries.drop (index.place (key, rid)))) :=
    List.perm_middle
  rwa [List.take_append_drop] at hmiddle

theorem perm_delete (index : KeyIndex) (key : Bytes) (rid : Rid) :
    (index.delete key rid).entries.Perm (index.entries.erase (key, rid)) := by
  unfold delete
  cases hfind : index.find (key, rid) with
  | ok i =>
    obtain ⟨hi, heq⟩ := find_ok hfind
    have hsplit : index.entries = index.entries.take i ++ (key, rid) :: index.entries.drop (i + 1) := by
      rw [← heq, List.getElem_cons_drop, List.take_append_drop]
    have hperm : index.entries.Perm ((key, rid) :: index.entries.eraseIdx i) := by
      rw [List.eraseIdx_eq_take_drop_succ]
      conv => lhs; rw [hsplit]
      exact List.perm_middle
    exact (hperm.symm.trans (List.perm_cons_erase (mem_of_find_ok hfind))).cons_inv
  | error i =>
    rw [List.erase_of_not_mem (find_error hfind)]

theorem count_insert (index : KeyIndex) (key : Bytes) (rid : Rid) (entry : IndexEntry) :
    (index.insert key rid).count entry =
      index.count entry + if (key, rid) = entry then 1 else 0 := by
  rw [count, (index.perm_insert key rid).count_eq, List.count_cons, count]
  simp only [beq_iff_eq]

theorem count_delete (index : KeyIndex) (key : Bytes) (rid : Rid) (entry : IndexEntry) :
    (index.delete key rid).count entry =
      index.count entry - if (key, rid) = entry then 1 else 0 := by
  rw [count, (index.perm_delete key rid).count_eq, List.count_erase, count]
  simp only [beq_iff_eq]

end KeyIndex

end NoWait
