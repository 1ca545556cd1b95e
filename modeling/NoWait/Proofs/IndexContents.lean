import Mathlib.Data.Multiset.AddSub
import NoWait.Proofs.Ranges

/-!
# A key index is a sorted multiset

An index takes entries and gives them up again, finds places in its list by halving, and cuts stretches out of the
list.  What it lists is the multiset of the entries that were put in and not taken out, in ascending order.

* `IndexCall` is a change of an index; `IndexCall.change` is what becomes of the multiset;
* `KeyIndex.Lists` says that an index lists a multiset; `Lists.step` is the step that keeps it and `lists_play` the
  run;
* `index_is_sorted_multiset` is what follows for any sequence of changes, with what the next deletion finds and
  what is cut out between any two bounds or positions.
-/

namespace NoWait

/-- A change of a key index. -/
inductive IndexCall where
  | insert (key : Bytes) (rid : Rid)
  | delete (key : Bytes) (rid : Rid)
  deriving DecidableEq, Inhabited, Repr

namespace IndexCall

/-- The multiset after a change: with one more occurrence of an entry, or with one fewer if there is any. -/
def change (contents : Multiset IndexEntry) : IndexCall → Multiset IndexEntry
  | .insert key rid => (key, rid) ::ₘ contents
  | .delete key rid => contents.erase (key, rid)

/-- The multiset after all changes, from nothing on. -/
def contents (calls : List IndexCall) : Multiset IndexEntry := calls.foldl change 0

end IndexCall

/-- Entries are in order if their keys are, or at one key their positions. -/
theorem IndexEntry.isLE_compare_iff {a b : IndexEntry} :
    (IndexEntry.compare a b).isLE = true ↔
      Ord.compare a.1 b.1 = .lt ∨ a.1 = b.1 ∧ (Ord.compare a.2 b.2).isLE = true := by
  have hsame : a.1 = b.1 ↔ Ord.compare a.1 b.1 = .eq := Std.LawfulEqOrd.compare_eq_iff_eq.symm
  unfold IndexEntry.compare compareLex compareOn
  rw [hsame]
  cases Ord.compare a.1 b.1 <;> simp

namespace KeyIndex

variable {index : KeyIndex} {contents : Multiset IndexEntry} {key : Bytes} {rid : Rid}

/-- The index after a change. -/
def step (index : KeyIndex) : IndexCall → KeyIndex
  | .insert key rid => index.insert key rid
  | .delete key rid => index.delete key rid

/-- The index after all changes, from an empty one on. -/
def play (calls : List IndexCall) : KeyIndex := calls.foldl step {}

/-! ### What a deletion does -/

/-- A deletion of an entry that is there takes one occurrence away. -/
theorem perm_cons_delete (hmem : (key, rid) ∈ index.entries) :
    index.entries.Perm ((key, rid) :: (index.delete key rid).entries) :=
  (List.perm_cons_erase hmem).trans ((index.perm_delete key rid).symm.cons _)

/-- A deletion of any other entry changes nothing. -/
theorem delete_of_not_mem (hnot : (key, rid) ∉ index.entries) : index.delete key rid = index := by
  unfold delete
  cases hfind : index.find (key, rid) with
  | ok i => exact absurd (mem_of_find_ok hfind) hnot
  | error i => rfl

/-! ### Indices and multisets -/

/-- Whether the entries of an index are those of a multiset, each as often. -/
def Lists (index : KeyIndex) (contents : Multiset IndexEntry) : Prop :=
  (index.entries : Multiset IndexEntry) = contents

namespace Lists

theorem mem_iff (h : index.Lists contents) (entry : IndexEntry) : entry ∈ index.entries ↔ entry ∈ contents := by
  rw [← h, Multiset.mem_coe]

theorem insert (h : index.Lists contents) (key : Bytes) (rid : Rid) :
    (index.insert key rid).Lists ((key, rid) ::ₘ contents) := by
  rw [Lists, ← h, Multiset.cons_coe, Multiset.coe_eq_coe]
  exact index.perm_insert key rid

/-- What a deletion takes away is what it finds. -/
theorem cons_delete (h : index.Lists contents) (hmem : (key, rid) ∈ contents) :
    contents = (key, rid) ::ₘ (index.delete key rid).entries := by
  rw [← h, Multiset.cons_coe, Multiset.coe_eq_coe]
  exact perm_cons_delete ((h.mem_iff _).mpr hmem)

theorem delete (h : index.Lists contents) (key : Bytes) (rid : Rid) :
    (index.delete key rid).Lists (contents.erase (key, rid)) := by
  by_cases hmem : (key, rid) ∈ contents
  · rw [h.cons_delete hmem, Multiset.erase_cons_head]
    rfl
  · rw [Multiset.erase_of_notMem hmem, delete_of_not_mem fun hin => hmem ((h.mem_iff _).mp hin)]
    exact h

theorem step (h : index.Lists contents) (call : IndexCall) : (index.step call).Lists (call.change contents) := by
  cases call with
  | insert key rid => exact h.insert key rid
  | delete key rid => exact h.delete key rid

theorem foldl (h : index.Lists contents) (calls : List IndexCall) :
    (calls.foldl KeyIndex.step index).Lists (calls.foldl IndexCall.change contents) := by
  induction calls generalizing index contents with
  | nil => exact h
  | cons call calls ih => exact ih (h.step call)

end Lists

theorem lists_play (calls : List IndexCall) : (play calls).Lists (IndexCall.contents calls) := by
  have hempty : ({} : KeyIndex).Lists 0 := rfl
  exact hempty.foldl calls

end KeyIndex

/-- After any changes an index lists the multiset of the entries that were put in and not taken out, in ascending
order of key and then of position, and its size is theirs.  A deletion finds an entry if and only if there is one,
and then takes one occurrence away, or else changes nothing.  Between two bounds, of whatever kind and in whatever
order, lie the positions of the entries whose keys satisfy both, and between two positions those whose keys lie
there. -/
theorem index_is_sorted_multiset (calls : List IndexCall) :
    let index := KeyIndex.play calls
    let contents := IndexCall.contents calls
    ((index.entries : Multiset IndexEntry) = contents ∧
      index.entries.Pairwise (fun a b => compare a.1 b.1 = .lt ∨ a.1 = b.1 ∧ (compare a.2 b.2).isLE = true) ∧
      index.size = contents.card) ∧
    (∀ key rid,
      (index.contains key rid = true ∧ contents = (key, rid) ::ₘ (index.delete key rid).entries) ∨
      (index.contains key rid = false ∧ (key, rid) ∉ contents ∧ index.delete key rid = index)) ∧
    (∀ range, index.scan range = (index.entries.filter fun entry => range.contains entry.1).map (·.2)) ∧
    ∀ start stop, index.ridsBetween start stop =
      (index.entries.filter fun entry => start ≤ .before entry.1 ∧ .before entry.1 < stop).map (·.2) := by
  intro index contents
  have hlists : index.Lists contents := KeyIndex.lists_play calls
  refine ⟨⟨hlists, ?_, ?_⟩, fun key rid => ?_, fun range => index.ridsBetween_eq range, fun start stop => ?_⟩
  · exact index.pairwise_entries.imp fun hle => IndexEntry.isLE_compare_iff.mp hle
  · rw [← hlists, Multiset.coe_card, index.length_entries]
  · by_cases hmem : (key, rid) ∈ contents
    · exact .inl ⟨(index.contains_iff key rid).mpr ((hlists.mem_iff _).mpr hmem), hlists.cons_delete hmem⟩
    · have hnot : (key, rid) ∉ index.entries := fun hin => hmem ((hlists.mem_iff _).mp hin)
      refine .inr ⟨?_, hmem, KeyIndex.delete_of_not_mem hnot⟩
      rw [Bool.eq_false_iff, ne_eq, index.contains_iff]
      exact hnot
  · rw [index.ridsBetween_eq_filter]
    congr 1
    refine List.filter_congr fun entry _ => ?_
    rw [Bool.eq_iff_iff, Bool.and_eq_true, decide_eq_true_iff, Position.isAtOrBefore_iff, Position.isPast_iff]

/-- A key that begins with another one, an entry that is there twice, and deletions of which one finds nothing. -/
example :
    let index := KeyIndex.play [.insert [7, 0] ⟨0, 1⟩, .insert [7] ⟨1, 0⟩, .insert [7] ⟨0, 3⟩, .insert [7] ⟨1, 0⟩,
      .delete [7] ⟨2, 2⟩, .delete [7] ⟨1, 0⟩]
    index.entries = [([7], ⟨0, 3⟩), ([7], ⟨1, 0⟩), ([7, 0], ⟨0, 1⟩)] ∧
      index.scan { lower := .excluded [7], upper := .unbounded } = [⟨0, 1⟩] ∧
      index.scan { lower := .included [8], upper := .included [7] } = [] := by
  decide +kernel

end NoWait
