import NoWait.Proofs.LockedRanges

/-!
# Gaps of different transactions have no position in common

Whether two intervals overlap is decided by their ends alone.  Positions are in a linear order, so this comes to
the same as a position that lies in both, whichever way the intervals run.

* `Gap.overlaps_iff` says so, and `GapTable.lock?_eq_none_iff` what it means for a request;
* `GapTable.Exclusive` says that no position lies in gaps of two transactions on one table; a `GapCall` is a step
  of a gap table, `Exclusive.step` says that each step keeps it, and `Exclusive.play` that any number of them do;
* `gap_exclusion` is the result for a gap table, and `Run.exclusive` for everything that transactions do.
-/

namespace NoWait

/-! ### Intervals -/

namespace Gap

variable {gap other : Gap} {position : Position}

theorem contains_iff : gap.contains position = true ↔ gap.start ≤ position ∧ position < gap.stop := by
  simp [contains]

/-- Two intervals overlap if and only if some position lies in both.  If there is one, then the later one of the
two places where they start is one. -/
theorem overlaps_iff : gap.overlaps other.start other.stop = true ↔
    ∃ position, gap.contains position = true ∧ other.contains position = true := by
  simp only [overlaps, isEmpty, contains_iff, Bool.and_eq_true, Bool.not_eq_true', decide_eq_true_eq,
    decide_eq_false_iff_not, Std.not_le]
  constructor
  · rintro ⟨⟨⟨hgap, hother⟩, hstart⟩, hstop⟩
    rcases Std.le_total (a := gap.start) (b := other.start) with hle | hle
    · exact ⟨other.start, ⟨hle, hstop⟩, Std.le_refl _, hother⟩
    · exact ⟨gap.start, ⟨Std.le_refl _, hgap⟩, hle, hstart⟩
  · rintro ⟨position, ⟨hstart, hstop⟩, hstart', hstop'⟩
    exact ⟨⟨⟨Std.lt_of_le_of_lt hstart hstop, Std.lt_of_le_of_lt hstart' hstop'⟩,
      Std.lt_of_le_of_lt hstart hstop'⟩, Std.lt_of_le_of_lt hstart' hstop⟩

end Gap

/-! ### Requests and withdrawals -/

/-- What can be done to a gap table: a gap is asked for, or a transaction gives up its gaps. -/
inductive GapCall where
  | lock (table : TableId) (gap : Gap)
  | release (txn : TxnId)
  deriving DecidableEq, Inhabited, Repr

namespace GapTable

variable {gaps gaps' : GapTable} {table : TableId} {gap : Gap} {txn : TxnId} {position : Position}

/-- Whether a position of a gap lies in a gap that another transaction holds on the table. -/
def Taken (gaps : GapTable) (table : TableId) (gap : Gap) : Prop :=
  ∃ held ∈ gaps.gaps table, held.txn ≠ gap.txn ∧
    ∃ position, held.contains position = true ∧ gap.contains position = true

/-- A gap is refused for a position that is taken, and for nothing else. -/
theorem lock?_eq_none_iff : gaps.lock? table gap = none ↔ gaps.Taken table gap := by
  simp [lock?, Taken, Gap.overlaps_iff]

theorem blocks_iff_exists_gaps : gaps.blocks txn table position = true ↔
    ∃ held ∈ gaps.gaps table, held.txn ≠ txn ∧ held.contains position = true := by
  simp [blocks]

/-- The gap table after a call.  A request that is refused changes nothing. -/
def step (gaps : GapTable) : GapCall → GapTable
  | .lock table gap => (gaps.lock? table gap).getD gaps
  | .release txn => gaps.release txn

/-- The gap table after one call after another. -/
def play (gaps : GapTable) (calls : List GapCall) : GapTable := calls.foldl step gaps

/-- Whether no position lies in gaps of two transactions on one table. -/
def Exclusive (gaps : GapTable) : Prop :=
  ∀ table, ∀ a ∈ gaps.gaps table, ∀ b ∈ gaps.gaps table, a.txn ≠ b.txn →
    ∀ position, ¬ (a.contains position = true ∧ b.contains position = true)

theorem Exclusive.empty : Exclusive {} := by
  intro table a ha
  cases ha

theorem Exclusive.lock? (h : gaps.Exclusive) (hlock : gaps.lock? table gap = some gaps') :
    gaps'.Exclusive := by
  have hfree : ¬ gaps.Taken table gap := by
    rw [← lock?_eq_none_iff, hlock]
    simp
  intro table' a ha b hb hne position hboth
  have hold : ∀ held ∈ gaps'.gaps table', held ∈ gaps.gaps table' ∨ table = table' ∧ held = gap := by
    intro held hmem
    rw [gaps_of_lock? hlock] at hmem
    rcases List.mem_append.mp hmem with hmem | hmem
    · exact .inl hmem
    · split at hmem
      · rename_i htable
        exact .inr ⟨htable, List.mem_singleton.mp hmem⟩
      · cases hmem
  rcases hold a ha with hmem | ⟨rfl, rfl⟩
  · rcases hold b hb with hmem' | ⟨rfl, rfl⟩
    · exact h table' a hmem b hmem' hne position hboth
    · exact hfree ⟨a, hmem, hne, position, hboth⟩
  · rcases hold b hb with hmem' | ⟨-, rfl⟩
    · exact hfree ⟨b, hmem', hne.symm, position, hboth.symm⟩
    · exact hne rfl

theorem Exclusive.release (h : gaps.Exclusive) (txn : TxnId) : (gaps.release txn).Exclusive := by
  intro table a ha b hb
  rw [gaps_release] at ha hb
  exact h table a (List.mem_filter.mp ha).1 b (List.mem_filter.mp hb).1

theorem Exclusive.step (h : gaps.Exclusive) (call : GapCall) : (gaps.step call).Exclusive := by
  cases call with
  | lock table gap =>
    cases hlock : gaps.lock? table gap with
    | none => simpa [GapTable.step, hlock] using h
    | some gaps' => simpa [GapTable.step, hlock] using h.lock? hlock
  | release txn => exact h.release txn

theorem Exclusive.play (h : gaps.Exclusive) (calls : List GapCall) : (gaps.play calls).Exclusive := by
  induction calls generalizing gaps with
  | nil => exact h
  | cons call calls ih => exact ih (h.step call)

end GapTable

/-- Whatever gaps have been asked for and given up: no position lies in gaps of two transactions on one table.
A further gap is refused if and only if a position of it lies in one that another transaction holds on the
table; then nothing changes, and if not, the gap comes behind the others on its table.  A position is blocked for
a transaction if and only if it lies in a gap of another one, and a transaction that gives up its gaps leaves
those of the others in their order. -/
theorem gap_exclusion (calls : List GapCall) :
    let gaps := ({} : GapTable).play calls
    (∀ table, ∀ a ∈ gaps.gaps table, ∀ b ∈ gaps.gaps table, a.txn ≠ b.txn → ∀ position,
      ¬ ((a.start ≤ position ∧ position < a.stop) ∧ b.start ≤ position ∧ position < b.stop)) ∧
    (∀ table gap,
      let taken := ∃ held ∈ gaps.gaps table, held.txn ≠ gap.txn ∧ ∃ position,
        (held.start ≤ position ∧ position < held.stop) ∧ gap.start ≤ position ∧ position < gap.stop
      (gaps.lock? table gap = none ↔ taken) ∧
      (taken → gaps.step (.lock table gap) = gaps) ∧
      (¬ taken → ∀ table', (gaps.step (.lock table gap)).gaps table' =
        gaps.gaps table' ++ if table = table' then [gap] else [])) ∧
    (∀ txn table position, gaps.blocks txn table position = true ↔
      ∃ held ∈ gaps.gaps table, held.txn ≠ txn ∧ held.start ≤ position ∧ position < held.stop) ∧
    ∀ txn table, (gaps.step (.release txn)).gaps table = (gaps.gaps table).filter (·.txn ≠ txn) := by
  intro gaps
  have hexclusive : gaps.Exclusive := GapTable.Exclusive.empty.play calls
  simp only [GapTable.Exclusive, Gap.contains_iff] at hexclusive
  refine ⟨hexclusive, fun table gap => ?_, fun txn table position => ?_, fun txn table => ?_⟩
  · have hnone : gaps.lock? table gap = none ↔ gaps.Taken table gap := GapTable.lock?_eq_none_iff
    simp only [GapTable.Taken, Gap.contains_iff] at hnone
    refine ⟨hnone, fun htaken => ?_, fun hfree => ?_⟩
    · rw [GapTable.step, hnone.mpr htaken, Option.getD_none]
    · obtain ⟨gaps', hlock⟩ := Option.ne_none_iff_exists'.mp (mt hnone.mp hfree)
      rw [GapTable.step, hlock, Option.getD_some]
      exact GapTable.gaps_of_lock? hlock
  · simpa only [Gap.contains_iff] using GapTable.blocks_iff_exists_gaps
  · exact gaps.gaps_release txn table

/-- An interval that runs backwards is granted wherever it lies, and so is one that begins where another ends. -/
example : ((({} : GapTable).play [.lock 1 ⟨1, .before [1], .before [5]⟩, .lock 1 ⟨2, .before [4], .before [2]⟩,
    .lock 1 ⟨2, .before [5], .max⟩, .lock 1 ⟨2, .after [4], .max⟩]).gaps 1).map (·.start) =
      [.before [1], .before [4], .before [5]] := by
  decide

/-! ### What transactions do to the gap table -/

namespace Database

variable {h : Handle} {db : Database}

/-- A transaction that asks for a gap does to the gap table what the request does, and to nothing else. -/
theorem lockGap_eq (hactive : db.isActive h = true) (table : TableId) (start stop : Position) :
    lockGap h table start stop db =
      .ok (db.gaps.lock? table ⟨(db.txn h).id, start, stop⟩).isSome
        { db with gaps := db.gaps.step (.lock table ⟨(db.txn h).id, start, stop⟩) } := by
  unfold lockGap
  rw [Action.bind_eq_of_ok (ensureActive_eq hactive), Action.get_bind_eq, GapTable.step]
  cases db.gaps.lock? table ⟨(db.txn h).id, start, stop⟩ <;> rfl

/-- Whether the gaps of different transactions are apart in a database if they are in another. -/
def KeepsExclusive (db db' : Database) : Prop := db.gaps.Exclusive → db'.gaps.Exclusive

instance : SideFrame KeepsExclusive where
  refl _ h := h
  trans _ _ _ h h' hdb := h' (h hdb)
  locks _ _ h := h
  log _ _ h := h
  catalog _ _ h := h
  transactions _ _ h := h

instance : GapFrame KeepsExclusive where
  locks _ _ h := h
  addLock _ _ _ h := h
  refused _ _ h := h
  gaps _ _ _ _ hlock h := h.lock? hlock

end Database

open Database

theorem Session.step_keepsExclusive (s : Session) (call : Call) : s.db.KeepsExclusive (s.step call).2.db := by
  cases haside : call.isAside with
  | true => exact step_frame haside
  | false =>
    have hend : ∀ h, call = .commit h ∨ call = .abort h → s.db.KeepsExclusive (s.step call).2.db := by
      intro h hcall hdb
      rw [s.end_gaps hcall]
      split
      · exact hdb.release _
      · exact hdb
    cases call with
    | begin =>
      intro hdb
      rw [s.begin_gaps]
      exact hdb
    | lockGap h table start stop =>
      exact act_within (((lockGap_frame h _ _ _).mapError _).bind fun _ => Action.within_pure _)
    | lockRange h table range => exact act_within ((lockRange_frame h _ _).bind fun _ => Action.within_pure _)
    | initScan i => exact s.initScan_frame i
    | commit h => exact hend h (.inl rfl)
    | abort h => exact hend h (.inr rfl)
    | releaseGaps h => exact giveUp_frame h fun hdb => hdb.release _
    | adopt | run | checkGap | openScan | nextScan | release | releaseAll => cases haside

/-- Whatever transactions do: no position lies in gaps of two of them on one table. -/
theorem Run.exclusive {start s : Session} {trace : List Event} (hrun : Run start trace s)
    (hfresh : start.IsFresh) : s.db.gaps.Exclusive := by
  refine hrun.invariant (fun s => s.db.gaps.Exclusive) ?_ fun event _ =>
    event.before.step_keepsExclusive event.call
  rw [hfresh.gaps]
  exact .empty

end NoWait
