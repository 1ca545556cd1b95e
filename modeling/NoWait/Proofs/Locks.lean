import Mathlib.Data.List.Nodup
import NoWait.Lock.Table

/-!
# What holds of every lock table

A queue is sound when each transaction has at most one request in it, every request is granted, the
modes of different transactions go together, and the group is the join of all modes.  A lock table is
sound when all its queues are, and none of them is empty.

* `Queue.Sound` and `LockTable.Sound` say so; `LockTable.Sound.request` and `LockTable.Sound.release`
  that a grant and a withdrawal keep it;
* `heldMode_request` and `heldMode_release` give the mode that each transaction holds afterwards: what
  one transaction asks for or gives up moves no mode but its own;
* `LockTable.Sound.compatible` reads off that two transactions hold compatible modes;
* `LockTable.Intended` ties records to their tables: a mode on a record goes with its intention on the
  table.
-/

namespace NoWait

theorem Mode.covers_trans {a b c : Mode} (h : a.covers b = true) (h' : b.covers c = true) :
    a.covers c = true := by
  cases a <;> cases b <;> cases c <;> simp_all [covers, join]

theorem Mode.covers_self (a : Mode) : a.covers a = true := by
  cases a <;> rfl

theorem Mode.eq_exclusive_of_covers {a : Mode} (h : a.covers .exclusive = true) : a = .exclusive := by
  cases a <;> simp_all [covers, join]

/-- The join of a list of modes, or nothing when the list is empty. -/
def Mode.joinAll (modes : List Mode) : GroupMode := modes.foldl GroupMode.join none

namespace Queue

variable {queue : Queue} {txn other : TxnId} {mode : Mode}

/-- What holds of a queue in which every request was granted beside the ones before it. -/
structure Sound (queue : Queue) : Prop where
  once : (queue.requests.map (·.txn)).Nodup
  granted : ∀ r ∈ queue.requests, r.granted = true
  compatible : ∀ a ∈ queue.requests, ∀ b ∈ queue.requests,
    a.txn ≠ b.txn → a.mode.compatible b.mode = true
  group_eq : queue.group = Mode.joinAll (queue.requests.map (·.mode))

theorem Sound.empty : Sound {} where
  once := List.nodup_nil
  granted := by simp
  compatible := by simp
  group_eq := rfl

/-- Where every request is granted the group is the join of all modes. -/
theorem groupOf_eq_joinAll {requests : List Request} (h : ∀ r ∈ requests, r.granted = true) :
    groupOf requests = Mode.joinAll (requests.map (·.mode)) := by
  unfold groupOf Mode.joinAll
  rw [List.filter_eq_self.mpr h, List.foldl_map]

/-! ### Who holds which mode -/

theorem heldMode_eq_none_iff : queue.heldMode txn = none ↔ ∀ r ∈ queue.requests, r.txn ≠ txn := by
  simp [heldMode, List.find?_eq_none]

/-- Where a transaction holds nothing there is no request of its. -/
theorem filter_eq_self_of_heldMode (h : queue.heldMode txn = none) :
    queue.requests.filter (·.txn ≠ txn) = queue.requests :=
  List.filter_eq_self.mpr fun request hmem => by simpa using heldMode_eq_none_iff.mp h request hmem

theorem exists_of_heldMode (h : queue.heldMode txn = some mode) :
    ∃ r ∈ queue.requests, r.txn = txn ∧ r.mode = mode := by
  unfold heldMode at h
  obtain ⟨r, hr, rfl⟩ := Option.map_eq_some_iff.mp h
  exact ⟨r, List.mem_of_find?_eq_some hr, by simpa using List.find?_some hr, rfl⟩

theorem not_conflicts_iff : queue.conflicts txn mode = false ↔
    ∀ r ∈ queue.requests, r.granted = true → r.txn ≠ txn → r.mode.compatible mode = true := by
  simp [conflicts]

theorem heldMode_grant (h : queue.heldMode txn = none) :
    (queue.grant txn mode).heldMode other = if txn = other then some mode else queue.heldMode other := by
  unfold heldMode grant
  rw [List.find?_append]
  by_cases hne : txn = other
  · subst hne
    rw [heldMode, Option.map_eq_none_iff] at h
    simp [h]
  · simp [hne]

theorem heldMode_upgrade (h : queue.heldMode txn ≠ none) :
    (queue.upgrade txn mode).heldMode other =
      if txn = other then some mode else queue.heldMode other := by
  unfold heldMode upgrade
  rw [find?_setMode]
  by_cases hne : txn = other
  · subst hne
    obtain ⟨r, hr⟩ := Option.ne_none_iff_exists'.mp h
    unfold heldMode at hr
    obtain ⟨r', hr', _⟩ := Option.map_eq_some_iff.mp hr
    simp [hr']
  · simp [hne]

/-! ### Grants, upgrades and withdrawals keep a queue sound -/

theorem Sound.grant (h : queue.Sound) (hnew : queue.heldMode txn = none)
    (hfree : queue.conflicts txn mode = false) : (queue.grant txn mode).Sound where
  once := by
    have hnot : txn ∉ queue.requests.map (·.txn) := by
      intro hmem
      obtain ⟨r, hr, heq⟩ := List.mem_map.mp hmem
      exact heldMode_eq_none_iff.mp hnew r hr heq
    simpa [Queue.grant, List.nodup_append, h.once] using fun r hr heq =>
      hnot (List.mem_map.mpr ⟨r, hr, heq⟩)
  granted := by
    intro r hr
    rcases List.mem_append.mp hr with hr | hr
    · exact h.granted r hr
    · rw [List.mem_singleton.mp hr]
  compatible := by
    have hbeside : ∀ r ∈ queue.requests, r.txn ≠ txn → r.mode.compatible mode = true :=
      fun r hr => not_conflicts_iff.mp hfree r hr (h.granted r hr)
    intro a ha b hb hne
    rcases List.mem_append.mp ha with ha | ha <;> rcases List.mem_append.mp hb with hb | hb
    · exact h.compatible a ha b hb hne
    · rw [List.mem_singleton.mp hb] at hne ⊢
      exact hbeside a ha hne
    · rw [List.mem_singleton.mp ha] at hne ⊢
      rw [Mode.compatible_comm]
      exact hbeside b hb hne.symm
    · rw [List.mem_singleton.mp ha, List.mem_singleton.mp hb] at hne
      exact absurd rfl hne
  group_eq := by
    simp only [Queue.grant, h.group_eq, Mode.joinAll, List.map_append, List.foldl_append]
    rfl

/-- In a list with one request for each transaction, strengthening touches the request of one. -/
theorem mem_setMode {requests : List Request} (h : (requests.map (·.txn)).Nodup) {r : Request}
    (hr : r ∈ setMode txn mode requests) :
    (r ∈ requests ∧ r.txn ≠ txn) ∨ ∃ r' ∈ requests, r'.txn = txn ∧ r = { r' with mode } := by
  induction requests with
  | nil => cases hr
  | cons first rest ih =>
    rw [List.map_cons, List.nodup_cons] at h
    unfold setMode at hr
    split at hr
    · rename_i hfirst
      rcases List.mem_cons.mp hr with rfl | hr
      · exact .inr ⟨first, List.mem_cons_self, hfirst, rfl⟩
      · refine .inl ⟨List.mem_cons_of_mem _ hr, fun heq => h.1 ?_⟩
        rw [hfirst, ← heq]
        exact List.mem_map_of_mem hr
    · rename_i hfirst
      rcases List.mem_cons.mp hr with rfl | hr
      · exact .inl ⟨List.mem_cons_self, hfirst⟩
      · rcases ih h.2 hr with ⟨hmem, hne⟩ | ⟨r', hmem, heq⟩
        · exact .inl ⟨List.mem_cons_of_mem _ hmem, hne⟩
        · exact .inr ⟨r', List.mem_cons_of_mem _ hmem, heq⟩

theorem Sound.upgrade (h : queue.Sound) (hfree : queue.conflicts txn mode = false) :
    (queue.upgrade txn mode).Sound := by
  have hgranted : ∀ r ∈ setMode txn mode queue.requests, r.granted = true := by
    intro r hr
    rcases mem_setMode h.once hr with ⟨hmem, _⟩ | ⟨r', hmem, _, rfl⟩
    · exact h.granted r hmem
    · exact h.granted r' hmem
  have hbeside : ∀ r ∈ queue.requests, r.txn ≠ txn → r.mode.compatible mode = true :=
    fun r hr => not_conflicts_iff.mp hfree r hr (h.granted r hr)
  refine ⟨?_, hgranted, ?_, groupOf_eq_joinAll hgranted⟩
  · simpa only [Queue.upgrade, map_txn_setMode] using h.once
  · intro a ha b hb hne
    rcases mem_setMode h.once ha with ⟨ha, hane⟩ | ⟨a', ha, hatxn, rfl⟩ <;>
      rcases mem_setMode h.once hb with ⟨hb, hbne⟩ | ⟨b', hb, hbtxn, rfl⟩
    · exact h.compatible a ha b hb hne
    · exact hbeside a ha hane
    · rw [Mode.compatible_comm]
      exact hbeside b hb hbne
    · exact absurd (hatxn.trans hbtxn.symm) hne

/-- Where each transaction has one request, withdrawing it leaves exactly the requests of the others. -/
theorem eraseP_eq_filter {requests : List Request} (h : (requests.map (·.txn)).Nodup) :
    requests.eraseP (·.txn = txn) = requests.filter (·.txn ≠ txn) := by
  induction requests with
  | nil => rfl
  | cons first rest ih =>
    rw [List.map_cons, List.nodup_cons] at h
    by_cases hfirst : first.txn = txn
    · have hrest : rest.filter (·.txn ≠ txn) = rest := by
        rw [List.filter_eq_self]
        intro r hr
        have hne : r.txn ≠ txn := fun heq =>
          h.1 (hfirst.trans heq.symm ▸ List.mem_map_of_mem hr)
        simpa using hne
      rw [List.eraseP_cons_of_pos (by simpa using hfirst), List.filter_cons_of_neg (by simpa using hfirst),
        hrest]
    · simp [hfirst, ih h.2]

theorem Sound.requests_remove (h : queue.Sound) :
    (queue.remove txn).requests = queue.requests.filter (·.txn ≠ txn) :=
  eraseP_eq_filter h.once

theorem Sound.remove (h : queue.Sound) : (queue.remove txn).Sound := by
  have hsub : ∀ r ∈ (queue.remove txn).requests, r ∈ queue.requests :=
    fun _ hr => List.mem_of_mem_eraseP hr
  exact
    { once := h.once.sublist (List.Sublist.map _ (List.eraseP_sublist ..))
      granted := fun r hr => h.granted r (hsub r hr)
      compatible := fun a ha b hb => h.compatible a (hsub a ha) b (hsub b hb)
      group_eq := groupOf_eq_joinAll fun r hr => h.granted r (hsub r hr) }

theorem Sound.heldMode_remove (h : queue.Sound) :
    (queue.remove txn).heldMode other = if txn = other then none else queue.heldMode other := by
  rw [heldMode, h.requests_remove, List.find?_filter]
  by_cases hne : txn = other
  · subst hne
    rw [if_pos rfl, Option.map_eq_none_iff, List.find?_eq_none]
    simp
  · rw [if_neg hne, heldMode]
    congr 2
    funext r
    by_cases hr : r.txn = other
    · simp [hr, Ne.symm hne]
    · simp [hr]

end Queue

namespace LockTable

variable {locks locks' : LockTable} {txn other : TxnId} {resource r : Resource} {mode : Mode}

/-- What holds of a lock table all of whose requests were granted. -/
structure Sound (locks : LockTable) : Prop where
  queue : ∀ r, (locks.queue r).Sound
  nonempty : ∀ (r : Resource) (q : Queue), locks.queues[r]? = some q → q.requests ≠ []

theorem queue_empty (r : Resource) : ({} : LockTable).queue r = {} := by
  simp [LockTable.queue]

theorem heldMode_empty (txn : TxnId) (r : Resource) : ({} : LockTable).heldMode txn r = none := by
  rw [heldMode, queue_empty]
  rfl

theorem Sound.empty : Sound {} where
  queue := fun r => queue_empty r ▸ Queue.Sound.empty
  nonempty := by simp

theorem Sound.of_getElem? (h : locks.Sound) {queue : Queue} (hqueue : locks.queues[r]? = some queue) :
    queue.Sound := by
  have hsound := h.queue r
  rwa [LockTable.queue, hqueue] at hsound

theorem Sound.setQueue (h : locks.Sound) {queue : Queue} (hqueue : queue.Sound)
    (hne : queue.requests ≠ []) : (locks.setQueue resource queue).Sound where
  queue := by
    intro r
    rw [queue_setQueue]
    split
    · exact hqueue
    · exact h.queue r
  nonempty := by
    intro r q hq
    rw [LockTable.setQueue, Std.ExtTreeMap.getElem?_insert] at hq
    split at hq
    · cases hq
      exact hne
    · exact h.nonempty r q hq

/-- Two transactions hold compatible modes on one resource. -/
theorem Sound.compatible (h : locks.Sound) {a b : Mode} (ha : locks.heldMode txn r = some a)
    (hb : locks.heldMode other r = some b) (hne : txn ≠ other) : a.compatible b = true := by
  obtain ⟨x, hx, rfl, rfl⟩ := Queue.exists_of_heldMode ha
  obtain ⟨y, hy, rfl, rfl⟩ := Queue.exists_of_heldMode hb
  exact (h.queue r).compatible x hx y hy hne

/-- A transaction with an exclusive lock is alone on its resource. -/
theorem Sound.eq_of_exclusive (h : locks.Sound) (hx : locks.heldMode txn r = some .exclusive)
    (hheld : locks.heldMode other r = some mode) : other = txn := by
  by_contra hne
  have hcompat := h.compatible hx hheld (Ne.symm hne)
  cases mode <;> simp [Mode.compatible] at hcompat

/-! ### Requests -/

/-- The mode that a transaction holds once `mode` is granted to it. -/
def strengthened (locks : LockTable) (txn : TxnId) (resource : Resource) (mode : Mode) : Mode :=
  match locks.heldMode txn resource with
  | some held => held.join mode
  | none => mode

/-- A granted request leaves the requesting transaction with the join of what it held and what it asked
for, and no other mode changes. -/
theorem heldMode_request (h : locks.request txn resource mode = .ok locks') :
    locks'.heldMode other r =
      if txn = other ∧ resource = r then some (locks.strengthened txn resource mode)
      else locks.heldMode other r := by
  unfold strengthened
  unfold request at h
  simp only at h
  split at h
  · rename_i held hheld
    rw [show locks.heldMode txn resource = some held from hheld]
    simp only
    split at h
    · rename_i hcovers
      cases h
      split
      · rename_i heq
        obtain ⟨rfl, rfl⟩ := heq
        have hjoin : held.join mode = held := by simpa [Mode.covers] using hcovers
        rw [hjoin]
        exact hheld
      · rfl
    · split at h
      · cases h
      · cases h
        rw [heldMode, queue_setQueue]
        by_cases hr : resource = r
        · subst hr
          rw [if_pos rfl, Queue.heldMode_upgrade (by rw [hheld]; simp)]
          simp [heldMode]
        · simp [hr, heldMode]
  · rename_i hnone
    rw [show locks.heldMode txn resource = none from hnone]
    simp only
    split at h
    · cases h
    · cases h
      rw [heldMode, queue_setQueue]
      by_cases hr : resource = r
      · subst hr
        rw [if_pos rfl, Queue.heldMode_grant hnone]
        simp [heldMode]
      · simp [hr, heldMode]

theorem Sound.request (h : locks.Sound) (hr : locks.request txn resource mode = .ok locks') :
    locks'.Sound := by
  unfold LockTable.request at hr
  simp only at hr
  split at hr
  · rename_i held hheld
    split at hr
    · cases hr
      exact h
    · split at hr
      · cases hr
      · rename_i hfree
        cases hr
        refine h.setQueue ((h.queue resource).upgrade (by simpa using hfree)) fun hnil => ?_
        have hholds : (locks.queue resource).heldMode txn ≠ none := by
          rw [hheld]
          simp
        have hsome : ((locks.queue resource).upgrade txn (held.join mode)).heldMode txn = _ :=
          Queue.heldMode_upgrade hholds
        rw [if_pos rfl, Queue.heldMode, hnil] at hsome
        cases hsome
  · rename_i hnone
    split at hr
    · cases hr
    · rename_i hfree
      cases hr
      exact h.setQueue ((h.queue resource).grant hnone (by simpa using hfree))
        (by simp [Queue.grant])

/-- What a transaction is granted covers what it asked for. -/
theorem covers_strengthened : (locks.strengthened txn resource mode).covers mode = true := by
  unfold strengthened Mode.covers
  split
  · simp [Mode.join_assoc, Mode.join_self]
  · simp [Mode.join_self]

/-- What a transaction is granted covers what it held. -/
theorem covers_strengthened_of_heldMode {held : Mode}
    (h : locks.heldMode txn resource = some held) :
    (locks.strengthened txn resource mode).covers held = true := by
  unfold strengthened Mode.covers
  rw [h]
  simp [Mode.join_comm held mode, Mode.join_assoc, Mode.join_self]

/-! ### Withdrawals -/

/-- Withdrawing from a resource does to its queue what withdrawing from the queue does. -/
theorem queue_release (h : locks.Sound) :
    (locks.release txn resource).queue r =
      if resource = r then (locks.queue r).remove txn else locks.queue r := by
  by_cases hr : resource = r
  · subst hr
    rw [if_pos rfl]
    unfold release
    split
    · rename_i hnone
      simp [LockTable.queue, hnone, Queue.remove, Queue.groupOf]
    · rename_i queue hqueue
      have heq : locks.queue resource = queue := by simp [LockTable.queue, hqueue]
      rw [heq]
      simp only
      split
      · rename_i hempty
        have hnil : (queue.remove txn).requests = [] := by simpa using hempty
        have hsound : (queue.remove txn).Sound := (heq ▸ h.queue resource).remove
        have hgroup := hsound.group_eq
        rw [hnil] at hgroup
        simp only [LockTable.queue, Std.ExtTreeMap.getElem?_erase_self, Option.getD_none]
        cases hq : queue.remove txn with
        | mk requests group =>
          rw [hq] at hnil hgroup
          simp only at hnil hgroup
          rw [hnil, hgroup]
          rfl
      · rw [queue_setQueue, if_pos rfl]
  · rw [if_neg hr, queue_release_of_ne locks txn hr]

theorem heldMode_release (h : locks.Sound) :
    (locks.release txn resource).heldMode other r =
      if txn = other ∧ resource = r then none else locks.heldMode other r := by
  rw [heldMode, queue_release h]
  by_cases hr : resource = r
  · subst hr
    rw [if_pos rfl, (h.queue resource).heldMode_remove]
    simp [heldMode]
  · simp [hr, heldMode]

theorem Sound.release (h : locks.Sound) : (locks.release txn resource).Sound := by
  unfold LockTable.release
  split
  · exact h
  · rename_i queue hqueue
    have heq : locks.queue resource = queue := by simp [LockTable.queue, hqueue]
    simp only
    split
    · refine ⟨fun r => ?_, fun r q hq => ?_⟩
      · by_cases hr : resource = r
        · subst hr
          simpa [LockTable.queue] using Queue.Sound.empty
        · simpa [LockTable.queue, Std.ExtTreeMap.getElem?_erase, hr] using h.queue r
      · rw [Std.ExtTreeMap.getElem?_erase] at hq
        split at hq
        · cases hq
        · exact h.nonempty r q hq
    · rename_i hne
      exact h.setQueue (heq ▸ h.queue resource).remove (by simpa using hne)

/-- Withdrawing from several resources keeps the table sound and takes from the transaction its modes on
those resources, and nothing from anyone else. -/
theorem Sound.releaseAll (h : locks.Sound) (txn : TxnId) (resources : List Resource) :
    (locks.releaseAll txn resources).Sound ∧
      ∀ other r, (locks.releaseAll txn resources).heldMode other r =
        if txn = other ∧ r ∈ resources then none else locks.heldMode other r := by
  induction resources generalizing locks with
  | nil => exact ⟨h, by simp [LockTable.releaseAll]⟩
  | cons first rest ih =>
    have hfirst : (locks.release txn first).Sound := h.release
    obtain ⟨hsound, hheld⟩ := ih hfirst
    refine ⟨hsound, fun other r => ?_⟩
    show ((locks.release txn first).releaseAll txn rest).heldMode other r = _
    rw [hheld, heldMode_release h]
    by_cases htxn : txn = other
    · by_cases hfirst : first = r
      · simp [htxn, hfirst]
      · simp [htxn, hfirst, Ne.symm hfirst]
    · simp [htxn]

/-! ### Intentions -/

/-- Whether a transaction announces on a table a mode that it asks for on a record of it. -/
def Announced (locks : LockTable) (txn : TxnId) (table : TableId) (mode : Mode) : Prop :=
  (mode = .shared ∨ mode = .exclusive) ∧
    ∃ held, locks.heldMode txn (.table table) = some held ∧ held.covers mode.intention = true

/-- Whether every mode on a record is announced on the table. -/
def Intended (locks : LockTable) : Prop :=
  ∀ txn table rid mode, locks.heldMode txn (.record table rid) = some mode →
    locks.Announced txn table mode

theorem Intended.empty : Intended {} := by
  intro txn table rid mode hheld
  rw [heldMode_empty] at hheld
  cases hheld

/-- The intention of a join is announced where the intentions of both modes are. -/
theorem Announced.join {table : TableId} {a b : Mode} (ha : locks.Announced txn table a)
    (hb : locks.Announced txn table b) : locks.Announced txn table (a.join b) := by
  obtain ⟨hmode, held, hheld, hcovers⟩ := ha
  obtain ⟨hmode', held', hheld', hcovers'⟩ := hb
  obtain rfl : held = held' := Option.some.inj (hheld.symm.trans hheld')
  rcases hmode with rfl | rfl <;> rcases hmode' with rfl | rfl
  · exact ⟨.inl rfl, held, hheld, hcovers⟩
  · exact ⟨.inr rfl, held, hheld, hcovers'⟩
  · exact ⟨.inr rfl, held, hheld, hcovers⟩
  · exact ⟨.inr rfl, held, hheld, hcovers⟩

/-- What is announced stays announced while the mode on the table only gets stronger. -/
theorem Announced.of_covers {table : TableId} (ha : locks.Announced txn table mode)
    (hmode : ∀ held, locks.heldMode txn (.table table) = some held →
      ∃ held', locks'.heldMode txn (.table table) = some held' ∧ held'.covers held = true) :
    locks'.Announced txn table mode := by
  obtain ⟨hkind, held, hheld, hcovers⟩ := ha
  obtain ⟨held', hheld', hcovers'⟩ := hmode held hheld
  exact ⟨hkind, held', hheld', Mode.covers_trans hcovers' hcovers⟩

/-- A granted request leaves everything announced, if what it asks for on a record is. -/
theorem Intended.request (h : locks.Intended) (hr : locks.request txn resource mode = .ok locks')
    (hannounced : ∀ table rid, resource = .record table rid → locks.Announced txn table mode) :
    locks'.Intended := by
  have hstronger : ∀ other r held, locks.heldMode other r = some held →
      ∃ held', locks'.heldMode other r = some held' ∧ held'.covers held = true := by
    intro other r held hheld
    rw [heldMode_request hr]
    split
    · rename_i heq
      obtain ⟨rfl, rfl⟩ := heq
      exact ⟨_, rfl, covers_strengthened_of_heldMode hheld⟩
    · exact ⟨held, hheld, Mode.covers_self held⟩
  intro other table rid mode' hheld
  rw [heldMode_request hr] at hheld
  suffices hbefore : locks.Announced other table mode' from
    hbefore.of_covers fun held hheld => hstronger other (.table table) held hheld
  split at hheld
  · rename_i heq
    obtain ⟨rfl, rfl⟩ := heq
    cases hheld
    have hnew := hannounced table rid rfl
    unfold strengthened
    split
    · rename_i old hold
      exact (h txn table rid old hold).join hnew
    · exact hnew
  · exact h other table rid mode' hheld

/-- Giving up a record leaves everything else announced. -/
theorem Intended.release_record (h : locks.Intended) (hs : locks.Sound) {table : TableId} {rid : Rid} :
    (locks.release txn (.record table rid)).Intended := by
  intro other table' rid' mode' hheld
  rw [heldMode_release hs] at hheld
  split at hheld
  · cases hheld
  · refine (h other table' rid' mode' hheld).of_covers fun held hheld => ?_
    rw [heldMode_release hs, if_neg (by simp)]
    exact ⟨held, hheld, Mode.covers_self held⟩

/-- A transaction that is left without any lock leaves nothing of anybody else's unannounced. -/
theorem Intended.of_forsaken (h : locks.Intended) (hnone : ∀ r, locks'.heldMode txn r = none)
    (hother : ∀ other r, txn ≠ other → locks'.heldMode other r = locks.heldMode other r) :
    locks'.Intended := by
  intro other table rid mode' hheld
  by_cases hne : txn = other
  · rw [← hne, hnone] at hheld
    cases hheld
  · rw [hother other _ hne] at hheld
    refine (h other table rid mode' hheld).of_covers fun held hheld => ?_
    rw [hother other _ hne]
    exact ⟨held, hheld, Mode.covers_self held⟩

end LockTable

end NoWait
