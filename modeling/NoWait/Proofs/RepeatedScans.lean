import NoWait.Proofs.RangeScans

/-!
# Range scans that are made twice

A range scan lists the positions in its range when it is opened, and locks and reads them one by one when
it is drained.  So what it hands out is what there is at the end at the positions that were listed at
first.

* `Draining` is what holds of a scan on the way, `Run.draining` that it goes on holding;
* `Drained` says that a scan is opened and drained, `Drained.spec` what it has handed out then;
* `Scan.tuplesAt_eq_iff` compares what two listings of a range give;
* `repeated_scan_eq_iff` says exactly when two scans of one range by one transaction give the same tuples.
-/

namespace NoWait

open Database

variable {s s' : Session} {call : Call} {trace : List Event} {i : Nat} {h : Handle} {name : String}
  {range : KeyRange} {rids rest : List Rid} {out tuples : List (Rid × Bytes)}

/-! ### Scans and calls -/

namespace Session

/-- Whether a scan is a transaction's scan of a range of a table. -/
def ScansRange (s : Session) (i : Nat) (h : Handle) (name : String) (range : KeyRange) : Prop :=
  s.scans[i]?.map (fun scan => (scan.owner, scan.table, scan.plan)) = some (h, name, .range range)

theorem ScansRange.scan (hscans : s.ScansRange i h name range) : ∃ pending,
    s.scans[i]? = some { owner := h, table := name, plan := .range range, pending } := by
  obtain ⟨⟨owner, table, plan, pending⟩, hscan, heq⟩ := Option.map_eq_some_iff.mp hscans
  cases heq
  exact ⟨pending, hscan⟩

end Session

/-- The tuple that a call gets out of a scan, if it asks the scan and there is one. -/
def Event.handedOut (event : Event) (i : Nat) : Option (Rid × Bytes) :=
  if event.call = .nextScan i then
    match event.answer with
    | .ok (.tuple tuple) => tuple
    | _ => none
  else none

/-- Whether a call hears from a scan that there are no more tuples. -/
def Event.findsEnd (event : Event) (i : Nat) : Prop :=
  event.call = .nextScan i ∧ event.answer = .ok (.tuple none)

theorem Call.spares_initScan (i : Nat) (h : Handle) (name : String) :
    (Call.initScan i).Spares h name where
  byHand := rfl
  ends := ⟨by simp, by simp⟩
  writes := by simp

theorem Call.spares_nextScan (i : Nat) (h : Handle) (name : String) :
    (Call.nextScan i).Spares h name where
  byHand := rfl
  ends := ⟨by simp, by simp⟩
  writes := by simp

/-! ### A scan on its way -/

/-- Where a scan of a range is: what it has handed out are the rows at the positions that it has
visited, all of which its owner holds, and the rest of the list is still to be visited. -/
structure Draining (i : Nat) (h : Handle) (name : String) (range : KeyRange) (rids rest : List Rid)
    (out : List (Rid × Bytes)) (s : Session) : Prop where
  scan : s.scans[i]? = some { owner := h, table := name, plan := .range range, pending := rest }
  visited : ∃ visited, rids = visited ++ rest ∧ (∀ rid ∈ visited, s.db.HoldsRow h name rid) ∧
    out = Scan.tuplesAt s.db.catalog.rows name visited

/-- Opening a scan of a range locks the range and lists the positions in it. -/
theorem Session.ScansRange.opened (hscans : s.ScansRange i h name range)
    (hopen : (s.step (.initScan i)).1 = .ok .done) : ∃ rids,
    Listed h name range rids s.db (s.step (.initScan i)).2.db ∧
      Draining i h name range rids rids [] (s.step (.initScan i)).2 := by
  obtain ⟨pending, hscan⟩ := hscans.scan
  have hends := Scan.positions_ends { owner := h, table := name, plan := .range range, pending } s.db
  unfold Action.Ends at hends
  rw [Session.step_initScan hscan] at hopen ⊢
  obtain ⟨hlt, -⟩ := Array.getElem?_eq_some_iff.mp hscan
  cases hrun : Scan.positions { owner := h, table := name, plan := .range range, pending } s.db with
  | ok rids db' =>
    rw [hrun] at hends
    refine ⟨rids, hends.2 range rfl, ?_, [], rfl, by simp, rfl⟩
    exact Array.getElem?_setIfInBounds_self_of_lt hlt
  | error error db' =>
    rw [hrun] at hopen
    cases hopen

/-- What a scan has visited stays held, and what it has handed out stays what is there. -/
theorem Draining.kept (hd : Draining i h name range rids rest out s) (hg : s.db.Guarded)
    (hids : (s.step call).2.db.DistinctIds) (hlt : h < s.db.transactions.size)
    (hspares : call.Spares h name) : ∃ visited, rids = visited ++ rest ∧
      (∀ rid ∈ visited, (s.step call).2.db.HoldsRow h name rid) ∧
      out = Scan.tuplesAt (s.step call).2.db.catalog.rows name visited := by
  obtain ⟨visited, hlisted, hholds, hout⟩ := hd.visited
  have hkept : ∀ rid ∈ visited, (s.step call).2.db.HoldsRow h name rid ∧
      (s.step call).2.db.catalog.rows name rid = s.db.catalog.rows name rid := fun rid hmem =>
    (s.step_effect call).holdsRow hg hids hspares.byHand hlt (hholds rid hmem) hspares.ends
      hspares.writes
  refine ⟨visited, hlisted, fun rid hmem => (hkept rid hmem).1, ?_⟩
  rw [hout]
  exact (Scan.tuplesAt_congr fun rid hmem => (hkept rid hmem).2).symm

/-- A scan that is asked for a tuple, and does not fail, moves on by the tuple that it hands out; if it has
none, it is at its end. -/
theorem Draining.next (hd : Draining i h name range rids rest out s) (hg : s.db.Guarded)
    (hids : (s.step (.nextScan i)).2.db.DistinctIds) (hlt : h < s.db.transactions.size)
    (hok : (s.step (.nextScan i)).1.isOk = true) :
    ∃ tuple rest', (s.step (.nextScan i)).1 = .ok (.tuple tuple) ∧
      Draining i h name range rids rest' (out ++ tuple.toList) (s.step (.nextScan i)).2 ∧
      (rest = [] ∨ tuple = none → rest' = []) := by
  obtain ⟨visited, hlisted, hholds, hout⟩ := hd.kept hg hids hlt (Call.spares_nextScan i h name)
  have hspec := Scan.nextFrom_spec
    { owner := h, table := name, plan := .range range, pending := rest } s.db rest
  obtain ⟨hlt', -⟩ := Array.getElem?_eq_some_iff.mp hd.scan
  have hstep := Session.step_nextScan hd.scan
  cases hrun : Scan.nextFrom
      { owner := h, table := name, plan := .range range, pending := rest } s.db rest with
  | error error last =>
    simp only [hrun] at hstep
    rw [hstep] at hok
    cases hok
  | ok tuple last =>
    rw [hrun] at hspec
    obtain ⟨-, rest', hscan', hrange⟩ := hspec
    obtain ⟨more, hrest, hvisited, hend⟩ := hrange range rfl
    simp only [hrun] at hstep
    refine ⟨tuple, rest', by rw [hstep], ⟨?_, visited ++ more, ?_, fun rid hmem => ?_, ?_⟩, ?_⟩
    · rw [hstep, hscan']
      exact Array.getElem?_setIfInBounds_self_of_lt hlt'
    · rw [hlisted, hrest, List.append_assoc]
    · rcases List.mem_append.mp hmem with hmem | hmem
      · exact hholds rid hmem
      · rw [hstep]
        exact hvisited.holds rid hmem
    · have hrows : (s.step (.nextScan i)).2.db.catalog.rows = s.db.catalog.rows := by
        rw [hstep, hvisited.catalog]
      rw [Scan.tuplesAt_append, ← hout, hvisited.tuple, hrows]
    · rintro (hnil | hnone)
      · rw [hnil] at hrest
        exact (List.append_eq_nil_iff.mp hrest.symm).2
      · exact hend hnone

/-- A call that spares the owner of a scan and does not open the scan anew moves it on by what it gets
out of it. -/
theorem Draining.step (hd : Draining i h name range rids rest out s) (hg : s.db.Guarded)
    (hids : (s.step call).2.db.DistinctIds) (hlt : h < s.db.transactions.size)
    (hspares : call.Spares h name) (honce : call ≠ .initScan i)
    (hok : call = .nextScan i → (s.step call).1.isOk = true) :
    ∃ rest', Draining i h name range rids rest'
        (out ++ (Event.handedOut ⟨s, call⟩ i).toList) (s.step call).2 ∧
      (rest = [] ∨ Event.findsEnd ⟨s, call⟩ i → rest' = []) := by
  by_cases hnext : call = .nextScan i
  · subst hnext
    obtain ⟨tuple, rest', hanswer, hd', hend⟩ := hd.next hg hids hlt (hok rfl)
    have hhanded : Event.handedOut ⟨s, .nextScan i⟩ i = tuple := by
      rw [Event.handedOut, if_pos rfl, Event.answer, hanswer]
    refine ⟨rest', hhanded ▸ hd', ?_⟩
    rintro (hnil | ⟨-, hnone⟩)
    · exact hend (.inl hnil)
    · rw [Event.answer, hanswer] at hnone
      cases hnone
      exact hend (.inr rfl)
  · have hhanded : Event.handedOut ⟨s, call⟩ i = none := by rw [Event.handedOut, if_neg hnext]
    refine ⟨rest, ⟨s.step_scans hd.scan honce hnext, ?_⟩, ?_⟩
    · rw [hhanded, Option.toList_none, List.append_nil]
      exact hd.kept hg hids hlt hspares
    · rintro (hnil | ⟨hcall, -⟩)
      · exact hnil
      · exact absurd hcall hnext

/-- A run that spares the owner of a scan and does not open the scan anew moves it on by all that is got
out of it. -/
theorem Run.draining (hrun : Run s trace s') (hd : Draining i h name range rids rest out s)
    (hg : s.db.Guarded) (hids : s'.db.DistinctIds) (hlt : h < s.db.transactions.size)
    (hspares : ∀ event ∈ trace, event.call.Spares h name)
    (honce : ∀ event ∈ trace, event.call ≠ .initScan i)
    (hok : ∀ event ∈ trace, event.call = .nextScan i → event.answer.isOk = true) :
    ∃ rest', Draining i h name range rids rest' (out ++ trace.filterMap (·.handedOut i)) s' ∧
      ((∃ event ∈ trace, event.findsEnd i) → rest' = []) := by
  induction hrun with
  | nil =>
    refine ⟨rest, ?_, by simp⟩
    rwa [List.filterMap_nil, List.append_nil]
  | @snoc trace mid call hrun ih =>
    have hids₀ : mid.db.DistinctIds := (mid.step_effect call).keepsIds.distinctIds hids
    have hold : ∀ event ∈ trace, event ∈ trace ++ [⟨mid, call⟩] :=
      fun event hmem => List.mem_append_left _ hmem
    have hlast : (⟨mid, call⟩ : Event) ∈ trace ++ [⟨mid, call⟩] := by simp
    have hmid := (hrun.guarded hg hids₀ fun event hmem => (hspares event (hold event hmem)).byHand).1
    have hlt₀ : h < mid.db.transactions.size := Nat.lt_of_lt_of_le hlt hrun.keepsIds.size
    obtain ⟨rest₀, hd₀, hend₀⟩ := ih hids₀ (fun event hmem => hspares event (hold event hmem))
      (fun event hmem => honce event (hold event hmem)) fun event hmem => hok event (hold event hmem)
    obtain ⟨rest', hd', hend'⟩ :=
      hd₀.step hmid hids hlt₀ (hspares _ hlast) (honce _ hlast) (hok _ hlast)
    refine ⟨rest', ?_, ?_⟩
    · rw [List.filterMap_append, ← List.append_assoc]
      convert hd' using 2
      cases hhanded : Event.handedOut ⟨mid, call⟩ i <;> simp [hhanded]
    · rintro ⟨event, hmem, hfinds⟩
      rcases List.mem_append.mp hmem with hmem | hmem
      · exact hend' (.inl (hend₀ ⟨event, hmem, hfinds⟩))
      · rw [List.mem_singleton.mp hmem] at hfinds
        exact hend' (.inr hfinds)

/-! ### A scan from its opening to its end -/

/-- Whether a scan is opened, and in a run from there on is drained without an error: it hands out the
given tuples, and then says that there are no more. -/
structure Drained (s : Session) (i : Nat) (trace : List Event) (tuples : List (Rid × Bytes))
    (s' : Session) : Prop where
  opened : (s.step (.initScan i)).1 = .ok .done
  run : Run (s.step (.initScan i)).2 trace s'
  once : ∀ event ∈ trace, event.call ≠ .initScan i
  succeeds : ∀ event ∈ trace, event.call = .nextScan i → event.answer.isOk = true
  ended : ∃ event ∈ trace, event.findsEnd i
  handedOut : trace.filterMap (·.handedOut i) = tuples

/-- What a transaction has got out of a scan of a range that it has drained are the rows at the
positions that were in the range when it was opened.  It holds all of them, and the range. -/
theorem Drained.spec (hd : Drained s i trace tuples s') (hscans : s.ScansRange i h name range)
    (hg : s.db.Guarded) (hids : s'.db.DistinctIds)
    (hspares : ∀ event ∈ trace, event.call.Spares h name) :
    ∃ rids, Listed h name range rids s.db (s.step (.initScan i)).2.db ∧
      tuples = Scan.tuplesAt s'.db.catalog.rows name rids ∧
      (∀ rid ∈ rids, s'.db.HoldsRow h name rid) ∧
      (s.step (.initScan i)).2.db.HoldsRange h name range := by
  have heffect := s.step_effect (.initScan i)
  have hids₁ : (s.step (.initScan i)).2.db.DistinctIds := (hd.run.distinctIds hids).1
  have hg₁ := heffect.guarded hg hids₁ rfl
  obtain ⟨rids, hlisted, hdraining⟩ := hscans.opened hd.opened
  have hlt : h < s.db.transactions.size := lt_of_isActive hlisted.active'
  have hlt₁ : h < (s.step (.initScan i)).2.db.transactions.size :=
    Nat.lt_of_lt_of_le hlt heffect.keepsIds.size
  obtain ⟨rest, hdraining', hrest⟩ :=
    hd.run.draining hdraining hg₁ hids hlt₁ hspares hd.once hd.succeeds
  obtain ⟨visited, hvisited, hholds, htuples⟩ := hdraining'.visited
  rw [hrest hd.ended, List.append_nil] at hvisited
  subst hvisited
  refine ⟨rids, hlisted, ?_, hholds, hlt₁, ?_⟩
  · rw [← hd.handedOut, ← htuples, List.nil_append]
  · obtain ⟨table, index, hget, -, -, hentry⟩ := hlisted.listed
    refine ⟨table.shape, ?_, ?_⟩
    · rw [heffect.shapes hg, Catalog.shapes_of_get? hget]
    · rw [hlisted.id]
      exact hentry

/-! ### Two listings of one range -/

theorem IndexEntry.eq_of_isLE {a b : IndexEntry} (hab : (IndexEntry.compare a b).isLE = true)
    (hba : (IndexEntry.compare b a).isLE = true) : a = b := by
  have hle : IndexEntry.compare a b = .eq := Std.OrientedCmp.isLE_antisymm hab hba
  exact Std.LawfulEqCmp.eq_of_compare hle

/-- Two listings of a range, of which the rows on the first have not changed up to the second, give the
same tuples if and only if those from the first are still in the range and in order, and those from the
second were in the range at the first. -/
theorem Scan.tuplesAt_eq_iff {first second : Catalog} {rows : Rows} {table table' : Table}
    {index index' : TableIndex} (hfirst : first.Sound) (hsecond : second.Sound)
    (hshapes : second.shapes = first.shapes) (hget : first.get? name = some table)
    (hindex : table.index = some index) (hget' : second.get? name = some table')
    (hindex' : table'.index = some index')
    (hkept : ∀ rid, first.InRange name range rid → rows name rid = second.rows name rid) :
    let listed := Scan.tuplesAt rows name (index.keys.ridsBetween range.start range.stop)
    let again := Scan.tuplesAt rows name (index'.keys.ridsBetween range.start range.stop)
    listed = again ↔
      (∀ tuple ∈ listed, ∃ key, first.keyOf? name tuple.2 = some key ∧ range.contains key = true) ∧
      first.IsAscending name listed ∧ ∀ tuple ∈ again, first.InRange name range tuple.1 := by
  intro listed again
  have hkeyOf : second.keyOf? = first.keyOf? := Catalog.keyOf?_congr hshapes
  have hmem : ∀ tuple, tuple ∈ listed ↔
      first.InRange name range tuple.1 ∧ rows name tuple.1 = some tuple.2 := by
    intro tuple
    rw [mem_tuplesAt, hfirst.mem_ridsBetween hget hindex]
  have hmem' : ∀ tuple, tuple ∈ again ↔
      second.InRange name range tuple.1 ∧ rows name tuple.1 = some tuple.2 := by
    intro tuple
    rw [mem_tuplesAt, hsecond.mem_ridsBetween hget' hindex']
  -- A tuple from the first listing has the row that was there at the second.
  have hrow : ∀ tuple ∈ listed, second.rows name tuple.1 = some tuple.2 := by
    intro tuple htuple
    obtain ⟨hin, hrow⟩ := (hmem tuple).mp htuple
    rw [← hkept tuple.1 hin, hrow]
  constructor
  · intro heq
    refine ⟨fun tuple htuple => ?_, ?_, fun tuple htuple => ?_⟩
    · obtain ⟨⟨key, hkey, hcontains⟩, -⟩ := (hmem' tuple).mp (heq ▸ htuple)
      rw [hrow tuple htuple, Option.bind_some, hkeyOf] at hkey
      exact ⟨key, hkey, hcontains⟩
    · rw [heq]
      refine isAscending_tuplesAt hsecond hget' hindex' hshapes.symm fun tuple htuple => ?_
      exact hrow tuple (heq ▸ htuple)
    · exact ((hmem tuple).mp (heq ▸ htuple)).1
  · rintro ⟨hkeys, hascending, hearlier⟩
    have hperm : listed.Perm again := by
      refine (List.perm_ext_iff_of_nodup (nodup_tuplesAt (hfirst.nodup_ridsBetween hget hindex))
        (nodup_tuplesAt (hsecond.nodup_ridsBetween hget' hindex'))).mpr fun tuple => ?_
      constructor
      · intro htuple
        obtain ⟨key, hkey, hcontains⟩ := hkeys tuple htuple
        refine (hmem' tuple).mpr ⟨⟨key, ?_, hcontains⟩, ((hmem tuple).mp htuple).2⟩
        rw [hrow tuple htuple, Option.bind_some, hkeyOf, hkey]
      · intro htuple
        exact (hmem tuple).mpr ⟨hearlier tuple htuple, ((hmem' tuple).mp htuple).2⟩
    have hascending' : first.IsAscending name again := by
      refine isAscending_tuplesAt hsecond hget' hindex' hshapes.symm fun tuple htuple => ?_
      exact hrow tuple (hperm.mem_iff.mpr htuple)
    refine List.Perm.eq_of_pairwise ?_ hascending hascending' hperm
    intro a b ha hb hab hba
    obtain ⟨k, hk, -⟩ := hkeys a ha
    obtain ⟨l, hl, -⟩ := hkeys b (hperm.mem_iff.mpr hb)
    have hentry := IndexEntry.eq_of_isLE (hab k l hk hl) (hba l k hl hk)
    have hrid : a.1 = b.1 := congrArg Prod.snd hentry
    have hra := ((hmem a).mp ha).2
    have hrb := ((hmem' b).mp hb).2
    rw [hrid, hrb] at hra
    exact Prod.ext hrid (Option.some.inj hra).symm

/-! ### Scanning again -/

/-- A transaction that scans a range, and scans it again while it is spared, gets the same tuples if and
only if the keys of the first ones are still in the range and in order, and no position of the second
ones was out of the range when the first scan was opened.  A row at such a position has been put there,
past the gap that the transaction holds, by the rollback of another transaction. -/
theorem repeated_scan_eq_iff {start s₁ s₂ s₃ : Session} {before first second : List Event} {j : Nat}
    {rows₁ rows₂ : List (Rid × Bytes)} (hrun : Run start before s₁) (hfresh : start.IsFresh)
    (hcatalog : start.db.catalog.Sound) (hhand : ∀ event ∈ before, event.call.isByHand = false)
    (hscan₁ : s₁.ScansRange i h name range) (hfirst : Drained s₁ i first rows₁ s₂)
    (hscan₂ : s₂.ScansRange j h name range) (hsecond : Drained s₂ j second rows₂ s₃)
    (hspares : ∀ event ∈ first ++ second, event.call.Spares h name) (hids : s₃.db.DistinctIds) :
    (rows₁ = rows₂ ↔
      (∀ tuple ∈ rows₁, ∃ key,
        s₁.db.catalog.keyOf? name tuple.2 = some key ∧ range.contains key = true) ∧
      s₁.db.catalog.IsAscending name rows₁ ∧
      ∀ tuple ∈ rows₂, s₁.db.catalog.InRange name range tuple.1) ∧
    ∀ tuple ∈ rows₂, ¬ s₁.db.catalog.InRange name range tuple.1 →
      ∃ event ∈ first, (∃ h', h' ≠ h ∧ event.call = .abort h') ∧
        ¬ event.before.db.catalog.InRange name range tuple.1 ∧
        event.after.db.catalog.InRange name range tuple.1 := by
  have hspares₁ : ∀ event ∈ first, event.call.Spares h name :=
    fun event hmem => hspares event (List.mem_append_left _ hmem)
  have hspares₂ : ∀ event ∈ (⟨s₂, .initScan j⟩ : Event) :: second, event.call.Spares h name := by
    intro event hmem
    rcases List.mem_cons.mp hmem with rfl | hmem
    · exact Call.spares_initScan j h name
    · exact hspares event (List.mem_append_right _ hmem)
  have hrun₁ : Run s₁ (⟨s₁, .initScan i⟩ :: first) s₂ := .cons _ hfirst.run
  have hrun₂ : Run s₂ (⟨s₂, .initScan j⟩ :: second) s₃ := .cons _ hsecond.run
  have hids₂ : s₂.db.DistinctIds := (hrun₂.distinctIds hids).1
  have hids₁ : s₁.db.DistinctIds := (hrun₁.distinctIds hids₂).1
  have hg₁ : s₁.db.Guarded := (hrun.guarded (hfresh.guarded hcatalog) hids₁ hhand).1
  have heffect := s₁.step_effect (.initScan i)
  have hids₁' : (s₁.step (.initScan i)).2.db.DistinctIds := (hfirst.run.distinctIds hids₂).1
  have hg₁' := heffect.guarded hg₁ hids₁' rfl
  obtain ⟨hg₂, hguarded⟩ :=
    hfirst.run.guarded hg₁' hids₂ fun event hmem => (hspares₁ event hmem).byHand
  have hshapes : s₂.db.catalog.shapes = s₁.db.catalog.shapes :=
    (hfirst.run.shapes hguarded).1.trans (heffect.shapes hg₁)
  obtain ⟨rids₁, hlisted₁, htuples₁, hholds₁, hholdsRange⟩ :=
    hfirst.spec hscan₁ hg₁ hids₂ hspares₁
  obtain ⟨rids₂, hlisted₂, htuples₂, -, -⟩ :=
    hsecond.spec hscan₂ hg₂ hids fun event hmem => hspares₂ event (List.mem_cons_of_mem _ hmem)
  have hlt : h < s₂.db.transactions.size := lt_of_isActive hlisted₂.active'
  have hkept : ∀ rid ∈ rids₁, s₃.db.catalog.rows name rid = s₂.db.catalog.rows name rid :=
    fun rid hmem => (hrun₂.holdsRow hg₂ hids hspares₂ hlt (hholds₁ rid hmem)).2
  obtain ⟨table, index, hget, hindex, rfl, -⟩ := hlisted₁.listed
  obtain ⟨table', index', hget', hindex', rfl, -⟩ := hlisted₂.listed
  have hrows₁ : rows₁ = Scan.tuplesAt s₃.db.catalog.rows name
      (index.keys.ridsBetween range.start range.stop) := by
    rw [htuples₁]
    exact (Scan.tuplesAt_congr hkept).symm
  refine ⟨?_, fun tuple hmem hout => ?_⟩
  · rw [hrows₁, htuples₂]
    refine Scan.tuplesAt_eq_iff hg₁.catalog hg₂.catalog hshapes hget hindex hget' hindex' ?_
    intro rid hin
    exact hkept rid ((hg₁.catalog.mem_ridsBetween hget hindex).mpr hin)
  · have hin : s₂.db.catalog.InRange name range tuple.1 := by
      rw [htuples₂, Scan.mem_tuplesAt, hg₂.catalog.mem_ridsBetween hget' hindex'] at hmem
      exact hmem.1
    refine hfirst.run.entered hg₁' hids₂ hspares₁ hholdsRange (fun hin' => hout ?_) hin
    have hsame := hlisted₁.toGranted.rows hg₁.catalog
    exact hin'.congr hsame.shapes.symm (by rw [hsame.rows])

/-! ### A row that comes back -/

namespace RestoredRow

/-- One transaction commits a row, a second one begins, a third one deletes the row, and a scan of the
whole table is at hand for the second. -/
def callsBefore : List Call :=
  [.begin, .run 0 (.insert "t" [5]), .commit 0, .begin, .begin, .run 2 (.delete "t" ⟨0, 0⟩),
    .openScan 1 "t" (.range {})]

def beforeScan : Session := Session.oneTable.play callsBefore

/-- The scan is drained, the third transaction is rolled back, and another scan is at hand. -/
def callsBetween : List Call := [.nextScan 0, .abort 2, .openScan 1 "t" (.range {})]

def betweenScans : Session := (beforeScan.step (.initScan 0)).2.play callsBetween

/-- The second scan is drained. -/
def callsAfter : List Call := [.nextScan 1, .nextScan 1]

def afterScans : Session := (betweenScans.step (.initScan 1)).2.play callsAfter

theorem scansRange_beforeScan : beforeScan.ScansRange 0 1 "t" {} := by
  unfold Session.ScansRange
  decide +kernel

theorem scansRange_betweenScans : betweenScans.ScansRange 1 1 "t" {} := by
  unfold Session.ScansRange
  decide +kernel

theorem run_beforeScan : Run Session.oneTable (Session.oneTable.trace callsBefore) beforeScan :=
  .of_calls _ _

/-- The first scan finds nothing. -/
theorem drained_beforeScan :
    Drained beforeScan 0 ((beforeScan.step (.initScan 0)).2.trace callsBetween) [] betweenScans where
  opened := by decide +kernel
  run := .of_calls _ _
  once := by decide +kernel
  succeeds := by decide +kernel
  ended := ⟨⟨(beforeScan.step (.initScan 0)).2, .nextScan 0⟩, by simp [callsBetween, Session.trace], rfl,
    by decide +kernel⟩
  handedOut := by decide +kernel

/-- The second scan finds the row. -/
theorem drained_betweenScans :
    Drained betweenScans 1 ((betweenScans.step (.initScan 1)).2.trace callsAfter) [(⟨0, 0⟩, [5])]
      afterScans where
  opened := by decide +kernel
  run := .of_calls _ _
  once := by decide +kernel
  succeeds := by decide +kernel
  ended := ⟨⟨((betweenScans.step (.initScan 1)).2.step (.nextScan 1)).2, .nextScan 1⟩,
    by simp [callsAfter, Session.trace], rfl, by decide +kernel⟩
  handedOut := by decide +kernel

/-- Nothing is done meanwhile that takes from the second transaction what it holds. -/
theorem spares_betweenScans :
    ∀ event ∈ (beforeScan.step (.initScan 0)).2.trace callsBetween ++
      (betweenScans.step (.initScan 1)).2.trace callsAfter, event.call.Spares 1 "t" := by
  intro event hmem
  rcases List.mem_append.mp hmem with hmem | hmem
  · refine Run.forall_trace (P := fun call => call.Spares 1 "t") _ (fun call hcall => ?_) event hmem
    simp only [callsBetween, List.mem_cons, List.not_mem_nil, or_false] at hcall
    rcases hcall with rfl | rfl | rfl
    · exact Call.spares_nextScan 0 1 "t"
    · exact ⟨rfl, by simp, by simp⟩
    · exact ⟨rfl, by simp, by simp⟩
  · refine Run.forall_trace (P := fun call => call.Spares 1 "t") _ (fun call hcall => ?_) event hmem
    simp only [callsAfter, List.mem_cons, List.not_mem_nil, or_false] at hcall
    rcases hcall with rfl | rfl
    · exact Call.spares_nextScan 1 1 "t"
    · exact Call.spares_nextScan 1 1 "t"

/-- A transaction that goes on throughout scans a whole table twice and writes nothing, and the second
scan hands out a row that the first did not. -/
theorem second_scan_finds_restored_row :
    ∃ (s₁ s₂ s₃ : Session) (before first second : List Event) (rows₁ rows₂ : List (Rid × Bytes)),
      Run Session.oneTable before s₁ ∧ (∀ event ∈ before, event.call.isByHand = false) ∧
      s₁.ScansRange 0 1 "t" {} ∧ Drained s₁ 0 first rows₁ s₂ ∧
      s₂.ScansRange 1 1 "t" {} ∧ Drained s₂ 1 second rows₂ s₃ ∧
      (∀ event ∈ first ++ second, event.call.Spares 1 "t") ∧ s₃.db.DistinctIds ∧
      s₃.db.isActive 1 = true ∧ rows₁ ≠ rows₂ := by
  refine ⟨beforeScan, betweenScans, afterScans, _, _, _, [], [(⟨0, 0⟩, [5])], run_beforeScan, ?_,
    scansRange_beforeScan, drained_beforeScan, scansRange_betweenScans, drained_betweenScans,
    spares_betweenScans, ?_, ?_, ?_⟩
  · decide +kernel
  · decide +kernel
  · decide +kernel
  · decide

/-- The row that the second scan finds has been put there by the rollback of the third transaction. -/
theorem repeated_scan_eq_iff_restored_row :
    ∃ event ∈ (beforeScan.step (.initScan 0)).2.trace callsBetween,
      (∃ h', h' ≠ 1 ∧ event.call = .abort h') ∧
      ¬ event.before.db.catalog.InRange "t" {} ⟨0, 0⟩ ∧ event.after.db.catalog.InRange "t" {} ⟨0, 0⟩ := by
  have hnone : beforeScan.db.catalog.rows "t" ⟨0, 0⟩ = none := by decide +kernel
  obtain ⟨-, hrestored⟩ := repeated_scan_eq_iff run_beforeScan Session.oneTable_isFresh
    Session.oneTable_sound (by decide +kernel) scansRange_beforeScan drained_beforeScan
    scansRange_betweenScans drained_betweenScans spares_betweenScans (by decide +kernel)
  refine hrestored (⟨0, 0⟩, [5]) (by simp) ?_
  rintro ⟨key, hkey, -⟩
  rw [hnone] at hkey
  cases hkey

end RestoredRow

end NoWait
