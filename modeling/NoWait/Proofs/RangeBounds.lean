import NoWait.Proofs.ReadLocks
import NoWait.Proofs.RangeScans

/-!
# The bounds of a range scan

A range scan lists the positions of the rows in its range when it is opened.  It locks a row only when it
hands it out, so until then the row may be moved to another key; that there is still a row is asked again,
its key is not.

* `movedOutSinceOpened` says that the row at a position has been altered since a scan was opened, and lies
  outside of the range since then;
* `Session.mem_pending_of_opens` and `Session.mem_pending_of_step` say where the positions come from that a
  scan has pending, `Run.inRange_iff` what has become of the rows there;
* `handed_out_key_in_range_iff` says exactly when a row that is handed out is in the range.
-/

namespace NoWait

open Database

variable {start s : Session} {call : Call} {trace : List Event} {i : Nat} {name : String}
  {range : KeyRange} {rid : Rid} {row : Bytes} {scan scan' : Scan}

/-! ### Rows that are moved out of a range -/

instance (catalog : Catalog) (name : String) (range : KeyRange) (rid : Rid) :
    Decidable (catalog.InRange name range rid) :=
  decidable_of_iff (((catalog.rows name rid).bind (catalog.keyOf? name)).any range.contains = true)
    (Option.any_eq_true _ _)

/-- Whether a call leaves another row at a position. -/
def Event.rewrites (event : Event) (name : String) (rid : Rid) : Bool :=
  event.after.db.catalog.rows name rid ≠ event.before.db.catalog.rows name rid

/-- Whether the row at a position has been altered since a scan was last opened, and the last call that
altered it has left it outside of a range. -/
def movedOutSinceOpened (trace : List Event) (i : Nat) (name : String) (range : KeyRange) (rid : Rid) :
    Bool :=
  trace.foldl (fun moved event =>
    if event.opens i then false
    else if event.rewrites name rid then !decide (event.after.db.catalog.InRange name range rid)
    else moved) false

@[simp] theorem movedOutSinceOpened_snoc (trace : List Event) (event : Event) (i : Nat) (name : String)
    (range : KeyRange) (rid : Rid) :
    movedOutSinceOpened (trace ++ [event]) i name range rid =
      if event.opens i then false
      else if event.rewrites name rid then !decide (event.after.db.catalog.InRange name range rid)
      else movedOutSinceOpened trace i name range rid := by
  simp [movedOutSinceOpened]

theorem Event.rewrites_eq_true_iff {event : Event} : event.rewrites name rid = true ↔
    event.after.db.catalog.rows name rid ≠ event.before.db.catalog.rows name rid :=
  decide_eq_true_iff

/-! ### What a scan has pending -/

/-- Asking for a tuple takes positions off the front of the list, whatever the answer is. -/
theorem Scan.nextFrom_suffix (scan : Scan) (db : Database) (pending : List Rid) :
    match scan.nextFrom db pending with
    | .ok _ (_, scan') | .error _ (_, scan') =>
      ∃ rest, scan' = { scan with pending := rest } ∧ rest <:+ pending := by
  induction pending generalizing db with
  | nil => exact ⟨[], rfl, List.suffix_refl _⟩
  | cons rid rest ih =>
    unfold nextFrom
    cases scan.visit rid db with
    | error error mid => exact ⟨rest, rfl, List.suffix_cons rid rest⟩
    | ok row mid =>
      cases row with
      | some row => exact ⟨rest, rfl, List.suffix_cons rid rest⟩
      | none =>
        simp only
        have hrest := ih mid
        cases hnext : scan.nextFrom mid rest with
        | ok tuple last =>
          rw [hnext] at hrest
          obtain ⟨rest', hscan, hsuffix⟩ := hrest
          exact ⟨rest', hscan, hsuffix.trans (List.suffix_cons rid rest)⟩
        | error error last =>
          rw [hnext] at hrest
          obtain ⟨rest', hscan, hsuffix⟩ := hrest
          exact ⟨rest', hscan, hsuffix.trans (List.suffix_cons rid rest)⟩

namespace Session

/-- What a range scan has pending when it is opened are the positions of rows in its range. -/
theorem mem_pending_of_opens (hs : s.db.catalog.Sound) (hopens : (⟨s, .initScan i⟩ : Event).opens i = true)
    (hscan' : (s.step (.initScan i)).2.scans[i]? = some scan') (hplan : scan'.plan = .range range)
    (hmem : rid ∈ scan'.pending) :
    (s.step (.initScan i)).2.db.catalog.InRange scan'.table range rid := by
  cases hold : s.scans[i]? with
  | none =>
    rw [show s.step (.initScan i) = (.ok .done, s) from actOnScan_of_none hold _, hold] at hscan'
    cases hscan'
  | some scan =>
    obtain ⟨hlt, -⟩ := Array.getElem?_eq_some_iff.mp hold
    have hstep := step_initScan hold
    have hends := scan.positions_ends s.db
    unfold Action.Ends at hends
    cases hrun : scan.positions s.db with
    | error error db =>
      simp only [hrun] at hstep
      rw [Event.opens, Event.answer, hstep] at hopens
      simp [Except.isOk, Except.toBool] at hopens
    | ok pending db =>
      rw [hrun] at hends
      simp only [hrun] at hstep
      rw [hstep, Array.getElem?_setIfInBounds_self_of_lt hlt] at hscan'
      cases hscan'
      obtain ⟨table, index, hget, hindex, hpending, -⟩ := (hends.2 range hplan).listed
      have hcatalog : db.catalog = s.db.catalog := (hends.2 range hplan).catalog
      rw [hstep]
      show db.catalog.InRange scan.table range rid
      rw [hcatalog]
      exact (hs.mem_ridsBetween hget hindex).mp (hpending ▸ hmem)

/-- What a scan has pending after a call that does not open it, it has had pending before. -/
theorem mem_pending_of_step (hopens : (⟨s, call⟩ : Event).opens i = false)
    (hscan' : (s.step call).2.scans[i]? = some scan') (hmem : rid ∈ scan'.pending) :
    ∃ scan, s.scans[i]? = some scan ∧ scan'.table = scan.table ∧ scan'.plan = scan.plan ∧
      rid ∈ scan.pending := by
  by_cases hinit : call = .initScan i
  · subst hinit
    cases hold : s.scans[i]? with
    | none =>
      rw [show s.step (.initScan i) = (.ok .done, s) from actOnScan_of_none hold _, hold] at hscan'
      cases hscan'
    | some scan =>
      obtain ⟨hlt, -⟩ := Array.getElem?_eq_some_iff.mp hold
      have hstep := step_initScan hold
      cases hrun : scan.positions s.db with
      | ok pending db =>
        simp only [hrun] at hstep
        rw [Event.opens, Event.answer, hstep] at hopens
        simp [Except.isOk, Except.toBool] at hopens
      | error error db =>
        simp only [hrun] at hstep
        rw [hstep, Array.getElem?_setIfInBounds_self_of_lt hlt] at hscan'
        cases hscan'
        exact ⟨_, rfl, rfl, rfl, hmem⟩
  · by_cases hnext : call = .nextScan i
    · subst hnext
      obtain ⟨scan, hold, hplan, -, htable, -⟩ := nextScan_scan hscan'
      obtain ⟨hlt, -⟩ := Array.getElem?_eq_some_iff.mp hold
      have hstep := step_nextScan hold
      have hsuffix := scan.nextFrom_suffix s.db scan.pending
      refine ⟨scan, hold, htable, hplan, ?_⟩
      cases hrun : scan.nextFrom s.db scan.pending with
      | ok tuple last =>
        rw [hrun] at hsuffix
        obtain ⟨rest, hlast, hrest⟩ := hsuffix
        simp only [hrun] at hstep
        rw [hstep, Array.getElem?_setIfInBounds_self_of_lt hlt, hlast] at hscan'
        cases hscan'
        exact hrest.subset hmem
      | error error last =>
        rw [hrun] at hsuffix
        obtain ⟨rest, hlast, hrest⟩ := hsuffix
        simp only [hrun] at hstep
        rw [hstep, Array.getElem?_setIfInBounds_self_of_lt hlt, hlast] at hscan'
        cases hscan'
        exact hrest.subset hmem
    · rcases s.step_scans_cases hinit hnext with hsame | ⟨-, hnew⟩
      · exact ⟨scan', hsame ▸ hscan', rfl, rfl, hmem⟩
      · rw [hnew scan' hscan'] at hmem
        cases hmem

end Session

/-! ### What has become of the listed rows -/

/-- A table in which a row is in a range is indexed, so that every row has a key. -/
theorem Catalog.InRange.exists_keyOf? {catalog catalog' : Catalog} (hin : catalog.InRange name range rid)
    (hshapes : catalog'.shapes = catalog.shapes) (row : Bytes) :
    ∃ key, catalog'.keyOf? name row = some key := by
  obtain ⟨_, hkey, -⟩ := hin
  obtain ⟨old, -, hold⟩ := Option.bind_eq_some_iff.mp hkey
  rw [← keyOf?_congr hshapes] at hold
  obtain ⟨shape, hshape, hold⟩ := Option.bind_eq_some_iff.mp hold
  obtain ⟨⟨offset, length⟩, hstretch, -⟩ := Option.map_eq_some_iff.mp hold
  exact ⟨(row.drop offset).take length, by simp [keyOf?, hshape, TableShape.keyOf?, hstretch]⟩

/-- The row at a position that a range scan has pending has a key in the range, unless it has been moved out
since the scan was opened; and every row of that table has some key. -/
theorem Run.inRange_iff (hrun : Run start trace s) (hfresh : start.IsFresh)
    (hcatalog : start.db.catalog.Sound) (hscan : s.scans[i]? = some scan) (hplan : scan.plan = .range range)
    (hmem : rid ∈ scan.pending) :
    (s.db.catalog.InRange scan.table range rid ↔
      movedOutSinceOpened trace i scan.table range rid = false) ∧
      ∀ row, ∃ key, s.db.catalog.keyOf? scan.table row = some key := by
  induction hrun generalizing scan with
  | nil =>
    rw [hfresh.scans] at hscan
    cases hscan
  | @snoc trace s call hrun ih =>
    have hs := (hrun.tables hcatalog).1
    have hshapes := ((s.step_effect call).tables hs).2
    rw [movedOutSinceOpened_snoc]
    by_cases hopens : (⟨s, call⟩ : Event).opens i = true
    · -- The scan has just listed the rows in its range.
      obtain rfl : call = .initScan i := by simpa [Event.opens] using (Bool.and_eq_true_iff.mp hopens).1
      have hin := Session.mem_pending_of_opens hs hopens hscan hplan hmem
      rw [if_pos hopens]
      exact ⟨iff_of_true hin rfl, hin.exists_keyOf? rfl⟩
    · rw [if_neg hopens]
      obtain ⟨scan₀, hold, htable, hplan₀, hmem₀⟩ :=
        Session.mem_pending_of_step (by simpa using hopens) hscan hmem
      obtain ⟨hiff, hkeys⟩ := ih hold (hplan₀ ▸ hplan) hmem₀
      rw [← htable] at hiff hkeys
      refine ⟨?_, fun row => Catalog.keyOf?_congr hshapes ▸ hkeys row⟩
      by_cases hrewrites : (⟨s, call⟩ : Event).rewrites scan.table rid = true
      · rw [if_pos hrewrites, Event.after, Bool.not_eq_false', decide_eq_true_iff]
      · have hrow : (s.step call).2.db.catalog.rows scan.table rid = s.db.catalog.rows scan.table rid := by
          by_contra hne
          exact hrewrites (Event.rewrites_eq_true_iff.mpr hne)
        rw [if_neg hrewrites, ← hiff]
        exact ⟨fun hin => hin.congr hshapes.symm hrow.symm, fun hin => hin.congr hshapes hrow⟩

/-! ### Rows that are handed out -/

/-- A row that a range scan hands out has its key in the range if and only if it has not been moved out of
the range since the scan was opened, or has been brought back.  Nothing but statements that write into the
table and aborts alters it. -/
theorem handed_out_key_in_range_iff (hrun : Run start trace s) (hfresh : start.IsFresh)
    (hcatalog : start.db.catalog.Sound) (hscan : s.scans[i]? = some scan) (hplan : scan.plan = .range range)
    (hanswer : (s.step (.nextScan i)).1 = .ok (.tuple (some (rid, row)))) :
    (∃ key, s.db.catalog.keyOf? scan.table row = some key ∧
      (range.contains key = true ↔ movedOutSinceOpened trace i scan.table range rid = false)) ∧
      ∀ event ∈ trace, event.rewrites scan.table rid = true →
        (∃ h statement, event.call = .run h statement ∧ statement.written? = some scan.table) ∨
          ∃ h, event.call = .abort h := by
  obtain ⟨visited, rest, hpending, hvisit, hrow, -⟩ := Session.nextScan_visited hscan hplan hanswer
  obtain ⟨hiff, hkeys⟩ :=
    hrun.inRange_iff hfresh hcatalog hscan hplan (hpending ▸ List.mem_append_left rest hvisit)
  constructor
  · obtain ⟨key, hkey⟩ := hkeys row
    refine ⟨key, hkey, ?_⟩
    rw [← hiff, Catalog.InRange, hrow, Option.bind_some, hkey]
    simp
  · intro event hmem hrewrites
    obtain ⟨before, _, -, hbefore, -⟩ := hrun.split hmem
    exact (event.before.step_effect event.call).rewrites (hbefore.tables hcatalog).1
      (Event.rewrites_eq_true_iff.mp hrewrites)

/-- A row is moved out of the range of a scan that is open, and brought back by the rollback; the scan then
hands it out with a key in the range. -/
theorem handed_out_key_in_range_iff_rolled_back :
    let range : KeyRange := { lower := .included [5], upper := .included [5] }
    let calls : List Call := [.begin, .run 0 (.insert "t" [5]), .commit 0, .begin,
      .openScan 1 "t" (.range range), .initScan 0, .begin, .run 2 (.update "t" ⟨0, 0⟩ [9]), .abort 2]
    let s := Session.oneTable.play calls
    (s.step (.nextScan 0)).1 = .ok (.tuple (some (⟨0, 0⟩, [5]))) ∧ ∃ key,
      s.db.catalog.keyOf? "t" [5] = some key ∧ range.contains key = true := by
  intro range calls s
  have hrun : Run Session.oneTable (Session.oneTable.trace calls) s := .of_calls _ calls
  have hscan : s.scans[0]? =
      some { owner := 1, table := "t", plan := .range range, pending := [⟨0, 0⟩] } := by decide +kernel
  have hanswer : (s.step (.nextScan 0)).1 = .ok (.tuple (some (⟨0, 0⟩, [5]))) := by decide +kernel
  obtain ⟨⟨key, hkey, hiff⟩, -⟩ := handed_out_key_in_range_iff hrun Session.oneTable_isFresh
    Session.oneTable_sound hscan rfl hanswer
  exact ⟨hanswer, key, hkey, hiff.mpr (by decide +kernel)⟩

/-- A transaction opens a scan of the range from one key to itself, another one moves the row to another key
and commits, and the scan hands it out with that key. -/
theorem row_handed_out_outside_range :
    let range : KeyRange := { lower := .included [5], upper := .included [5] }
    ∃ (trace : List Event) (s : Session) (scan : Scan), Run Session.oneTable trace s ∧
      (∀ event ∈ trace, event.call.isByHand = false) ∧ s.db.DistinctIds ∧
      s.scans[0]? = some scan ∧ scan.table = "t" ∧ scan.plan = .range range ∧
      (s.step (.nextScan 0)).1 = .ok (.tuple (some (⟨0, 0⟩, [9]))) ∧
      s.db.catalog.keyOf? "t" [9] = some [9] ∧ range.contains [9] = false := by
  intro range
  let calls : List Call := [.begin, .run 0 (.insert "t" [5]), .commit 0, .begin,
    .openScan 1 "t" (.range range), .initScan 0, .begin, .run 2 (.update "t" ⟨0, 0⟩ [9]), .commit 2]
  let s := Session.oneTable.play calls
  have hrun : Run Session.oneTable (Session.oneTable.trace calls) s := .of_calls _ calls
  have hscan : s.scans[0]? =
      some { owner := 1, table := "t", plan := .range range, pending := [⟨0, 0⟩] } := by decide +kernel
  exact ⟨_, s, _, hrun, by decide +kernel, by decide +kernel, hscan, rfl, rfl, by decide +kernel,
    by decide +kernel, by decide +kernel⟩

end NoWait
