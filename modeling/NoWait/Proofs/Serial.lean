import NoWait.Proofs.Rows
import NoWait.Proofs.Session

/-!
# Statements one after another, on the map of rows

Without anyone else at work a statement is a simple thing: it looks at one position of one table, gives
an answer, and at most changes the row there.

* `Statement.serial` is that answer and the map of rows behind it, from the shapes of the tables; where
  a slot for an inserted row is found is not settled by the rows, and is given beside them;
* `Statement.Finds` says which slot can be given: one that the table has room for, and none only if the table
  can have no slots at all;
* `Replays` runs statements one after another and asks for the answers that they gave;
* `Statement.serial_congr` says that a statement looks at nothing but its own position.
-/

namespace NoWait

/-- The answer that there is no table of a name. -/
def Answer.unknownTable (name : String) : Except StatementError Answer :=
  .error (.transaction (.unknownTable name))

namespace Statement

/-- The position that a statement is about, if its table is there; that of an insertion is the slot found
for it. -/
def site? (shapes : String → Option TableShape) (slot : Option Rid) :
    Statement → Option (String × Rid)
  | .insert name _ => (shapes name).bind fun _ => slot.map fun rid => (name, rid)
  | .update name rid _ | .delete name rid | .read name rid => (shapes name).map fun _ => (name, rid)
  | .acquire .. => none

/-- Whether a slot can have been found for a statement: an insertion finds one that its table can have, and
fails to only where no slot can be had, however few rows there are. -/
def Finds (shapes : String → Option TableShape) (slot : Option Rid) : Statement → Prop
  | .insert name _ => ∀ shape, shapes name = some shape →
    match slot with
    | some rid => shape.config.hasPages = true ∧ rid.slot.toNat < shape.config.slotsPerPage
    | none => shape.config.hasSlots = false
  | .update .. | .delete .. | .read .. | .acquire .. => True

/-- What a statement makes of the row at its position: its answer, and the row that it leaves there. -/
def effect (shapes : String → Option TableShape) (slot : Option Rid) (old : Option Bytes) :
    Statement → Except StatementError Answer × Option Bytes
  | .insert name row =>
    match shapes name, slot with
    | none, _ => (Answer.unknownTable name, old)
    | some _, none => (.error (.storage .noSlot), old)
    | some shape, some rid =>
      if row.length ≠ shape.config.rowSize then
        (.error (.storage (.sizeMismatch shape.config.rowSize row.length)), old)
      else
        match old with
        | some _ => (.error (.storage (.occupied rid)), old)
        | none => (.ok (.position rid), some row)
  | .update name rid row =>
    match shapes name, old with
    | none, _ => (Answer.unknownTable name, old)
    | some _, none => (.error (.storage (.notFound rid)), old)
    | some shape, some before =>
      if row.length ≠ shape.config.rowSize then
        (.error (.storage (.sizeMismatch shape.config.rowSize row.length)), old)
      else (.ok (.row before), some row)
  | .delete name rid =>
    match shapes name, old with
    | none, _ => (Answer.unknownTable name, old)
    | some _, none => (.error (.storage (.notFound rid)), old)
    | some _, some before => (.ok (.row before), none)
  | .read name rid =>
    match shapes name, old with
    | none, _ => (Answer.unknownTable name, old)
    | some _, none => (.error (.storage (.notFound rid)), old)
    | some _, some row => (.ok (.row row), old)
  | .acquire (.table _) _ => (.ok .done, old)
  | .acquire (.record ..) mode =>
    if mode ≠ .shared ∧ mode ≠ .exclusive then (.error (.transaction (.recordMode mode)), old)
    else (.ok .done, old)

/-- What becomes of a statement that has the rows to itself: its answer, and the rows behind it. -/
def serial (shapes : String → Option TableShape) (rows : Rows) (slot : Option Rid)
    (statement : Statement) : Except StatementError Answer × Rows :=
  match statement.site? shapes slot with
  | none => ((statement.effect shapes slot none).1, rows)
  | some (name, rid) =>
    let (answer, row) := statement.effect shapes slot (rows name rid)
    (answer, rows.set name rid row)

variable {shapes : String → Option TableShape} {rows rows' : Rows} {slot : Option Rid}
  {statement : Statement} {answer : Except StatementError Answer}

theorem serial_of_site {name : String} {rid : Rid} {row : Option Bytes}
    (hsite : statement.site? shapes slot = some (name, rid))
    (heffect : statement.effect shapes slot (rows name rid) = (answer, row)) :
    statement.serial shapes rows slot = (answer, rows.set name rid row) := by
  simp only [serial, hsite, heffect]

theorem serial_of_no_site (hsite : statement.site? shapes slot = none)
    (heffect : (statement.effect shapes slot none).1 = answer) :
    statement.serial shapes rows slot = (answer, rows) := by
  simp only [serial, hsite, heffect]

/-- A statement that finds the same row at its position gives the same answer and does the same there,
whatever else the map holds. -/
theorem serial_congr (h : statement.serial shapes rows slot = (answer, rows')) {other : Rows}
    (hsite : ∀ name rid, statement.site? shapes slot = some (name, rid) → other name rid = rows name rid) :
    ∃ other', statement.serial shapes other slot = (answer, other') ∧
      (∀ name rid, other name rid = rows name rid → other' name rid = rows' name rid) ∧
      ∀ name rid, statement.site? shapes slot ≠ some (name, rid) → other' name rid = other name rid := by
  unfold serial at h ⊢
  cases hs : statement.site? shapes slot with
  | none =>
    rw [hs] at h
    simp only [Prod.mk.injEq] at h
    exact ⟨other, by rw [h.1], fun name rid hrow => h.2 ▸ hrow, fun _ _ _ => rfl⟩
  | some site =>
    obtain ⟨name, rid⟩ := site
    rw [hs] at h
    simp only [Prod.mk.injEq] at h
    obtain ⟨rfl, rfl⟩ := h
    have hrow : other name rid = rows name rid := hsite name rid hs
    refine ⟨other.set name rid (statement.effect shapes slot (rows name rid)).2,
      by simp only [hrow], fun n r heq => ?_, fun n r hne => ?_⟩
    · simp only [Rows.set, heq]
    · refine Rows.set_of_ne ?_
      rintro ⟨rfl, rfl⟩
      exact hne rfl

end Statement

/-- Statements with the answers that they gave, in the order in which they were run. -/
abbrev Transcript := List (Statement × Except StatementError Answer)

/-- Whether the statements of a transcript, run one after another from some rows, give the answers of
the transcript and lead to the last rows, with a slot for each insertion that can have been found. -/
inductive Replays (shapes : String → Option TableShape) (first : Rows) : Transcript → Rows → Prop where
  | nil : Replays shapes first [] first
  | snoc {transcript : Transcript} {rows rows' : Rows} {statement : Statement}
    {answer : Except StatementError Answer} (slot : Option Rid) :
    Replays shapes first transcript rows →
    statement.Finds shapes slot →
    statement.serial shapes rows slot = (answer, rows') →
    Replays shapes first (transcript ++ [(statement, answer)]) rows'

/-- Two replays, the second from where the first ends, make one. -/
theorem Replays.append {shapes : String → Option TableShape} {first mid last : Rows}
    {transcript rest : Transcript} (h : Replays shapes first transcript mid)
    (h' : Replays shapes mid rest last) : Replays shapes first (transcript ++ rest) last := by
  induction h' with
  | nil => rwa [List.append_nil]
  | snoc slot _ hfinds hserial ih =>
    rw [← List.append_assoc]
    exact .snoc slot ih hfinds hserial

end NoWait
