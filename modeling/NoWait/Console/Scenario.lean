import NoWait.Database.Statement

/-!
# Scenarios: short stories about locks

A scenario runs a few transactions on a fresh database and says what becomes of them.

* `upgrade`: shared and intention exclusive on one table become `SIX`;
* `conflict`: a shared reader against an exclusive writer;
* `gaps`: adjacent and overlapping gap locks;
* `undo`: an insert, an update and a delete taken back by an abort.
-/

namespace NoWait.Console

/-- The stories that can be told. -/
inductive Scenario where
  | upgrade
  | conflict
  | gaps
  | undo
  deriving DecidableEq, Inhabited, Repr

/-- A story under way: it works on a database and adds lines, newest first; it breaks off with a
message. -/
abbrev Narration := EStateM String (Database × List String)

namespace Narration

/-- Tells a line. -/
def say (line : String) : Narration Unit :=
  modify fun (db, lines) => (db, line :: lines)

/-- The value of a question about the database. -/
def ask {α : Type} (question : Database → α) : Narration α := do
  return question (← get).1

/-- Tries an action, for better or worse. -/
def attempt {ε α : Type} (action : Action ε α) : Narration (Except ε α) := fun (db, lines) =>
  match action db with
  | .ok value db => .ok (.ok value) (db, lines)
  | .error error db => .ok (.error error) (db, lines)

/-- Runs an action that has to succeed. -/
def perform {ε α : Type} (message : ε → String) (action : Action ε α) : Narration α := do
  match ← attempt action with
  | .ok value => return value
  | .error error => throw (message error)

/-- Runs a step of a transaction that has to succeed. -/
def step {α : Type} (action : Action TransactionError α) : Narration α :=
  perform TransactionError.message action

/-- Runs a statement that has to succeed. -/
def statement {α : Type} (action : Action StatementError α) : Narration α :=
  perform StatementError.message action

/-- Creates the table of a story and returns its number. -/
def createTable (create : Catalog → Except CatalogError (TableId × Catalog)) :
    Narration TableId := do
  match create (← ask (·.catalog)) with
  | .ok (id, catalog) =>
    modify fun (db, lines) => ({ db with catalog }, lines)
    return id
  | .error error => throw error.message

end Narration

namespace Scenario

open Narration

/-- The word for a scenario on a command line. -/
def text : Scenario → String
  | .upgrade => "upgrade"
  | .conflict => "conflict"
  | .gaps => "gaps"
  | .undo => "undo"

/-- Every scenario. -/
def all : List Scenario := [.upgrade, .conflict, .gaps, .undo]

/-- The bytes of a text of single-byte characters. -/
def bytesOf (text : String) : Bytes := text.toList.map fun c => UInt8.ofNat c.toNat

/-- The text that single-byte characters spell. -/
def textOf (bytes : Bytes) : String := String.ofList (bytes.map fun b => Char.ofNat b.toNat)

/-- What became of a request. -/
def outcome {α : Type} : Except TransactionError α → String
  | .ok _ => "granted"
  | .error error => "failed (" ++ error.message ++ ")"

/-- The shape of the table in every story. -/
def shape : HeapConfig := { rowSize := 8, slotsPerPage := 16 }

/-- The number of a transaction as text. -/
def name (h : Handle) : Narration String := do
  return toString (← ask fun db => (db.txn h).id)

/-- The group mode of a table as text. -/
def groupText (table : TableId) : Narration String :=
  ask fun db => GroupMode.text (db.locks.groupMode (.table table))

/-- Shared and intention exclusive on one table, and what that lets another transaction do. -/
def tellUpgrade : Narration Unit := do
  let table ← createTable (·.createTable "t" shape)
  let a ← step Database.begin
  let b ← step Database.begin
  step (Database.acquire a (.table table) .shared)
  step (Database.acquire a (.table table) .intentionExclusive)
  say ("txn " ++ (← name a) ++ " holds S + IX: group mode " ++ (← groupText table))
  let weak ← attempt (Database.acquire b (.table table) .intentionShared)
  say ("txn " ++ (← name b) ++ " IS: " ++ outcome weak)
  let strong ← attempt (Database.acquire b (.table table) .shared)
  let state ← ask fun db => (db.txn b).state
  say ("txn " ++ (← name b) ++ " S:  " ++ outcome strong ++ " -> state " ++ state.text)
  step (Database.abort b)
  step (Database.commit a)

/-- A reader of a table against a writer of it. -/
def tellConflict : Narration Unit := do
  let table ← createTable (·.createTable "t" shape)
  let a ← step Database.begin
  let b ← step Database.begin
  step (Database.acquire a (.table table) .shared)
  let request ← attempt (Database.acquire b (.table table) .exclusive)
  let state ← ask fun db => (db.txn b).state
  say ("txn " ++ (← name b) ++ " X: " ++ outcome request ++ " -> state " ++ state.text)
  step (Database.abort b)
  say ("after abort of " ++ (← name b) ++ ": group mode " ++ (← groupText table))
  step (Database.commit a)
  say ("after commit of " ++ (← name a) ++ ": group mode " ++ (← groupText table))

/-- One gap lock asked for in `tellGaps`, by the numbers of its two ends. -/
def tellGap (table : TableId) (h : Handle) (start stop : Nat) : Narration Unit := do
  let position (n : Nat) : Position := .before (bytesOf ("p" ++ toString n))
  let granted ← step (Database.lockGap h table (position start) (position stop))
  say ("txn " ++ (← name h) ++ " gap [p" ++ toString start ++ ", p" ++ toString stop ++ "): " ++
    (if granted then "granted" else "rejected"))

/-- Gap locks of three transactions side by side. -/
def tellGaps : Narration Unit := do
  let table ← createTable (·.createTable "t" shape)
  let a ← step Database.begin
  let b ← step Database.begin
  let c ← step Database.begin
  tellGap table a 1 5
  tellGap table b 5 9
  tellGap table c 2 6
  step (Database.commit a)
  step (Database.commit b)
  step (Database.commit c)

/-- What is at a position of the table, in one line. -/
def tellRow (rid : Rid) : Narration Unit := do
  match (← ask (·.catalog)).get? "t" with
  | none => return ()
  | some table =>
    match table.heap.get rid with
    | .ok row => say (rid.text ++ " = " ++ textOf row)
    | .error error => say (rid.text ++ ": " ++ error.message)

/-- Three writes of one transaction taken back by its abort. -/
def tellUndo : Narration Unit := do
  let _ ← createTable (·.createIndexedTable "t" shape 0 4)
  let setup ← step Database.begin
  let kept ← statement (Database.insert setup "t" (bytesOf "key1aaaa"))
  let doomed ← statement (Database.insert setup "t" (bytesOf "key2bbbb"))
  step (Database.commit setup)
  let h ← step Database.begin
  let _ ← statement (Database.update h "t" kept (bytesOf "key9zzzz"))
  let _ ← statement (Database.delete h "t" doomed)
  let fresh ← statement (Database.insert h "t" (bytesOf "key3cccc"))
  let count ← ask fun db => (db.txn h).writes.length
  say ("txn " ++ (← name h) ++ " wrote " ++ toString count ++ " records; rolling back")
  step (Database.abort h)
  [kept, doomed, fresh].forM tellRow

/-- Tells a scenario. -/
def tell : Scenario → Narration Unit
  | .upgrade => tellUpgrade
  | .conflict => tellConflict
  | .gaps => tellGaps
  | .undo => tellUndo

end Scenario

end NoWait.Console
