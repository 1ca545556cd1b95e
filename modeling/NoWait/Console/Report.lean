import NoWait.Lock.Mode
import NoWait.Log.File

/-!
# Reports: the compatibility table and the listing of a log

Both are lists of lines in columns.  `modeMatrix` has a row for every mode that is held and a column for
every mode that is requested; `logListing` has a line for every record.
-/

namespace NoWait.Console

/-- A text set to the right in a column; one that is too wide takes what it needs. -/
def column (width : Nat) (text : String) : String :=
  "".pushn ' ' (width - text.length) ++ text

/-- The compatibility table: which requests can be granted beside which held mode. -/
def modeMatrix : List String :=
  let row (head : String) (cells : List String) : String :=
    String.join ((head :: cells).map (column 5))
  row "" (Mode.all.map (·.text)) ::
    Mode.all.map fun held =>
      row held.text (Mode.all.map fun requested => if held.compatible requested then "1" else "0")

/-- An image in hexadecimal, or a dash for none. -/
def imageText : Option Bytes → String
  | none => "-"
  | some image => image.toHex

/-- The line for a log record: the numbers of the record, its transaction and its predecessor, the kind,
and for a change of a row where it is and what it was and is. -/
def recordLine (record : LogRecord) : String :=
  let head := column 6 (toString record.lsn) ++ " txn " ++ column 4 (toString record.txn) ++
    " prev " ++ column 6 (toString record.prev) ++ " " ++ record.kind.text
  match record.content with
  | .control _ => head
  | .data change =>
    head ++ " table " ++ toString change.table ++ " rid " ++ change.rid.text ++
      " before " ++ imageText change.before ++ " after " ++ imageText change.after

/-- A line for every record. -/
def logListing (records : List LogRecord) : List String := records.map recordLine

end NoWait.Console
