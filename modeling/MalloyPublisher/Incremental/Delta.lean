/-
# The statements of one delta

A delta is a bounded slice of a source written into the table that already
serves. Range replacement deletes the watermark range and inserts the source's
rows of that range; a declared merge key matches rows by identity instead.

The statements are kept as syntax with their SQL text beside them, so that what
an engine does with a script can be stated next to what the script says.
-/

import MalloyPublisher.Foundations.RangeReplace
import MalloyPublisher.Incremental.Bound

namespace MalloyPublisher.Incremental

open Foundations

/-! ## Identifiers -/

/-- Dialects whose identifier quote is a backtick. -/
def BACKTICK_DIALECTS : List String := ["standardsql", "mysql", "databricks"]

/-- Quote one SQL identifier, doubling any quote character inside it. -/
def quoteIdentifier (identifier dialect : String) : String :=
  if dialect ∈ BACKTICK_DIALECTS then
    String.ofList ['\x60'] ++ replaceChar '\x60' (String.ofList ['\x60', '\x60']) identifier ++
      String.ofList ['\x60']
  else "\"" ++ replaceChar '"' "\"\"" identifier ++ "\""

/-! ## Tables -/

/-- A row gives each column a value, or `NULL`. -/
abbrev Row (V : Type*) := String → Option V

/-- A table: its columns, and rows that hold values under those columns only. -/
structure Table (V : Type*) where
  columns : List String
  rows : List (Row V)
  supported : ∀ row ∈ rows, ∀ column, column ∉ columns → row column = none

/-- A row restricted to the listed columns, as `SELECT` of those columns gives it. -/
def project {V : Type*} (columns : List String) (row : Row V) : Row V :=
  fun column => if column ∈ columns then row column else none

theorem project_eq_self {V : Type*} {columns : List String} {row : Row V}
    (supported : ∀ column, column ∉ columns → row column = none) :
    project columns row = row := by
  funext column
  by_cases member : column ∈ columns
  · simp [project, member]
  · simp [project, member, supported column member]

/-- What a warehouse adds to the model: the order of the watermark values, the
value it reads a rendered bound as, and the form its driver returns a value in. -/
structure Engine (V W : Type*) where
  position : V → W
  reads : WatermarkBound → W
  driver : V → RawValue

section Statements

/-- The predicate `column >= start AND column < stop`, with its literals. -/
structure WatermarkRange where
  column : String
  start : WatermarkBound
  stop : WatermarkBound
  startLiteral : String
  stopLiteral : String

def WatermarkRange.sql (range : WatermarkRange) (dialect : String) : String :=
  let watermark := quoteIdentifier range.column dialect
  watermark ++ " >= " ++ range.startLiteral ++ " AND " ++ watermark ++ " < " ++ range.stopLiteral

/-- Render both bounds of a range, refused when either has no literal. -/
def renderRange (numbers : NumberText) (dialect column : String) (start stop : WatermarkBound) :
    Except String WatermarkRange := do
  let startLiteral ← renderSqlBound numbers start dialect
  let stopLiteral ← renderSqlBound numbers stop dialect
  return { column, start, stop, startLiteral, stopLiteral }

/-- The rows-yielding SELECT of one delta: its text, and the range it reads. -/
structure DeltaRows where
  sql : String
  column : String
  start : WatermarkBound
  stop : WatermarkBound

/-- The delta's SELECT: the source's own build SQL, filtered on the watermark. -/
def deltaSelect (numbers : NumberText) (dialect sourceSQL watermarkName : String)
    (start stop : WatermarkBound) : Except String DeltaRows := do
  let range ← renderRange numbers dialect watermarkName start stop
  return {
    sql := "SELECT * FROM (" ++ sourceSQL ++ ") AS __d WHERE " ++ range.sql dialect
    column := watermarkName
    start
    stop }

/-- One data-changing statement against the serving table. -/
inductive Dml
  | deleteRange (quotedTablePath : String) (range : WatermarkRange)
  | insertDelta (quotedTablePath : String) (columns : List String) (delta : DeltaRows)
  | merge (quotedTablePath : String) (columns mergeKeys : List String) (delta : DeltaRows)

/-- A column list as it is spelled between parentheses. -/
def columnList (columns : List String) (dialect : String) : String :=
  ", ".intercalate (columns.map (quoteIdentifier · dialect))

/-- The text of one data-changing statement. -/
def Dml.sql (dialect : String) : Dml → String
  | .deleteRange table range => "DELETE FROM " ++ table ++ " WHERE " ++ range.sql dialect
  | .insertDelta table columns delta =>
    "INSERT INTO " ++ table ++ " (" ++ columnList columns dialect ++ ") SELECT " ++
      columnList columns dialect ++ " FROM (" ++ delta.sql ++ ") AS __s"
  | .merge table columns mergeKeys delta =>
    let q := (quoteIdentifier · dialect)
    let on := " AND ".intercalate (mergeKeys.map fun k =>
      "(__t." ++ q k ++ " = __s." ++ q k ++ " OR (__t." ++ q k ++ " IS NULL AND __s." ++ q k ++
        " IS NULL))")
    let updates := (columns.filter (· ∉ mergeKeys)).map fun c => q c ++ " = __s." ++ q c
    -- With every column an identity column there is nothing to SET, and an empty
    -- SET list is a syntax error, so the clause is left out.
    let matched :=
      if updates = [] then [] else ["WHEN MATCHED THEN UPDATE SET " ++ ", ".intercalate updates]
    "\n".intercalate (["MERGE INTO " ++ table ++ " AS __t", "USING (" ++ delta.sql ++ ") AS __s",
      "ON " ++ on] ++ matched ++ ["WHEN NOT MATCHED THEN INSERT (" ++ columnList columns dialect ++
      ") VALUES (" ++ ", ".intercalate (columns.map fun c => "__s." ++ q c) ++ ")"])

/-- One statement of a delta script. -/
inductive Statement
  | transaction (keyword : String)
  | dml (statement : Dml)
  /-- A Snowflake Scripting block: the statements in one transaction, in one call. -/
  | scriptingBlock (body : List Dml)

/-- The keywords a dialect brackets a transaction with: begin, commit, rollback. -/
def transactionKeywords (dialect : String) : String × String × String :=
  if dialect = "standardsql" then
    ("BEGIN TRANSACTION", "COMMIT TRANSACTION", "ROLLBACK TRANSACTION")
  else ("BEGIN", "COMMIT", "ROLLBACK")

/-- Whether the text holds two adjacent dollar signs. -/
def hasDollarQuote : List Char → Bool
  | '$' :: '$' :: _ => true
  | _ :: rest => hasDollarQuote rest
  | [] => false

/-- The block's text between its dollar quotes. -/
def scriptingBlockText (dialect : String) (body : List Dml) : String :=
  "BEGIN\n  BEGIN TRANSACTION;\n" ++
    "\n".intercalate (body.map fun s => "  " ++ s.sql dialect ++ ";") ++
    "\n  COMMIT;\nEXCEPTION\n  WHEN OTHER THEN\n    ROLLBACK;\n    RAISE;\nEND"

/-- The range replace as one statement; refused when its text holds the block's
own delimiter. -/
def snowflakeScriptingBlock (dialect : String) (body : List Dml) : Except String Statement :=
  if hasDollarQuote (scriptingBlockText dialect body).toList then
    .error ("the delta SQL contains '$$', which cannot be carried inside a " ++
      "Snowflake Scripting block")
  else .ok (.scriptingBlock body)

/-- The statements that apply one delta, in the order they must run. -/
def deltaStatements (numbers : NumberText) (dialect quotedTablePath : String) (delta : DeltaRows)
    (columns mergeKeys : List String) (watermarkName : String) (start stop : WatermarkBound) :
    Except String (List Statement) :=
  if 0 < mergeKeys.length then
    .ok [.dml (.merge quotedTablePath columns mergeKeys delta)]
  else do
    let range ← renderRange numbers dialect watermarkName start stop
    let body : List Dml :=
      [.deleteRange quotedTablePath range, .insertDelta quotedTablePath columns delta]
    if dialect = "snowflake" then
      return [← snowflakeScriptingBlock dialect body]
    else
      let (begin_, commit, _) := transactionKeywords dialect
      return [.transaction begin_] ++ body.map .dml ++ [.transaction commit]

end Statements

section Execution

variable {V W : Type*} [DecidableEq V] [LinearOrder W]

/-- A row's watermark in the column's own order, if it is not `NULL`. -/
def mark (engine : Engine V W) (column : String) (row : Row V) : Option W :=
  (row column).map engine.position

/-- The source's rows a delta reads. -/
def DeltaRows.select (engine : Engine V W) (delta : DeltaRows) (source : List (Row V)) :
    List (Row V) :=
  source.filter
    (inRange (mark engine delta.column) (engine.reads delta.start) (engine.reads delta.stop))

/-- The `ON` clause of a merge: equal on every key, `NULL` matching `NULL`. -/
def sameIdentity (mergeKeys : List String) (left right : Row V) : Bool :=
  mergeKeys.all fun k => decide (left k = right k)

/-- A matched row after `UPDATE SET`. -/
def updateRow (columns mergeKeys : List String) (old new : Row V) : Row V :=
  fun column => if column ∈ columns ∧ column ∉ mergeKeys then new column else old column

/-- What a merge leaves of the target's rows. A delta that matches one target row
twice is refused by the engine. -/
def mergeRows (columns mergeKeys : List String) (target delta : List (Row V)) :
    Except String (List (Row V)) :=
  if target.any fun row => 1 < (delta.filter (sameIdentity mergeKeys row)).length then
    .error "MERGE matched a target row more than once"
  else
    .ok (target.map (fun row =>
        match delta.find? (sameIdentity mergeKeys row) with
        | some new => updateRow columns mergeKeys row new
        | none => row) ++
      (delta.filter fun new => !target.any (sameIdentity mergeKeys · new)).map (project columns))

/-- The effect of one data-changing statement on the target's rows. -/
def Dml.exec (engine : Engine V W) (source : List (Row V)) :
    Dml → List (Row V) → Except String (List (Row V))
  | .deleteRange _ range, target =>
    .ok (target.filter fun row =>
      !inRange (mark engine range.column) (engine.reads range.start) (engine.reads range.stop) row)
  | .insertDelta _ columns delta, target =>
    .ok (target ++ (delta.select engine source).map (project columns))
  | .merge _ columns mergeKeys delta, target =>
    mergeRows columns mergeKeys target (delta.select engine source)

/-- The data-changing statements a script runs, in order. -/
def Statement.body : Statement → List Dml
  | .transaction _ => []
  | .dml statement => [statement]
  | .scriptingBlock body => body

/-- The effect of a script that runs to its commit. -/
def execScript (engine : Engine V W) (source : List (Row V)) (statements : List Statement)
    (target : List (Row V)) : Except String (List (Row V)) :=
  (statements.flatMap Statement.body).foldlM (fun rows statement => statement.exec engine source rows)
    target

/-- Rendering a range keeps its column and its bounds. -/
theorem renderRange_eq_ok {numbers : NumberText} {dialect column : String}
    {start stop : WatermarkBound} {range : WatermarkRange}
    (rendered : renderRange numbers dialect column start stop = .ok range) :
    range.column = column ∧ range.start = start ∧ range.stop = stop := by
  unfold renderRange at rendered
  simp only [bind, Except.bind, pure, Except.pure] at rendered
  repeat' split at rendered
  all_goals cases rendered
  exact ⟨rfl, rfl, rfl⟩

theorem snowflakeScriptingBlock_body {dialect : String} {body : List Dml} {statement : Statement}
    (built : snowflakeScriptingBlock dialect body = .ok statement) : statement.body = body := by
  unfold snowflakeScriptingBlock at built
  split at built
  · cases built
  · cases built
    rfl

/-- Without a merge key, every spelling of the script deletes the delta's range
and inserts the delta's rows. -/
theorem execScript_deltaStatements (engine : Engine V W) {numbers : NumberText}
    {dialect quotedTablePath watermarkName : String} {delta : DeltaRows} {columns : List String}
    {start stop : WatermarkBound} {statements : List Statement}
    (built : deltaStatements numbers dialect quotedTablePath delta columns [] watermarkName
      start stop = .ok statements) (source target : List (Row V)) :
    execScript engine source statements target =
      .ok (target.filter (fun row => !inRange (mark engine watermarkName) (engine.reads start)
        (engine.reads stop) row) ++ (delta.select engine source).map (project columns)) := by
  simp only [deltaStatements, List.length_nil, lt_irrefl, if_false] at built
  cases rendered : renderRange numbers dialect watermarkName start stop with
  | error message => simp [rendered, bind, Except.bind] at built
  | ok range =>
    obtain ⟨column, rangeStart, rangeStop⟩ := renderRange_eq_ok rendered
    -- The keywords and the block differ by dialect; the body of the script does not.
    have body : statements.flatMap Statement.body =
        [.deleteRange quotedTablePath range, .insertDelta quotedTablePath columns delta] := by
      simp only [rendered, bind, Except.bind, pure, Except.pure] at built
      split at built
      · split at built
        · cases built
        case h_2 block =>
          cases built
          simp [snowflakeScriptingBlock_body block]
      · cases built
        simp [Statement.body]
    simp [execScript, body, Dml.exec, column, rangeStart, rangeStop, bind, Except.bind, pure,
      Except.pure]

end Execution

end MalloyPublisher.Incremental
