import MalloyPublisher.Foundations.SqlTokens
import MalloyPublisher.Incremental.SqlLiterals
import MalloyPublisher.QueryMetadata.MergedBag

/-!
# The tags of a build that reads through another engine

A build into storage runs in DuckDB and sends its statements on to a warehouse: the warehouse's
statement is an argument of a function, so it is a literal of a DuckDB statement. The bag of the
build is written into the warehouse's statement, for Snowflake as a literal inside that literal, for
BigQuery as a string of labels. What is read at either level has to be what was written, and the
lookup of what a build cost has to name the tag the build has set.

## Main definitions

* `wrapPassthrough`, `passthroughSnowflake` — statements that are sent on
* `snowflakeSetQueryTagSQL`, `snowflakeCostSQL` — setting a tag, and looking for it
* `bigQueryQueryLabelValue`, `bigQueryScript` — labels, and the script that sets them
* `TagsAgree`, `LabelsHold` — what is read of them

## Main results

* `areLabels_renderedLabels` — the labels are pairs of distinct keys and values of the label grammar
* `passthrough_nests` — every statement is read as what was written into it
-/

namespace MalloyPublisher.QueryMetadata

open Foundations

/-! ## The dialects -/

/-- DuckDB: a quote that is written twice is the only escape. -/
abbrev duckdb : SqlDialect := SqlDialect.doubling

/-- Snowflake: a backslash escapes in a literal, and a quote that is written twice is one. -/
def snowflake : SqlDialect where
  literals :=
    { quote := '\'', doubles := true, escapes := some Incremental.sqlUnescape, breaks := true }
  names := duckdb.names
  single := rfl
  double := duckdb.double

/-- BigQuery: either quote begins a string, in which a backslash escapes and no line ends. -/
def bigQuery : SqlDialect where
  literals :=
    { quote := '\'', doubles := false, escapes := some Incremental.sqlUnescape, breaks := false }
  names :=
    { quote := '"', doubles := false, escapes := some Incremental.sqlUnescape, breaks := false }
  single := rfl
  double := rfl

/-! ## Escaping -/

/-- Double the quotes of a value. -/
def escapeSQL (value : List Char) : List Char := doubled '\'' value

def BACKSLASH_ESCAPE_DIALECTS : List String := ["databricks", "mysql", "snowflake"]

def UNSUPPORTED_LITERAL_DIALECTS : List (String × String) :=
  [("bigquery",
    "GoogleSQL does not accept '' as an escaped quote, so this function cannot build a correct " ++
    "BigQuery literal. BigQuery introspection goes through the @google-cloud/bigquery client " ++
    "instead of building SQL.")]

def DOUBLED_ESCAPE_DIALECTS : List String :=
  ["ducklake", "duckdb", "motherduck", "postgres", "publisher", "trino"]

/-- A value for a literal of the dialect of a connection. -/
def sqlLiteral (value : List Char) (connectionType : Option String) : Except String (List Char) :=
  let dialect := String.ofList ((connectionType.getD "").toList.map Char.toLower)
  match UNSUPPORTED_LITERAL_DIALECTS.lookup dialect with
  | some unsupported =>
    .error ("Cannot build a SQL literal for \"" ++ dialect ++ "\". " ++ unsupported)
  | none =>
    let backslash := BACKSLASH_ESCAPE_DIALECTS.contains dialect
    if dialect ≠ "" ∧ backslash = false ∧ DOUBLED_ESCAPE_DIALECTS.contains dialect = false then
      .error ("Unclassified SQL dialect \"" ++ connectionType.getD "" ++
        "\": add it to BACKSLASH_ESCAPE_DIALECTS or DOUBLED_ESCAPE_DIALECTS in " ++
        "introspection_sql.ts before building SQL for it, or to UNSUPPORTED_LITERAL_DIALECTS if, " ++
        "like BigQuery, it does not accept '' as an escaped quote.")
    else
      let escaped :=
        if backslash then value.flatMap fun c => if c = '\\' then ['\\', '\\'] else [c] else value
      .ok (doubled '\'' escaped)

/-! ## Statements that are sent on -/

inductive FederatedSourceType
  | bigquery | snowflake | postgres
deriving DecidableEq

def wrapPassthrough (sourceType : FederatedSourceType) (handle innerSQL : List Char) : List Char :=
  let sql := '\'' :: (escapeSQL innerSQL ++ ['\''])
  let h := '\'' :: (escapeSQL handle ++ ['\''])
  match sourceType with
  | .bigquery => "SELECT * FROM bigquery_query(".toList ++ h ++ ", ".toList ++ sql ++ [')']
  | .postgres => "SELECT * FROM postgres_query(".toList ++ h ++ ", ".toList ++ sql ++ [')']
  | .snowflake => "SELECT * FROM snowflake_query(".toList ++ sql ++ ", ".toList ++ h ++ [')']

def passthroughSnowflake (innerSQL handle : List Char) : List Char :=
  "SELECT * FROM snowflake_query(".toList ++ '\'' :: (escapeSQL innerSQL ++ ['\'']) ++
    ", ".toList ++ '\'' :: (escapeSQL handle ++ ['\'']) ++ [')']

/-! ## The bag of a build -/

/-- The properties of a bag, in the order in which the runtime lists them. -/
structure QueryMetadata where
  entries : Bag
  distinct : (entries.map Prod.fst).Nodup

def MAX_QUERY_TAG_LENGTH : ℕ := 2000

/-- A text that is written in ASCII, from its code units. -/
def ascii (units : JsString) : List Char := units.map Char.ofNat

/-- `JSON.stringify` of a bag, whose names and values are ASCII. -/
def QueryMetadata.stringify (metadata : QueryMetadata) : List Char :=
  ascii (serialized metadata.entries)

def snowflakeQueryTagValue (metadata : Option QueryMetadata) : Option (List Char) :=
  match metadata with
  | none => none
  | some metadata =>
    if metadata.entries = [] then none
    else if metadata.stringify.length > MAX_QUERY_TAG_LENGTH then none
    else some metadata.stringify

def snowflakeSetQueryTagSQL (metadata : Option QueryMetadata) (secretName : List Char) :
    Except String (Option (List Char)) :=
  match snowflakeQueryTagValue metadata with
  | none => .ok none
  | some tag =>
    (sqlLiteral tag (some "snowflake")).map fun literal =>
      let inner := "ALTER SESSION SET QUERY_TAG = '".toList ++ literal ++ ['\'']
      some ("SELECT * FROM snowflake_query('".toList ++ doubled '\'' inner ++ "', '".toList ++
        doubled '\'' secretName ++ "')".toList)

/-- A name that Snowflake reads without quotes. -/
def isBareName : List Char → Bool
  | [] => false
  | c :: rest =>
    (c.isAlpha || c = '_') && rest.all fun c => c.isAlphanum || c = '_' || c = '$'

def snowflakeDatabaseQualifier (database : Option (List Char)) : List Char :=
  match database with
  | some database => if isBareName database then database else "SNOWFLAKE".toList
  | none => "SNOWFLAKE".toList

def snowflakeCostSQL (queryTag : List Char) (database : Option (List Char)) :
    Except String (List Char) :=
  (sqlLiteral queryTag (some "snowflake")).map fun literal =>
    "\n      SELECT QUERY_ID       AS \"job_id\",".toList ++
      "\n             QUERY_TEXT     AS \"query_text\",".toList ++
      "\n             BYTES_SCANNED  AS \"bytes_scanned\",".toList ++
      "\n             EXECUTION_TIME AS \"execution_time_ms\",".toList ++
      "\n             ROWS_PRODUCED  AS \"rows_produced\"\n      FROM TABLE(".toList ++
      (snowflakeDatabaseQualifier database ++
      (".INFORMATION_SCHEMA.QUERY_HISTORY_BY_SESSION(".toList ++
      "\n                 RESULT_LIMIT => 10000))\n      WHERE QUERY_TAG = ".toList ++
      ('\'' :: (literal ++ ['\'']) ++ "\n        AND EXECUTION_STATUS = 'SUCCESS'".toList)))

/-! ## Labels -/

def BQ_MAX_LEN : ℕ := 63

/-- A character of `[a-z0-9_-]`. -/
def isLabelChar (c : Char) : Bool := c.isLower || c.isDigit || c = '_' || c = '-'

def sanitizeBigQueryValue (value : List Char) : List Char :=
  ((value.map Char.toLower).map fun c => if isLabelChar c then c else '_').take BQ_MAX_LEN

/-- A key that begins with a letter. -/
def sanitizeBigQueryKey (key : List Char) : Option (List Char) :=
  let sanitized := sanitizeBigQueryValue key
  if sanitized.head?.any Char.isLower then some sanitized else none

/-- The labels of a bag: the last of the properties that come to one key has the key. -/
def renderedLabels (metadata : QueryMetadata) : List (List Char × List Char) :=
  metadata.entries.foldl (fun rendered property =>
    match sanitizeBigQueryKey (ascii property.1.text) with
    | none => rendered
    | some key => setKey key (sanitizeBigQueryValue (ascii property.2.text)) rendered) []

/-- A label as it is written. -/
def labelText (label : List Char × List Char) : List Char := label.1 ++ ':' :: label.2

def bigQueryQueryLabelValue (metadata : Option QueryMetadata) : Option (List Char) :=
  match metadata with
  | none => none
  | some metadata =>
    if renderedLabels metadata = [] then none
    else some ([','].intercalate ((renderedLabels metadata).map labelText))

/-- The statement of a script that sets the labels of what follows. -/
def setLabels (label : List Char) : List Char :=
  "SET @@query_label = \"".toList ++ label ++ "\";\n".toList

/-- The script a build sends to BigQuery when there is a label to set. -/
def bigQueryScript (label buildSQL : List Char) : List Char := setLabels label ++ buildSQL ++ [';']

/-- The statement that has DuckDB run a script. -/
def executeScript (handle script : List Char) : List Char :=
  "SELECT * FROM bigquery_execute('".toList ++ escapeSQL handle ++ "', '".toList ++
    escapeSQL script ++ "')".toList

/-! ## What is read -/

/-- The tokens of a call with two arguments. -/
def callTokens (function : String) (first second : List Char) : List SqlToken :=
  [.word "SELECT".toList, .symbol '*', .word "FROM".toList, .word function.toList, .symbol '(',
    .literal first, .symbol ',', .literal second, .symbol ')']

/-- The tokens of a statement that is sent on. -/
def FederatedSourceType.call (handle innerSQL : List Char) : FederatedSourceType → List SqlToken
  | .bigquery => callTokens "bigquery_query" handle innerSQL
  | .postgres => callTokens "postgres_query" handle innerSQL
  | .snowflake => callTokens "snowflake_query" innerSQL handle

/-- The tokens of the statement that sets a tag. -/
def tagTokens (tag : List Char) : List SqlToken :=
  [.word "ALTER".toList, .word "SESSION".toList, .word "SET".toList, .word "QUERY_TAG".toList,
    .symbol '=', .literal tag]

/-- A column and the name it is given. -/
def columnTokens (column name : String) : List SqlToken :=
  [.word column.toList, .word "AS".toList, .name name.toList]

/-- The tokens of the lookup of a tag. -/
def costTokens (qualifier tag : List Char) : List SqlToken :=
  .word "SELECT".toList :: [SqlToken.symbol ','].intercalate
      [columnTokens "QUERY_ID" "job_id", columnTokens "QUERY_TEXT" "query_text",
        columnTokens "BYTES_SCANNED" "bytes_scanned",
        columnTokens "EXECUTION_TIME" "execution_time_ms",
        columnTokens "ROWS_PRODUCED" "rows_produced"] ++
    [.word "FROM".toList, .word "TABLE".toList, .symbol '(', .word qualifier, .symbol '.',
      .word "INFORMATION_SCHEMA".toList, .symbol '.', .word "QUERY_HISTORY_BY_SESSION".toList,
      .symbol '(', .word "RESULT_LIMIT".toList, .symbol '=', .symbol '>', .number "10000".toList,
      .symbol ')', .symbol ')', .word "WHERE".toList, .word "QUERY_TAG".toList, .symbol '=',
      .literal tag, .word "AND".toList, .word "EXECUTION_STATUS".toList, .symbol '=',
      .literal "SUCCESS".toList]

/-- The tokens of the statement that sets the labels. -/
def labelTokens (label : List Char) : List SqlToken :=
  [.word "SET".toList, .symbol '@', .symbol '@', .word "query_label".toList, .symbol '=',
    .name label, .symbol ';']

/-! ## Calls -/

section Calls

variable {first second opening tag : List Char} {tokens : List SqlToken}

theorem closed_comma : duckdb.reader.Closed ", ".toList [.symbol ','] :=
  SqlDialect.closed_piece rfl rfl

/-- The two arguments of a call are read behind its opening. -/
theorem read_call (closed : duckdb.reader.Closed opening tokens) :
    duckdb.read (opening ++ quoted '\'' first ++ ", ".toList ++ quoted '\'' second ++ [')']) =
      some (tokens ++ [.literal first, .symbol ',', .literal second, .symbol ')']) := by
  have close : duckdb.reader.Closed [')'] [.symbol ')'] :=
    SqlDialect.closed_piece rfl rfl
  have one := (SqlDialect.lexes_quoted first).append_closed closed_comma
    fun rest => by simp [SqlDialect.Ends]
  have two := (SqlDialect.lexes_quoted second).append_closed close
    fun rest => by simp [SqlDialect.Ends]
  have whole := ((closed.append one).append two).read
  simpa [SqlDialect.read, List.append_assoc] using whole

/-- The opening of a call. -/
theorem closed_opening {function : String} {opening : List Char}
    (isRead : duckdb.read opening = some [.word "SELECT".toList, .symbol '*', .word "FROM".toList,
      .word function.toList, .symbol '(']) (ends : opening.getLast? = some '(') :
    duckdb.reader.Closed opening [.word "SELECT".toList, .symbol '*', .word "FROM".toList,
      .word function.toList, .symbol '('] :=
  SqlDialect.closed_piece isRead (by rw [ends]; rfl)

theorem read_wrapPassthrough (sourceType : FederatedSourceType) (handle innerSQL : List Char) :
    duckdb.read (wrapPassthrough sourceType handle innerSQL) =
      some (sourceType.call handle innerSQL) := by
  cases sourceType with
  | bigquery => exact read_call (closed_opening (by decide +kernel) (by decide +kernel))
  | snowflake => exact read_call (closed_opening (by decide +kernel) (by decide +kernel))
  | postgres => exact read_call (closed_opening (by decide +kernel) (by decide +kernel))

theorem read_passthroughSnowflake (innerSQL handle : List Char) :
    duckdb.read (passthroughSnowflake innerSQL handle) =
      some (callTokens "snowflake_query" innerSQL handle) :=
  read_wrapPassthrough .snowflake handle innerSQL

/-- A call with its quotes among the fixed pieces. -/
theorem call_text (opening first second : List Char) :
    opening ++ ['\''] ++ doubled '\'' first ++ "', '".toList ++ doubled '\'' second ++
        "')".toList =
      opening ++ quoted '\'' first ++ ", ".toList ++ quoted '\'' second ++ [')'] := by
  have between : "', '".toList = '\'' :: (", ".toList ++ ['\'']) := by decide +kernel
  have closed : "')".toList = ['\'', ')'] := by decide +kernel
  simp only [between, closed, quoted, List.append_assoc, List.cons_append, List.nil_append]

/-- A statement that is sent on, with its quotes among the fixed pieces. -/
theorem passthroughSnowflake_eq (innerSQL handle : List Char) :
    passthroughSnowflake innerSQL handle = "SELECT * FROM snowflake_query('".toList ++
      doubled '\'' innerSQL ++ "', '".toList ++ doubled '\'' handle ++ "')".toList := by
  have opened : "SELECT * FROM snowflake_query('".toList =
      "SELECT * FROM snowflake_query(".toList ++ ['\''] := by decide +kernel
  rw [opened, call_text]
  rfl

theorem read_executeScript (handle script : List Char) :
    duckdb.read (executeScript handle script) =
      some (callTokens "bigquery_execute" handle script) := by
  have opened : "SELECT * FROM bigquery_execute('".toList =
      "SELECT * FROM bigquery_execute(".toList ++ ['\''] := by decide +kernel
  unfold executeScript
  simp only [opened, escapeSQL, call_text]
  exact read_call (closed_opening (by decide +kernel) (by decide +kernel))

end Calls

/-! ## Tags -/

section Tags

variable {tag : List Char} {metadata : Option QueryMetadata}

/-- What is written of a tag is read by Snowflake. -/
theorem lexes_sqlLiteral (tag : List Char) : ∃ literal,
    sqlLiteral tag (some "snowflake") = .ok literal ∧
      snowflake.reader.Lexes SqlDialect.Ends ('\'' :: (literal ++ ['\''])) [.literal tag] := by
  refine ⟨tag.flatMap (Incremental.sqlEscape "snowflake"), ?_, ?_⟩
  · have dialect : sqlLiteral tag (some "snowflake") =
        .ok (doubled '\'' (tag.flatMap fun c => if c = '\\' then ['\\', '\\'] else [c])) := rfl
    rw [dialect, doubled, List.flatMap_assoc]
    congr 1
    refine List.flatMap_congr fun c _ => ?_
    unfold Incremental.sqlEscape
    by_cases backslash : c = '\\'
    · subst backslash
      rfl
    · simp [backslash]
  · have isRules : Incremental.literalRules "snowflake" = some snowflake.literals := rfl
    exact SqlDialect.lexes_literal fun c _ => Incremental.writes_sqlEscape isRules c

/-- The statement that sets a tag. -/
theorem read_snowflakeSetQueryTagSQL (handle : List Char)
    (isTag : snowflakeQueryTagValue metadata = some tag) : ∃ statement inner,
      snowflakeSetQueryTagSQL metadata handle = .ok (some statement) ∧
      duckdb.read statement = some (callTokens "snowflake_query" inner handle) ∧
      snowflake.read inner = some (tagTokens tag) := by
  obtain ⟨literal, isLiteral, lexes⟩ := lexes_sqlLiteral tag
  have opening : snowflake.reader.Closed "ALTER SESSION SET QUERY_TAG = ".toList
      [.word "ALTER".toList, .word "SESSION".toList, .word "SET".toList, .word "QUERY_TAG".toList,
        .symbol '='] := SqlDialect.closed_piece (by decide +kernel)
        (by decide +kernel)
  have opened : "ALTER SESSION SET QUERY_TAG = '".toList =
      "ALTER SESSION SET QUERY_TAG = ".toList ++ ['\''] := by decide +kernel
  refine ⟨passthroughSnowflake ("ALTER SESSION SET QUERY_TAG = ".toList ++
    '\'' :: (literal ++ ['\''])) handle, _, ?_, read_passthroughSnowflake _ _, ?_⟩
  · rw [snowflakeSetQueryTagSQL, isTag]
    simp only [isLiteral, Except.map, passthroughSnowflake_eq, opened, List.append_assoc,
      List.cons_append, List.nil_append]
  · exact (opening.append_lexes lexes).read (by simp [SqlDialect.Ends])

theorem isWordStart_of_isAlpha {c : Char} (alpha : c.isAlpha = true) : isWordStart c = true := by
  rw [isWordStart, alpha]
  rfl

/-- A name that Snowflake reads without quotes is a word. -/
theorem lexes_bareName {name : List Char} (bare : isBareName name = true) :
    snowflake.reader.Lexes (fun rest => ∀ d ∈ rest.head?, isWordChar d = false) name
      [.word name] := by
  cases name with
  | nil => cases bare
  | cons c rest =>
    simp only [isBareName, Bool.and_eq_true, Bool.or_eq_true, decide_eq_true_eq] at bare
    refine SqlDialect.lexes_word ?_ ?_
    · rcases bare.1 with alpha | rfl
      · exact isWordStart_of_isAlpha alpha
      · decide
    · rw [List.all_eq_true] at bare ⊢
      intro d member
      have among := bare.2 d member
      simp only [Char.isAlphanum, Bool.or_eq_true, decide_eq_true_eq] at among
      rcases among with ((alpha | digit) | rfl) | rfl
      · simp [isWordChar, isWordStart_of_isAlpha alpha]
      · simp [isWordChar, digit]
      · decide
      · decide

theorem isBareName_qualifier (database : Option (List Char)) :
    isBareName (snowflakeDatabaseQualifier database) = true := by
  unfold snowflakeDatabaseQualifier
  cases database with
  | none => decide
  | some name =>
    simp only
    split_ifs with bare
    · exact bare
    · decide

/-- The lookup of a tag. -/
theorem read_snowflakeCostSQL (tag : List Char) (database : Option (List Char)) : ∃ statement,
    snowflakeCostSQL tag database = .ok statement ∧
      snowflake.read statement =
        some (costTokens (snowflakeDatabaseQualifier database) tag) := by
  obtain ⟨literal, isLiteral, lexes⟩ := lexes_sqlLiteral tag
  rw [snowflakeCostSQL, isLiteral]
  refine ⟨_, rfl, ?_⟩
  -- the columns, up to the name of the database
  have id : snowflake.reader.Closed "\n      SELECT QUERY_ID       AS \"job_id\",".toList
      (.word "SELECT".toList :: columnTokens "QUERY_ID" "job_id" ++ [.symbol ',']) :=
    SqlDialect.closed_piece (by decide +kernel) (by decide +kernel)
  have text : snowflake.reader.Closed "\n             QUERY_TEXT     AS \"query_text\",".toList
      (columnTokens "QUERY_TEXT" "query_text" ++ [.symbol ',']) :=
    SqlDialect.closed_piece (by decide +kernel) (by decide +kernel)
  have bytes : snowflake.reader.Closed "\n             BYTES_SCANNED  AS \"bytes_scanned\",".toList
      (columnTokens "BYTES_SCANNED" "bytes_scanned" ++ [.symbol ',']) :=
    SqlDialect.closed_piece (by decide +kernel) (by decide +kernel)
  have time : snowflake.reader.Closed
      "\n             EXECUTION_TIME AS \"execution_time_ms\",".toList
      (columnTokens "EXECUTION_TIME" "execution_time_ms" ++ [.symbol ',']) :=
    SqlDialect.closed_piece (by decide +kernel) (by decide +kernel)
  have rows : snowflake.reader.Closed
      "\n             ROWS_PRODUCED  AS \"rows_produced\"\n      FROM TABLE(".toList
      (columnTokens "ROWS_PRODUCED" "rows_produced" ++
        [.word "FROM".toList, .word "TABLE".toList, .symbol '(']) :=
    SqlDialect.closed_piece (by decide +kernel) (by decide +kernel)
  have history : snowflake.reader.Closed ".INFORMATION_SCHEMA.QUERY_HISTORY_BY_SESSION(".toList
      [.symbol '.', .word "INFORMATION_SCHEMA".toList, .symbol '.',
        .word "QUERY_HISTORY_BY_SESSION".toList, .symbol '('] :=
    SqlDialect.closed_piece (by decide +kernel) (by decide +kernel)
  have limit : snowflake.reader.Closed
      "\n                 RESULT_LIMIT => 10000))\n      WHERE QUERY_TAG = ".toList
      [.word "RESULT_LIMIT".toList, .symbol '=', .symbol '>', .number "10000".toList,
        .symbol ')', .symbol ')', .word "WHERE".toList, .word "QUERY_TAG".toList, .symbol '='] :=
    SqlDialect.closed_piece (by decide +kernel) (by decide +kernel)
  have status : snowflake.reader.read "\n        AND EXECUTION_STATUS = 'SUCCESS'".toList =
      some [.word "AND".toList, .word "EXECUTION_STATUS".toList, .symbol '=',
        .literal "SUCCESS".toList] := by decide +kernel
  -- from the end of the statement to its beginning
  have fromTag := lexes.read_append status (by decide +kernel)
  have fromLimit := limit.read_eq_some.mpr fromTag
  have fromHistory := history.read_eq_some.mpr fromLimit
  have fromName := (lexes_bareName (isBareName_qualifier database)).read_append fromHistory (by
    have dot : ".INFORMATION_SCHEMA.QUERY_HISTORY_BY_SESSION(".toList =
        '.' :: "INFORMATION_SCHEMA.QUERY_HISTORY_BY_SESSION(".toList := by decide +kernel
    intro d first
    rw [dot, List.cons_append, List.head?_cons, Option.mem_some_iff] at first
    subst first
    decide)
  exact ((((id.append text).append bytes).append time).append rows).read_eq_some.mpr fromName

end Tags

/-! ## Labels -/

section Labels

variable {labels : List (List Char × List Char)}

/-- A text of label characters that is not too long. -/
def IsLabelText (text : List Char) : Prop := text.all isLabelChar = true ∧ text.length ≤ BQ_MAX_LEN

/-- Labels as BigQuery takes them: no two of one key, and each key begins with a letter. -/
structure AreLabels (labels : List (List Char × List Char)) : Prop where
  distinct : (labels.map Prod.fst).Nodup
  keys : ∀ label ∈ labels, IsLabelText label.1 ∧ label.1.head?.any Char.isLower = true
  values : ∀ label ∈ labels, IsLabelText label.2

theorem isLabelText_sanitizeBigQueryValue (value : List Char) :
    IsLabelText (sanitizeBigQueryValue value) := by
  refine ⟨?_, List.length_take_le _ _⟩
  rw [List.all_eq_true]
  intro c member
  obtain ⟨d, -, rfl⟩ := List.mem_map.mp (List.mem_of_mem_take member)
  split_ifs with label
  · exact label
  · decide

/-- A property that is rendered keeps the labels in order. -/
theorem AreLabels.setKey (labelled : AreLabels labels) {key text value : List Char}
    (isKey : sanitizeBigQueryKey text = some key) :
    AreLabels (setKey key (sanitizeBigQueryValue value) labels) := by
  have keyText : IsLabelText key ∧ key.head?.any Char.isLower = true := by
    unfold sanitizeBigQueryKey at isKey
    obtain ⟨first, same⟩ := Option.ite_none_right_eq_some.mp isKey
    cases same
    exact ⟨isLabelText_sanitizeBigQueryValue text, first⟩
  refine ⟨nodup_setKey labelled.distinct, fun label member => ?_, fun label member => ?_⟩
  · rcases eq_or_mem_of_mem_setKey member with rfl | before
    · exact keyText
    · exact labelled.keys label before
  · rcases eq_or_mem_of_mem_setKey member with rfl | before
    · exact isLabelText_sanitizeBigQueryValue value
    · exact labelled.values label before

theorem areLabels_renderedLabels (metadata : QueryMetadata) :
    AreLabels (renderedLabels metadata) := by
  have step : ∀ (properties : Bag) (rendered : List (List Char × List Char)), AreLabels rendered →
      AreLabels (properties.foldl (fun rendered property =>
        match sanitizeBigQueryKey (ascii property.1.text) with
        | none => rendered
        | some key =>
          Foundations.setKey key (sanitizeBigQueryValue (ascii property.2.text)) rendered)
        rendered) := by
    intro properties
    induction properties with
    | nil => exact fun rendered labelled => labelled
    | cons property properties ih =>
      intro rendered labelled
      rw [List.foldl_cons]
      refine ih _ ?_
      cases isKey : sanitizeBigQueryKey (ascii property.1.text) with
      | none => exact labelled
      | some key => exact labelled.setKey isKey
  exact step metadata.entries [] ⟨List.nodup_nil, by simp, by simp⟩

/-- A character of the labels cannot end the string they stand in. -/
theorem writes_label {c : Char} (inside : isLabelChar c = true ∨ c = ':' ∨ c = ',') :
    bigQuery.names.Writes (fun c => [c]) c := by
  intro rest
  refine LiteralRules.read_plain ?_ ?_ ?_ <;> rintro rfl <;> revert inside <;> decide

/-- What is joined is made of the separator and of the parts. -/
theorem mem_intercalate {α : Type*} {separator : List α} {parts : List (List α)} {c : α}
    (member : c ∈ separator.intercalate parts) : c ∈ separator ∨ ∃ part ∈ parts, c ∈ part := by
  induction parts with
  | nil => cases member
  | cons part parts ih =>
    cases parts with
    | nil => exact .inr ⟨part, by simp, by simpa using member⟩
    | cons next parts =>
      rw [List.intercalate_cons_cons, List.mem_append, List.mem_append] at member
      rcases member with (first | between) | after
      · exact .inr ⟨part, by simp, first⟩
      · exact .inl between
      · obtain separator | ⟨other, isPart, inside⟩ := ih after
        · exact .inl separator
        · exact .inr ⟨other, List.mem_cons_of_mem _ isPart, inside⟩

/-- The labels are read in the script that sets them, and what is behind them is left as it is. -/
theorem closed_setLabels (labelled : AreLabels labels) :
    bigQuery.reader.Closed (setLabels ([','].intercalate (labels.map labelText)))
      (labelTokens ([','].intercalate (labels.map labelText))) := by
  have writes : ∀ c ∈ [','].intercalate (labels.map labelText),
      bigQuery.names.Writes (fun c => [c]) c := by
    intro c member
    refine writes_label ?_
    rcases mem_intercalate member with comma | ⟨text, isText, inside⟩
    · exact .inr (.inr (List.mem_singleton.mp comma))
    · obtain ⟨label, isLabel, rfl⟩ := List.mem_map.mp isText
      rcases List.mem_append.mp inside with key | value
      · exact .inl (List.all_eq_true.mp (labelled.keys label isLabel).1.1 c key)
      · rcases List.mem_cons.mp value with colon | value
        · exact .inr (.inl colon)
        · exact .inl (List.all_eq_true.mp (labelled.values label isLabel).1 c value)
  generalize [','].intercalate (labels.map labelText) = label at writes ⊢
  have bare : label.flatMap (fun c => [c]) = label := by simp
  have opening : bigQuery.reader.Closed "SET @@query_label = ".toList
      [.word "SET".toList, .symbol '@', .symbol '@', .word "query_label".toList, .symbol '='] :=
    SqlDialect.closed_piece (by decide +kernel) (by decide +kernel)
  have closing : bigQuery.reader.Closed ";\n".toList [.symbol ';'] :=
    SqlDialect.closed_piece (by decide +kernel) (by decide +kernel)
  have opened : "SET @@query_label = \"".toList = "SET @@query_label = ".toList ++ ['"'] := by
    decide +kernel
  have closed : "\";\n".toList = '"' :: ";\n".toList := by decide +kernel
  have whole := opening.append ((SqlDialect.lexes_name writes).append_closed closing
    fun rest doubles => by cases doubles)
  rw [bare] at whole
  unfold setLabels
  simp only [opened, closed, List.append_assoc, List.cons_append, List.nil_append] at whole ⊢
  exact whole

end Labels

/-! ## Both levels -/

/-- The tag that is set and the tag that is looked for are the bag as it is serialised, and without
a tag none is set. -/
def TagsAgree (metadata : Option QueryMetadata) (handle : List Char)
    (database : Option (List Char)) : Prop :=
  match snowflakeQueryTagValue metadata with
  | none => snowflakeSetQueryTagSQL metadata handle = .ok none
  | some tag => metadata.map QueryMetadata.stringify = some tag ∧
    (∃ statement inner, snowflakeSetQueryTagSQL metadata handle = .ok (some statement) ∧
      duckdb.read statement = some (callTokens "snowflake_query" inner handle) ∧
      snowflake.read inner = some (tagTokens tag)) ∧
    ∃ lookup, snowflakeCostSQL tag database = .ok lookup ∧
      duckdb.read (passthroughSnowflake lookup handle) =
        some (callTokens "snowflake_query" lookup handle) ∧
      snowflake.read lookup = some (costTokens (snowflakeDatabaseQualifier database) tag)

/-- The labels are written as pairs, and the script that sets them is read as setting them. -/
def LabelsHold (metadata : Option QueryMetadata) (handle buildSQL : List Char) : Prop :=
  match bigQueryQueryLabelValue metadata with
  | none => True
  | some label =>
    (∃ labels, labels ≠ [] ∧ AreLabels labels ∧
      label = [','].intercalate (labels.map labelText)) ∧
    duckdb.read (executeScript handle (bigQueryScript label buildSQL)) =
      some (callTokens "bigquery_execute" handle (bigQueryScript label buildSQL)) ∧
    bigQueryScript label buildSQL = setLabels label ++ (buildSQL ++ [';']) ∧
    bigQuery.reader.Closed (setLabels label) (labelTokens label)

theorem tagsAgree (metadata : Option QueryMetadata) (handle : List Char)
    (database : Option (List Char)) : TagsAgree metadata handle database := by
  unfold TagsAgree
  cases isTag : snowflakeQueryTagValue metadata with
  | none => rw [snowflakeSetQueryTagSQL, isTag]
  | some tag =>
    obtain ⟨lookup, isLookup, isRead⟩ := read_snowflakeCostSQL tag database
    refine ⟨?_, read_snowflakeSetQueryTagSQL handle isTag, lookup, isLookup,
      read_passthroughSnowflake _ _, isRead⟩
    cases metadata with
    | none => cases isTag
    | some metadata =>
      simp only [snowflakeQueryTagValue] at isTag
      split_ifs at isTag
      exact isTag

theorem labelsHold (metadata : Option QueryMetadata) (handle buildSQL : List Char) :
    LabelsHold metadata handle buildSQL := by
  unfold LabelsHold
  cases isLabel : bigQueryQueryLabelValue metadata with
  | none => trivial
  | some label =>
    cases metadata with
    | none => cases isLabel
    | some metadata =>
      simp only [bigQueryQueryLabelValue] at isLabel
      split_ifs at isLabel with some
      cases isLabel
      have labelled := areLabels_renderedLabels metadata
      refine ⟨⟨_, some, labelled, rfl⟩, read_executeScript _ _, ?_, closed_setLabels labelled⟩
      rw [bigQueryScript, List.append_assoc]

end MalloyPublisher.QueryMetadata
