import Mathlib
import MalloyPublisher.Foundations.QuotedPath
import MalloyPublisher.Incremental.Refresh

/-!
# Finding the table a build created

A build creates its table under a quoted path, and an engine stores a quoted identifier as
it is spelled. The next refresh looks the table up in the engine's catalog, and to do so it
decodes the same logical path as if it were SQL: a bare segment has to be an identifier of
the dialect, and is folded to the case the dialect folds it to.

The two spellings of one name agree on some paths only. On the others the probe describes a
table that is not there, and every refresh is a full rebuild.

## Main definitions

* `quoteTablePath`, `createdTable` — where a build's table comes to stand
* `decodeTablePathSegments`, `columnsQuery` — where the probe looks
* `ProbeFindsCreated` — the probe describes the table that was created
* `Legible` — the paths that decode to the identifiers they were created under

## Main results

* `readIdentifiers_quoteTablePath` — an engine reads a quoted path as its dot segments
* `probeFindsCreated_iff` — the probe finds a created table exactly on the legible paths
-/

namespace MalloyPublisher.Incremental

open Foundations

/-! ## Paths -/

/-- `path.split(".")`. -/
def splitDots (path : String) : List String := (path.toList.splitOn '.').map String.ofList

/-- The letters, digits, underscores and hyphens a persist name is made of. -/
def isNameChar (c : Char) : Bool := c.isAlphanum || c = '_' || c = '-'

/-- `SAFE_NAME_PATH`: one or more segments, none of them empty. -/
def SAFE_NAME_PATH (path : String) : Bool :=
  (splitDots path).all fun segment => segment ≠ "" && segment.toList.all isNameChar

/-- Quote each dot segment of a path on its own. -/
def quoteTablePath (tableName dialect : String) : String :=
  ".".intercalate ((splitDots tableName).map (quoteIdentifier · dialect))

/-! ## Where a created table stands -/

/-- A table's place in an engine's catalog. -/
structure TablePlace where
  database : String
  schema : String
  table : String
  deriving DecidableEq, Repr

/-- What an engine fills an unqualified name's containers in with. -/
structure Session where
  database : String
  schema : String
  deriving Inhabited

/-- The quote character of a dialect's identifiers. -/
def identifierQuote (dialect : String) : Char :=
  if dialect ∈ BACKTICK_DIALECTS then '\x60' else '"'

/-- The identifiers an engine reads in a path that is quoted throughout. -/
def readIdentifiers (dialect path : String) : List String :=
  ((readPath (identifierQuote dialect) '.' path.toList).getD []).map String.ofList

/-- Where `CREATE TABLE` puts a table of these identifiers, if it accepts them. An attached
catalog's default schema is `main`, and a Postgres session cannot leave its database. -/
def createdTable (dialect : String) (session : Session) : List String → Option TablePlace
  | [table] => some ⟨session.database, session.schema, table⟩
  | [container, table] =>
    if dialect = "duckdb" then some ⟨container, "main", table⟩
    else some ⟨session.database, container, table⟩
  | [database, schema, table] =>
    if dialect = "postgres" ∧ database ≠ session.database then none
    else some ⟨database, schema, table⟩
  | _ => none

/-! ## Where the probe looks -/

/-- The case a dialect folds a bare identifier to. -/
inductive CaseFold
  | lower
  | upper
  deriving DecidableEq, Repr

/-- How a dialect spells an identifier. A bare one is a character of `bareStart` and then
characters of `bareRest`. -/
structure PathOptions where
  quoteChar : Char
  bareStart : Char → Bool
  bareRest : Char → Bool
  foldCase : Option CaseFold

/-- Whether `bareIdentRegex` matches all of a text. -/
def PathOptions.isBare (options : PathOptions) (text : String) : Bool :=
  match text.toList with
  | [] => false
  | first :: rest => options.bareStart first && rest.all options.bareRest

/-- The first character of a bare identifier, in every dialect of the table below. -/
def isBareStart (c : Char) : Bool := c.isAlpha || c = '_'

/-- The dialects a table path can be decoded for. -/
def TABLE_PATH_OPTIONS (dialect : String) : Option PathOptions :=
  if dialect = "postgres" then some {
    quoteChar := '"', bareStart := isBareStart
    bareRest := fun c => c.isAlphanum || c = '_' || c = '$', foldCase := some .lower }
  else if dialect = "snowflake" then some {
    quoteChar := '"', bareStart := isBareStart
    bareRest := fun c => c.isAlphanum || c = '_' || c = '$', foldCase := some .upper }
  else if dialect = "standardsql" then some {
    quoteChar := '\x60', bareStart := isBareStart
    bareRest := fun c => c.isAlphanum || c = '_' || c = '-', foldCase := none }
  -- A destination's own path is not SQL an author wrote, so a hyphen is admitted.
  else if dialect = "duckdb" then some {
    quoteChar := '"', bareStart := isBareStart
    bareRest := fun c => c.isAlphanum || c = '_' || c = '$' || c = '-', foldCase := none }
  else none

/-- A segment of a decoded path. -/
structure PathSegment where
  quoted : Bool
  value : String

/-- The path decoder, with what it answers when it cannot decode left out. -/
abbrev DottedDecoder := PathOptions → (dialectName : String) → String → Option (List PathSegment)

/-- What is relied on of the decoder: of a path without quotes it accepts a segment exactly
when `bareIdentRegex` matches all of it, and returns it unchanged. -/
def ReadsBareSegments (decodeDottedTablePath : DottedDecoder) : Prop :=
  ∀ options dialectName path, options.quoteChar ∉ path.toList →
    decodeDottedTablePath options dialectName path =
      if ∀ segment ∈ splitDots path, options.isBare segment then
        some ((splitDots path).map fun segment => ⟨false, segment⟩)
      else none

/-- A segment as its dialect folds it. -/
def foldSegment : Option CaseFold → PathSegment → String
  | some .lower, ⟨false, value⟩ => value.toLower
  | some .upper, ⟨false, value⟩ => value.toUpper
  | _, segment => segment.value

/-- The raw identifier segments of a table path, if it can be decoded. -/
def decodeTablePathSegments (decodeDottedTablePath : DottedDecoder) (dialect tablePath : String) :
    Option (List String) := do
  let opts ← TABLE_PATH_OPTIONS dialect
  let segments ← decodeDottedTablePath opts dialect tablePath
  return segments.map (foldSegment opts.foldCase)

/-- The metadata read that answers a table's columns. -/
inductive ColumnsQuery
  | duckdbColumns (database schema table : String)
  /-- `information_schema.columns`, of the session's database or another; the session's
  schema where none is named. -/
  | informationSchema (database schema : Option String) (table : String)
  | datasetColumns (container : List String) (table : String)
  deriving DecidableEq

/-- A probe SELECT in the shape the dialect's driver hands back as named columns. -/
def probeSelect (dialect innerSelect : String) : String :=
  if dialect = "postgres" then
    "SELECT row_to_json(__p) AS \"row\" FROM (" ++ innerSelect ++ ") AS __p"
  else innerSelect

/-- The text of the metadata read. -/
def ColumnsQuery.sql (dialect : String) : ColumnsQuery → String
  | .duckdbColumns database schema table =>
    "SELECT column_name AS " ++ quoteIdentifier "column_name" dialect ++
      " FROM duckdb_columns() WHERE database_name = '" ++ escapeSqlString database dialect ++
      "' AND schema_name = '" ++ escapeSqlString schema dialect ++ "' AND table_name = '" ++
      escapeSqlString table dialect ++ "' ORDER BY column_index"
  | .informationSchema database schema table =>
    probeSelect dialect ("SELECT column_name AS " ++ quoteIdentifier "column_name" dialect ++
      " FROM " ++ (database.elim "" fun name => quoteIdentifier name dialect ++ ".") ++
      "information_schema.columns WHERE table_schema = " ++
      (schema.elim "current_schema()" fun name => "'" ++ escapeSqlString name dialect ++ "'") ++
      " AND table_name = '" ++ escapeSqlString table dialect ++ "' ORDER BY ordinal_position")
  | .datasetColumns container table =>
    "SELECT column_name AS " ++ quoteIdentifier "column_name" dialect ++ " FROM " ++
      ".".intercalate (container.map (quoteIdentifier · dialect)) ++
      ".INFORMATION_SCHEMA.COLUMNS WHERE table_name = '" ++ escapeSqlString table dialect ++
      "' ORDER BY ordinal_position"

/-- The metadata read for a table of these segments, or why there is none. -/
def columnsQuery (dialect physicalTableName : String) (segments : List String) :
    Except String ColumnsQuery :=
  match segments.reverse with
  | [] => .error ("physical table name " ++ jsonStringify physicalTableName ++
      " is not a decodable " ++ dialect ++ " table path")
  | table :: containers =>
    if dialect = "duckdb" then
      -- The destination's catalog is the first segment, not one counted from the end.
      .ok (.duckdbColumns (segments.headD table)
        (if 3 ≤ segments.length then containers.headD "main" else "main") table)
    else if dialect = "postgres" ∨ dialect = "snowflake" then
      .ok (.informationSchema (if dialect = "snowflake" then containers[1]? else none)
        containers[0]? table)
    else if segments.length < 2 then
      .error ("physical table name " ++ jsonStringify physicalTableName ++
        " is not dataset-qualified, so its schema cannot be read from INFORMATION_SCHEMA")
    else .ok (.datasetColumns containers.reverse table)

/-- The place a metadata read describes. -/
def ColumnsQuery.looksAt (session : Session) : ColumnsQuery → Option TablePlace
  | .duckdbColumns database schema table => some ⟨database, schema, table⟩
  | .informationSchema database schema table =>
    some ⟨database.getD session.database, schema.getD session.schema, table⟩
  | .datasetColumns [dataset] table => some ⟨session.database, dataset, table⟩
  | .datasetColumns [project, dataset] table => some ⟨project, dataset, table⟩
  | .datasetColumns _ _ => none

/-- What the catalog answers the probe of a path: an absent table has no columns and is no
error. -/
def probeTargetPath (decodeDottedTablePath : DottedDecoder) (dialect physicalTableName : String)
    (session : Session) {V : Type*} (catalog : TablePlace → Option (Table V))
    (error : Option String) : ColumnsProbe :=
  match columnsQuery dialect physicalTableName
      ((decodeTablePathSegments decodeDottedTablePath dialect physicalTableName).getD []) with
  | .error message => { columns := [], error := some message }
  | .ok query => probeTargetColumns ((query.looksAt session).bind catalog) error

/-! ## What has to agree -/

/-- The dialects whose incremental refresh reads a target back. -/
def probedDialects : List String := ["postgres", "snowflake", "standardsql", "duckdb"]

/-- A path a table can be created under: made of safe segments, dataset-qualified where
there is no dataset to fall back on, and behind its destination in a storage engine. -/
structure IsTablePath (dialect path : String) : Prop where
  safe : SAFE_NAME_PATH path = true
  qualified : dialect = "standardsql" ∨ dialect = "duckdb" → 2 ≤ (splitDots path).length

/-- The probe looks where the table was created: the path decodes, the read names the very
identifiers the engine stored, and what it answers are that table's columns. -/
structure ProbeFindsCreated (decodeDottedTablePath : DottedDecoder) (dialect path : String) :
    Prop where
  decodes : ∃ segments, decodeTablePathSegments decodeDottedTablePath dialect path = some segments
  looks : ∀ segments session created,
    decodeTablePathSegments decodeDottedTablePath dialect path = some segments →
    createdTable dialect session (readIdentifiers dialect (quoteTablePath path dialect)) =
      some created →
    ∃ query, columnsQuery dialect path segments = .ok query ∧ query.looksAt session = some created
  finds : ∀ (V : Type) (session : Session) (catalog : TablePlace → Option (Table V)) created,
    createdTable dialect session (readIdentifiers dialect (quoteTablePath path dialect)) =
      some created →
    probeTargetPath decodeDottedTablePath dialect path session catalog none =
      probeTargetColumns (catalog created) none

/-- The segments of a path that the probe compares with the catalog. No engine creates a
table under more than three. -/
def comparedSegments (dialect : String) (segments : List String) : List String :=
  if 3 < segments.length then []
  else if dialect = "postgres" then segments.drop (segments.length - 2)
  else segments

/-- The segments decode to the identifiers they were created under: each is an identifier
when it stands bare, and none that is compared changes when it is folded. -/
structure Legible (dialect path : String) : Prop where
  starts : ∀ segment ∈ splitDots path, ∃ first rest,
    segment.toList = first :: rest ∧ first.isDigit = false ∧ first ≠ '-'
  unhyphenated : dialect = "postgres" ∨ dialect = "snowflake" →
    ∀ segment ∈ splitDots path, '-' ∉ segment.toList
  lowerCase : dialect = "postgres" →
    ∀ segment ∈ comparedSegments dialect (splitDots path), ∀ c ∈ segment.toList, c.isUpper = false
  upperCase : dialect = "snowflake" →
    ∀ segment ∈ comparedSegments dialect (splitDots path), ∀ c ∈ segment.toList, c.isLower = false

/-! ## Reading a path -/

theorem splitDots_ne_nil (path : String) : splitDots path ≠ [] := by
  simp [splitDots, List.splitOn_ne_nil]

/-- A quoted identifier is its text between quotes. -/
theorem quoteIdentifier_toList (identifier dialect : String) :
    (quoteIdentifier identifier dialect).toList =
      quoted (identifierQuote dialect) identifier.toList := by
  unfold quoteIdentifier identifierQuote
  split <;> simp [quoted, doubled, replaceChar]

/-- An engine reads a quoted path as its dot segments, each as it was spelled. -/
theorem readIdentifiers_quoteTablePath (dialect path : String) :
    readIdentifiers dialect (quoteTablePath path dialect) = splitDots path := by
  have distinct : '.' ≠ identifierQuote dialect := by
    unfold identifierQuote
    split <;> decide
  have written : (quoteTablePath path dialect).toList =
      quotedPath (identifierQuote dialect) '.' (path.toList.splitOn '.') := by
    simp only [quoteTablePath, String.toList_intercalate, quotedPath, splitDots, List.map_map]
    congr 1
    refine List.map_congr_left fun segment _ => ?_
    simp [quoteIdentifier_toList]
  rw [readIdentifiers, written, readPath_quotedPath distinct (List.splitOn_ne_nil _ _)]
  rfl

/-- Every character of a safe path is a dot or stands in a segment. -/
theorem SAFE_NAME_PATH_chars {path : String} (safe : SAFE_NAME_PATH path = true) :
    ∀ c ∈ path.toList, c = '.' ∨ isNameChar c = true := by
  intro c member
  rcases eq_or_mem_splitOn '.' member with rfl | ⟨piece, segment, inside⟩
  · exact .inl rfl
  · have named := List.all_eq_true.mp safe (String.ofList piece) (List.mem_map_of_mem segment)
    simp only [Bool.and_eq_true, String.toList_ofList] at named
    exact .inr (List.all_eq_true.mp named.2 c inside)

/-! ## Decoding a safe path -/

section Decoding

variable {decodeDottedTablePath : DottedDecoder} {dialect path : String} {options : PathOptions}
  {c : Char}

theorem isDigit_eq_false_of_isAlpha (letter : c.isAlpha = true) : c.isDigit = false := by
  simp only [Char.isAlpha, Char.isUpper, Char.isLower, Bool.or_eq_true, Bool.and_eq_true,
    decide_eq_true_eq, UInt32.le_iff_toNat_le, ge_iff_le] at letter
  simp only [Char.isDigit, Bool.and_eq_false_iff, decide_eq_false_iff_not,
    UInt32.le_iff_toNat_le, ge_iff_le, not_le]
  have nine : '9'.val.toNat = 57 := rfl
  have upperA : 'A'.val.toNat = 65 := rfl
  have lowerA : 'a'.val.toNat = 97 := rfl
  omega

/-- A name's character may start a bare identifier unless it is a digit or a hyphen. -/
theorem isBareStart_iff (named : isNameChar c = true) :
    isBareStart c = true ↔ c.isDigit = false ∧ c ≠ '-' := by
  constructor
  · intro start
    rcases (Bool.or_eq_true _ _).mp start with letter | underscore
    · refine ⟨isDigit_eq_false_of_isAlpha letter, ?_⟩
      rintro rfl
      exact absurd letter (by decide)
    · obtain rfl := of_decide_eq_true underscore
      decide
  · rintro ⟨digit, hyphen⟩
    simpa [isNameChar, isBareStart, Char.isAlphanum, digit, hyphen] using named

theorem TABLE_PATH_OPTIONS_quoteChar (known : TABLE_PATH_OPTIONS dialect = some options) :
    options.quoteChar ≠ '.' ∧ isNameChar options.quoteChar = false := by
  unfold TABLE_PATH_OPTIONS at known
  split_ifs at known <;> cases known <;> decide

theorem TABLE_PATH_OPTIONS_bareStart (known : TABLE_PATH_OPTIONS dialect = some options) :
    options.bareStart = isBareStart := by
  unfold TABLE_PATH_OPTIONS at known
  split_ifs at known <;> cases known <;> rfl

/-- Only Postgres and Snowflake refuse a hyphen in a bare identifier. -/
theorem TABLE_PATH_OPTIONS_bareRest (known : TABLE_PATH_OPTIONS dialect = some options)
    (named : isNameChar c = true) :
    options.bareRest c = true ↔ (dialect = "postgres" ∨ dialect = "snowflake" → c ≠ '-') := by
  unfold TABLE_PATH_OPTIONS at known
  by_cases hyphen : c = '-'
  · subst hyphen
    split_ifs at known <;> cases known <;> simp_all
  · have plain : c.isAlphanum = true ∨ c = '_' := by
      simpa [isNameChar, hyphen] using named
    split_ifs at known <;> cases known <;> rcases plain with plain | plain <;> simp [plain, hyphen]

/-- The decoder is asked about a safe path segment by segment. -/
theorem decodeTablePathSegments_eq (reads : ReadsBareSegments decodeDottedTablePath)
    (known : TABLE_PATH_OPTIONS dialect = some options) (safe : SAFE_NAME_PATH path = true) :
    decodeTablePathSegments decodeDottedTablePath dialect path =
      if ∀ segment ∈ splitDots path, options.isBare segment then
        some ((splitDots path).map fun segment => foldSegment options.foldCase ⟨false, segment⟩)
      else none := by
  have unquoted : options.quoteChar ∉ path.toList := by
    intro member
    obtain ⟨dot, name⟩ := TABLE_PATH_OPTIONS_quoteChar known
    rcases SAFE_NAME_PATH_chars safe _ member with separates | named
    · exact dot separates
    · simp [name] at named
  simp only [decodeTablePathSegments, known, reads options dialect path unquoted,
    Option.bind_eq_bind, Option.bind_some]
  split_ifs
  · simp [Function.comp_def]
  · rfl

/-- The bare identifiers among a name's segments, dialect by dialect. -/
theorem isBare_iff (known : TABLE_PATH_OPTIONS dialect = some options) {segment : String}
    (some_char : segment ≠ "") (named : ∀ c ∈ segment.toList, isNameChar c = true) :
    options.isBare segment = true ↔
      (∃ first rest, segment.toList = first :: rest ∧ first.isDigit = false ∧ first ≠ '-') ∧
        (dialect = "postgres" ∨ dialect = "snowflake" → '-' ∉ segment.toList) := by
  cases chars : segment.toList with
  | nil => exact absurd (String.toList_eq_nil_iff.mp chars) some_char
  | cons first rest =>
    rw [chars] at named
    obtain ⟨namedFirst, namedRest⟩ := List.forall_mem_cons.mp named
    have start := isBareStart_iff namedFirst
    have continues : rest.all options.bareRest = true ↔
        (dialect = "postgres" ∨ dialect = "snowflake" → '-' ∉ rest) := by
      rw [List.all_eq_true]
      constructor
      · intro all folds hyphen
        exact (TABLE_PATH_OPTIONS_bareRest known (namedRest _ hyphen)).mp (all _ hyphen) folds rfl
      · intro unhyphenated c member
        refine (TABLE_PATH_OPTIONS_bareRest known (namedRest _ member)).mpr fun folds => ?_
        rintro rfl
        exact unhyphenated folds member
    simp only [PathOptions.isBare, chars, Bool.and_eq_true, TABLE_PATH_OPTIONS_bareStart known,
      start, continues, List.cons.injEq, List.mem_cons, not_or]
    constructor
    · rintro ⟨starts, unhyphenated⟩
      exact ⟨⟨_, _, ⟨rfl, rfl⟩, starts⟩, fun folds => ⟨starts.2.symm, unhyphenated folds⟩⟩
    · rintro ⟨⟨_, _, ⟨rfl, rfl⟩, starts⟩, unhyphenated⟩
      exact ⟨starts, fun folds => (unhyphenated folds).2⟩

/-- When every segment of a safe path is a bare identifier. -/
theorem allBare_iff (known : TABLE_PATH_OPTIONS dialect = some options)
    (safe : SAFE_NAME_PATH path = true) :
    (∀ segment ∈ splitDots path, options.isBare segment = true) ↔
      (∀ segment ∈ splitDots path, ∃ first rest,
        segment.toList = first :: rest ∧ first.isDigit = false ∧ first ≠ '-') ∧
      (dialect = "postgres" ∨ dialect = "snowflake" →
        ∀ segment ∈ splitDots path, '-' ∉ segment.toList) := by
  have each (segment) (member : segment ∈ splitDots path) := by
    have named := List.all_eq_true.mp safe segment member
    simp only [Bool.and_eq_true, List.all_eq_true, decide_eq_true_eq] at named
    exact isBare_iff known named.1 named.2
  constructor
  · intro all
    exact ⟨fun segment member => ((each segment member).mp (all segment member)).1,
      fun folds segment member => ((each segment member).mp (all segment member)).2 folds⟩
  · rintro ⟨starts, unhyphenated⟩ segment member
    exact (each segment member).mpr
      ⟨starts segment member, fun folds => unhyphenated folds segment member⟩

end Decoding

/-! ## Where the probe looks, and where the table is -/

private theorem map_eq_self_iff {f : Char → Char} {chars : List Char} :
    chars.map f = chars ↔ ∀ c ∈ chars, f c = c := by
  calc chars.map f = chars ↔ chars.map f = chars.map id := by rw [List.map_id]
    _ ↔ ∀ c ∈ chars, f c = c := List.map_inj_left

theorem toLower_eq_self_iff {text : String} :
    text.toLower = text ↔ ∀ c ∈ text.toList, c.isUpper = false := by
  have char (c : Char) : c.toLower = c ↔ c.isUpper = false := by
    simp only [Char.toLower, Char.isUpper]
    split <;> rename_i range <;> simpa [UInt32.le_iff_toNat_le, Char.ext_iff] using range
  simp only [← String.toList_inj, String.toLower, String.toList_map, map_eq_self_iff, char]

theorem toUpper_eq_self_iff {text : String} :
    text.toUpper = text ↔ ∀ c ∈ text.toList, c.isLower = false := by
  have char (c : Char) : c.toUpper = c ↔ c.isLower = false := by
    simp only [Char.toUpper, Char.isLower]
    split <;> rename_i range <;> simpa [UInt32.le_iff_toNat_le, Char.ext_iff] using range
  simp only [← String.toList_inj, String.toUpper, String.toList_map, map_eq_self_iff, char]

/-- Segments read in some other spelling name the created table's place exactly when the
compared ones are spelled as they were created. -/
theorem looksAt_created_iff {dialect : String} (probed : dialect ∈ probedDialects) (path : String)
    (spell : String → String) {segments : List String} (some_segment : segments ≠ [])
    (qualified : dialect = "standardsql" ∨ dialect = "duckdb" → 2 ≤ segments.length) :
    (∀ session created, createdTable dialect session segments = some created →
      ∃ query, columnsQuery dialect path (segments.map spell) = .ok query ∧
        query.looksAt session = some created) ↔
      ∀ segment ∈ comparedSegments dialect segments, spell segment = segment := by
  simp only [probedDialects, List.mem_cons, List.not_mem_nil, or_false] at probed
  match segments with
  | [] => exact absurd rfl some_segment
  | [table] =>
    rcases probed with rfl | rfl | rfl | rfl <;>
      simp [createdTable, columnsQuery, ColumnsQuery.looksAt, comparedSegments] at qualified ⊢
  | [container, table] =>
    rcases probed with rfl | rfl | rfl | rfl <;>
      simp [createdTable, columnsQuery, ColumnsQuery.looksAt, comparedSegments] at qualified ⊢
  | [database, schema, table] =>
    rcases probed with rfl | rfl | rfl | rfl
    · -- A Postgres path can only name the session's own database, which is not compared.
      simp only [createdTable, columnsQuery, ColumnsQuery.looksAt, comparedSegments]
      constructor
      · intro looks
        simpa using looks ⟨database, ""⟩ ⟨database, schema, table⟩ (by simp)
      · rintro spelled session created place
        simp_all
    all_goals
      simp [createdTable, columnsQuery, ColumnsQuery.looksAt, comparedSegments] at qualified ⊢
  | _ :: _ :: _ :: _ :: rest => simp [createdTable, comparedSegments]

/-! ## The paths the probe finds -/

section Finding

variable {decodeDottedTablePath : DottedDecoder} {dialect path : String}

/-- A probed dialect's paths can be decoded, with a fold of bare identifiers or none. -/
theorem TABLE_PATH_OPTIONS_probed (probed : dialect ∈ probedDialects) :
    ∃ options, TABLE_PATH_OPTIONS dialect = some options ∧
      (∀ segment, foldSegment options.foldCase ⟨false, segment⟩ = segment ↔
        (dialect = "postgres" → ∀ c ∈ segment.toList, c.isUpper = false) ∧
        (dialect = "snowflake" → ∀ c ∈ segment.toList, c.isLower = false)) := by
  simp only [probedDialects, List.mem_cons, List.not_mem_nil, or_false] at probed
  rcases probed with rfl | rfl | rfl | rfl <;> refine ⟨_, rfl, fun segment => ?_⟩
  · simp [foldSegment, toLower_eq_self_iff]
  · simp [foldSegment, toUpper_eq_self_iff]
  · simp [foldSegment]
  · simp [foldSegment]

/-- A probe that looks where the table was created answers that table's columns. -/
theorem probeTargetPath_eq {segments : List String} {session : Session} {created : TablePlace}
    {query : ColumnsQuery} {V : Type*} (catalog : TablePlace → Option (Table V))
    (decoded : decodeTablePathSegments decodeDottedTablePath dialect path = some segments)
    (queried : columnsQuery dialect path segments = .ok query)
    (looks : query.looksAt session = some created) :
    probeTargetPath decodeDottedTablePath dialect path session catalog none =
      probeTargetColumns (catalog created) none := by
  simp [probeTargetPath, decoded, queried, looks]

/-- The probe finds the table a build created exactly on the legible paths. -/
theorem probeFindsCreated_iff (reads : ReadsBareSegments decodeDottedTablePath)
    (probed : dialect ∈ probedDialects) (isPath : IsTablePath dialect path) :
    ProbeFindsCreated decodeDottedTablePath dialect path ↔ Legible dialect path := by
  obtain ⟨options, known, folds⟩ := TABLE_PATH_OPTIONS_probed probed
  have decode := decodeTablePathSegments_eq reads known isPath.safe
  have looks := looksAt_created_iff probed path
    (fun segment => foldSegment options.foldCase ⟨false, segment⟩) (splitDots_ne_nil path)
    isPath.qualified
  have bare := allBare_iff known isPath.safe
  constructor
  · rintro ⟨⟨segments, decoded⟩, finds, -⟩
    rw [decode] at decoded
    split_ifs at decoded with all
    have compared := looks.mp fun session created place =>
      finds _ session created (by rw [decode, if_pos all])
        (by rwa [readIdentifiers_quoteTablePath])
    obtain ⟨starts, unhyphenated⟩ := bare.mp all
    exact ⟨starts, unhyphenated,
      fun lower segment member => ((folds segment).mp (compared segment member)).1 lower,
      fun upper segment member => ((folds segment).mp (compared segment member)).2 upper⟩
  · rintro ⟨starts, unhyphenated, lower, upper⟩
    have all := bare.mpr ⟨starts, unhyphenated⟩
    rw [if_pos all] at decode
    have compared := looks.mpr fun segment member =>
      (folds segment).mpr ⟨fun is => lower is segment member, fun is => upper is segment member⟩
    refine ⟨⟨_, decode⟩, ?_, ?_⟩
    · intro segments session created decoded place
      obtain rfl := Option.some.inj (decode.symm.trans decoded)
      exact compared session created (by rwa [readIdentifiers_quoteTablePath] at place)
    · intro V session catalog created place
      rw [readIdentifiers_quoteTablePath] at place
      obtain ⟨query, queried, there⟩ := compared session created place
      exact probeTargetPath_eq catalog decode queried there

end Finding

/-! ## A path the probe misses -/

section MissedPath

/-- A decoder that reads every path as its dot segments, each bare. -/
def wholeDecoder : DottedDecoder := fun options _ path =>
  if ∀ segment ∈ splitDots path, options.isBare segment then
    some ((splitDots path).map fun segment => ⟨false, segment⟩)
  else none

theorem wholeDecoder_reads : ReadsBareSegments wholeDecoder := fun _ _ _ _ => rfl

theorem salesOrders_probeFindsCreated_iff :
    ProbeFindsCreated wholeDecoder "snowflake" "SALES.ORDERS-1" ↔
      Legible "snowflake" "SALES.ORDERS-1" :=
  probeFindsCreated_iff wholeDecoder_reads (by decide) ⟨by decide +kernel, by decide⟩

/-- A table created as `sales.Orders` is looked up in Postgres as `sales.orders`. -/
theorem probe_misses_mixedCase :
    ¬ ∀ decodeDottedTablePath, ReadsBareSegments decodeDottedTablePath →
      ∀ dialect ∈ probedDialects, ∀ path, IsTablePath dialect path →
        ProbeFindsCreated decodeDottedTablePath dialect path := by
  intro finds
  obtain ⟨-, looks, -⟩ := finds wholeDecoder wholeDecoder_reads "postgres" (by decide)
    "sales.Orders" ⟨by decide +kernel, by decide⟩
  have decoded : decodeTablePathSegments wholeDecoder "postgres" "sales.Orders" =
      some ["sales", "orders"] := by decide +kernel
  have created : createdTable "postgres" ⟨"warehouse", "public"⟩
      (readIdentifiers "postgres" (quoteTablePath "sales.Orders" "postgres")) =
        some ⟨"warehouse", "sales", "Orders"⟩ := by decide +kernel
  obtain ⟨query, queried, there⟩ := looks _ _ _ decoded created
  have asked : columnsQuery "postgres" "sales.Orders" ["sales", "orders"] =
      .ok (.informationSchema none (some "sales") "orders") := by
    simp [columnsQuery]
  obtain rfl := Except.ok.inj (asked.symm.trans queried)
  simp [ColumnsQuery.looksAt] at there

end MissedPath

end MalloyPublisher.Incremental
