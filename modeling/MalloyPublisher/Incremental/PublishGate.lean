import MalloyPublisher.Foundations.KeyedRecord
import MalloyPublisher.Incremental.Plan
import Mathlib.Data.List.Infix
import Mathlib.Data.List.Sort

/-!
# Who may be refreshed incrementally

A source asks for incremental refresh in its persist tag. The declaration is read once, and two
procedures decide on it: the publish gate, which lists what is wrong with it, and the build path,
which derives what a delta needs or builds in full. A source the gate lets through is never
rebuilt in full by the build path; the gate, which every package passes before it is built, is
the stricter of the two.

## Main definitions

* `resolveIncrementalDeclaration` — a persist tag against the columns of its source
* `rejectionsForSource` — the publish gate
* `incrementalLineage` — what the build path makes of the declaration
* `Agrees` — what the two have to do with each other

## Main results

* `resolveIncrementalDeclaration_agrees` — for every source, dialect and target
-/

namespace MalloyPublisher.Incremental

open Foundations

/-! ## Reading a declaration -/

/-- What a persist tag has under a key. -/
inductive TagValue
  | text (value : String)
  | array
  | bare
deriving DecidableEq

/-- The keys of an incremental declaration. -/
inductive DeclarationKey
  | refresh | watermark | merge_key
deriving DecidableEq

def DeclarationKey.text : DeclarationKey → String
  | .refresh => "refresh"
  | .watermark => "watermark"
  | .merge_key => "merge_key"

inductive MalformedProblem
  | array | empty | empty_entry | duplicate
deriving DecidableEq

/-- A key whose value is unusable, as opposed to absent. -/
structure MalformedValue where
  key : DeclarationKey
  problem : MalformedProblem
  detail : Option String := none
deriving DecidableEq

/-- A field of a query's pipeline: the path it refers to, or the name it is given. -/
structure QueryField where
  path : Option (List String) := none
  name : Option String := none
  expressionType : String := ""

/-- What is read of a compiled persist source. -/
structure PersistSource where
  /-- The merged `#@` tag, when it parses. -/
  tag : Option (List (String × TagValue))
  columns : List (String × String)
  pipeline : List (List QueryField)

/-- The scalars of a persist tag. -/
def deriveAnnotationFields (source : PersistSource) : List (String × String) :=
  (source.tag.getD []).filterMap fun
    | (key, .text value) => some (key, value)
    | _ => none

/-- What a declared name is on the compiled source. -/
inductive ResolvedName
  | dimension (name malloyType : String)
  | aggregate (name malloyType : String)
  | unresolved (name : String)
deriving DecidableEq

def ResolvedName.name : ResolvedName → String
  | .dimension name _ | .aggregate name _ | .unresolved name => name

def ResolvedName.isDimension : ResolvedName → Bool
  | .dimension _ _ => true
  | _ => false

def ResolvedName.isAggregate : ResolvedName → Bool
  | .aggregate _ _ => true
  | _ => false

def ResolvedName.isUnresolved : ResolvedName → Bool
  | .unresolved _ => true
  | _ => false

/-- The Malloy types a range can be built over. -/
def ORDERABLE_TYPES : List String := ["number", "string", "date", "timestamp"]

def ResolvedName.isOrderable : ResolvedName → Bool
  | .dimension _ malloyType | .aggregate _ malloyType => malloyType ∈ ORDERABLE_TYPES
  | .unresolved _ => false

def REFRESH_MODES : List String := ["full", "incremental"]

structure IncrementalDeclaration where
  refresh : Option String
  incremental : Bool
  invalidRefresh : Option String
  declaredWatermark : Bool
  declaredMergeKey : Bool
  watermark : Option ResolvedName
  watermarkOrderable : Bool
  mergeKeys : List ResolvedName
  watermarkInMergeKeys : Bool
  strategy : Option IncrementalStrategy
  malformed : List MalformedValue
  calculateFields : List String
  outputColumns : List String

/-- The output column a query field makes. -/
def QueryField.outputName (field : QueryField) : Option String :=
  (match field.path with
    | some path => path.getLast?
    | none => field.name).filter (· ≠ "")

def QueryField.isAnalytic (field : QueryField) : Bool :=
  decide ("analytic".toList <:+: field.expressionType.toList)

/-- The columns the last stage of a query aggregates. -/
def PersistSource.aggregates (source : PersistSource) : List String :=
  ((source.pipeline.getLast?.getD []).filter fun field =>
    !field.isAnalytic && field.expressionType == "aggregate").filterMap QueryField.outputName

/-- The window fields of any stage of a query. -/
def PersistSource.analytics (source : PersistSource) : List String :=
  (source.pipeline.flatten.filter QueryField.isAnalytic).filterMap QueryField.outputName

/-- The compiled source's output columns, by name. -/
def outputColumnTypes (source : PersistSource) : List (String × String) :=
  writeAll [] (source.columns.filter fun column => column.1 ≠ "" && column.2 ≠ "")

/-- Resolve one declared name against the output columns. -/
def resolveName (source : PersistSource) (name : String) : ResolvedName :=
  match (outputColumnTypes source).lookup name with
  | none => .unresolved name
  | some malloyType =>
    if name ∈ source.aggregates then .aggregate name malloyType else .dimension name malloyType

/-- What is found under a key. -/
structure KeyRead where
  declared : Bool
  text : Option String := none
  malformed : Option MalformedValue := none

def readKey (tag : Option (List (String × TagValue))) (key : DeclarationKey) : KeyRead :=
  match tag.bind (·.lookup key.text) with
  | none => { declared := false }
  | some .array => { declared := true, malformed := some ⟨key, .array, none⟩ }
  | some .bare => { declared := true, malformed := some ⟨key, .empty, none⟩ }
  | some (.text value) =>
    if trimmed value = "" then { declared := true, malformed := some ⟨key, .empty, none⟩ }
    else { declared := true, text := some (trimmed value) }

/-- What the names of a `merge_key=` read so far come to. -/
structure MergeKeyRead where
  seen : List String := []
  mergeKeys : List ResolvedName := []
  malformed : List MalformedValue := []

/-- One piece between commas. -/
def MergeKeyRead.piece (source : PersistSource) (state : MergeKeyRead) (piece : String) :
    MergeKeyRead :=
  let name := trimmed piece
  if name = "" then
    if state.malformed.any fun m => m.key = .merge_key && m.problem = .empty_entry then state
    else { state with malformed := state.malformed ++ [⟨.merge_key, .empty_entry, none⟩] }
  else if name ∈ state.seen then
    { state with malformed := state.malformed ++ [⟨.merge_key, .duplicate, some name⟩] }
  else
    { state with
      seen := state.seen ++ [name]
      mergeKeys := state.mergeKeys ++ [resolveName source name] }

/-- The names of a `merge_key=`, those found malformed before going first. -/
def readMergeKeys (source : PersistSource) (malformed : List MalformedValue)
    (text : Option String) : MergeKeyRead :=
  match text with
  | none => { malformed }
  | some text => (splitText ',' text).foldl (MergeKeyRead.piece source) { malformed }

/-- The declaration of a source's persist tag. -/
def resolveIncrementalDeclaration (source : PersistSource)
    (annotationFields : List (String × String)) : IncrementalDeclaration :=
  let rawRefresh := readKey source.tag .refresh
  let refresh := (annotationFields.lookup "refresh").or rawRefresh.text
  let incremental := refresh == some "incremental"
  let rawWatermark := readKey source.tag .watermark
  let watermark := rawWatermark.text.map (resolveName source)
  let rawMergeKey := readKey source.tag .merge_key
  let keys := readMergeKeys source (rawRefresh.malformed.toList ++ rawWatermark.malformed.toList ++
    rawMergeKey.malformed.toList) rawMergeKey.text
  { refresh
    incremental
    invalidRefresh := refresh.filter (· ∉ REFRESH_MODES)
    declaredWatermark := rawWatermark.declared
    declaredMergeKey := rawMergeKey.declared
    watermark
    watermarkOrderable := watermark.any ResolvedName.isOrderable
    mergeKeys := keys.mergeKeys
    watermarkInMergeKeys := watermark.any fun name => keys.mergeKeys.any (·.name = name.name)
    strategy :=
      if incremental && watermark.any ResolvedName.isDimension then
        some (if keys.mergeKeys.isEmpty then .rangeReplace else .merge)
      else none
    malformed := keys.malformed
    calculateFields := source.analytics
    outputColumns := (outputColumnTypes source).map Prod.fst }

/-! ## The build path -/

def INCREMENTAL_SOURCE_RANGE_DIALECTS : List String := ["postgres", "snowflake", "standardsql"]

def INCREMENTAL_TARGET_DML_DIALECTS : List String :=
  ["postgres", "snowflake", "standardsql", "duckdb"]

def MERGE_CAPABLE_DIALECTS : List String := ["postgres", "snowflake", "standardsql", "duckdb"]

/-- The dialect of a `storage=` destination. -/
def STORAGE_TARGET_DIALECT : String := "duckdb"

/-- The dialect a source's table is written in. -/
def targetDialectOf (dialect : String) (destination : Option String) : String :=
  if destination.isSome then STORAGE_TARGET_DIALECT else dialect

/-- `isRenderableWatermarkType`, with the type it is. -/
def renderableWatermarkType (malloyType : String) : Option WatermarkType :=
  [WatermarkType.date, .timestamp, .number, .string].find? (·.text = malloyType)

/-- Where a table is built, and what identifies it in the ledger. -/
structure LineageTarget where
  physicalTableName : String
  connectionName : String
  storageDestinationName : Option String
  sourceEntityId : String

/-- The lineage a source's declaration implies, if it is a candidate for a delta at all. -/
def incrementalLineage (declaration : Option IncrementalDeclaration)
    (dialect targetDialect : String) (target : LineageTarget) : Option IncrementalLineage := do
  let d ← declaration
  guard d.incremental
  let watermark ← d.watermark
  match watermark with
  | .dimension watermarkName malloyType =>
    guard d.watermarkOrderable
    let watermarkType ← renderableWatermarkType malloyType
    let strategy ← d.strategy
    guard (dialect ∈ INCREMENTAL_SOURCE_RANGE_DIALECTS)
    guard (targetDialect ∈ INCREMENTAL_TARGET_DML_DIALECTS)
    let mergeKeys := (d.mergeKeys.filter ResolvedName.isDimension).map ResolvedName.name
    guard (mergeKeys.length = d.mergeKeys.length)
    return {
      physicalTableName := target.physicalTableName
      connectionName := target.connectionName
      storageDestinationName := target.storageDestinationName
      sourceEntityId := target.sourceEntityId
      watermarkName
      watermarkType
      mergeKeys
      strategy }
  | _ => none

/-! ## The publish gate -/

/-- One source's inputs to the gate. -/
structure IncrementalPolicySource where
  sourceName : String
  dialect : Option String
  declaration : IncrementalDeclaration

/-- What the gate finds wrong with a declaration. -/
inductive Rejection
  | invalidRefresh (refresh : String)
  | malformed (value : MalformedValue)
  | notIncremental (watermark mergeKey : Bool) (refresh : Option String)
  | keyWithoutWatermark
  | noWatermark
  | unsupportedDialect (dialect : String)
  | noMerge (dialect : String)
  | dangling (names outputColumns : List String)
  | aggregates (names : List String)
  | unordered (name malloyType : String)
  | watermarkInMergeKeys (name : String)
  | calculates (names : List String)
deriving DecidableEq

def DIALECT_DISPLAY_NAMES : List (String × String) := [("standardsql", "standardsql (BigQuery)")]

def describeDialects (dialects : List String) : String :=
  ", ".intercalate ((dialects.insertionSort fun a b => sortLE a b).map fun dialect =>
    (DIALECT_DISPLAY_NAMES.lookup dialect).getD dialect)

def quoteList (names : List String) : String :=
  ", ".intercalate (names.map fun name => "\"" ++ name ++ "\"")

def MODE : String := "refresh=\"incremental\""

def malformedMessage (source : String) (value : MalformedValue) : String :=
  match value.problem with
  | .array =>
    source ++ " declares " ++ value.key.text ++ "=[…] as a tag ARRAY. Write ONE quoted string " ++
      "instead: " ++ value.key.text ++ "=\"order_date\"" ++
      (if value.key = .merge_key then ", and separate a compound key with commas inside that " ++
        "one string — merge_key=\"order_id, region\"." else ".") ++
      " An array value is dropped from the annotation's scalar fields, so the key would " ++
      "otherwise read as undeclared."
  | .empty =>
    source ++ " declares " ++ value.key.text ++ "=\"\" (empty). Name an output dimension of the " ++
      "source, or remove the key (use -" ++ value.key.text ++ " to strip one inherited from a " ++
      "parent source)."
  | .empty_entry =>
    source ++ " declares a merge_key= list with an empty entry (e.g. " ++
      "merge_key=\"order_id,,region\"). Remove the stray comma — an empty entry would silently " ++
      "narrow row identity to fewer columns than intended."
  | .duplicate =>
    source ++ " declares merge_key= with \"" ++ value.detail.getD "undefined" ++
      "\" repeated. List each dimension once."

/-- `singular` of one name, `plural` of several. -/
def agree (names : List String) (singular plural : String) : String :=
  if names.length = 1 then singular else plural

def Rejection.message (sourceName : String) (rejection : Rejection) : String :=
  let source := "#@ persist source \"" ++ sourceName ++ "\""
  match rejection with
  | .invalidRefresh refresh =>
    source ++ " declares refresh=" ++ jsonStringify refresh ++ ", which is not a refresh mode. " ++
      "Use refresh=\"full\" (the default: rebuild the whole table) or refresh=\"incremental\" " ++
      "(advance it by a bounded delta). The value is case-sensitive."
  | .malformed value => malformedMessage source value
  | .notIncremental watermark mergeKey refresh =>
    source ++ " declares " ++ " and ".intercalate
        ((if watermark then ["watermark="] else []) ++ if mergeKey then ["merge_key="] else []) ++
      " but is not " ++ MODE ++
      ((refresh.filter (· ≠ "")).map fun mode =>
        " (it declares refresh=" ++ jsonStringify mode ++ ")").getD "" ++
      ". These keys describe how an INCREMENTAL refresh advances the table and are ignored by a " ++
      "full rebuild. Either add " ++ MODE ++ ", or remove the key — and if the key is inherited " ++
      "from a parent source, strip it with a negation (e.g. -watermark), since removing the " ++
      "parent's key is not an option from the child."
  | .keyWithoutWatermark =>
    source ++ " declares merge_key= without watermark=. The declaration is a chain: merge_key= " ++
      "needs watermark=, and watermark= needs " ++ MODE ++ ". merge_key= only says how to match " ++
      "a row the delta rewrites; watermark= is what BOUNDS the delta in the first place, so a " ++
      "merge key on its own has no range to apply. Declare all three, or none."
  | .noWatermark =>
    source ++ " declares " ++ MODE ++ " but no watermark=. An incremental refresh derives its " ++
      "range from a monotone non-decreasing output dimension, so name one: " ++
      "watermark=\"order_date\". Without it there is no boundary to advance and nothing to " ++
      "bound the delta."
  | .unsupportedDialect dialect =>
    source ++ " declares " ++ MODE ++ ", which is not supported on dialect \"" ++
      (if dialect = "" then "unknown" else dialect) ++ "\". Incremental refresh reads a bounded " ++
      "watermark range out of the source and applies it transactionally, so it is enabled only " ++
      "where the publisher has proven both: " ++
      describeDialects INCREMENTAL_SOURCE_RANGE_DIALECTS ++ ". Use refresh=\"full\" here; the " ++
      "supported set widens in a later release."
  | .noMerge dialect =>
    source ++ " declares merge_key=, which needs a MERGE statement that dialect \"" ++ dialect ++
      "\" does not have. Remove merge_key= to replace the watermark range instead of merging by " ++
      "row identity."
  | .dangling names outputColumns =>
    source ++ " declares " ++ quoteList names ++ " which " ++ agree names "is not" "are not" ++
      " " ++ agree names "a column" "columns" ++ " of the source's materialized output. " ++
      "Available: " ++ quoteList outputColumns ++ ". Note that a derived dimension: on a " ++
      "table-backed source is queryable but NOT materialized, so it cannot be a watermark or " ++
      "merge key."
  | .aggregates names =>
    source ++ " declares " ++ quoteList names ++ " which " ++ agree names "is" "are" ++
      " produced by aggregate: in the source's query. An aggregate is a measured VALUE of a " ++
      "row, not an identity or an arrival order: it changes when new input lands, so it can " ++
      "neither bound a delta nor match a row. Name a group_by: dimension instead."
  | .unordered name malloyType =>
    source ++ " declares watermark=\"" ++ name ++ "\", of type " ++ malloyType ++ ", which has " ++
      "no ordering to build a range from. A watermark must be a date, timestamp, number or " ++
      "string dimension that only moves forward."
  | .watermarkInMergeKeys name =>
    source ++ " declares merge_key= including the watermark dimension \"" ++ name ++ "\". Row " ++
      "identity must be independent of the watermark: a row restated with a LATER watermark " ++
      "value would not match its predecessor, so it would be inserted alongside the old row " ++
      "rather than replacing it — the failure merge_key= exists to prevent. List only the " ++
      "identity dimensions."
  | .calculates names =>
    source ++ " declares " ++ MODE ++ " but computes " ++ quoteList names.eraseDups ++ " with " ++
      "calculate:. A window function is not supported on an incremental source yet: a delta " ++
      "recomputes only rows inside its range, so a frame that reaches outside that range " ++
      "assigns already-materialized rows values that later data changes, below the range start " ++
      "where no delta ever rewrites them. Frames strictly BACKWARD along the watermark ordering " ++
      "are stable and will become legal; every other frame will not. Use refresh=\"full\", or " ++
      "move the window computation into the query that reads this source. (Plain non-additive " ++
      "aggregates like count_distinct are fine — a delta recomputes whole output rows from full " ++
      "input and never merges partial aggregates.)"

/-- A rejection where a condition holds. -/
def rejectWhen (condition : Bool) (rejection : Rejection) : List Rejection :=
  if condition then [rejection] else []

/-- The rules about the keys themselves. -/
def coherenceRejections (d : IncrementalDeclaration) : List Rejection :=
  (d.invalidRefresh.map Rejection.invalidRefresh).toList ++
  d.malformed.map Rejection.malformed ++
  rejectWhen (!d.incremental && (d.declaredWatermark || d.declaredMergeKey))
    (.notIncremental d.declaredWatermark d.declaredMergeKey d.refresh) ++
  rejectWhen (d.declaredMergeKey && !d.declaredWatermark) .keyWithoutWatermark ++
  rejectWhen (d.incremental && !d.declaredWatermark) .noWatermark

def dialectRejections (dialect : String) (d : IncrementalDeclaration) : List Rejection :=
  if dialect ∉ INCREMENTAL_SOURCE_RANGE_DIALECTS then [.unsupportedDialect dialect]
  else rejectWhen (d.declaredMergeKey && dialect ∉ MERGE_CAPABLE_DIALECTS) (.noMerge dialect)

/-- The rules about what the declared names are. -/
def nameRejections (d : IncrementalDeclaration) : List Rejection :=
  let names := d.watermark.toList ++ d.mergeKeys
  let unresolved := names.filter ResolvedName.isUnresolved
  let aggregateBacked := names.filter ResolvedName.isAggregate
  rejectWhen (!unresolved.isEmpty)
    (.dangling (unresolved.map ResolvedName.name) d.outputColumns) ++
  rejectWhen (!aggregateBacked.isEmpty) (.aggregates (aggregateBacked.map ResolvedName.name)) ++
  (match d.watermark with
    | some (.dimension name malloyType) | some (.aggregate name malloyType) =>
      rejectWhen (!d.watermarkOrderable) (.unordered name malloyType)
    | _ => []) ++
  (match d.watermark with
    | some watermark => rejectWhen d.watermarkInMergeKeys (.watermarkInMergeKeys watermark.name)
    | none => []) ++
  rejectWhen (!d.calculateFields.isEmpty) (.calculates d.calculateFields)

/-- What the publish gate finds wrong with one source. -/
def rejectionsForSource (source : IncrementalPolicySource) : List Rejection :=
  coherenceRejections source.declaration ++
    if source.declaration.incremental then
      dialectRejections (source.dialect.getD "") source.declaration ++
        nameRejections source.declaration
    else []

/-- The messages of the gate, in source order then rule order. -/
def incrementalPolicyRejections (sources : List IncrementalPolicySource) : List String :=
  sources.flatMap fun source =>
    (rejectionsForSource source).map (Rejection.message source.sourceName)

/-! ## What a declaration is -/

theorem mem_rejectWhen {condition : Bool} {rejection other : Rejection} :
    other ∈ rejectWhen condition rejection ↔ condition = true ∧ other = rejection := by
  cases condition <;> simp [rejectWhen]

@[simp] theorem resolveName_name (source : PersistSource) (name : String) :
    (resolveName source name).name = name := by
  unfold resolveName
  split
  · rfl
  · split_ifs <;> rfl

/-- A key is absent, has a usable text, or is malformed. -/
theorem readKey_cases (tag : Option (List (String × TagValue))) (key : DeclarationKey) :
    readKey tag key = { declared := false } ∨
      (∃ text, readKey tag key = { declared := true, text := some text }) ∨
        ∃ problem, readKey tag key =
          { declared := true, malformed := some ⟨key, problem, none⟩ } := by
  unfold readKey
  split
  · exact .inl rfl
  · exact .inr (.inr ⟨_, rfl⟩)
  · exact .inr (.inr ⟨_, rfl⟩)
  · split_ifs
    · exact .inr (.inr ⟨_, rfl⟩)
    · exact .inr (.inl ⟨_, rfl⟩)

/-- What reading the names of a `merge_key=` leaves. -/
structure MergeKeyRead.Reads (source : PersistSource) (before : List MalformedValue)
    (pieces : List String) (state : MergeKeyRead) : Prop where
  seen : state.seen = ((pieces.map trimmed).filter (· ≠ "")).eraseDups
  mergeKeys : state.mergeKeys = state.seen.map (resolveName source)
  malformed : ∃ found, state.malformed = before ++ found ∧
    ∀ value ∈ found, value.key = .merge_key

theorem MergeKeyRead.Reads.piece {source : PersistSource} {before : List MalformedValue}
    {pieces : List String} {state : MergeKeyRead} (reads : state.Reads source before pieces)
    (piece : String) : (state.piece source piece).Reads source before (pieces ++ [piece]) := by
  obtain ⟨seen, mergeKeys, found, malformed, keys⟩ := reads
  have adds : ∀ problem detail, ∃ found', state.malformed ++ [⟨.merge_key, problem, detail⟩] =
      before ++ found' ∧ ∀ value ∈ found', value.key = .merge_key := by
    intro problem detail
    refine ⟨found ++ [⟨.merge_key, problem, detail⟩], by simp [malformed], ?_⟩
    intro value member
    rcases List.mem_append.mp member with earlier | last
    · exact keys value earlier
    · exact congrArg MalformedValue.key (List.mem_singleton.mp last)
  unfold MergeKeyRead.piece
  by_cases blank : trimmed piece = ""
  · have kept : ((pieces ++ [piece]).map trimmed).filter (· ≠ "") =
        (pieces.map trimmed).filter (· ≠ "") := by
      simp [blank]
    simp only [blank, if_true]
    split_ifs
    · exact ⟨by rw [kept, seen], mergeKeys, found, malformed, keys⟩
    · exact ⟨by rw [kept, seen], mergeKeys, adds _ _⟩
  · have grown : ((pieces ++ [piece]).map trimmed).filter (· ≠ "") =
        (pieces.map trimmed).filter (· ≠ "") ++ [trimmed piece] := by
      simp [blank]
    have listed : trimmed piece ∈ state.seen ↔
        trimmed piece ∈ (pieces.map trimmed).filter (· ≠ "") := by
      rw [seen, List.mem_eraseDups]
    simp only [if_neg blank]
    split_ifs with known
    · refine ⟨?_, mergeKeys, adds _ _⟩
      rw [grown, eraseDups_append_singleton, if_pos (listed.mp known), ← seen]
    · refine ⟨?_, by simp [mergeKeys], found, malformed, keys⟩
      rw [grown, eraseDups_append_singleton, if_neg (known ∘ listed.mpr), ← seen]

theorem readMergeKeys_reads (source : PersistSource) (before : List MalformedValue)
    (text : Option String) :
    (readMergeKeys source before text).Reads source before
      ((text.map (splitText ',')).getD []) := by
  have start : MergeKeyRead.Reads source before [] { malformed := before } :=
    ⟨rfl, rfl, [], (List.append_nil before).symm, by simp⟩
  cases text with
  | none => exact start
  | some text =>
    simp only [readMergeKeys, Option.map_some, Option.getD_some]
    induction splitText ',' text using List.reverseRecOn with
    | nil => exact start
    | append_singleton pieces piece ih =>
      rw [List.foldl_append, List.foldl_cons, List.foldl_nil]
      exact ih.piece piece

/-- The distinct names of a source's `merge_key=`, in order. -/
def declaredMergeKeys (source : PersistSource) : List String :=
  (((((readKey source.tag .merge_key).text.map (splitText ',')).getD []).map trimmed).filter
    (· ≠ "")).eraseDups

/-! ## The two procedures agree -/

/-- What the build path asks of an incremental declaration. -/
structure Eligible (d : IncrementalDeclaration) (dialect : String) : Prop where
  watermark : d.watermark.any ResolvedName.isDimension = true
  orderable : d.watermarkOrderable = true
  ranged : dialect ∈ INCREMENTAL_SOURCE_RANGE_DIALECTS
  keyed : ∀ key ∈ d.mergeKeys, key.isDimension = true

/-- What the gate finds wrong and the build path does not ask about. -/
def Rejection.leftToGate : Rejection → Bool
  | .malformed value => value.key ≠ .watermark
  | .watermarkInMergeKeys _ | .calculates _ => true
  | _ => false

/-- What holds of every declaration that is read from a tag. -/
structure Produced (d : IncrementalDeclaration) : Prop where
  valid : d.incremental = true → d.invalidRefresh = none
  /-- A watermark that is declared is read or found malformed, and one that is read is declared. -/
  watermark : (d.watermark = none ∧
      (d.declaredWatermark = false ∨ ∃ value ∈ d.malformed, value.key = .watermark)) ∨
    d.watermark.isSome = true ∧ d.declaredWatermark = true ∧
      ∀ value ∈ d.malformed, value.key ≠ .watermark
  orderable : d.watermarkOrderable = d.watermark.any ResolvedName.isOrderable
  repeated : d.watermarkInMergeKeys =
    d.watermark.any fun name => d.mergeKeys.any (·.name = name.name)
  strategy : d.strategy =
    if d.incremental && d.watermark.any ResolvedName.isDimension then
      some (if d.mergeKeys.isEmpty then .rangeReplace else .merge)
    else none

theorem readKey_malformed_key {tag : Option (List (String × TagValue))} {key : DeclarationKey} :
    ∀ value ∈ (readKey tag key).malformed.toList, value.key = key := by
  intro value member
  rcases readKey_cases tag key with read | ⟨text, read⟩ | ⟨problem, read⟩ <;> rw [read] at member
  · simp at member
  · simp at member
  · simp only [Option.toList_some, List.mem_singleton] at member
    exact member ▸ rfl

theorem resolveIncrementalDeclaration_produced (source : PersistSource)
    (annotationFields : List (String × String)) :
    Produced (resolveIncrementalDeclaration source annotationFields) where
  valid := by
    intro incremental
    simp only [resolveIncrementalDeclaration, beq_iff_eq] at incremental ⊢
    rw [incremental]
    decide
  watermark := by
    have reads := readMergeKeys_reads source ((readKey source.tag .refresh).malformed.toList ++
      (readKey source.tag .watermark).malformed.toList ++
      (readKey source.tag .merge_key).malformed.toList) (readKey source.tag .merge_key).text
    obtain ⟨found, malformed, keys⟩ := reads.malformed
    simp only [resolveIncrementalDeclaration]
    rw [malformed]
    rcases readKey_cases source.tag .watermark with read | ⟨text, read⟩ | ⟨problem, read⟩
    · exact .inl ⟨by rw [read]; rfl, .inl (by rw [read])⟩
    · refine .inr ⟨by rw [read]; rfl, by rw [read], fun value member => ?_⟩
      rw [read] at member
      simp only [Option.toList_none, List.append_nil, List.mem_append] at member
      rcases member with (first | last) | last
      · simp [readKey_malformed_key value first]
      · simp [readKey_malformed_key value last]
      · simp [keys value last]
    · refine .inl ⟨by rw [read]; rfl, .inr ⟨⟨.watermark, problem, none⟩, ?_, rfl⟩⟩
      rw [read]
      simp
  orderable := rfl
  repeated := rfl
  strategy := rfl

theorem isDimension_iff (name : ResolvedName) :
    name.isDimension = true ↔ name.isUnresolved = false ∧ name.isAggregate = false := by
  cases name <;> simp [ResolvedName.isDimension, ResolvedName.isUnresolved,
    ResolvedName.isAggregate]

section Declaration

variable {d : IncrementalDeclaration} {sourceName dialect : String}

theorem mem_rejectionsForSource (incremental : d.incremental = true) {rejection : Rejection} :
    rejection ∈ rejectionsForSource ⟨sourceName, some dialect, d⟩ ↔
      rejection ∈ coherenceRejections d ∨ rejection ∈ dialectRejections dialect d ∨
        rejection ∈ nameRejections d := by
  simp [rejectionsForSource, incremental]

theorem leftToGate_of_coherence (produced : Produced d) (incremental : d.incremental = true)
    (declared : d.watermark.isSome = true) :
    ∀ rejection ∈ coherenceRejections d, rejection.leftToGate = true := by
  obtain ⟨unread, -⟩ | ⟨-, known, sound⟩ := produced.watermark
  · rw [unread] at declared
    cases declared
  · simp only [coherenceRejections, produced.valid incremental, incremental, known,
      List.mem_append, mem_rejectWhen, List.mem_map, Option.map_none, Option.toList_none]
    rintro rejection ((((none | ⟨value, member, rfl⟩) | ⟨none, -⟩) | ⟨none, -⟩) | ⟨none, -⟩)
    · cases none
    · simpa [Rejection.leftToGate] using sound value member
    all_goals simp at none

theorem leftToGate_of_dialect (ranged : dialect ∈ INCREMENTAL_SOURCE_RANGE_DIALECTS) :
    ∀ rejection ∈ dialectRejections dialect d, rejection.leftToGate = true := by
  have capable : dialect ∈ MERGE_CAPABLE_DIALECTS := by
    simp only [INCREMENTAL_SOURCE_RANGE_DIALECTS, List.mem_cons] at ranged
    rcases ranged with rfl | rfl | rfl | none
    · decide
    · decide
    · decide
    · cases none
  simp [dialectRejections, ranged, capable, rejectWhen]

/-- The rules about names are met by dimensions of which the watermark has an order. -/
theorem leftToGate_of_names (eligible : Eligible d dialect) :
    ∀ rejection ∈ nameRejections d, rejection.leftToGate = true := by
  have dimensions : ∀ name ∈ d.watermark.toList ++ d.mergeKeys, name.isDimension = true := by
    intro name member
    rcases List.mem_append.mp member with first | key
    · have found : d.watermark = some name := by simpa using first
      simpa [found] using eligible.watermark
    · exact eligible.keyed name key
  have unresolved : (d.watermark.toList ++ d.mergeKeys).filter ResolvedName.isUnresolved = [] :=
    List.filter_eq_nil_iff.mpr fun name member => by
      simp [((isDimension_iff name).mp (dimensions name member)).1]
  have aggregates : (d.watermark.toList ++ d.mergeKeys).filter ResolvedName.isAggregate = [] :=
    List.filter_eq_nil_iff.mpr fun name member => by
      simp [((isDimension_iff name).mp (dimensions name member)).2]
  intro rejection member
  have dimension := eligible.watermark
  cases watermark : d.watermark with
  | none =>
    rw [watermark] at dimension
    cases dimension
  | some name =>
    cases name with
    | dimension name malloyType =>
      rw [nameRejections, unresolved, aggregates, watermark] at member
      simp only [List.mem_append, mem_rejectWhen, eligible.orderable] at member
      rcases member with (((⟨none, -⟩ | ⟨none, -⟩) | ⟨none, -⟩) | ⟨-, rfl⟩) | ⟨-, rfl⟩
      · cases none
      · cases none
      · cases none
      · rfl
      · rfl
    | aggregate | unresolved =>
      rw [watermark] at dimension
      cases dimension

/-- What the build path asks is asked by the gate as well. -/
theorem eligible_of_leftToGate (produced : Produced d) (incremental : d.incremental = true)
    (coherent : ∀ rejection ∈ coherenceRejections d, rejection.leftToGate = true)
    (ranged : ∀ rejection ∈ dialectRejections dialect d, rejection.leftToGate = true)
    (named : ∀ rejection ∈ nameRejections d, rejection.leftToGate = true) :
    Eligible d dialect := by
  have declared : d.watermark.isSome = true := by
    obtain ⟨-, undeclared | ⟨value, member, key⟩⟩ | ⟨known, -⟩ := produced.watermark
    · have rejected : Rejection.noWatermark ∈ coherenceRejections d := by
        simp [coherenceRejections, mem_rejectWhen, incremental, undeclared]
      cases coherent _ rejected
    · have rejected : Rejection.malformed value ∈ coherenceRejections d := by
        simp [coherenceRejections, member]
      simpa [Rejection.leftToGate, key] using coherent _ rejected
    · exact known
  have resolved : ∀ name ∈ d.watermark.toList ++ d.mergeKeys, name.isUnresolved = false := by
    intro name member
    by_contra unresolved
    have found : (d.watermark.toList ++ d.mergeKeys).filter ResolvedName.isUnresolved ≠ [] :=
      List.ne_nil_of_mem (List.mem_filter.mpr ⟨member, Bool.eq_true_of_not_eq_false unresolved⟩)
    have rejected : Rejection.dangling _ _ ∈ nameRejections d :=
      List.mem_append_left _ (List.mem_append_left _ (List.mem_append_left _
        (List.mem_append_left _ (mem_rejectWhen.mpr ⟨by simpa using found, rfl⟩))))
    cases named _ rejected
  have plain : ∀ name ∈ d.watermark.toList ++ d.mergeKeys, name.isAggregate = false := by
    intro name member
    by_contra aggregate
    have found : (d.watermark.toList ++ d.mergeKeys).filter ResolvedName.isAggregate ≠ [] :=
      List.ne_nil_of_mem (List.mem_filter.mpr ⟨member, Bool.eq_true_of_not_eq_false aggregate⟩)
    have rejected : Rejection.aggregates _ ∈ nameRejections d :=
      List.mem_append_left _ (List.mem_append_left _ (List.mem_append_left _
        (List.mem_append_right _ (mem_rejectWhen.mpr ⟨by simpa using found, rfl⟩))))
    cases named _ rejected
  obtain ⟨watermark, found⟩ := Option.isSome_iff_exists.mp declared
  have first : watermark ∈ d.watermark.toList ++ d.mergeKeys := by simp [found]
  constructor
  · rw [found]
    exact (isDimension_iff watermark).mpr ⟨resolved watermark first, plain watermark first⟩
  · by_contra unordered
    cases watermark with
    | dimension name malloyType =>
      have rejected : Rejection.unordered name malloyType ∈ nameRejections d := by
        simp [nameRejections, found, mem_rejectWhen, eq_false_of_ne_true unordered]
      cases named _ rejected
    | aggregate => cases plain _ first
    | unresolved => cases resolved _ first
  · by_contra unsupported
    have rejected : Rejection.unsupportedDialect dialect ∈ dialectRejections dialect d := by
      simp [dialectRejections, unsupported]
    cases ranged _ rejected
  · intro key member
    have listed := List.mem_append_right d.watermark.toList member
    exact (isDimension_iff key).mpr ⟨resolved key listed, plain key listed⟩

/-- A source passes what the build path asks exactly when the gate finds nothing wrong but what is
left to it. -/
theorem eligible_iff (produced : Produced d) (incremental : d.incremental = true) :
    Eligible d dialect ↔
      ∀ rejection ∈ rejectionsForSource ⟨sourceName, some dialect, d⟩,
        rejection.leftToGate = true := by
  simp only [mem_rejectionsForSource incremental]
  constructor
  · intro eligible rejection
    have declared : d.watermark.isSome = true := by
      have dimension := eligible.watermark
      cases watermark : d.watermark with
      | none => simp [watermark] at dimension
      | some name => rfl
    rintro (coherence | ranged | named)
    · exact leftToGate_of_coherence produced incremental declared rejection coherence
    · exact leftToGate_of_dialect eligible.ranged rejection ranged
    · exact leftToGate_of_names eligible rejection named
  · intro left
    exact eligible_of_leftToGate produced incremental (fun r m => left r (.inl m))
      (fun r m => left r (.inr (.inl m))) (fun r m => left r (.inr (.inr m)))

theorem exists_renderable {malloyType : String} (orderable : malloyType ∈ ORDERABLE_TYPES) :
    ∃ watermarkType, renderableWatermarkType malloyType = some watermarkType ∧
      watermarkType.text = malloyType := by
  simp only [ORDERABLE_TYPES, List.mem_cons, List.not_mem_nil, or_false] at orderable
  rcases orderable with rfl | rfl | rfl | rfl
  · exact ⟨.number, by decide, rfl⟩
  · exact ⟨.string, by decide, rfl⟩
  · exact ⟨.date, by decide, rfl⟩
  · exact ⟨.timestamp, by decide, rfl⟩

theorem orderable_text (watermarkType : WatermarkType) :
    watermarkType.text ∈ ORDERABLE_TYPES := by
  cases watermarkType <;> decide

/-- The guards of the build path are what it asks. -/
theorem eligible_of_incrementalLineage {targetDialect : String} {target : LineageTarget}
    {lineage : IncrementalLineage}
    (derived : incrementalLineage (some d) dialect targetDialect target = some lineage) :
    d.incremental = true ∧ Eligible d dialect := by
  simp only [incrementalLineage, Option.bind_eq_bind, Option.bind_some,
    Option.bind_eq_some_iff, Option.guard_eq_some', exists_const] at derived
  obtain ⟨incremental, watermark, found, rest⟩ := derived
  cases watermark with
  | dimension name malloyType =>
    simp only [Option.bind_eq_some_iff, Option.guard_eq_some', exists_const] at rest
    obtain ⟨orderable, -, -, -, -, ranged, -, keyed, -⟩ := rest
    refine ⟨incremental, by simp [found, ResolvedName.isDimension], orderable, ranged, ?_⟩
    rw [List.length_map] at keyed
    exact List.length_filter_eq_length_iff.mp keyed
  | aggregate | unresolved => cases rest

/-- A source that is eligible has a lineage, whichever of its targets it is built in. -/
theorem incrementalLineage_of_eligible (produced : Produced d)
    (incremental : d.incremental = true) (eligible : Eligible d dialect) (target : LineageTarget) :
    ∃ name watermarkType, d.watermark = some (.dimension name watermarkType.text) ∧
      incrementalLineage (some d) dialect
          (targetDialectOf dialect target.storageDestinationName) target =
        some {
          physicalTableName := target.physicalTableName
          connectionName := target.connectionName
          storageDestinationName := target.storageDestinationName
          sourceEntityId := target.sourceEntityId
          watermarkName := name
          watermarkType
          mergeKeys := d.mergeKeys.map ResolvedName.name
          strategy := if d.mergeKeys.isEmpty then .rangeReplace else .merge } := by
  have dimension := eligible.watermark
  have orderable := eligible.orderable
  rw [produced.orderable] at orderable
  have lands : targetDialectOf dialect target.storageDestinationName ∈
      INCREMENTAL_TARGET_DML_DIALECTS := by
    unfold targetDialectOf
    split_ifs
    · decide
    · have ranged := eligible.ranged
      simp only [INCREMENTAL_SOURCE_RANGE_DIALECTS, INCREMENTAL_TARGET_DML_DIALECTS,
        List.mem_cons] at ranged ⊢
      tauto
  have all : d.mergeKeys.filter ResolvedName.isDimension = d.mergeKeys :=
    List.filter_eq_self.mpr eligible.keyed
  cases found : d.watermark with
  | none => simp [found] at dimension
  | some watermark =>
    cases watermark with
    | dimension name malloyType =>
      have listed : malloyType ∈ ORDERABLE_TYPES := by
        simpa [found, ResolvedName.isOrderable] using orderable
      obtain ⟨watermarkType, renderable, rfl⟩ := exists_renderable listed
      have strategy : d.strategy =
          some (if d.mergeKeys.isEmpty then .rangeReplace else .merge) := by
        rw [produced.strategy, incremental, eligible.watermark]
        rfl
      refine ⟨name, watermarkType, rfl, ?_⟩
      simp [incrementalLineage, incremental, found, eligible.orderable, renderable, strategy,
        eligible.ranged, lands, all, -List.length_filter_eq_length_iff]
    | aggregate | unresolved => simp [found, ResolvedName.isDimension] at dimension

end Declaration

/-- The publish gate and the build path on one declaration, dialect and target. -/
structure Agrees (source : PersistSource) (d : IncrementalDeclaration)
    (sourceName dialect : String) (target : LineageTarget) : Prop where
  /-- What the gate lets through is refreshed incrementally, as it declares. -/
  accepted : d.incremental = true →
    rejectionsForSource ⟨sourceName, some dialect, d⟩ = [] →
      ∃ lineage, incrementalLineage (some d) dialect
          (targetDialectOf dialect target.storageDestinationName) target = some lineage ∧
        lineage.mergeKeys = declaredMergeKeys source ∧
        lineage.watermarkName ∉ lineage.mergeKeys ∧
        (lineage.strategy = .merge ↔ lineage.mergeKeys ≠ []) ∧
        (lineage.watermarkName, lineage.watermarkType.text) ∈ outputColumnTypes source ∧
        lineage.watermarkType.text ∈ ORDERABLE_TYPES
  /-- What is refreshed incrementally is rejected, if at all, for what is left to the gate. -/
  eligible : (incrementalLineage (some d) dialect
      (targetDialectOf dialect target.storageDestinationName) target).isSome = true ↔
    d.incremental = true ∧ ∀ rejection ∈ rejectionsForSource ⟨sourceName, some dialect, d⟩,
      rejection.leftToGate = true

theorem nodup_outputColumnTypes (source : PersistSource) :
    ((outputColumnTypes source).map Prod.fst).Nodup :=
  nodup_writeAll List.nodup_nil

/-- A name that resolves is a column of the output. -/
theorem mem_outputColumnTypes_of_resolveName {source : PersistSource} {name column : String}
    {malloyType : String} (resolved : resolveName source name = .dimension column malloyType) :
    (column, malloyType) ∈ outputColumnTypes source := by
  unfold resolveName at resolved
  split at resolved
  · cases resolved
  · next read =>
    split_ifs at resolved
    cases resolved
    exact (mem_iff_lookup (nodup_outputColumnTypes source)).mpr read

theorem mergeKeys_names (source : PersistSource) (annotationFields : List (String × String)) :
    (resolveIncrementalDeclaration source annotationFields).mergeKeys.map ResolvedName.name =
      declaredMergeKeys source := by
  have reads := readMergeKeys_reads source ((readKey source.tag .refresh).malformed.toList ++
    (readKey source.tag .watermark).malformed.toList ++
    (readKey source.tag .merge_key).malformed.toList) (readKey source.tag .merge_key).text
  simp only [resolveIncrementalDeclaration]
  rw [reads.mergeKeys, List.map_map, reads.seen, declaredMergeKeys]
  calc _ = List.map id _ := List.map_congr_left fun name _ => resolveName_name source name
    _ = _ := List.map_id _

/-- A declaration the gate lets through does not list its watermark as a merge key. -/
theorem watermark_notMem_mergeKeys {d : IncrementalDeclaration} {sourceName dialect name : String}
    {malloyType : String} (produced : Produced d) (incremental : d.incremental = true)
    (found : d.watermark = some (.dimension name malloyType))
    (clean : rejectionsForSource ⟨sourceName, some dialect, d⟩ = []) :
    name ∉ d.mergeKeys.map ResolvedName.name := by
  intro member
  obtain ⟨key, listed, same⟩ := List.mem_map.mp member
  have repeated : d.watermarkInMergeKeys = true := by
    rw [produced.repeated, found]
    exact List.any_eq_true.mpr ⟨key, listed, decide_eq_true same⟩
  have rejected : Rejection.watermarkInMergeKeys name ∈ nameRejections d := by
    simp [nameRejections, found, mem_rejectWhen, repeated, ResolvedName.name]
  have among := (@mem_rejectionsForSource d sourceName dialect incremental _).mpr
    (.inr (.inr rejected))
  rw [clean] at among
  exact List.not_mem_nil among

/-- The gate lets through nothing the build path would not refresh as declared, and what the build
path would refresh is rejected only for the rules that are the gate's alone. -/
theorem resolveIncrementalDeclaration_agrees (source : PersistSource)
    (annotationFields : List (String × String)) (sourceName dialect : String)
    (target : LineageTarget) :
    Agrees source (resolveIncrementalDeclaration source annotationFields) sourceName dialect
      target where
  accepted := by
    intro incremental clean
    have produced := resolveIncrementalDeclaration_produced source annotationFields
    have eligible : Eligible (resolveIncrementalDeclaration source annotationFields) dialect := by
      refine (@eligible_iff _ sourceName dialect produced incremental).mpr ?_
      rw [clean]
      exact fun rejection member => absurd member List.not_mem_nil
    obtain ⟨name, watermarkType, found, derived⟩ :=
      incrementalLineage_of_eligible produced incremental eligible target
    refine ⟨_, derived, mergeKeys_names source annotationFields, ?_, ?_, ?_, ?_⟩
    · exact watermark_notMem_mergeKeys produced incremental found clean
    · cases (resolveIncrementalDeclaration source annotationFields).mergeKeys <;> simp
    · obtain ⟨text, -, resolved⟩ := Option.map_eq_some_iff.mp found
      exact mem_outputColumnTypes_of_resolveName resolved
    · exact orderable_text watermarkType
  eligible := by
    have produced := resolveIncrementalDeclaration_produced source annotationFields
    constructor
    · intro derived
      obtain ⟨lineage, derived⟩ := Option.isSome_iff_exists.mp derived
      obtain ⟨incremental, eligible⟩ := eligible_of_incrementalLineage derived
      exact ⟨incremental, (eligible_iff produced incremental).mp eligible⟩
    · rintro ⟨incremental, left⟩
      obtain ⟨_, _, -, derived⟩ := incrementalLineage_of_eligible produced incremental
        ((eligible_iff produced incremental).mpr left) target
      rw [derived]
      rfl

/-- Orders by date, restated by order and date. -/
def restatedByDate : PersistSource where
  tag := some [("refresh", .text "incremental"), ("watermark", .text "order_date"),
    ("merge_key", .text "order_id, order_date")]
  columns := [("order_id", "number"), ("order_date", "date")]
  pipeline := []

/-- The watermark among the merge keys is for the gate alone to reject. -/
theorem restatedByDate_rejected :
    let d := resolveIncrementalDeclaration restatedByDate (deriveAnnotationFields restatedByDate)
    (incrementalLineage (some d) "postgres" "postgres"
        ⟨"orders", "warehouse", none, "a1"⟩).isSome = true ∧
      rejectionsForSource ⟨"orders", some "postgres", d⟩ =
        [.watermarkInMergeKeys "order_date"] := by
  decide +kernel

end MalloyPublisher.Incremental
