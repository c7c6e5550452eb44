/-
# Planning one refresh

The planner decides what a source's refresh does: apply a bounded delta, seed by
a full rebuild, or skip. A delta runs only on facts proven about the target
table; every other outcome is a seed, which is always correct and merely costs.

The warehouse's answers to the planner's probes are inputs here, so that every
answer it may give, errors included, is covered.
-/

import MalloyPublisher.Incremental.Delta

namespace MalloyPublisher.Incremental

/-! ## Lineage and recorded boundary -/

/-- How a delta advances the serving table. -/
inductive IncrementalStrategy
  | merge
  | rangeReplace
  deriving DecidableEq, Repr

/-- `IncrementalStrategy` as the ledger spells it. -/
def IncrementalStrategy.text : IncrementalStrategy → String
  | .merge => "merge"
  | .rangeReplace => "range_replace"

/-- What the ledger has to agree with before a delta may run. -/
structure IncrementalLineage where
  physicalTableName : String
  connectionName : String
  storageDestinationName : Option String
  sourceEntityId : String
  watermarkName : String
  watermarkType : WatermarkType
  mergeKeys : List String
  strategy : IncrementalStrategy
  deriving DecidableEq

/-- A recorded boundary: the value, and the table and declaration it was
established under. -/
structure RecordedBoundary where
  sourceEntityId : String
  coveredThroughValue : String
  coveredThroughType : WatermarkType
  watermarkDimension : String
  mergeKeyDimensions : List String
  derivedStrategy : IncrementalStrategy
  physicalTableName : String
  connectionName : String
  storageDestinationName : Option String
  deriving DecidableEq

/-- The boundary an entry records, as the start of the next delta. -/
def RecordedBoundary.bound (entry : RecordedBoundary) : WatermarkBound :=
  { malloyType := entry.coveredThroughType, value := entry.coveredThroughValue }

/-- The entry that records a boundary for a lineage. -/
def recordBoundary (lineage : IncrementalLineage) (coveredThrough : WatermarkBound) :
    RecordedBoundary where
  sourceEntityId := lineage.sourceEntityId
  coveredThroughValue := coveredThrough.value
  coveredThroughType := coveredThrough.malloyType
  watermarkDimension := lineage.watermarkName
  mergeKeyDimensions := lineage.mergeKeys
  derivedStrategy := lineage.strategy
  physicalTableName := lineage.physicalTableName
  connectionName := lineage.connectionName
  storageDestinationName := lineage.storageDestinationName

/-- Why a refresh seeded or skipped, as a bounded code. -/
inductive IncrementalStepReasonCode
  | forced
  | noBoundary
  | lineageChanged
  | tableRenamed
  | mergeUnsupported
  | tableUnreadable
  | tableEmptied
  | shapeMismatch
  | ledgerUnreadable
  | planError
  | chainedStorage
  | frontierUnreadable
  | notAdvanced
  deriving DecidableEq, Repr

/-- A store as `ledgerLineageMismatch` names it. -/
def describeStore : Option String → String
  | some name =>
    if name = "" then "the source warehouse" else "storage destination \"" ++ name ++ "\""
  | none => "the source warehouse"

/-- Why a recorded boundary cannot be built on, if it cannot. -/
def ledgerLineageMismatch (entry : RecordedBoundary) (lineage : IncrementalLineage) :
    Option (IncrementalStepReasonCode × String) :=
  if entry.physicalTableName ≠ lineage.physicalTableName then
    some (.tableRenamed, "the recorded boundary belongs to table \"" ++ entry.physicalTableName ++
      "\", not \"" ++ lineage.physicalTableName ++ "\" — either this table was renamed between " ++
      "runs, or another source shares this source's content address and advanced the boundary " ++
      "against its own table")
  else if entry.storageDestinationName ≠ lineage.storageDestinationName then
    some (.tableRenamed, "the recorded boundary belongs to a table in " ++
      describeStore entry.storageDestinationName ++ ", while this refresh writes to " ++
      describeStore lineage.storageDestinationName)
  else if entry.sourceEntityId ≠ lineage.sourceEntityId then
    some (.lineageChanged, "the source's content address is not the one the recorded boundary " ++
      "was measured under, so that boundary describes different SQL than this refresh would " ++
      "apply a delta to — either the model was edited, or this refresh is instructed through a " ++
      "different version of the package than the one that advanced the boundary")
  else if entry.connectionName ≠ lineage.connectionName then
    some (.lineageChanged, "the recorded boundary was advanced on connection \"" ++
      entry.connectionName ++ "\", not \"" ++ lineage.connectionName ++ "\"")
  else if entry.watermarkDimension ≠ lineage.watermarkName then
    some (.lineageChanged, "the watermark changed from \"" ++ entry.watermarkDimension ++
      "\" to \"" ++ lineage.watermarkName ++ "\", so the recorded value measures a different column")
  else if entry.coveredThroughType ≠ lineage.watermarkType then
    some (.lineageChanged, "the watermark's type changed from \"" ++ entry.coveredThroughType.text ++
      "\" to \"" ++ lineage.watermarkType.text ++ "\"")
  else if entry.derivedStrategy ≠ lineage.strategy then
    some (.lineageChanged, "the strategy changed from " ++ entry.derivedStrategy.text ++ " to " ++
      lineage.strategy.text)
  else if entry.mergeKeyDimensions ≠ lineage.mergeKeys then
    some (.lineageChanged, "merge_key= changed from [" ++
      ", ".intercalate entry.mergeKeyDimensions ++ "] to [" ++ ", ".intercalate lineage.mergeKeys ++
      "]")
  else none

/-! ## The step -/

/-- What one source's refresh should do. -/
inductive IncrementalStep
  | seed (reasonCode : IncrementalStepReasonCode) (reason : String)
  | skip (reasonCode : IncrementalStepReasonCode) (reason : String)
      (coveredThrough : WatermarkBound)
  | delta (start stop coveredThrough : WatermarkBound) (statements : List Statement)

/-- The target's columns, or why they could not be read. An absent table has none. -/
structure ColumnsProbe where
  columns : List String
  error : Option String

/-- Whether the target holds a row, or why that could not be read. -/
structure NonEmptyProbe where
  nonEmpty : Bool
  error : Option String

/-- A watermark frontier: a bound, an error, or neither over an empty input. -/
structure FrontierProbe where
  bound : Option WatermarkBound
  error : Option String

/-- Where a delta's DML lands and how its rows are produced, with the answers the
warehouse gives to the probes. -/
structure DeltaTarget where
  dialect : String
  quotedTablePath : String
  columns : ColumnsProbe
  nonEmpty : NonEmptyProbe
  sourceFrontier : FrontierProbe
  deltaRows : WatermarkBound → WatermarkBound → Except String DeltaRows

/-- The target range replacement is asked about: `deltaRows`, when it answers,
reads the source's watermark range between the two bounds it is given. -/
structure DeltaTarget.ReadsRange (target : DeltaTarget) (watermarkName : String) : Prop where
  deltaRows : ∀ start stop delta, target.deltaRows start stop = .ok delta →
    delta.column = watermarkName ∧ delta.start = start ∧ delta.stop = stop

/-- The delta target of a table in the source's own warehouse. -/
def warehouseDeltaTarget (numbers : NumberText) (dialect quotedTablePath sourceSQL : String)
    (lineage : IncrementalLineage) (columns : ColumnsProbe) (nonEmpty : NonEmptyProbe)
    (sourceFrontier : FrontierProbe) : DeltaTarget where
  dialect := dialect
  quotedTablePath := quotedTablePath
  columns := columns
  nonEmpty := nonEmpty
  sourceFrontier := sourceFrontier
  deltaRows := deltaSelect numbers dialect sourceSQL lineage.watermarkName

theorem warehouseDeltaTarget_readsRange (numbers : NumberText)
    (dialect quotedTablePath sourceSQL : String) (lineage : IncrementalLineage)
    (columns : ColumnsProbe) (nonEmpty : NonEmptyProbe) (sourceFrontier : FrontierProbe) :
    (warehouseDeltaTarget numbers dialect quotedTablePath sourceSQL lineage columns nonEmpty
      sourceFrontier).ReadsRange lineage.watermarkName where
  deltaRows start stop delta answered := by
    simp only [warehouseDeltaTarget, deltaSelect] at answered
    cases rendered : renderRange numbers dialect lineage.watermarkName start stop with
    | error message => simp [rendered, bind, Except.bind] at answered
    | ok range =>
      simp only [rendered, bind, Except.bind, pure, Except.pure, Except.ok.injEq] at answered
      subst answered
      exact ⟨rfl, rfl, rfl⟩

/-- The set difference between the delta's columns and the target's, as message
text, if there is one. -/
def shapeMismatch (deltaColumns targetColumns : List String) : Option String :=
  let missing := deltaColumns.filter (· ∉ targetColumns)
  let extra := targetColumns.filter (· ∉ deltaColumns)
  let names (columns : List String) := ", ".intercalate (columns.map fun c => "\"" ++ c ++ "\"")
  if missing = [] ∧ extra = [] then none
  else some ("; ".intercalate
    ((if missing = [] then [] else ["absent from the table: " ++ names missing]) ++
      (if extra = [] then [] else ["present only in the table: " ++ names extra])))

theorem shapeMismatch_eq_none {deltaColumns targetColumns : List String} :
    shapeMismatch deltaColumns targetColumns = none ↔
      ∀ column, column ∈ deltaColumns ↔ column ∈ targetColumns := by
  simp only [shapeMismatch, ite_eq_left_iff, reduceCtorEq, imp_false, not_not,
    List.filter_eq_nil_iff, decide_eq_true_eq]
  exact ⟨fun ⟨left, right⟩ column => ⟨left column, right column⟩,
    fun same => ⟨fun column => (same column).mp, fun column => (same column).mpr⟩⟩

/-- The upper bound of a delta's range: the run's snapshot for a time watermark,
the source's frontier for one that has no clock. -/
def resolveDeltaEnd (numbers : NumberText) (target : DeltaTarget) (lineage : IncrementalLineage)
    (now : Int) : Except String FrontierProbe :=
  if lineage.watermarkType = .date ∨ lineage.watermarkType = .timestamp then
    (snapshotBound numbers lineage.watermarkType now).map fun bound =>
      { bound := some bound, error := none }
  else .ok target.sourceFrontier

/-- The first Postgres release with `MERGE`. -/
def POSTGRES_MERGE_MIN_VERSION_NUM : Nat := 150000

/-- Decide what this source's refresh does, and build the delta's statements when
it is a delta. -/
def planIncrementalStep (numbers : NumberText) (target : DeltaTarget)
    (lineage : IncrementalLineage) (ledgerEntry : Option RecordedBoundary) (forceRefresh : Bool)
    (now : Int) (columns : List String) (postgresVersionNum : Option Nat) :
    Except String IncrementalStep := do
  if forceRefresh then
    return .seed .forced "a full refresh was requested"
  match ledgerEntry with
  | none => return .seed .noBoundary "no covered_through boundary is recorded for this source yet"
  | some entry =>
    match ledgerLineageMismatch entry lineage with
    | some (reasonCode, reason) => return .seed reasonCode reason
    | none =>
    if lineage.strategy = .merge ∧ target.dialect = "postgres" ∧
        postgresVersionNum.getD 0 < POSTGRES_MERGE_MIN_VERSION_NUM then
      return .seed .mergeUnsupported
        ("merge_key= needs MERGE, which this Postgres server (server_version_num " ++
          (postgresVersionNum.map toString).getD "unknown" ++
          ") does not have; MERGE requires Postgres 15")
    if target.columns.columns.length = 0 then
      return .seed .tableUnreadable ("the target table could not be described" ++
        (match target.columns.error with
          | some error => " (" ++ error ++ ")"
          | none => ", so it is treated as absent"))
    if !target.nonEmpty.nonEmpty then
      return .seed .tableEmptied
        ("the target table is empty while a covered_through boundary of " ++
          entry.coveredThroughValue ++ " is recorded, so its rows were removed outside this ledger" ++
          (target.nonEmpty.error.map fun error => " (" ++ error ++ ")").getD "")
    let start := entry.bound
    let stop ← resolveDeltaEnd numbers target lineage now
    match stop.bound with
    | none =>
      match stop.error with
      | some error =>
        return .skip .frontierUnreadable
          ("the watermark frontier could not be read (" ++ error ++ ")") start
      | none =>
        return .skip .notAdvanced "the source has no rows with a non-null watermark" start
    | some bound =>
      if (← compareBounds numbers bound start).leZero then
        return .skip .notAdvanced ("the watermark has not advanced past " ++ start.value ++
          " (frontier: " ++ bound.value ++ ")") start
      match shapeMismatch columns target.columns.columns with
      | some shape =>
        return .seed .shapeMismatch ("the delta's columns do not match the target table's (" ++
          shape ++ "), so a delta would write a different shape than the table holds")
      | none =>
        let delta ← target.deltaRows start bound
        let statements ← deltaStatements numbers target.dialect target.quotedTablePath delta columns
          lineage.mergeKeys lineage.watermarkName start bound
        return .delta start bound bound statements

/-- What a planned delta rests on: it starts at the recorded boundary, records the
end of its own range, and names exactly the target's columns. -/
theorem planIncrementalStep_delta {numbers : NumberText} {target : DeltaTarget}
    {lineage : IncrementalLineage} {ledgerEntry : Option RecordedBoundary} {forceRefresh : Bool}
    {now : Int} {columns : List String} {postgresVersionNum : Option Nat}
    {start stop coveredThrough : WatermarkBound} {statements : List Statement}
    (planned : planIncrementalStep numbers target lineage ledgerEntry forceRefresh now columns
      postgresVersionNum = .ok (.delta start stop coveredThrough statements)) :
    ∃ entry delta, ledgerEntry = some entry ∧ start = entry.bound ∧ coveredThrough = stop ∧
      target.columns.columns ≠ [] ∧
      shapeMismatch columns target.columns.columns = none ∧
      target.deltaRows start stop = .ok delta ∧
      deltaStatements numbers target.dialect target.quotedTablePath delta columns lineage.mergeKeys
        lineage.watermarkName start stop = .ok statements := by
  unfold planIncrementalStep at planned
  simp only [bind, Except.bind, pure, Except.pure] at planned
  -- Of all the branches only the last one answers a delta.
  repeat' split at planned
  all_goals try simp only [Except.ok.injEq, reduceCtorEq] at planned
  case h_2 entry _ _ _ readable _ _ _ _ _ _ _ _ _ _ _ _ same _ delta produced _ _ rendered =>
    cases planned
    refine ⟨entry, delta, rfl, rfl, rfl, ?_, same, produced, rendered⟩
    exact fun none => readable (by simp [none])

end MalloyPublisher.Incremental
