/-
# Runs of incremental refreshes

A refresh reads the recorded boundary, plans a step, and applies it: the delta's
script commits and only then does the boundary advance; a step that is no delta
falls through to a full rebuild, which drops the boundary before it starts.

What the warehouse and the ledger store may do to a refresh is an input of it, so
that a run ranges over every failure: probes that do not answer, a script rolled
back, a ledger write that is lost, a process that ends between two writes.
-/

import MalloyPublisher.Incremental.Plan

namespace MalloyPublisher.Incremental

open Foundations

/-! ## Context and faults -/

/-- What one run is told: the ask for a full rebuild, its start time, and the
ledger of a caller that keeps its own. -/
structure IncrementalRunContext where
  forceRefresh : Bool
  now : Int
  callerLedger : Option (List (String × RecordedBoundary))

/-- The caller-ledger index key: a boundary is a fact about a table. -/
def ledgerTableKey (connectionName : String) (storageDestinationName : Option String)
    (physicalTableName : String) : String :=
  String.ofList (connectionName.toList ++ [Char.ofNat 0] ++
    (storageDestinationName.getD "").toList ++ [Char.ofNat 0] ++ physicalTableName.toList)

/-- How far the write of an advanced boundary gets. -/
inductive LedgerWrite
  | landed
  | lost
  | crashed
  deriving DecidableEq, Repr

/-- How far a full rebuild gets: its table is staged, the old one dropped, and the
staged one renamed. -/
inductive Rebuild
  | completed
  | createFailed
  | dropped
  deriving DecidableEq, Repr

/-- What goes wrong around one refresh. A message is the error a read fails with. -/
structure Faults where
  ledgerRead : Option String
  columnsProbe : Option String
  emptinessProbe : Option String
  frontierProbe : Option String
  postgresVersionNum : Option Nat
  script : Option String
  resetLost : Bool
  rebuild : Rebuild
  seedProbe : Option String
  advance : LedgerWrite

/-- A refresh nothing goes wrong around. -/
def Faults.none : Faults where
  ledgerRead := .none
  columnsProbe := .none
  emptinessProbe := .none
  frontierProbe := .none
  postgresVersionNum := .none
  script := .none
  resetLost := false
  rebuild := .completed
  seedProbe := .none
  advance := .landed

/-- A source as its refreshes address it. -/
structure RefreshedSource where
  dialect : String
  quotedTablePath : String
  sourceSQL : String
  lineage : IncrementalLineage

/-- A source, the table that serves it, and the boundary recorded for that table. -/
structure World (V : Type*) where
  source : Table V
  target : Option (Table V)
  ledger : Option RecordedBoundary

/-- What a refresh did to the serving table. -/
inductive RefreshKind
  | delta
  | none
  | full
  deriving DecidableEq, Repr

/-- What a refresh reports: whether it left the table refreshed, and the boundary
now in force. -/
structure StepOutcome where
  applied : Bool
  coveredThrough : Option WatermarkBound
  refresh : Option RefreshKind

/-- Decide a source's refresh. Every failure on the way is a seed, except an entry
the caller sent that describes another source, which is the caller's error. -/
def planSourceRefresh (numbers : NumberText) (context : IncrementalRunContext)
    (lineage : IncrementalLineage) (target : DeltaTarget) (columns : List String) (reseed : Bool)
    (stored : Except String (Option RecordedBoundary)) (probedVersion : Option Nat) :
    Except String IncrementalStep :=
  let consulted : Except String (Option RecordedBoundary) :=
    match context.callerLedger with
    | some index => .ok (index.lookup (ledgerTableKey lineage.connectionName
        lineage.storageDestinationName lineage.physicalTableName))
    | none => stored
  match consulted with
  | .error message =>
    .ok (.seed .ledgerUnreadable ("the covered_through ledger could not be read (" ++ message ++ ")"))
  | .ok ledgerEntry =>
    let postgresVersionNum :=
      if lineage.strategy = .merge ∧ target.dialect = "postgres" ∧ ledgerEntry.isSome then
        probedVersion
      else none
    match planIncrementalStep numbers target lineage ledgerEntry (context.forceRefresh || reseed)
      context.now columns postgresVersionNum with
    | .error message => .ok (.seed .planError ("the delta could not be planned (" ++ message ++ ")"))
    | .ok (.seed reasonCode reason) =>
      if context.callerLedger.isSome ∧ (reasonCode = .lineageChanged ∨ reasonCode = .tableRenamed) then
        .error ("The supplied ledger entry for table \"" ++ lineage.physicalTableName ++
          "\" was measured under a different definition of this source: " ++ reason ++
          ". Delete the entry to rebuild the source, or set reseed.")
      else .ok (.seed reasonCode reason)
    | .ok step => .ok step

/-- Without a caller's ledger a planned delta is the planner's, over the stored entry. -/
theorem planSourceRefresh_delta {numbers : NumberText} {context : IncrementalRunContext}
    {lineage : IncrementalLineage} {target : DeltaTarget} {columns : List String} {reseed : Bool}
    {stored : Except String (Option RecordedBoundary)} {probedVersion : Option Nat}
    {start stop coveredThrough : WatermarkBound} {statements : List Statement}
    (stores : context.callerLedger = none)
    (planned : planSourceRefresh numbers context lineage target columns reseed stored probedVersion =
      .ok (.delta start stop coveredThrough statements)) :
    ∃ ledgerEntry postgresVersionNum, stored = .ok ledgerEntry ∧
      planIncrementalStep numbers target lineage ledgerEntry (context.forceRefresh || reseed)
        context.now columns postgresVersionNum =
          .ok (.delta start stop coveredThrough statements) := by
  simp only [planSourceRefresh, stores] at planned
  cases stored with
  | error message => cases planned
  | ok ledgerEntry =>
    simp only at planned
    split at planned
    · cases planned
    · simp at planned
    case h_3 step _ answered =>
      cases planned
      exact ⟨ledgerEntry, _, rfl, answered⟩

section Effects

variable {V W : Type*} [LinearOrder W]

/-! ## Probes -/

/-- The target's column names; an absent table has none. -/
def probeTargetColumns (target : Option (Table V)) (error : Option String) : ColumnsProbe :=
  match error with
  | some message => { columns := [], error := some message }
  | none => { columns := (target.elim [] Table.columns).filter (· ≠ ""), error := none }

/-- Whether the target holds at least one row. -/
def probeTargetNonEmpty (target : Option (Table V)) (error : Option String) : NonEmptyProbe where
  nonEmpty := error.isNone && target.any fun table => !table.rows.isEmpty
  error := error

/-- `MAX` of a column, over its values that are not `NULL`. -/
def maxValue (engine : Engine V W) (column : String) (rows : List (Row V)) : Option V :=
  (rows.filterMap (· column)).foldl (fun best value =>
    match best with
    | none => some value
    | some most => if engine.position most < engine.position value then some value else best) none

/-- `MAX(watermark)` over a table as a canonical bound; neither a bound nor an
error over an empty one. -/
def probeMaxWatermark (numbers : NumberText) (engine : Engine V W) (watermarkName : String)
    (malloyType : WatermarkType) (rows : List (Row V)) (error : Option String) : FrontierProbe :=
  match error with
  | some message => { bound := none, error := some message }
  | none =>
    match (maxValue engine watermarkName rows).map engine.driver with
    | none | some .null => { bound := none, error := none }
    | some raw =>
      match canonicalBoundValue numbers malloyType raw with
      | .ok bound => { bound := some bound, error := none }
      | .error message => { bound := none, error := some message }

/-- The boundary to record after a seed, read from the target it wrote. A time
watermark records the run's snapshot, and an empty table nothing. -/
def seedCoveredThrough (numbers : NumberText) (engine : Engine V W) (lineage : IncrementalLineage)
    (rows : List (Row V)) (error : Option String) (now : Int) : Except String FrontierProbe :=
  let frontier := probeMaxWatermark numbers engine lineage.watermarkName lineage.watermarkType rows
    error
  if frontier.error.isSome ∨ frontier.bound.isNone then .ok frontier
  else if lineage.watermarkType = .date ∨ lineage.watermarkType = .timestamp then
    (snapshotBound numbers lineage.watermarkType now).map fun bound =>
      { bound := some bound, error := none }
  else .ok frontier

/-! ## The ledger -/

/-- Record a boundary the run reached, best-effort. -/
def advanceLedger (context : IncrementalRunContext) (lineage : IncrementalLineage)
    (coveredThrough : WatermarkBound) (write : LedgerWrite) (ledger : Option RecordedBoundary) :
    Option RecordedBoundary :=
  if context.callerLedger.isSome then ledger
  else if write = .landed then some (recordBoundary lineage coveredThrough)
  else ledger

/-- Drop a source's boundary, best-effort. -/
def resetLedger (context : IncrementalRunContext) (lost : Bool)
    (ledger : Option RecordedBoundary) : Option RecordedBoundary :=
  if context.callerLedger.isSome || lost then ledger else none

/-- After an advance the ledger holds the boundary it held, or the new one. -/
theorem advanceLedger_bound {context : IncrementalRunContext} {lineage : IncrementalLineage}
    {coveredThrough : WatermarkBound} {write : LedgerWrite} {entry later : RecordedBoundary}
    (advanced : advanceLedger context lineage coveredThrough write (some entry) = some later) :
    later.bound = entry.bound ∨ later.bound = coveredThrough := by
  unfold advanceLedger at advanced
  split_ifs at advanced <;> cases advanced
  · exact .inl rfl
  · exact .inr rfl
  · exact .inl rfl

/-! ## Applying a step -/

/-- A table given new rows; a table holds nothing outside its columns. -/
def Table.withRows (table : Table V) (rows : List (Row V)) : Table V where
  columns := table.columns
  rows := rows.map (project table.columns)
  supported := by
    intro row member column outside
    obtain ⟨whole, -, rfl⟩ := List.mem_map.mp member
    simp [project, outside]

/-- Rows a table can hold are stored as they are. -/
theorem Table.withRows_rows (table : Table V) {rows : List (Row V)}
    (supported : ∀ row ∈ rows, ∀ column, column ∉ table.columns → row column = none) :
    (table.withRows rows).rows = rows := by
  calc (table.withRows rows).rows = rows.map (project table.columns) := rfl
    _ = rows.map id := List.map_congr_left fun row member => project_eq_self (supported row member)
    _ = rows := List.map_id rows

variable [DecidableEq V]

/-- Run a delta's statements as one call; a failure leaves the table as it was. -/
def applyDeltaScript (engine : Engine V W) (fault : Option String) (statements : List Statement)
    (world : World V) : Except String (World V) :=
  match fault, world.target with
  | some message, _ => .error message
  | none, none => .error "the target table does not exist"
  | none, some target =>
    (execScript engine world.source.rows statements target.rows).map fun rows =>
      { world with target := some (target.withRows rows) }

/-- Apply the step a plan decided on. The script commits first and the boundary
advances after it; a seed is left to the caller. -/
def applyIncrementalStep (engine : Engine V W) (context : IncrementalRunContext)
    (lineage : IncrementalLineage) (step : IncrementalStep) (faults : Faults) (world : World V) :
    World V × Except String StepOutcome :=
  match step with
  | .seed _ _ => (world, .ok { applied := false, coveredThrough := none, refresh := none })
  | .skip _ _ coveredThrough =>
    (world, .ok { applied := true, coveredThrough := some coveredThrough, refresh := some .none })
  | .delta _ _ coveredThrough statements =>
    match applyDeltaScript engine faults.script statements world with
    | .error message => (world, .error message)
    | .ok written =>
      let advanced := advanceLedger context lineage coveredThrough faults.advance written.ledger
      ({ written with ledger := advanced },
        if faults.advance = .crashed then .error "the process ended"
        else .ok { applied := true, coveredThrough := some coveredThrough, refresh := some .delta })

/-- The full rebuild: the boundary is dropped before it starts, the table is
replaced by a copy of the source, and the copy's boundary is recorded. -/
def rebuildSource (numbers : NumberText) (engine : Engine V W) (context : IncrementalRunContext)
    (lineage : IncrementalLineage) (faults : Faults) (world : World V) :
    World V × Except String StepOutcome :=
  let cleared := { world with ledger := resetLedger context faults.resetLost world.ledger }
  match faults.rebuild with
  | .createFailed => (cleared, .error "the staged table could not be created")
  | .dropped => ({ cleared with target := none }, .error "the staged table could not be renamed")
  | .completed =>
    let copied := { cleared with target := some world.source }
    match seedCoveredThrough numbers engine lineage world.source.rows faults.seedProbe context.now with
    | .error message => (copied, .error message)
    | .ok { bound := none, .. } =>
      (copied, .ok { applied := true, coveredThrough := none, refresh := some .full })
    | .ok { bound := some bound, .. } =>
      let advanced := advanceLedger context lineage bound faults.advance copied.ledger
      ({ copied with ledger := advanced },
        if faults.advance = .crashed then .error "the process ended"
        else .ok { applied := true, coveredThrough := some bound, refresh := some .full })

/-- Refresh one source in its own warehouse: plan, apply, and rebuild when the
step was not applied. -/
def refreshSource (numbers : NumberText) (engine : Engine V W) (refreshed : RefreshedSource)
    (context : IncrementalRunContext) (reseed : Bool) (faults : Faults) (world : World V) :
    World V × Except String StepOutcome :=
  let lineage := refreshed.lineage
  let target := warehouseDeltaTarget numbers refreshed.dialect refreshed.quotedTablePath
    refreshed.sourceSQL lineage (probeTargetColumns world.target faults.columnsProbe)
    (probeTargetNonEmpty world.target faults.emptinessProbe)
    (probeMaxWatermark numbers engine lineage.watermarkName lineage.watermarkType world.source.rows
      faults.frontierProbe)
  let stored := match faults.ledgerRead with
    | some message => .error message
    | none => .ok world.ledger
  match planSourceRefresh numbers context lineage target world.source.columns reseed stored
    faults.postgresVersionNum with
  | .error message => (world, .error message)
  | .ok step =>
    match applyIncrementalStep engine context lineage step faults world with
    | (applied, .error message) => (applied, .error message)
    | (applied, .ok outcome) =>
      if outcome.applied then (applied, .ok outcome)
      else rebuildSource numbers engine context lineage faults applied

end Effects

/-! ## Runs -/

section Runs

variable {V W : Type*} [LinearOrder W] {numbers : NumberText} {engine : Engine V W}

/-- What happens to a source between and during its refreshes. -/
inductive Event (V : Type*)
  | change (source : Table V)
  | refresh (context : IncrementalRunContext) (reseed : Bool) (faults : Faults)

/-- A rebuild that ends with its old table dropped and the new one not in place,
after the boundary's reset was lost too. -/
def Event.LosesTable : Event V → Prop
  | .change _ => False
  | .refresh _ _ faults => faults.resetLost = true ∧ faults.rebuild = .dropped

/-- A source change touches only rows at or above the boundary recorded when it
happens: below it, every mark keeps its rows. -/
def ChangesAbove (engine : Engine V W) (lineage : IncrementalLineage) (world : World V)
    (source : Table V) : Prop :=
  ∀ entry, world.ledger = some entry →
    AgreeBelow (mark engine lineage.watermarkName) (engine.reads entry.bound) world.source.rows
      source.rows

variable (engine) in
/-- The serving table holds, mark by mark below the recorded boundary, the source's
rows; or it is gone, and `lost` holds. -/
def Covered (lineage : IncrementalLineage) (lost : Prop) (world : World V) : Prop :=
  ∀ entry, world.ledger = some entry →
    (∃ target, world.target = some target ∧ AgreeBelow (mark engine lineage.watermarkName)
      (engine.reads entry.bound) target.rows world.source.rows) ∨ (world.target = none ∧ lost)

theorem Covered.mono {lineage : IncrementalLineage} {lost lost' : Prop} {world : World V}
    (covered : Covered engine lineage lost world) (weaker : lost → lost') :
    Covered engine lineage lost' world := by
  intro entry recorded
  exact (covered entry recorded).imp_right fun ⟨gone, because⟩ => ⟨gone, weaker because⟩

/-- A copy of the source is covered through any boundary. -/
theorem covered_of_copy {lineage : IncrementalLineage} {lost : Prop} {world : World V}
    (copied : world.target = some world.source) : Covered engine lineage lost world :=
  fun _ _ => .inl ⟨world.source, copied, .refl _ _⟩

theorem Covered.change {lineage : IncrementalLineage} {lost : Prop} {world : World V}
    {source : Table V} (covered : Covered engine lineage lost world)
    (above : ChangesAbove engine lineage world source) :
    Covered engine lineage lost { world with source := source } := by
  intro entry recorded
  rcases covered entry recorded with ⟨target, serving, agree⟩ | gone
  · exact .inl ⟨target, serving, agree.trans (above entry recorded)⟩
  · exact .inr gone

/-- A table whose columns the planner found serves. -/
theorem probeTargetColumns_ne_nil {target : Option (Table V)} {error : Option String}
    (found : (probeTargetColumns target error).columns ≠ []) :
    ∃ table, target = some table ∧
      ∀ name ∈ (probeTargetColumns target error).columns, name ∈ table.columns := by
  cases error with
  | some message => simp [probeTargetColumns] at found
  | none =>
    cases target with
    | none => simp [probeTargetColumns] at found
    | some table => exact ⟨table, rfl, fun name member => List.mem_of_mem_filter member⟩

variable [DecidableEq V]

/-! ### What a refresh does -/

variable (numbers engine) in
/-- What one refresh may leave of the world it found. -/
inductive RefreshEffect (lineage : IncrementalLineage) (faults : Faults) (world : World V) :
    World V → Prop
  | unchanged : RefreshEffect lineage faults world world
  /-- A delta from the recorded boundary committed; the boundary stays, or is the delta's
  end. -/
  | delta {entry : RecordedBoundary} {rows : DeltaRows} {quotedTablePath dialect : String}
      {statements : List Statement} {stop : WatermarkBound} {target : Table V}
      {written : World V} (ledger : Option RecordedBoundary)
      (recorded : world.ledger = some entry) (serving : world.target = some target)
      (fits : ∀ name ∈ world.source.columns, name ∈ target.columns)
      (reads : rows.column = lineage.watermarkName ∧ rows.start = entry.bound ∧ rows.stop = stop)
      (built : deltaStatements numbers dialect quotedTablePath rows world.source.columns
        lineage.mergeKeys lineage.watermarkName entry.bound stop = .ok statements)
      (committed : applyDeltaScript engine faults.script statements world = .ok written)
      (advanced : ∀ later, ledger = some later →
        later.bound = entry.bound ∨ later.bound = stop) :
      RefreshEffect lineage faults world { written with ledger := ledger }
  | copied (ledger : Option RecordedBoundary) :
      RefreshEffect lineage faults world { world with target := some world.source, ledger := ledger }
  | cleared (ledger : Option RecordedBoundary)
      (kept : ∀ entry, ledger = some entry → world.ledger = some entry) :
      RefreshEffect lineage faults world { world with ledger := ledger }
  | dropped (ledger : Option RecordedBoundary) (rebuild : faults.rebuild = .dropped)
      (kept : ∀ entry, ledger = some entry → faults.resetLost = true ∧ world.ledger = some entry) :
      RefreshEffect lineage faults world { world with target := none, ledger := ledger }

/-- A rebuild that does not finish leaves the table it found, or none. -/
theorem rebuildSource_effect {context : IncrementalRunContext} {lineage : IncrementalLineage}
    {faults : Faults} {world : World V} (stores : context.callerLedger = none) :
    RefreshEffect numbers engine lineage faults world
      (rebuildSource numbers engine context lineage faults world).1 := by
  have cleared : ∀ entry, resetLedger context faults.resetLost world.ledger = some entry →
      faults.resetLost = true ∧ world.ledger = some entry := by
    intro entry kept
    cases lost : faults.resetLost <;> simp_all [resetLedger]
  unfold rebuildSource
  cases rebuilt : faults.rebuild with
  | createFailed => exact .cleared _ fun entry kept => (cleared entry kept).2
  | dropped => exact .dropped _ rebuilt cleared
  | completed =>
    -- However far the boundary's write gets, the table is a copy of the source.
    simp only
    split <;> exact .copied _

/-- A script that commits leaves the table with its range replaced by the source's. -/
theorem applyDeltaScript_target {fault : Option String} {quotedTablePath dialect column : String}
    {delta : DeltaRows} {statements : List Statement} {world written : World V}
    {start stop : WatermarkBound} {target : Table V}
    (built : deltaStatements numbers dialect quotedTablePath delta world.source.columns [] column
      start stop = .ok statements)
    (reads : delta.column = column ∧ delta.start = start ∧ delta.stop = stop)
    (serving : world.target = some target)
    (fits : ∀ name ∈ world.source.columns, name ∈ target.columns)
    (committed : applyDeltaScript engine fault statements world = .ok written) :
    ∃ table, written = { world with target := some table } ∧
      table.rows = replaceRange (mark engine column) (engine.reads start) (engine.reads stop)
        target.rows world.source.rows := by
  obtain ⟨rfl, rfl, rfl⟩ := reads
  cases fault with
  | some message => simp [applyDeltaScript] at committed
  | none =>
    simp only [applyDeltaScript, serving, execScript_deltaStatements engine built, Except.map,
      Except.ok.injEq] at committed
    refine ⟨_, committed.symm, ?_⟩
    have inserted : (delta.select engine world.source.rows).map (project world.source.columns) =
        delta.select engine world.source.rows := by
      calc _ = (delta.select engine world.source.rows).map id :=
            List.map_congr_left fun row member =>
              project_eq_self (world.source.supported row (List.mem_of_mem_filter member))
        _ = _ := List.map_id _
    rw [inserted, Table.withRows_rows]
    · rfl
    · intro row member name outside
      rcases List.mem_append.mp member with kept | new
      · exact target.supported row (List.mem_of_mem_filter kept) name outside
      · exact world.source.supported row (List.mem_of_mem_filter new) name fun inside =>
          outside (fits name inside)

/-- A script changes the table only. -/
theorem applyDeltaScript_ledger {fault : Option String} {statements : List Statement}
    {world written : World V}
    (committed : applyDeltaScript engine fault statements world = .ok written) :
    written.ledger = world.ledger := by
  unfold applyDeltaScript at committed
  split at committed
  · cases committed
  · cases committed
  · simp only [Except.map] at committed
    split at committed <;> cases committed
    rfl

/-- A delta from the recorded boundary keeps the table covered: the boundary stays
at the start of the range it replaced, or advances to that range's end. -/
theorem Covered.applyDelta {quotedTablePath dialect : String} {lineage : IncrementalLineage}
    {lost : Prop} {fault : Option String} {delta : DeltaRows} {statements : List Statement}
    {world written : World V} {entry : RecordedBoundary} {ledger : Option RecordedBoundary}
    {stop : WatermarkBound} {target : Table V} (covered : Covered engine lineage lost world)
    (recorded : world.ledger = some entry) (serving : world.target = some target)
    (fits : ∀ name ∈ world.source.columns, name ∈ target.columns)
    (reads : delta.column = lineage.watermarkName ∧ delta.start = entry.bound ∧ delta.stop = stop)
    (built : deltaStatements numbers dialect quotedTablePath delta world.source.columns []
      lineage.watermarkName entry.bound stop = .ok statements)
    (committed : applyDeltaScript engine fault statements world = .ok written)
    (advanced : ∀ later, ledger = some later → later.bound = entry.bound ∨ later.bound = stop) :
    Covered engine lineage lost { written with ledger := ledger } := by
  obtain ⟨table, rfl, rows⟩ := applyDeltaScript_target built reads serving fits committed
  have agree : AgreeBelow (mark engine lineage.watermarkName) (engine.reads entry.bound)
      target.rows world.source.rows := by
    obtain ⟨found, serves, agree⟩ | ⟨gone, -⟩ := covered entry recorded
    · cases serving.symm.trans serves
      exact agree
    · simp [gone] at serving
  intro later landed
  refine .inl ⟨table, rfl, ?_⟩
  rw [rows]
  obtain stayed | advanced := advanced later landed
  · rw [stayed]
    exact agree.replaceRange_below
  · rw [advanced]
    exact agree.replaceRange

theorem applyIncrementalStep_delta_applied {lineage : IncrementalLineage}
    {context : IncrementalRunContext} {faults : Faults} {statements : List Statement}
    {world : World V} {start stop coveredThrough : WatermarkBound} {outcome : StepOutcome}
    (answered : (applyIncrementalStep engine context lineage
      (.delta start stop coveredThrough statements) faults world).2 = .ok outcome) :
    outcome.applied = true := by
  simp only [applyIncrementalStep] at answered
  split at answered
  · cases answered
  · dsimp only at answered
    split_ifs at answered
    cases answered
    rfl

/-- Whatever goes wrong around a refresh, its effect is one of the five. -/
theorem refreshSource_effect {refreshed : RefreshedSource} {world : World V}
    {context : IncrementalRunContext} {reseed : Bool} {faults : Faults}
    (stores : context.callerLedger = none) :
    RefreshEffect numbers engine refreshed.lineage faults world
      (refreshSource numbers engine refreshed context reseed faults world).1 := by
  unfold refreshSource
  simp only
  split
  · exact .unchanged
  case h_2 step planned =>
    cases step with
    | seed reasonCode reason => exact rebuildSource_effect stores
    | skip reasonCode reason coveredThrough => exact .unchanged
    | delta start stop coveredThrough statements =>
      obtain ⟨ledgerEntry, version, read, answered⟩ := planSourceRefresh_delta stores planned
      obtain ⟨entry, delta, rfl, rfl, rfl, found, same, produced, built⟩ :=
        planIncrementalStep_delta answered
      have recorded : world.ledger = some entry := by
        cases unreadable : faults.ledgerRead <;> simp_all
      obtain ⟨target, serving, named⟩ := probeTargetColumns_ne_nil found
      have fits : ∀ name ∈ world.source.columns, name ∈ target.columns := fun name inside =>
        named name ((shapeMismatch_eq_none.mp same name).mp inside)
      have reads := (warehouseDeltaTarget_readsRange numbers refreshed.dialect
        refreshed.quotedTablePath refreshed.sourceSQL refreshed.lineage _ _ _).deltaRows _ _ _ produced
      have applied : RefreshEffect numbers engine refreshed.lineage faults world
          (applyIncrementalStep engine context refreshed.lineage
            (.delta entry.bound coveredThrough coveredThrough statements) faults world).1 := by
        simp only [applyIncrementalStep]
        cases committed : applyDeltaScript engine faults.script statements world with
        | error message => exact .unchanged
        | ok written =>
          have ledger : written.ledger = some entry :=
            (applyDeltaScript_ledger committed).trans recorded
          refine .delta _ recorded serving fits reads built committed fun later landed => ?_
          rw [ledger] at landed
          exact advanceLedger_bound landed
      split
      case h_1 step => rwa [step] at applied
      case h_2 outcome step =>
        rw [if_pos (applyIncrementalStep_delta_applied (congrArg Prod.snd step))]
        rwa [step] at applied

/-- One refresh, whatever goes wrong around it, keeps the table covered through the
boundary recorded after it. -/
theorem Covered.refreshSource {refreshed : RefreshedSource} {lost : Prop} {world : World V}
    {context : IncrementalRunContext} {reseed : Bool} {faults : Faults}
    (covered : Covered engine refreshed.lineage lost world)
    (rangeReplace : refreshed.lineage.mergeKeys = []) (stores : context.callerLedger = none) :
    Covered engine refreshed.lineage (lost ∨ faults.resetLost = true ∧ faults.rebuild = .dropped)
      (refreshSource numbers engine refreshed context reseed faults world).1 := by
  generalize after : (Incremental.refreshSource numbers engine refreshed context reseed faults
    world).1 = later
  have effect : RefreshEffect numbers engine refreshed.lineage faults world later :=
    after ▸ refreshSource_effect stores
  cases effect with
  | unchanged => exact covered.mono .inl
  | delta ledger recorded serving fits reads built committed advanced =>
    rw [rangeReplace] at built
    exact (covered.applyDelta recorded serving fits reads built committed advanced).mono .inl
  | copied ledger => exact covered_of_copy rfl
  | cleared ledger kept =>
    intro entry recorded
    exact (covered entry (kept entry recorded)).imp_right fun ⟨gone, because⟩ =>
      ⟨gone, .inl because⟩
  | dropped ledger rebuild kept =>
    intro entry recorded
    exact .inr ⟨rfl, .inr ⟨(kept entry recorded).1, rebuild⟩⟩

variable (numbers engine) in
/-- The worlds a sequence of source changes and refreshes can lead to. Nothing is
asked of the clock, which each refresh reads for itself. -/
inductive Run (refreshed : RefreshedSource) (initial : World V) : List (Event V) → World V → Prop
  | start : Run refreshed initial [] initial
  | change {events world} (source : Table V) (run : Run refreshed initial events world)
      (above : ChangesAbove engine refreshed.lineage world source) :
      Run refreshed initial (.change source :: events) { world with source := source }
  | refresh {events world} (context : IncrementalRunContext) (reseed : Bool) (faults : Faults)
      (run : Run refreshed initial events world) (stores : context.callerLedger = none) :
      Run refreshed initial (.refresh context reseed faults :: events)
        (refreshSource numbers engine refreshed context reseed faults world).1

/-- Incremental refresh converges to the rebuild. After every refresh and every
source change of every run, the serving table holds, for each watermark below the
recorded boundary, exactly the source's rows of that watermark. The table can be
missing only after a rebuild that dropped it and did not finish, its boundary's
reset lost as well. -/
theorem Run.rows_below_boundary {refreshed : RefreshedSource}
    (rangeReplace : refreshed.lineage.mergeKeys = []) {initial world : World V}
    {events : List (Event V)} (unrecorded : initial.ledger = none)
    (run : Run numbers engine refreshed initial events world) {entry : RecordedBoundary}
    (recorded : world.ledger = some entry) :
    (∃ target, world.target = some target ∧ ∀ w < engine.reads entry.bound,
      (rowsAt (mark engine refreshed.lineage.watermarkName) w target.rows).Perm
        (rowsAt (mark engine refreshed.lineage.watermarkName) w world.source.rows)) ∨
    (world.target = none ∧ ∃ event ∈ events, event.LosesTable) := by
  suffices covered : Covered engine refreshed.lineage (∃ event ∈ events, event.LosesTable) world from
    covered entry recorded
  clear recorded
  induction run with
  | start =>
    intro entry recorded
    simp [unrecorded] at recorded
  | change source run above covered =>
    refine (covered.change above).mono ?_
    rintro ⟨event, member, loses⟩
    exact ⟨event, List.mem_cons_of_mem _ member, loses⟩
  | refresh context reseed faults run stores covered =>
    refine (covered.refreshSource rangeReplace stores).mono ?_
    rintro (⟨event, member, loses⟩ | loses)
    · exact ⟨event, List.mem_cons_of_mem _ member, loses⟩
    · exact ⟨_, List.mem_cons_self, loses⟩

end Runs

/-! ## A run over a numeric watermark -/

section NumericRun

/-- Numbers written in decimal digits. -/
def decimalText : NumberText where
  parse text := .finite (text.toList.foldl (fun n c => 10 * n + (c.toNat - '0'.toNat)) 0 : ℕ)
  print
    | .finite value => toString value.num
    | _ => "NaN"

/-- An engine whose watermark column holds natural numbers. -/
def naturalEngine : Engine ℕ ℕ where
  position := id
  reads bound := bound.value.toList.foldl (fun n c => 10 * n + (c.toNat - '0'.toNat)) 0
  driver value := .text (toString value)

/-- The table with one column `id`, holding the listed numbers. -/
def idTable (ids : List ℕ) : Table ℕ where
  columns := ["id"]
  rows := ids.map fun id column => if column = "id" then some id else none
  supported := by
    intro row member column outside
    obtain ⟨id, -, rfl⟩ := List.mem_map.mp member
    simp_all

/-- An orders source advanced by its numeric `id`. -/
def ordersById : RefreshedSource where
  dialect := "duckdb"
  quotedTablePath := "\"orders_v1\""
  sourceSQL := "SELECT id FROM orders"
  lineage := {
    physicalTableName := "orders_v1", connectionName := "warehouse", storageDestinationName := none
    sourceEntityId := "e1", watermarkName := "id", watermarkType := .number, mergeKeys := []
    strategy := .rangeReplace }

def plainContext : IncrementalRunContext :=
  { forceRefresh := false, now := 0, callerLedger := none }

/-- One refresh nothing goes wrong around. -/
def refreshOrders (world : World ℕ) : World ℕ :=
  (refreshSource decimalText naturalEngine ordersById plainContext false Faults.none world).1

def twoOrders : World ℕ := { source := idTable [1, 3], target := none, ledger := none }

/-- A seed of the orders 1 and 3, two later orders, and a delta. -/
def laterOrders : World ℕ :=
  refreshOrders { refreshOrders twoOrders with source := idTable [1, 3, 3, 5] }

theorem twoOrders_changesAbove :
    ChangesAbove naturalEngine ordersById.lineage (refreshOrders twoOrders)
      (idTable [1, 3, 3, 5]) := by
  have seeded : (refreshOrders twoOrders).ledger =
      some (recordBoundary ordersById.lineage ⟨.number, "3"⟩) := by decide +kernel
  intro entry recorded w below
  obtain rfl := Option.some.inj (seeded.symm.trans recorded)
  have below : w < 3 := below
  have older : rowsAt (mark naturalEngine "id") w (idTable [3, 5]).rows = [] := by
    simp [rowsAt, idTable, mark, naturalEngine]
    omega
  have split : (idTable [1, 3, 3, 5]).rows = (idTable [1, 3]).rows ++ (idTable [3, 5]).rows := rfl
  have same : rowsAt (mark naturalEngine "id") w (idTable [1, 3, 3, 5]).rows =
      rowsAt (mark naturalEngine "id") w (idTable [1, 3]).rows := by
    rw [split, rowsAt_append, older, List.append_nil]
  exact .of_eq same.symm

theorem laterOrders_run :
    Run decimalText naturalEngine ordersById twoOrders
      [.refresh plainContext false Faults.none, .change (idTable [1, 3, 3, 5]),
        .refresh plainContext false Faults.none] laterOrders :=
  .refresh _ _ _ (.change _ (.refresh _ _ _ .start rfl) twoOrders_changesAbove) rfl

theorem laterOrders_rows_below_boundary :
    (∃ target, laterOrders.target = some target ∧ ∀ w < naturalEngine.reads ⟨.number, "5"⟩,
      (rowsAt (mark naturalEngine "id") w target.rows).Perm
        (rowsAt (mark naturalEngine "id") w laterOrders.source.rows)) ∨
    (laterOrders.target = none ∧ ∃ event ∈ ([.refresh plainContext false Faults.none,
      .change (idTable [1, 3, 3, 5]), .refresh plainContext false Faults.none] : List (Event ℕ)),
        event.LosesTable) :=
  Run.rows_below_boundary rfl rfl laterOrders_run
    (show laterOrders.ledger = some (recordBoundary ordersById.lineage ⟨.number, "5"⟩) by
      decide +kernel)

end NumericRun

end MalloyPublisher.Incremental
