import MalloyPublisher.Incremental.TargetProbe
import MalloyPublisher.Serving.AutoRun

/-!
# Tables named in warehouse SQL

A run keeps two maps. The compiler's manifest gives each source the table its SQL is to read in
its place; a source that is built or refreshed registers its table there under the id of its
instruction. The run's entries are what it will commit, under content addresses; a source that
fails is mirrored among them, without a destination.

The SQL of a build runs in the source's warehouse, which cannot see the tables of a destination,
so the manifest is handed to the compiler without them. What is left out is decided by the
entries and what is handed on is read from the manifest. The two part where a source fails whose
address a stored table was seeded or registered under, and where an instruction carries another
id than its source's address: the stored table is handed on.

## Main definitions

* `manifestExcludingStorage` — what a warehouse build is handed
* `InstructedRun`, `executeInstructedBuild` — a run over its sources
* `lastTable`, `lastRecord` — what was last registered under an id, and recorded at an address
* `StoredStaysStored` — stored tables are recorded as stored when a warehouse build begins

## Main results

* `Follows.buildSource` — the two maps hold what was registered and recorded last
* `warehouseOnly_iff` — warehouse builds are handed colocated tables exactly in such runs
-/

namespace MalloyPublisher.Materialization

open Foundations Incremental
open Serving (ManifestEntry ManifestEntries filled FailedBuild PhysicalTarget)

/-! ## The two maps -/

/-- A table as the compiler's manifest names it. The destination it is stored in is no part of
the manifest; it is kept here to say what the name stands for. -/
structure BoundTable where
  tableName : String
  storage : Option String
  deriving DecidableEq

/-- The compiler's manifest: tables by id. -/
abbrev BuildManifest := List (String × BoundTable)

/-- The manifest without what the entries say is stored. -/
def manifestExcludingStorage (manifest : BuildManifest) (builtEntries : ManifestEntries) :
    BuildManifest :=
  builtEntries.filterMap fun keyed =>
    if (filled keyed.2.storageDestinationName).isSome then none
    else (manifest.lookup keyed.1).map fun table => (keyed.1, table)

/-- A name that is quoted already is taken as it is. -/
def isQuotedIdentifierPath (tableName : String) : Bool :=
  tableName.toList.any fun c => c = '"' || c = '\x60'

def quoteManifestTablePath (tableName dialect : String) : String :=
  if isQuotedIdentifierPath tableName then tableName else quoteTablePath tableName dialect

/-! ## A run -/

/-- A source of the build graphs, with what the gates answer for it. -/
structure GraphSource where
  sourceID : String
  name : String
  connectionName : String
  dialectName : String
  computeSourceEntityId : Except String String
  assertMaterializationEligible : Except String Unit
  assertColocatedPersistNotAuthorizeGated : Except String Unit
  declaredStorage : Option String
  /-- The base and the grain of a rollup, whose own name is synthesized. -/
  rollup : Option (String × List String)

/-- What a caller asks to be built. -/
structure BuildInstruction where
  sourceEntityId : String
  sourceID : Option String
  materializedTableId : String
  physicalTableName : String
  destination : Option String

/-- How the build of a source ends. A stored one may read its parent's table in the destination,
and then its SQL does not run in the warehouse; a colocated one may raise when its table is
registered already. -/
inductive BuildEnd
  | built (readsParent : Bool)
  | failed (readsParent : Bool) (reason : String)
  | failedRegistered (reason : String)

/-- A run: its seeds by id, the sources of its graphs in order, its instructions, the dialects
of its connections, and how the build of each source ends that comes to one. -/
structure InstructedRun where
  seedEntries : ManifestEntries
  keys : (seedEntries.map Prod.fst).Nodup
  sources : List GraphSource
  instructions : List BuildInstruction
  connections : String → Option String
  storageOn : Bool
  ends : ℕ → BuildEnd

/-- What was done about one source: the address it is recorded at, the id it is registered
under, the destination it is stored in, whether its SQL ran in the warehouse, whether its table
was registered, and whether it was built. -/
structure Attempt where
  address : String
  instructionId : String
  storage : Option String
  inWarehouse : Bool
  registers : Bool
  succeeds : Bool
  deriving DecidableEq

/-- How far a run has come. `handed` and `attempts` record what was done, and are not read. -/
structure RunState where
  manifest : BuildManifest
  entries : ManifestEntries
  writtenTargets : List (PhysicalTarget × String)
  thrown : Option String
  handed : List BuildManifest
  attempts : List Attempt

namespace InstructedRun

variable (run : InstructedRun)

/-- The name a seed is registered under: quoted for its connection, where that is known. -/
def quoteSeedTablePath (physicalTableName : String) (connectionName : Option String) : String :=
  match (filled connectionName).bind run.connections with
  | none => physicalTableName
  | some dialect => quoteManifestTablePath physicalTableName dialect

/-- Register a seed, and record it. -/
def seed (state : RunState) (keyed : String × ManifestEntry) : RunState := { state with
  manifest := match filled keyed.2.physicalTableName with
    | none => state.manifest
    | some physicalTableName => setKey keyed.1 {
        tableName := run.quoteSeedTablePath physicalTableName keyed.2.connectionName
        storage := filled keyed.2.storageDestinationName } state.manifest
  entries := setKey keyed.1 keyed.2 state.entries }

/-- The state before the first source. -/
def seeded : RunState :=
  run.seedEntries.foldl run.seed {
    manifest := [], entries := [], writtenTargets := [], thrown := none, handed := []
    attempts := [] }

/-- The instruction that names a source's own id. -/
def bySourceID (source : GraphSource) : Option BuildInstruction :=
  run.instructions.reverse.find? fun instruction =>
    filled instruction.sourceID = some source.sourceID

/-- The instruction for a content address; the last counts. -/
def bySourceEntityId (sourceEntityId : String) : Option BuildInstruction :=
  run.instructions.reverse.find? (·.sourceEntityId = sourceEntityId)

/-- The instruction of a source, and whether it was found by the source's own id. -/
def instructionOf (source : GraphSource) : Option (BuildInstruction × Bool) :=
  match run.bySourceID source with
  | some instruction => some (instruction, true)
  | none =>
    match source.computeSourceEntityId with
    | .error _ => none
    | .ok sourceEntityId => (run.bySourceEntityId sourceEntityId).map fun instruction =>
        (instruction, false)

/-- The destination a build is stored in, which there is while the tier is on. -/
def storageOf (instruction : BuildInstruction) : Option String :=
  if run.storageOn then filled instruction.destination else none

/-- The gate of a source, and its content address. -/
def passGates (source : GraphSource) (instruction : BuildInstruction) (orchestrated : Bool) :
    Except String String := do
  if orchestrated && (run.storageOf instruction).isSome then
    source.assertMaterializationEligible
  else source.assertColocatedPersistNotAuthorizeGated
  let sourceEntityId ← source.computeSourceEntityId
  if !orchestrated && (run.storageOf instruction).isSome then
    source.assertMaterializationEligible
  return sourceEntityId

def physicalTargetKey (instruction : BuildInstruction) (connectionName : String) :
    PhysicalTarget :=
  match filled instruction.destination with
  | some destination => .destination destination instruction.physicalTableName
  | none => .connection connectionName instruction.physicalTableName

/-- Why a source is not built at all: it was instructed into a destination while the tier is
off, or declares one and was instructed with none. -/
def refusal (source : GraphSource) (instruction : BuildInstruction) : Option String :=
  if (filled instruction.destination).isSome && !run.storageOn then
    some ("Source '" ++ source.name ++ "' was instructed to build into storage destination '" ++
      instruction.destination.getD "" ++ "', but PERSIST_STORAGE_MODE is off, so no destination " ++
      "can be written. Refusing rather than building the table into the source warehouse instead.")
  else
    match filled source.declaredStorage, filled instruction.destination with
    | some declared, none =>
      let declares := match source.rollup with
        | some (baseSourceName, grainDimensions) =>
          "Measures of \x60" ++ baseSourceName ++ "\x60 pre-aggregated at grain (" ++
            ", ".intercalate grainDimensions ++ ") declare \x60storage=" ++ declared ++ "\x60"
        | none => "Source '" ++ source.name ++ "' declares \x60#@ persist storage=" ++ declared ++
            "\x60"
      some (declares ++ ", but the build was instructed with no storage destination, so there is " ++
        "nowhere it may be written. Refusing rather than building the table into the source " ++
        "warehouse, which the annotation asked it not to be written to.")
    | _, _ => none

/-- The entry of a source that was built as instructed. -/
def builtEntry (source : GraphSource) (instruction : BuildInstruction) : ManifestEntry where
  sourceEntityId := instruction.sourceEntityId
  sourceName := some source.name
  materializedTableId := some instruction.materializedTableId
  physicalTableName := some instruction.physicalTableName
  connectionName := some source.connectionName
  storageDestinationName := run.storageOf instruction
  schema := none
  origin := source.rollup.map fun _ => .preaggregate
  dataAsOf := none
  freshnessWindowSeconds := none
  freshnessFallback := none
  error := none

/-- The entry a failure is mirrored by: it does not say where the table was to be. -/
def failedEntry (source : GraphSource) (instruction : BuildInstruction)
    (sourceEntityId reason : String) : ManifestEntry :=
  FailedBuild.mirror {
    sourceName := source.name
    physicalTableName := instruction.physicalTableName
    materializedTableId := some instruction.materializedTableId
    reason } sourceEntityId

/-- The table a build registers: a stored one by its bare name, and a colocated one as its
CREATE quoted it. -/
def registered (source : GraphSource) (instruction : BuildInstruction) : BoundTable where
  tableName :=
    if (run.storageOf instruction).isSome then instruction.physicalTableName
    else quoteTablePath instruction.physicalTableName source.dialectName
  storage := run.storageOf instruction

/-- Record what was done about a source. -/
def attempted (state : RunState) (attempt : Attempt) (table : BoundTable)
    (entry : ManifestEntry) : RunState := { state with
  manifest :=
    if attempt.registers then setKey attempt.instructionId table state.manifest
    else state.manifest
  entries := setKey attempt.address entry state.entries
  handed :=
    if attempt.inWarehouse then
      state.handed ++ [manifestExcludingStorage state.manifest state.entries]
    else state.handed
  attempts := state.attempts ++ [attempt] }

/-- Build one admitted source whose table this run has not written. -/
def buildOneSource (state : RunState) (source : GraphSource) (instruction : BuildInstruction)
    (sourceEntityId : String) : RunState :=
  let table := run.registered source instruction
  let failed := failedEntry source instruction sourceEntityId
  let attempt (inWarehouse registers succeeds : Bool) : Attempt := {
    address := sourceEntityId, instructionId := instruction.sourceEntityId
    storage := run.storageOf instruction, inWarehouse, registers, succeeds }
  match run.refusal source instruction with
  | some reason => attempted state (attempt false false false) table (failed reason)
  | none =>
    match run.ends state.attempts.length, run.storageOf instruction with
    | .built readsParent, some _ => { attempted state (attempt (!readsParent) true true) table
          (run.builtEntry source instruction) with
        writtenTargets := (physicalTargetKey instruction source.connectionName, sourceEntityId) ::
          state.writtenTargets }
    | .built _, none => { attempted state (attempt true true true) table
          (run.builtEntry source instruction) with
        writtenTargets := (physicalTargetKey instruction source.connectionName, sourceEntityId) ::
          state.writtenTargets }
    | .failed readsParent reason, some _ =>
      attempted state (attempt (!readsParent) false false) table (failed reason)
    | .failed _ reason, none => attempted state (attempt true false false) table (failed reason)
    -- A stored build registers its table last.
    | .failedRegistered reason, some _ =>
      attempted state (attempt true false false) table (failed reason)
    | .failedRegistered reason, none =>
      attempted state (attempt true true false) table (failed reason)

/-- One source of the graphs. What throws here ends the run. -/
def buildSource (state : RunState) (source : GraphSource) : RunState :=
  if state.thrown.isSome then state
  else
    match run.instructionOf source with
    | none => state
    | some (instruction, orchestrated) =>
      match run.passGates source instruction orchestrated with
      | .error reason => { state with thrown := some reason }
      | .ok sourceEntityId =>
        if state.writtenTargets.lookup (physicalTargetKey instruction source.connectionName) =
            some sourceEntityId then state
        else run.buildOneSource state source instruction sourceEntityId

/-- A run over the sources of its graphs. -/
def executeInstructedBuild : RunState := run.sources.foldl run.buildSource run.seeded

/-! ## What was registered and recorded last -/

/-- Where the table stands that was last registered under an id, by an attempt or as a seed. -/
def lastTable (attempts : List Attempt) (sourceEntityId : String) : Option (Option String) :=
  match attempts.reverse.find? fun attempt =>
      attempt.registers && attempt.instructionId = sourceEntityId with
  | some attempt => some attempt.storage
  | none => (run.seedEntries.lookup sourceEntityId).bind fun entry =>
      (filled entry.physicalTableName).map fun _ => filled entry.storageDestinationName

/-- Where the entries say that the table stands which was last recorded at a content address:
a source that failed is recorded as if in its warehouse. -/
def lastRecord (attempts : List Attempt) (sourceEntityId : String) : Option (Option String) :=
  match attempts.reverse.find? (·.address = sourceEntityId) with
  | some attempt => some (if attempt.succeeds then attempt.storage else none)
  | none => (run.seedEntries.lookup sourceEntityId).map fun entry =>
      filled entry.storageDestinationName

/-- Warehouse builds are handed colocated tables only. -/
def WarehouseOnly : Prop :=
  ∀ handed ∈ run.executeInstructedBuild.handed, ∀ keyed ∈ handed, keyed.2.storage = none

/-- When a source's SQL comes to run in its warehouse, no id under which the last table was
stored is an address at which the last record is of a failed source or a colocated table. -/
def StoredStaysStored : Prop :=
  ∀ before attempt after, run.executeInstructedBuild.attempts = before ++ attempt :: after →
    attempt.inWarehouse = true → ∀ sourceEntityId destination,
      run.lastTable before sourceEntityId = some (some destination) →
      run.lastRecord before sourceEntityId ≠ some none

/-! ## What a warehouse build is handed -/

/-- An id is handed on with what is registered under it, unless its entry is of a stored table
or there is none. -/
theorem mem_manifestExcludingStorage {manifest : BuildManifest} {entries : ManifestEntries}
    (distinct : (entries.map Prod.fst).Nodup) {keyed : String × BoundTable} :
    keyed ∈ manifestExcludingStorage manifest entries ↔
      (entries.lookup keyed.1).map (fun entry => filled entry.storageDestinationName) =
          some none ∧
        manifest.lookup keyed.1 = some keyed.2 := by
  obtain ⟨sourceEntityId, table⟩ := keyed
  rw [manifestExcludingStorage, List.mem_filterMap, Option.map_eq_some_iff]
  constructor
  · rintro ⟨⟨other, entry⟩, listed, kept⟩
    split_ifs at kept with stored
    obtain ⟨found, read, same⟩ := Option.map_eq_some_iff.mp kept
    obtain ⟨rfl, rfl⟩ := Prod.mk.injEq .. ▸ same
    exact ⟨⟨entry, (mem_iff_lookup distinct).mp listed, by simpa using stored⟩, read⟩
  · rintro ⟨⟨entry, listed, colocated⟩, read⟩
    refine ⟨(sourceEntityId, entry), (mem_iff_lookup distinct).mpr listed, ?_⟩
    rw [if_neg (by simp [colocated]), read]
    rfl

variable {run} {state : RunState}

/-- The maps hold what was registered and recorded last, and what was handed to a warehouse
build is what they came to then. -/
structure Follows (run : InstructedRun) (state : RunState) : Prop where
  manifest : ∀ sourceEntityId, (state.manifest.lookup sourceEntityId).map (·.storage) =
    run.lastTable state.attempts sourceEntityId
  entries : ∀ sourceEntityId, (state.entries.lookup sourceEntityId).map
      (fun entry => filled entry.storageDestinationName) =
    run.lastRecord state.attempts sourceEntityId
  keys : (state.entries.map Prod.fst).Nodup
  handed : (∀ handed ∈ state.handed, ∀ keyed ∈ handed, keyed.2.storage = none) ↔
    ∀ before attempt after, state.attempts = before ++ attempt :: after →
      attempt.inWarehouse = true → ∀ sourceEntityId destination,
        run.lastTable before sourceEntityId = some (some destination) →
        run.lastRecord before sourceEntityId ≠ some none

theorem lastTable_append_singleton (attempts : List Attempt) (last : Attempt)
    (sourceEntityId : String) :
    run.lastTable (attempts ++ [last]) sourceEntityId =
      if last.registers && last.instructionId = sourceEntityId then some last.storage
      else run.lastTable attempts sourceEntityId := by
  rw [lastTable, List.reverse_append, List.reverse_singleton, List.singleton_append,
    List.find?_cons]
  cases here : last.registers && decide (last.instructionId = sourceEntityId) with
  | true => rfl
  | false => rfl

theorem lastRecord_append_singleton (attempts : List Attempt) (last : Attempt)
    (sourceEntityId : String) :
    run.lastRecord (attempts ++ [last]) sourceEntityId =
      if last.address = sourceEntityId then
        some (if last.succeeds then last.storage else none)
      else run.lastRecord attempts sourceEntityId := by
  rw [lastRecord, List.reverse_append, List.reverse_singleton, List.singleton_append,
    List.find?_cons]
  by_cases here : last.address = sourceEntityId
  · rw [decide_eq_true here, if_pos here]
  · rw [decide_eq_false here, if_neg here]
    rfl

/-- What a warehouse build is handed is colocated if no stored table is recorded otherwise. -/
theorem Follows.handed_next (follows : run.Follows state) :
    (∀ keyed ∈ manifestExcludingStorage state.manifest state.entries, keyed.2.storage = none) ↔
      ∀ sourceEntityId destination,
        run.lastTable state.attempts sourceEntityId = some (some destination) →
        run.lastRecord state.attempts sourceEntityId ≠ some none := by
  constructor
  · intro colocated sourceEntityId destination stored recorded
    rw [← follows.manifest] at stored
    rw [← follows.entries] at recorded
    obtain ⟨table, read, inStorage⟩ := Option.map_eq_some_iff.mp stored
    have none := colocated (sourceEntityId, table)
      ((mem_manifestExcludingStorage follows.keys).mpr ⟨recorded, read⟩)
    rw [none] at inStorage
    cases inStorage
  · rintro recorded ⟨sourceEntityId, table⟩ member
    obtain ⟨asColocated, read⟩ := (mem_manifestExcludingStorage follows.keys).mp member
    cases stored : table.storage with
    | none => rfl
    | some destination =>
      rw [follows.entries] at asColocated
      refine absurd asColocated (recorded sourceEntityId destination ?_)
      rw [← follows.manifest, read, Option.map_some, stored]

/-- What an attempt registers and records is what comes last then. -/
theorem Follows.attempted (follows : run.Follows state) {attempt : Attempt} {table : BoundTable}
    {entry : ManifestEntry} (registers : attempt.registers = true → table.storage = attempt.storage)
    (records : filled entry.storageDestinationName =
      if attempt.succeeds then attempt.storage else none) :
    run.Follows (attempted state attempt table entry) where
  manifest sourceEntityId := by
    rw [InstructedRun.attempted, lastTable_append_singleton]
    cases registering : attempt.registers with
    | false => exact follows.manifest sourceEntityId
    | true =>
      simp only [if_true, Bool.true_and, lookup_setKey]
      by_cases here : sourceEntityId = attempt.instructionId
      · rw [if_pos here, if_pos (decide_eq_true here.symm), Option.map_some, registers registering]
      · rw [if_neg here, if_neg (by simpa using Ne.symm here)]
        exact follows.manifest sourceEntityId
  entries sourceEntityId := by
    rw [InstructedRun.attempted, lastRecord_append_singleton, lookup_setKey]
    by_cases here : sourceEntityId = attempt.address
    · rw [if_pos here, if_pos here.symm, Option.map_some, records]
    · rw [if_neg here, if_neg (Ne.symm here)]
      exact follows.entries sourceEntityId
  keys := nodup_setKey follows.keys
  handed := by
    have splits := @forall_split_concat _ state.attempts attempt fun before attempt =>
      attempt.inWarehouse = true → ∀ sourceEntityId destination,
        run.lastTable before sourceEntityId = some (some destination) →
        run.lastRecord before sourceEntityId ≠ some none
    rw [InstructedRun.attempted]
    refine Iff.trans ?_ splits.symm
    rw [← follows.handed, ← follows.handed_next]
    cases attempt.inWarehouse with
    | false => simp
    | true =>
      simp only [if_true, forall_const, List.mem_append, List.mem_singleton]
      constructor
      · exact fun all => ⟨fun handed member => all handed (.inl member), all _ (.inr rfl)⟩
      · rintro ⟨earlier, here⟩ handed (member | rfl)
        · exact earlier handed member
        · exact here

/-! ## A run -/

/-- Throwing and marking a table as written register and record nothing. -/
theorem Follows.of_eq {later : RunState} (follows : run.Follows state)
    (manifest : later.manifest = state.manifest) (entries : later.entries = state.entries)
    (handed : later.handed = state.handed) (attempts : later.attempts = state.attempts) :
    run.Follows later := by
  refine ⟨?_, ?_, ?_, ?_⟩
  · rw [manifest, attempts]
    exact follows.manifest
  · rw [entries, attempts]
    exact follows.entries
  · rw [entries]
    exact follows.keys
  · rw [handed, attempts]
    exact follows.handed

theorem filled_storageOf (instruction : BuildInstruction) :
    filled (run.storageOf instruction) = run.storageOf instruction := by
  unfold storageOf
  split_ifs
  · cases destination : filled instruction.destination with
    | none => rfl
    | some name => exact Serving.filled_some (Serving.filled_eq_some.mp destination).2
  · rfl

/-- Building a source keeps the maps to what comes last. -/
theorem Follows.buildOneSource (follows : run.Follows state) (source : GraphSource)
    (instruction : BuildInstruction) (sourceEntityId : String) :
    run.Follows (run.buildOneSource state source instruction sourceEntityId) := by
  have registers : (run.registered source instruction).storage = run.storageOf instruction := rfl
  have builds : filled (run.builtEntry source instruction).storageDestinationName =
      run.storageOf instruction := filled_storageOf instruction
  have fails (reason : String) : filled (failedEntry source instruction sourceEntityId
      reason).storageDestinationName = none := rfl
  unfold InstructedRun.buildOneSource
  simp only
  cases run.refusal source instruction with
  | some reason => exact follows.attempted (fun _ => registers) (fails reason)
  | none =>
    cases run.ends state.attempts.length with
    | built readsParent =>
      cases stored : run.storageOf instruction with
      | none =>
        refine Follows.of_eq (follows.attempted ?_ ?_) rfl rfl rfl rfl
        · exact fun _ => registers.trans stored
        · exact builds.trans stored
      | some destination =>
        refine Follows.of_eq (follows.attempted ?_ ?_) rfl rfl rfl rfl
        · exact fun _ => registers.trans stored
        · exact builds.trans stored
    | failed readsParent reason =>
      cases stored : run.storageOf instruction with
      | none => exact follows.attempted (fun _ => registers.trans stored) (fails reason)
      | some destination => exact follows.attempted (fun _ => registers.trans stored) (fails reason)
    | failedRegistered reason =>
      cases stored : run.storageOf instruction with
      | none => exact follows.attempted (fun _ => registers.trans stored) (fails reason)
      | some destination => exact follows.attempted (fun _ => registers.trans stored) (fails reason)

/-- So does coming to a source, whatever is done about it. -/
theorem Follows.buildSource (follows : run.Follows state) (source : GraphSource) :
    run.Follows (run.buildSource state source) := by
  unfold InstructedRun.buildSource
  split_ifs with ended
  · exact follows
  · cases run.instructionOf source with
    | none => exact follows
    | some found =>
      obtain ⟨instruction, orchestrated⟩ := found
      cases admitted : run.passGates source instruction orchestrated with
      | error reason =>
        simp only [admitted]
        exact Follows.of_eq follows rfl rfl rfl rfl
      | ok sourceEntityId =>
        simp only [admitted]
        split_ifs
        · exact follows
        · exact follows.buildOneSource source instruction sourceEntityId

/-- What the seeds come to before the first source. -/
theorem seed_spec (seeds : ManifestEntries) (distinct : (seeds.map Prod.fst).Nodup)
    {start : RunState} (empty : start.manifest = [] ∧ start.entries = []) :
    let seeded := seeds.foldl run.seed start
    (∀ sourceEntityId, (seeded.manifest.lookup sourceEntityId).map (·.storage) =
        (seeds.lookup sourceEntityId).bind fun entry =>
          (filled entry.physicalTableName).map fun _ => filled entry.storageDestinationName) ∧
      (∀ sourceEntityId, seeded.entries.lookup sourceEntityId = seeds.lookup sourceEntityId) ∧
      (seeded.entries.map Prod.fst).Nodup ∧ seeded.handed = start.handed ∧
      seeded.attempts = start.attempts := by
  induction seeds using List.reverseRecOn with
  | nil => simp [empty]
  | append_singleton earlier last ih =>
    rw [List.map_append, List.map_singleton] at distinct
    obtain ⟨apart, -, fresh⟩ := List.nodup_append.mp distinct
    obtain ⟨manifest, entries, keys, handed, attempts⟩ := ih apart
    have unread : earlier.lookup last.1 = none := by
      rw [← Option.not_isSome_iff_eq_none, isSome_lookup_iff]
      exact fun member => fresh _ member _ (List.mem_singleton_self _) rfl
    rw [List.foldl_concat]
    refine ⟨fun sourceEntityId => ?_, fun sourceEntityId => ?_, nodup_setKey keys, handed, attempts⟩
    · rw [lookup_append_singleton, seed]
      by_cases here : sourceEntityId = last.1
      · subst here
        rw [unread, Option.none_or, if_pos rfl, Option.bind_some]
        cases named : filled last.2.physicalTableName with
        | none =>
          simp only
          rw [manifest, unread]
          rfl
        | some physicalTableName => simp [lookup_setKey]
      · rw [if_neg here, Option.or_none]
        cases filled last.2.physicalTableName with
        | none => exact manifest sourceEntityId
        | some physicalTableName =>
          simp only [lookup_setKey, if_neg here]
          exact manifest sourceEntityId
    · rw [lookup_append_singleton, seed]
      simp only [lookup_setKey]
      by_cases here : sourceEntityId = last.1
      · subst here
        rw [unread, if_pos rfl, if_pos rfl, Option.none_or]
      · rw [if_neg here, if_neg here, Option.or_none]
        exact entries sourceEntityId

theorem follows_seeded : run.Follows run.seeded := by
  obtain ⟨manifest, entries, keys, handed, attempts⟩ :=
    @seed_spec run run.seedEntries run.keys
      { manifest := [], entries := [], writtenTargets := [], thrown := none, handed := []
        attempts := [] } ⟨rfl, rfl⟩
  refine ⟨fun sourceEntityId => ?_, fun sourceEntityId => ?_, keys, ?_⟩
  · rw [seeded, attempts]
    exact manifest sourceEntityId
  · rw [seeded, attempts, entries]
    rfl
  · rw [seeded, handed, attempts]
    simp

theorem follows_executeInstructedBuild : run.Follows run.executeInstructedBuild := by
  unfold executeInstructedBuild
  have kept (sources : List GraphSource) (start : RunState) (follows : run.Follows start) :
      run.Follows (sources.foldl run.buildSource start) := by
    induction sources generalizing start with
    | nil => exact follows
    | cons source sources ih => exact ih _ (follows.buildSource source)
  exact kept _ _ follows_seeded

end InstructedRun

/-! ## A seeded source that fails -/

/-- A source of the `warehouse` connection. -/
def warehouseSource (name sourceEntityId : String) (declaredStorage : Option String) :
    GraphSource where
  sourceID := name
  name := name
  connectionName := "warehouse"
  dialectName := "postgres"
  computeSourceEntityId := .ok sourceEntityId
  assertMaterializationEligible := .ok ()
  assertColocatedPersistNotAuthorizeGated := .ok ()
  declaredStorage := declaredStorage
  rollup := none

/-- The entry of `orders` as the package's last manifest has it, stored in a lake. -/
def storedOrders : ManifestEntry where
  sourceEntityId := "a1"
  sourceName := some "orders"
  materializedTableId := none
  physicalTableName := some "orders_g1"
  connectionName := some "warehouse"
  storageDestinationName := some "lake"
  schema := none
  origin := none
  dataAsOf := none
  freshnessWindowSeconds := none
  freshnessFallback := none
  error := none

/-- The stored `orders` is seeded, and is to be built again, which fails; then `daily` is built
in the warehouse. -/
def failedUpstream : InstructedRun where
  seedEntries := [("a1", storedOrders)]
  keys := List.nodup_singleton _
  sources := [warehouseSource "orders" "a1" (some "lake"), warehouseSource "daily" "b2" none]
  instructions := [
    { sourceEntityId := "a1", sourceID := none, materializedTableId := "m1"
      physicalTableName := "orders_g2", destination := some "lake" },
    { sourceEntityId := "b2", sourceID := none, materializedTableId := "m2"
      physicalTableName := "daily_g2", destination := none }]
  connections := fun _ => some "postgres"
  storageOn := true
  ends := fun index => if index = 0 then .failed false "no such catalog" else .built false

end MalloyPublisher.Materialization
