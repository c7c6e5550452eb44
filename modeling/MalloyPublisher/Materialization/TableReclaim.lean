import MalloyPublisher.Materialization.StagedBuild
import MalloyPublisher.Serving.AutoRun

/-!
# Dropping tables beside a running build

Deleting a materialization can drop the tables of its manifest. A sweep first lists the other
runs of the package that are ready, and spares the tables they name. A build that is under way
is not among them: it holds tables it has carried from the latest manifest, and tables it has
built or refreshed in place under names that are stable, and it names them in a manifest that
is only committed later. A table that the sweep drops meanwhile is named by a committed run and
is gone.

A sweep also drops what stands under the staging names of its tables, whatever run names it.

## Main definitions

* `State`, `Action`, `State.step` — a package's runs, sweeps and tables, step by step
* `State.Safe` — every table that a ready run names is there
* `State.Harmless` — a step drops nothing that a run outside its list holds
* `Reached` — the states that harmless steps lead to

## Main results

* `Kept.step` — a harmless step keeps what sweeps and runs know of each other
* `Reached.safe` — every state that harmless steps lead to is safe
-/

namespace MalloyPublisher.Materialization

open Foundations
open Serving (ManifestEntry ManifestEntries filled PhysicalTarget SelfInstructions
  BuildLoop isLegacyFailedEntry)

/-! ## Tables of entries -/

/-- The table an entry names. -/
def entryTarget (entry : ManifestEntry) : Option PhysicalTarget :=
  (filled entry.physicalTableName).bind fun table =>
    match filled entry.storageDestinationName with
    | some destination => some (.destination destination table)
    | none => (filled entry.connectionName).map fun connection => .connection connection table

/-- What a sweep tells tables apart by. -/
def tableKey (dest table : String) : String := dest ++ ":" ++ table

/-- The key of the table an entry of another run refers to. -/
def referenceKey (entry : ManifestEntry) : Option String :=
  match filled (entry.storageDestinationName <|> entry.connectionName),
      filled entry.physicalTableName with
  | some dest, some table => some (tableKey dest table)
  | _, _ => none

/-- The table a sweep drops for an entry: none that is referred to, and none without a
connection. -/
def dropTarget (stillReferenced : List String) (entry : ManifestEntry) : Option PhysicalTarget :=
  match filled entry.connectionName, filled entry.physicalTableName with
  | some connectionName, some physicalTableName =>
    let destForKey := entry.storageDestinationName.getD connectionName
    if tableKey destForKey physicalTableName ∈ stillReferenced then none
    else
      match filled entry.storageDestinationName with
      | some destination => some (.destination destination physicalTableName)
      | none => some (.connection connectionName physicalTableName)
  | _, _ => none

/-- What is left to drop beside a colocated table: what stands under its staging name. -/
def stagingTarget (entry : ManifestEntry) : PhysicalTarget → Option PhysicalTarget
  | .destination _ _ => none
  | .connection connectionName physicalTableName =>
    some (.connection connectionName (physicalTableName ++ stagingSuffix entry.sourceEntityId))

/-! ## Runs and sweeps -/

/-- An entry of a run, and whether its table was there when it was carried or built. -/
structure HeldEntry where
  entry : ManifestEntry
  existed : Bool

/-- The table a held entry answers for. -/
def HeldEntry.target (held : HeldEntry) : Option PhysicalTarget :=
  if held.existed then entryTarget held.entry else none

/-- A run that has ended: ready with its manifest, or failed or cancelled without one. -/
structure MaterializationRecord where
  id : ℕ
  ready : Bool
  entries : List (String × HeldEntry)

/-- The run that is under way. -/
structure ActiveRun where
  id : ℕ
  instructions : List Serving.BuildInstruction
  entries : List (String × HeldEntry)
  loop : BuildLoop

/-- A deletion under way: the run it deletes, the entries it is still to sweep, the keys it
spares once it has listed the other runs, and the staging table it is to drop next. The runs
that were not ready when it listed them are kept to state what it cannot know. -/
structure Sweep where
  id : ℕ
  remaining : List ManifestEntry
  stillReferenced : Option (List String)
  staging : Option PhysicalTarget
  unseen : List ℕ

/-- A package: the tables that are there, its ended runs with the newest first, the active run,
and the deletions under way. -/
structure State where
  tables : List PhysicalTarget
  records : List MaterializationRecord
  active : Option ActiveRun
  sweeps : List Sweep
  nextId : ℕ

/-- How the build of a source ends; a swap that fails may lose the table it was to replace. -/
inductive SourceEnd
  | built
  | failed (reason : String) (lost : Bool)

/-- The reason a build fails for. -/
def SourceEnd.failure : SourceEnd → Option String
  | .built => none
  | .failed reason _ => some reason

/-- The steps of builds and deletions. A deletion under way is told by its position. -/
inductive Action
  | start
  | derive (storageOn : Bool) (sourceNames : Option (List String)) (forceRefresh : Bool)
      (sources : List Serving.PersistSource)
  | build (source : Serving.PersistSource) (sourceEnd : SourceEnd)
  | commit
  | fail
  | beginDelete (id : ℕ) (dropTables : Bool)
  | list (call : ℕ)
  | drop (call : ℕ) (outcome : Outcome)
  | dropStaging (call : ℕ) (outcome : Outcome)
  | finish (call : ℕ)

namespace State

/-- A table, dropped if the statement took effect. -/
def without (tables : List PhysicalTarget) (outcome : Outcome) (target : PhysicalTarget) :
    List PhysicalTarget :=
  if outcome.took then tables.filter (· ≠ target) else tables

/-- The entries of the newest ready run, less the failures that older manifests list. -/
def mostRecentEntries (state : State) : List (String × HeldEntry) :=
  ((state.records.find? (·.ready)).map (·.entries)).getD [] |>.filter fun keyed =>
    !isLegacyFailedEntry keyed.2.entry

theorem mostRecentEntries_clean (state : State) : ∀ keyed ∈ state.mostRecentEntries.map
    (fun keyed => (keyed.1, keyed.2.entry)), isLegacyFailedEntry keyed.2 = false := by
  intro keyed member
  obtain ⟨held, listed, rfl⟩ := List.mem_map.mp member
  simpa using (List.mem_filter.mp listed).2

/-- The entries a run may carry: those of the newest ready run, unless all is to be rebuilt. -/
def priorEntries (state : State) (forceRefresh : Bool) : ManifestEntries :=
  if forceRefresh then []
  else state.mostRecentEntries.map fun keyed => (keyed.1, keyed.2.entry)

theorem priorEntries_clean (state : State) (forceRefresh : Bool) :
    ∀ keyed ∈ state.priorEntries forceRefresh, isLegacyFailedEntry keyed.2 = false := by
  intro keyed listed
  unfold priorEntries at listed
  split_ifs at listed
  · cases listed
  · exact state.mostRecentEntries_clean keyed listed

/-- The options of a run, with the entries it may carry. -/
def runOptions (state : State) (storageOn : Bool) (sourceNames : Option (List String))
    (forceRefresh : Bool) : Serving.RunOptions where
  storageOn := storageOn
  sourceNames := sourceNames
  priorEntries := state.priorEntries forceRefresh
  priorClean := state.priorEntries_clean forceRefresh

/-- The active run ends without a manifest. -/
def failRun (state : State) (run : ActiveRun) : State := { state with
  active := none
  records := { id := run.id, ready := false, entries := [] } :: state.records }

/-- The run takes its instructions, and the entries it carries. `declaredStorage` trims, and
answers no empty name. -/
def deriveRun (state : State) (run : ActiveRun) (options : Serving.RunOptions)
    (sources : List Serving.PersistSource) : State :=
  if sources.any (·.declaredStorage = some "") then state
  else
    match Serving.deriveSelfInstructions options sources with
    | .error _ => state.failRun run
    | .ok instructed => { state with active := some { run with
        instructions := instructed.instructions
        entries := instructed.carried.map fun keyed => (keyed.1, {
          entry := keyed.2
          existed := (entryTarget keyed.2).any (· ∈ state.tables) }) } }

/-- The run comes to one source. -/
def buildRun (state : State) (run : ActiveRun) (source : Serving.PersistSource) (sourceEnd : SourceEnd) :
    State :=
  match Serving.buildSource run.instructions (fun _ => sourceEnd.failure) run.loop source with
  | .error _ => state.failRun run
  | .ok loop =>
    match loop.builds.drop run.loop.builds.length with
    | [] => state
    | (sourceEntityId, .built entry) :: _ => { state with
        tables := (entryTarget entry).toList ++ state.tables
        active := some { run with
          entries := setKey sourceEntityId { entry, existed := true } run.entries
          loop } }
    | (sourceEntityId, .failed failure) :: _ => { state with
        tables := match sourceEnd, run.instructions.find? (·.sourceEntityId = sourceEntityId) with
          | .failed _ true, some instruction => state.tables.filter
              (· ≠ Serving.physicalTargetKey instruction source.connectionName)
          | _, _ => state.tables
        active := some { run with
          entries := setKey sourceEntityId
            { entry := failure.mirror sourceEntityId, existed := false } run.entries
          loop } }

/-- The run's manifest is committed, unless every source it came to failed. -/
def commitRun (state : State) (run : ActiveRun) : State :=
  if run.loop.builds ≠ [] ∧ run.loop.builds.all fun keyed =>
      match keyed.2 with
      | .built _ => false
      | .failed _ => true then state.failRun run
  else { state with
    active := none
    records := { id := run.id, ready := true, entries := run.entries } :: state.records }

/-- One step of a build or a deletion. A step that is not due changes nothing. -/
def step (state : State) : Action → State
  | .start =>
    if state.active.isSome then state
    else { state with
      active := some {
        id := state.nextId, instructions := [], entries := []
        loop := { writtenTargets := [], builds := [] } }
      sweeps := state.sweeps.map fun sweep => { sweep with unseen := state.nextId :: sweep.unseen }
      nextId := state.nextId + 1 }
  | .derive storageOn sourceNames forceRefresh sources =>
    match state.active with
    | none => state
    | some run =>
      state.deriveRun run (state.runOptions storageOn sourceNames forceRefresh) sources
  | .build source sourceEnd =>
    match state.active with
    | none => state
    | some run => state.buildRun run source sourceEnd
  | .commit =>
    match state.active with
    | none => state
    | some run => state.commitRun run
  | .fail =>
    match state.active with
    | none => state
    | some run => state.failRun run
  | .beginDelete id dropTables =>
    match state.records.find? (·.id = id) with
    | none => state
    | some record => { state with sweeps := state.sweeps ++ [{
        id
        remaining := if dropTables then record.entries.map fun keyed => keyed.2.entry else []
        stillReferenced := none, staging := none, unseen := [] }] }
  | .list call =>
    match state.sweeps[call]? with
    | none => state
    | some sweep =>
      if sweep.stillReferenced.isSome then state
      else { state with sweeps := state.sweeps.set call { sweep with
        stillReferenced := some ((state.records.filter fun other =>
          other.id ≠ sweep.id && other.ready).flatMap fun other =>
            other.entries.filterMap fun keyed => referenceKey keyed.2.entry)
        unseen := state.active.toList.map (·.id) } }
  | .drop call outcome =>
    match state.sweeps[call]? with
    | none => state
    | some sweep =>
      match sweep.stillReferenced, sweep.staging, sweep.remaining with
      | some stillReferenced, none, entry :: remaining =>
        match dropTarget stillReferenced entry with
        | none => { state with sweeps := state.sweeps.set call { sweep with remaining } }
        | some target => { state with
            tables := without state.tables outcome target
            sweeps := state.sweeps.set call { sweep with
              remaining
              -- A drop that raises ends what is done for its entry.
              staging := if outcome = .done then stagingTarget entry target else none } }
      | _, _, _ => state
  | .dropStaging call outcome =>
    match state.sweeps[call]? with
    | none => state
    | some sweep =>
      match sweep.staging with
      | none => state
      | some target => { state with
          tables := without state.tables outcome target
          sweeps := state.sweeps.set call { sweep with staging := none } }
  | .finish call =>
    match state.sweeps[call]? with
    | none => state
    | some sweep =>
      if sweep.remaining = [] ∧ sweep.staging = none then { state with
        records := state.records.filter (·.id ≠ sweep.id)
        sweeps := state.sweeps.eraseIdx call }
      else state

end State

/-- A package without runs, over the tables that are there. -/
def initial (tables : List PhysicalTarget) : State where
  tables := tables
  records := []
  active := none
  sweeps := []
  nextId := 0

/-! ## Safety -/

namespace State

variable (state : State)

/-- A run's record is being deleted. -/
def BeingDeleted (id : ℕ) : Prop := ∃ sweep ∈ state.sweeps, sweep.id = id

/-- Every table that a ready run names is there, if it was when the run came to it, unless the
run is being deleted. -/
def Safe : Prop :=
  ∀ record ∈ state.records, record.ready = true → ¬ state.BeingDeleted record.id →
    ∀ keyed ∈ record.entries, ∀ target, keyed.2.target = some target → target ∈ state.tables

/-- A run holds a table: a ready run that is not being deleted names it, or the active run has
carried or built it. -/
def Holds (id : ℕ) (target : PhysicalTarget) : Prop :=
  (∃ record ∈ state.records, record.id = id ∧ record.ready = true ∧ ¬ state.BeingDeleted id ∧
    ∃ keyed ∈ record.entries, keyed.2.target = some target) ∨
  ∃ run, state.active = some run ∧ run.id = id ∧
    ∃ keyed ∈ run.entries, keyed.2.target = some target

/-- The table a sweep drops next. -/
def nextDrop (sweep : Sweep) : Option PhysicalTarget :=
  match sweep.stillReferenced, sweep.staging, sweep.remaining with
  | some stillReferenced, none, entry :: _ => dropTarget stillReferenced entry
  | _, _, _ => none

/-- The table a failed build loses. -/
def lostTarget (source : Serving.PersistSource) : Option PhysicalTarget :=
  state.active.bind fun run => source.sourceEntityId.bind fun sourceEntityId =>
    (run.instructions.find? (·.sourceEntityId = sourceEntityId)).map fun instruction =>
      Serving.physicalTargetKey instruction source.connectionName

/-- A step does no harm. The table a sweep drops is held by no run that was active since it
listed the others; what it drops under a staging name is held by no run; and a table that a
failed build loses is held by no run. -/
def Harmless : Action → Prop
  | .drop call outcome => ∀ sweep ∈ state.sweeps[call]?, ∀ target ∈ nextDrop sweep,
      outcome.took = true → ∀ id ∈ sweep.unseen, ¬ state.Holds id target
  | .dropStaging call outcome => ∀ sweep ∈ state.sweeps[call]?, ∀ target ∈ sweep.staging,
      outcome.took = true → ∀ id, ¬ state.Holds id target
  | .build source (.failed _ true) => ∀ target ∈ state.lostTarget source,
      ∀ id, ¬ state.Holds id target
  | _ => True

end State

/-- The states that a package's harmless steps lead to. -/
inductive Reached (tables : List PhysicalTarget) : State → Prop
  | start : Reached tables (initial tables)
  | step {state : State} (action : Action) (reached : Reached tables state)
      (harmless : state.Harmless action) : Reached tables (state.step action)

/-! ## Keys -/

/-- The key of a table. -/
def targetKey : PhysicalTarget → String
  | .destination destination table => tableKey destination table
  | .connection connectionName table => tableKey connectionName table

/-- The entries of a manifest name a destination or none. -/
def NamesDestination (entry : ManifestEntry) : Prop := entry.storageDestinationName ≠ some ""

section Keys

variable {entry : ManifestEntry} {target : PhysicalTarget}

/-- An entry refers to the table it names under the table's key. -/
theorem referenceKey_eq (named : NamesDestination entry)
    (names : entryTarget entry = some target) : referenceKey entry = some (targetKey target) := by
  obtain ⟨table, inTable, placed⟩ := Option.bind_eq_some_iff.mp names
  unfold referenceKey
  rw [inTable]
  cases storage : entry.storageDestinationName with
  | some destination =>
    have nonempty : destination ≠ "" := fun empty => named (storage.trans (congrArg some empty))
    rw [storage, Serving.filled_some nonempty] at placed
    obtain rfl := Option.some.inj placed
    simp [Serving.filled_some nonempty, targetKey]
  | none =>
    rw [storage] at placed
    obtain ⟨connection, connected, rfl⟩ := Option.map_eq_some_iff.mp placed
    simp [connected, targetKey]

/-- What a sweep drops for an entry is none of the tables it spares. -/
theorem dropTarget_key {stillReferenced : List String} (named : NamesDestination entry)
    (drops : dropTarget stillReferenced entry = some target) :
    targetKey target ∉ stillReferenced := by
  unfold dropTarget at drops
  split at drops
  · rename_i connectionName physicalTableName connected inTable
    simp only at drops
    split_ifs at drops with spared
    cases storage : entry.storageDestinationName with
    | some destination =>
      have nonempty : destination ≠ "" := fun empty => named (storage.trans (congrArg some empty))
      rw [storage] at drops spared
      rw [Serving.filled_some nonempty] at drops
      obtain rfl := Option.some.inj drops
      exact spared
    | none =>
      rw [storage] at drops spared
      obtain rfl := Option.some.inj drops
      exact spared
  · cases drops

theorem HeldEntry.target_eq_some {held : HeldEntry} :
    held.target = some target ↔ held.existed = true ∧ entryTarget held.entry = some target := by
  unfold HeldEntry.target
  split_ifs with existed
  · simp [existed]
  · simp [existed]

end Keys

/-! ## What sweeps and runs know of each other -/

/-- A sweep that has listed the other runs spares what they name, but for those that became
ready since; and the active run is one that it has not seen ready. -/
structure SweepKept (state : State) (sweep : Sweep) : Prop where
  listed : ∀ keys, sweep.stillReferenced = some keys → ∀ record ∈ state.records,
    record.ready = true → record.id ≠ sweep.id → record.id ∉ sweep.unseen →
    ∀ keyed ∈ record.entries, ∀ target, entryTarget keyed.2.entry = some target →
      targetKey target ∈ keys
  unseen : sweep.stillReferenced.isSome → ∀ run, state.active = some run → run.id ∈ sweep.unseen
  remaining : ∀ entry ∈ sweep.remaining, NamesDestination entry

/-- What holds of the states that harmless steps lead to. -/
structure Kept (state : State) : Prop where
  safe : state.Safe
  held : ∀ run, state.active = some run → ∀ keyed ∈ run.entries, ∀ target,
    keyed.2.target = some target → target ∈ state.tables
  recorded : ∀ record ∈ state.records, ∀ keyed ∈ record.entries, NamesDestination keyed.2.entry
  carried : ∀ run, state.active = some run → ∀ keyed ∈ run.entries, NamesDestination keyed.2.entry
  instructed : ∀ run, state.active = some run → ∀ instruction ∈ run.instructions,
    instruction.destination ≠ some ""
  sweeps : ∀ sweep ∈ state.sweeps, SweepKept state sweep

section Steps

variable {state : State} {run : ActiveRun}

theorem kept_initial (tables : List PhysicalTarget) : Kept (initial tables) := by
  refine ⟨?_, ?_, ?_, ?_, ?_, ?_⟩ <;> simp [initial, State.Safe]

/-- What no run holds can be dropped. -/
theorem Kept.without (kept : Kept state) {outcome : Outcome} {target : PhysicalTarget}
    (free : outcome.took = true → ∀ id, ¬ state.Holds id target) :
    Kept { state with tables := State.without state.tables outcome target } := by
  have stays {other : PhysicalTarget} (there : other ∈ state.tables)
      (apart : outcome.took = true → other ≠ target) :
      other ∈ State.without state.tables outcome target := by
    unfold State.without
    split_ifs with took
    · exact List.mem_filter.mpr ⟨there, by simpa using apart took⟩
    · exact there
  refine ⟨?_, ?_, kept.recorded, kept.carried, kept.instructed, ?_⟩
  · intro record member ready alive keyed listed other names
    refine stays (kept.safe record member ready alive keyed listed other names) ?_
    rintro took rfl
    exact free took record.id (.inl ⟨record, member, rfl, ready, alive, keyed, listed, names⟩)
  · intro run active keyed listed other names
    refine stays (kept.held run active keyed listed other names) ?_
    rintro took rfl
    exact free took run.id (.inr ⟨run, active, rfl, keyed, listed, names⟩)
  · intro sweep member
    obtain ⟨listed, unseen, remaining⟩ := kept.sweeps sweep member
    exact ⟨listed, unseen, remaining⟩

/-- Replacing a sweep by one of the same run leaves the runs being deleted. -/
theorem exists_id_set {sweeps : List Sweep} {call : ℕ} {sweep later : Sweep}
    (here : sweeps[call]? = some sweep) (same : later.id = sweep.id) (id : ℕ) :
    (∃ other ∈ sweeps.set call later, other.id = id) ↔ ∃ other ∈ sweeps, other.id = id := by
  obtain ⟨bound, found⟩ := List.getElem?_eq_some_iff.mp here
  constructor
  · rintro ⟨other, member, rfl⟩
    rcases List.mem_or_eq_of_mem_set member with earlier | rfl
    · exact ⟨other, earlier, rfl⟩
    · exact ⟨sweep, List.mem_of_getElem? here, same.symm⟩
  · rintro ⟨other, member, rfl⟩
    obtain ⟨index, inside, rfl⟩ := List.mem_iff_getElem.mp member
    by_cases replaced : index = call
    · subst replaced
      exact ⟨later, List.mem_set bound later, by rw [same, ← found]⟩
    · refine ⟨sweeps[index], ?_, rfl⟩
      have unchanged : (sweeps.set call later)[index]? = some sweeps[index] := by
        rw [List.getElem?_set_ne (Ne.symm replaced)]
        exact List.getElem?_eq_getElem inside
      exact List.mem_of_getElem? unchanged

/-- A sweep goes on. -/
theorem Kept.setSweep (kept : Kept state) {call : ℕ} {sweep later : Sweep}
    (here : state.sweeps[call]? = some sweep) (same : later.id = sweep.id)
    (goesOn : SweepKept state later) :
    Kept { state with sweeps := state.sweeps.set call later } := by
  refine ⟨?_, kept.held, kept.recorded, kept.carried, kept.instructed, ?_⟩
  · intro record member ready alive
    refine kept.safe record member ready fun deleted => alive ?_
    exact (exists_id_set here same record.id).mpr deleted
  · intro other member
    have known : SweepKept state other := by
      rcases List.mem_or_eq_of_mem_set member with earlier | rfl
      · exact kept.sweeps other earlier
      · exact goesOn
    exact ⟨known.listed, known.unseen, known.remaining⟩

/-- A run that fails names nothing. -/
theorem Kept.failRun (kept : Kept state) (run : ActiveRun) : Kept (state.failRun run) := by
  refine ⟨?_, ?_, ?_, ?_, ?_, ?_⟩
  · intro record member ready alive keyed listed target names
    rcases List.mem_cons.mp member with rfl | earlier
    · cases ready
    · exact kept.safe record earlier ready alive keyed listed target names
  · rintro _ ⟨⟩
  · intro record member keyed listed
    rcases List.mem_cons.mp member with rfl | earlier
    · cases listed
    · exact kept.recorded record earlier keyed listed
  · rintro _ ⟨⟩
  · rintro _ ⟨⟩
  · intro sweep member
    obtain ⟨listed, -, remaining⟩ := kept.sweeps sweep member
    refine ⟨?_, ?_, remaining⟩
    · intro keys known record among ready
      rcases List.mem_cons.mp among with rfl | earlier
      · cases ready
      · exact listed keys known record earlier ready
    · rintro _ _ ⟨⟩

/-- What a run may carry is named by a ready run. -/
theorem Kept.namesDestination_of_prior (kept : Kept state) {forceRefresh : Bool}
    {keyed : String × ManifestEntry} (prior : keyed ∈ state.priorEntries forceRefresh) :
    NamesDestination keyed.2 := by
  unfold State.priorEntries at prior
  split_ifs at prior
  · cases prior
  · obtain ⟨held, listed, rfl⟩ := List.mem_map.mp prior
    have named := (List.mem_filter.mp listed).1
    cases newest : state.records.find? (·.ready) with
    | none =>
      rw [newest] at named
      cases named
    | some record =>
      rw [newest] at named
      exact kept.recorded record (List.mem_of_find?_eq_some newest) held named

/-- A run that takes its instructions holds the tables of what it carries. -/
theorem Kept.deriveRun (kept : Kept state) (active : state.active = some run) (storageOn : Bool)
    (sourceNames : Option (List String)) (forceRefresh : Bool) (sources : List Serving.PersistSource) :
    Kept (state.deriveRun run (state.runOptions storageOn sourceNames forceRefresh) sources) := by
  unfold State.deriveRun
  split_ifs with unnamed
  · exact kept
  · cases derived : Serving.deriveSelfInstructions
        (state.runOptions storageOn sourceNames forceRefresh) sources with
    | error source => exact kept.failRun run
    | ok instructed =>
      have origin := Serving.instructedFrom_of_derives derived
      refine ⟨kept.safe, ?_, kept.recorded, ?_, ?_, ?_⟩
      · rintro _ ⟨⟩ _ listed target names
        obtain ⟨keyed, -, rfl⟩ := List.mem_map.mp listed
        obtain ⟨existed, named⟩ := HeldEntry.target_eq_some.mp names
        simp only [named, Option.any_some, decide_eq_true_eq] at existed
        exact existed
      · rintro _ ⟨⟩ _ listed
        obtain ⟨keyed, carried, rfl⟩ := List.mem_map.mp listed
        exact kept.namesDestination_of_prior (origin.carried keyed carried)
      · rintro _ ⟨⟩ instruction listed
        obtain ⟨lead, among, -, same⟩ := origin.leads instruction listed
        rw [same]
        simp only [Serving.selfInstruction, Serving.resolveStorageDestination]
        split_ifs
        · intro empty
          exact unnamed (List.any_eq_true.mpr ⟨lead, among, decide_eq_true empty⟩)
        · simp
      · intro sweep member
        obtain ⟨known, unseen, remaining⟩ := kept.sweeps sweep member
        refine ⟨known, ?_, remaining⟩
        rintro isListed _ ⟨⟩
        exact unseen isListed run active

/-- What coming to a source adds to a run's builds. -/
theorem buildSource_cases {instructions : List Serving.BuildInstruction}
    {fails : ℕ → Option String} {loop loop' : BuildLoop} {source : Serving.PersistSource}
    (built : Serving.buildSource instructions fails loop source = .ok loop') :
    loop'.builds = loop.builds ∨
      ∃ sourceEntityId instruction, source.sourceEntityId = some sourceEntityId ∧
        instructions.find? (·.sourceEntityId = sourceEntityId) = some instruction ∧
        ((∃ failure, loop'.builds = loop.builds ++ [(sourceEntityId, .failed failure)]) ∨
          loop'.builds = loop.builds ++
            [(sourceEntityId, .built (Serving.builtEntry source instruction))]) := by
  unfold Serving.buildSource at built
  cases address : source.sourceEntityId with
  | none => rw [address] at built; cases built; exact .inl rfl
  | some sourceEntityId =>
    rw [address] at built
    simp only at built
    cases found : instructions.find? (·.sourceEntityId = sourceEntityId) with
    | none => rw [found] at built; cases built; exact .inl rfl
    | some instruction =>
      rw [found] at built
      simp only at built
      split_ifs at built with refused written
      · cases built; exact .inl rfl
      · refine .inr ⟨sourceEntityId, instruction, rfl, found, ?_⟩
        cases failed : Serving.failureReason fails loop source instruction with
        | some reason => rw [failed] at built; cases built; exact .inl ⟨_, rfl⟩
        | none => rw [failed] at built; cases built; exact .inr rfl

/-- A run that has come to one more source, with the tables left. -/
theorem Kept.setEntry (kept : Kept state) (active : state.active = some run)
    {tables : List PhysicalTarget} {sourceEntityId : String} {held : HeldEntry} {loop : BuildLoop}
    (there : ∀ target, held.target = some target → target ∈ tables)
    (stays : ∀ target ∈ state.tables, (∃ id, state.Holds id target) → target ∈ tables)
    (named : NamesDestination held.entry) :
    Kept { state with
      tables
      active := some { run with entries := setKey sourceEntityId held run.entries, loop } } := by
  refine ⟨?_, ?_, kept.recorded, ?_, ?_, ?_⟩
  · intro record member ready alive keyed listed target names
    refine stays target (kept.safe record member ready alive keyed listed target names) ?_
    exact ⟨record.id, .inl ⟨record, member, rfl, ready, alive, keyed, listed, names⟩⟩
  · rintro _ ⟨⟩ keyed listed target names
    rcases eq_or_mem_of_mem_setKey listed with rfl | earlier
    · exact there target names
    · refine stays target (kept.held run active keyed earlier target names) ?_
      exact ⟨run.id, .inr ⟨run, active, rfl, keyed, earlier, names⟩⟩
  · rintro _ ⟨⟩ keyed listed
    rcases eq_or_mem_of_mem_setKey listed with rfl | earlier
    · exact named
    · exact kept.carried run active keyed earlier
  · rintro _ ⟨⟩ instruction listed
    exact kept.instructed run active instruction listed
  · intro sweep member
    obtain ⟨known, unseen, remaining⟩ := kept.sweeps sweep member
    refine ⟨known, ?_, remaining⟩
    rintro isListed _ ⟨⟩
    exact unseen isListed run active

/-- A run that comes to a source holds the table it built there. -/
theorem Kept.buildRun (kept : Kept state) (active : state.active = some run)
    {source : Serving.PersistSource} {sourceEnd : SourceEnd}
    (harmless : state.Harmless (.build source sourceEnd)) :
    Kept (state.buildRun run source sourceEnd) := by
  unfold State.buildRun
  cases built : Serving.buildSource run.instructions (fun _ => sourceEnd.failure) run.loop source with
  | error refused => exact kept.failRun run
  | ok loop =>
    rcases buildSource_cases built with same | ⟨sourceEntityId, instruction, address, found,
      ⟨failure, grown⟩ | grown⟩
    · simp only [same, List.drop_length]
      exact kept
    · simp only [grown, List.drop_left]
      refine kept.setEntry active ?_ ?_ ?_
      · intro target names
        cases (HeldEntry.target_eq_some.mp names).1
      · rintro target there ⟨id, holds⟩
        cases sourceEnd with
        | built => exact there
        | failed reason lost =>
          cases lost with
          | false => exact there
          | true =>
            rw [found]
            refine List.mem_filter.mpr ⟨there, decide_eq_true ?_⟩
            rintro rfl
            refine harmless _ ?_ id holds
            simp [State.lostTarget, active, address, found]
      · simp [NamesDestination, Serving.FailedBuild.mirror]
    · simp only [grown, List.drop_left]
      refine kept.setEntry active ?_ ?_ ?_
      · intro target names
        have named := (HeldEntry.target_eq_some.mp names).2
        exact List.mem_append_left _ (by simp [named])
      · exact fun target there _ => List.mem_append_right _ there
      · exact kept.instructed run active instruction (List.mem_of_find?_eq_some found)

/-- A run that is committed names the tables it held. -/
theorem Kept.commitRun (kept : Kept state) (active : state.active = some run) :
    Kept (state.commitRun run) := by
  unfold State.commitRun
  split_ifs
  · exact kept.failRun run
  · refine ⟨?_, ?_, ?_, ?_, ?_, ?_⟩
    · intro record member ready alive keyed listed target names
      rcases List.mem_cons.mp member with rfl | earlier
      · exact kept.held run active keyed listed target names
      · exact kept.safe record earlier ready alive keyed listed target names
    · rintro _ ⟨⟩
    · intro record member keyed listed
      rcases List.mem_cons.mp member with rfl | earlier
      · exact kept.carried run active keyed listed
      · exact kept.recorded record earlier keyed listed
    · rintro _ ⟨⟩
    · rintro _ ⟨⟩
    · intro sweep member
      obtain ⟨listed, unseen, remaining⟩ := kept.sweeps sweep member
      refine ⟨?_, ?_, remaining⟩
      · intro keys known record among ready other notUnseen
        rcases List.mem_cons.mp among with rfl | earlier
        · exact absurd (unseen (by rw [known]; rfl) run active) notUnseen
        · exact listed keys known record earlier ready other notUnseen
      · rintro _ _ ⟨⟩

/-- A harmless step keeps what runs and sweeps know of each other. -/
theorem Kept.step (kept : Kept state) (action : Action) (harmless : state.Harmless action) :
    Kept (state.step action) := by
  cases action with
  | start =>
    simp only [State.step]
    split_ifs
    · exact kept
    · refine ⟨?_, ?_, kept.recorded, ?_, ?_, ?_⟩
      · intro record member ready alive
        refine kept.safe record member ready ?_
        rintro ⟨sweep, among, same⟩
        exact alive ⟨_, List.mem_map_of_mem among, same⟩
      · rintro _ ⟨⟩ keyed listed
        cases listed
      · rintro _ ⟨⟩ keyed listed
        cases listed
      · rintro _ ⟨⟩ instruction listed
        cases listed
      · intro sweep member
        obtain ⟨earlier, among, rfl⟩ := List.mem_map.mp member
        obtain ⟨listed, -, remaining⟩ := kept.sweeps earlier among
        refine ⟨?_, ?_, remaining⟩
        · intro keys known record among ready other notUnseen
          exact listed keys known record among ready other fun unseen =>
            notUnseen (List.mem_cons_of_mem _ unseen)
        · rintro _ _ ⟨⟩
          exact List.mem_cons_self ..
  | derive storageOn sourceNames forceRefresh sources =>
    cases active : state.active with
    | none => simpa only [State.step, active] using kept
    | some run =>
      simp only [State.step, active]
      exact kept.deriveRun active storageOn sourceNames forceRefresh sources
  | build source sourceEnd =>
    cases active : state.active with
    | none => simpa only [State.step, active] using kept
    | some run =>
      simp only [State.step, active]
      exact kept.buildRun active harmless
  | commit =>
    cases active : state.active with
    | none => simpa only [State.step, active] using kept
    | some run =>
      simp only [State.step, active]
      exact kept.commitRun active
  | fail =>
    cases active : state.active with
    | none => simpa only [State.step, active] using kept
    | some run =>
      simp only [State.step, active]
      exact kept.failRun run
  | beginDelete id dropTables =>
    cases found : state.records.find? (·.id = id) with
    | none => simpa only [State.step, found] using kept
    | some record =>
      simp only [State.step, found]
      refine ⟨?_, kept.held, kept.recorded, kept.carried, kept.instructed, ?_⟩
      · intro record member ready alive
        refine kept.safe record member ready ?_
        rintro ⟨sweep, among, same⟩
        exact alive ⟨sweep, List.mem_append_left _ among, same⟩
      · intro sweep member
        rcases List.mem_append.mp member with earlier | new
        · obtain ⟨listed, unseen, remaining⟩ := kept.sweeps sweep earlier
          exact ⟨listed, unseen, remaining⟩
        · obtain rfl := List.mem_singleton.mp new
          refine ⟨?_, ?_, ?_⟩
          · rintro _ ⟨⟩
          · rintro ⟨⟩
          · intro entry listed
            simp only at listed
            split_ifs at listed
            · obtain ⟨keyed, among, rfl⟩ := List.mem_map.mp listed
              exact kept.recorded record (List.mem_of_find?_eq_some found) keyed among
            · cases listed
  | list call =>
    cases here : state.sweeps[call]? with
    | none => simpa only [State.step, here] using kept
    | some sweep =>
      simp only [State.step, here]
      split_ifs
      · exact kept
      · refine kept.setSweep here rfl ⟨?_, ?_, ?_⟩
        · rintro _ ⟨⟩ record member ready other _ keyed listed target names
          refine List.mem_flatMap.mpr ⟨record, ?_, List.mem_filterMap.mpr ⟨keyed, listed, ?_⟩⟩
          · exact List.mem_filter.mpr ⟨member, by simp [other, ready]⟩
          · exact referenceKey_eq (kept.recorded record member keyed listed) names
        · intro _ run active
          simp [active]
        · exact (kept.sweeps sweep (List.mem_of_getElem? here)).remaining
  | drop call outcome =>
    cases here : state.sweeps[call]? with
    | none => simpa only [State.step, here] using kept
    | some sweep =>
      have known := kept.sweeps sweep (List.mem_of_getElem? here)
      simp only [State.step, here]
      cases listed : sweep.stillReferenced with
      | none => exact kept
      | some stillReferenced =>
        cases staged : sweep.staging with
        | some target => exact kept
        | none =>
          cases due : sweep.remaining with
          | nil => exact kept
          | cons entry remaining =>
            have later : ∀ other ∈ remaining, NamesDestination other := fun other among =>
              known.remaining other (due ▸ List.mem_cons_of_mem _ among)
            cases drops : dropTarget stillReferenced entry with
            | none =>
              simp only [drops]
              exact kept.setSweep here rfl ⟨fun keys same => known.listed keys (listed.trans same),
                fun _ => known.unseen (by rw [listed]; rfl), later⟩
            | some target =>
              simp only [drops]
              have next : State.nextDrop sweep = some target := by
                rw [State.nextDrop, listed, staged, due]
                exact drops
              have spared := dropTarget_key (known.remaining entry (due ▸ List.mem_cons_self ..)) drops
              have free : outcome.took = true → ∀ id, ¬ state.Holds id target := by
                rintro took id holds
                refine harmless sweep here target next took id ?_ holds
                rcases holds with ⟨record, member, rfl, ready, alive, keyed, among, names⟩ |
                  ⟨run, active, rfl, -⟩
                · by_contra notUnseen
                  have apart : record.id ≠ sweep.id := fun same =>
                    alive ⟨sweep, List.mem_of_getElem? here, same.symm⟩
                  exact spared (known.listed _ listed record member ready apart notUnseen keyed
                    among target (HeldEntry.target_eq_some.mp names).2)
                · exact known.unseen (by rw [listed]; rfl) run active
              have dropped := kept.without free
              exact dropped.setSweep here rfl ⟨fun keys same => known.listed keys (listed.trans same),
                fun _ => known.unseen (by rw [listed]; rfl), later⟩
  | dropStaging call outcome =>
    cases here : state.sweeps[call]? with
    | none => simpa only [State.step, here] using kept
    | some sweep =>
      have known := kept.sweeps sweep (List.mem_of_getElem? here)
      simp only [State.step, here]
      cases staged : sweep.staging with
      | none => exact kept
      | some target =>
        have dropped := kept.without (harmless sweep here target staged)
        exact dropped.setSweep here rfl ⟨known.listed, known.unseen, known.remaining⟩
  | finish call =>
    cases here : state.sweeps[call]? with
    | none => simpa only [State.step, here] using kept
    | some sweep =>
      simp only [State.step, here]
      split_ifs
      · refine ⟨?_, kept.held, ?_, kept.carried, kept.instructed, ?_⟩
        · intro record member ready alive
          obtain ⟨among, other⟩ := List.mem_filter.mp member
          refine kept.safe record among ready ?_
          rintro ⟨deleting, going, same⟩
          refine alive ⟨deleting, ?_, same⟩
          obtain ⟨index, found⟩ := List.mem_iff_getElem?.mp going
          refine List.mem_eraseIdx_iff_getElem?.mpr ⟨index, ?_, found⟩
          rintro rfl
          obtain rfl := Option.some.inj (found.symm.trans here)
          simp [same] at other
        · intro record member
          exact kept.recorded record (List.mem_filter.mp member).1
        · intro other member
          obtain ⟨listed, unseen, remaining⟩ := kept.sweeps other (List.mem_of_mem_eraseIdx member)
          refine ⟨?_, unseen, remaining⟩
          intro keys known record among
          exact listed keys known record (List.mem_filter.mp among).1
      · exact kept

/-- Every state that harmless steps lead to is kept. -/
theorem Reached.kept {tables : List PhysicalTarget} (reached : Reached tables state) :
    Kept state := by
  induction reached with
  | start => exact kept_initial tables
  | step action _ harmless ih => exact ih.step action harmless

/-! ## Steps that do harm -/

/-! ## Every state -/

/-- Whatever harmless steps of builds and deletions lead to, every table that a ready run names
is there, unless the run is being deleted. -/
theorem Reached.safe {tables : List PhysicalTarget} (reached : Reached tables state) :
    state.Safe :=
  reached.kept.safe

end Steps

/-- A source `orders`, built into its own warehouse. -/
def orders : Serving.PersistSource where
  name := "orders"
  sourceEntityId := some "a1"
  origin := .persist
  connectionName := "warehouse"
  declaredStorage := none
  tableName := "orders"
  columns := []
  eligible := true
  colocatable := true
  deltaEligible := false

/-- A first run has built `orders`, and a second one carries it. -/
def carrying : State :=
  [.start, .derive true none false [orders], .build orders .built, .commit, .start,
    .derive true none false [orders]].foldl State.step (initial [])

/-- The second run is committed before the first is deleted, and keeps its table. -/
theorem committedFirst_safe :
    (((carrying.step .commit).step (.beginDelete 0 true)).step (.list 0)).Safe :=
  @Reached.safe _ [] <|
    .step (.list 0) (.step (.beginDelete 0 true) (.step .commit
      (.step (.derive true none false [orders]) (.step .start (.step .commit
        (.step (.build orders .built) (.step (.derive true none false [orders])
          (.step .start .start trivial) trivial) trivial) trivial) trivial) trivial) trivial)
      trivial) trivial

/-- The first run is deleted while the second one is under way: it is committed with a table
that was dropped. -/
theorem deletedMeanwhile_not_safe : ∃ actions : List Action,
    ¬ (actions.foldl State.step carrying).Safe := by
  refine ⟨[.beginDelete 0 true, .list 0, .drop 0 .done, .dropStaging 0 .done, .finish 0,
    .commit], ?_⟩
  unfold State.Safe State.BeingDeleted
  decide +kernel

end MalloyPublisher.Materialization
