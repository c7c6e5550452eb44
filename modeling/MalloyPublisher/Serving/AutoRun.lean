import MalloyPublisher.Foundations.CheckedFold
import MalloyPublisher.Serving.AutoLoad

/-!
# Automatic runs

An automatic run instructs itself. It makes one table for each content address among the
persisted sources of a package, named by the first source at that address, unless it can
carry a table of an earlier run forward. Then it goes over the same sources again, and
builds each one whose address is instructed and whose table the run has not written yet.

## Main definitions

* `deriveSelfInstructions` — what a run builds, and what it carries
* `buildSources` — its builds in order
* `AutoRun` — an automatic run over the persisted sources of a package
* `BuildRun.storedAt` — the content address whose rows a table holds after a run

## Main results

* `AutoRun.current` — where each table is named for one content address, the entries a run
  commits are as the declarations have them, each over the rows of its address
-/

namespace MalloyPublisher.Serving

open Foundations

/-! ## What a run is told -/

/-- A persisted source: one that a model marks, or a rollup that was synthesized. -/
structure PersistSource where
  name : String
  /-- The content address, where the source's SQL can be read. -/
  sourceEntityId : Option String
  origin : BindingOrigin
  connectionName : String
  declaredStorage : Option String
  /-- The table's name: `name=`, or else the source's. -/
  tableName : String
  /-- The columns its table has where this source is the one that is built. -/
  columns : List Column
  /-- Whether the storage tier admits it. -/
  eligible : Bool
  /-- Whether its gates admit it to its own warehouse. -/
  colocatable : Bool
  /-- Whether a delta can refresh its table. -/
  deltaEligible : Bool
  deriving DecidableEq

/-- What is built for one content address. -/
structure BuildInstruction where
  sourceEntityId : String
  materializedTableId : String
  physicalTableName : String
  destination : Option String
  deriving DecidableEq

/-- What a run is asked for, and the entries of the run before it. They come through a reader
that drops failures. -/
structure RunOptions where
  /-- Whether `PERSIST_STORAGE_MODE` is other than `off`. -/
  storageOn : Bool
  sourceNames : Option (List String)
  priorEntries : ManifestEntries
  priorClean : ∀ keyed ∈ priorEntries, isLegacyFailedEntry keyed.2 = false

/-- The destination a source is stored in. -/
def resolveStorageDestination (storageOn : Bool) (source : PersistSource) : Option String :=
  if storageOn then source.declaredStorage else none

/-- The answer of the gate a source meets before its SQL is read. -/
inductive Admission
  | admitted
  | skipped
  | refused
  deriving DecidableEq

/-- A refused source ends the run, unless it is a rollup headed for a destination. -/
def PersistSource.admission (source : PersistSource) : Option String → Admission
  | some _ =>
    if source.eligible then .admitted
    else if source.origin = .preaggregate then .skipped
    else .refused
  | none => if source.colocatable then .admitted else .refused

/-- The entry a source's address keeps from the run before, if it landed where the source is
stored now. What a delta can refresh is not carried. -/
def carriedEntry (options : RunOptions) (source : PersistSource) (sourceEntityId : String) :
    Option ManifestEntry :=
  if source.deltaEligible then none
  else (options.priorEntries.lookup sourceEntityId).filter fun prior =>
    (filled prior.physicalTableName).isSome &&
      prior.storageDestinationName = resolveStorageDestination options.storageOn source

/-- What a run has decided so far. -/
structure SelfInstructions where
  instructions : List BuildInstruction
  carried : ManifestEntries
  seen : List String

/-- The instruction that a source gives for its address. -/
def selfInstruction (options : RunOptions) (source : PersistSource) (sourceEntityId : String) :
    BuildInstruction where
  sourceEntityId := sourceEntityId
  materializedTableId := "local-" ++ String.ofList (sourceEntityId.toList.take 12)
  physicalTableName := source.tableName
  destination := resolveStorageDestination options.storageOn source

/-- Decide one source. The error names the source that ends the run. -/
def instructSource (options : RunOptions) (state : SelfInstructions) (source : PersistSource) :
    Except PersistSource SelfInstructions :=
  if options.sourceNames.any (source.name ∉ ·) then .ok state
  else if !options.storageOn && source.declaredStorage.isSome then .ok state
  else
    match source.admission (resolveStorageDestination options.storageOn source),
        source.sourceEntityId with
    | .skipped, _ => .ok state
    | .refused, _ => .error source
    | .admitted, none => .error source
    | .admitted, some sourceEntityId =>
      if sourceEntityId ∈ state.seen then .ok state
      else
        match carriedEntry options source sourceEntityId with
        | some prior => .ok { state with
            carried := state.carried ++ [(sourceEntityId, prior)]
            seen := sourceEntityId :: state.seen }
        | none => .ok { state with
            instructions := state.instructions ++ [selfInstruction options source sourceEntityId]
            seen := sourceEntityId :: state.seen }

/-- What a run builds, and what it carries. -/
def deriveSelfInstructions (options : RunOptions) (sources : List PersistSource) :
    Except PersistSource SelfInstructions :=
  sources.foldlM (instructSource options) { instructions := [], carried := [], seen := [] }

/-! ## What a run builds -/

/-- Where a table is. -/
inductive PhysicalTarget
  | destination (name table : String)
  | connection (name table : String)
  deriving DecidableEq

def physicalTargetKey (instruction : BuildInstruction) (connectionName : String) :
    PhysicalTarget :=
  match instruction.destination with
  | some destination => .destination destination instruction.physicalTableName
  | none => .connection connectionName instruction.physicalTableName

/-- The entry a source leaves that was built as instructed. -/
def builtEntry (source : PersistSource) (instruction : BuildInstruction) : ManifestEntry where
  sourceEntityId := instruction.sourceEntityId
  sourceName := some source.name
  materializedTableId := some instruction.materializedTableId
  physicalTableName := some instruction.physicalTableName
  connectionName := some source.connectionName
  storageDestinationName := instruction.destination
  schema := instruction.destination.map fun _ =>
    source.columns.map fun column => (some column.name, some column.type)
  origin := if source.origin = .preaggregate then some .preaggregate else none
  dataAsOf := none
  freshnessWindowSeconds := none
  freshnessFallback := none
  error := none

/-- What is kept of a source that was to be built as instructed, and failed. -/
def failedBuild (source : PersistSource) (instruction : BuildInstruction) (reason : String) :
    FailedBuild where
  sourceName := source.name
  physicalTableName := instruction.physicalTableName
  materializedTableId := some instruction.materializedTableId
  reason := reason

/-- How far a run's builds have come. -/
structure BuildLoop where
  writtenTargets : List (PhysicalTarget × String)
  builds : List (String × SourceBuild)

section Build

-- The reason a build fails for, by its number in the run; `none` where it succeeds.
variable (instructions : List BuildInstruction) (fails : ℕ → Option String)

/-- The reason the next build fails for. A source that declares a destination is not built
into its own warehouse. -/
def failureReason (loop : BuildLoop) (source : PersistSource) (instruction : BuildInstruction) :
    Option String :=
  if source.declaredStorage.isSome && instruction.destination.isNone then
    some ("Source '" ++ source.name ++ "' declares a storage destination, but the build was " ++
      "instructed with none")
  else fails loop.builds.length

/-- Build one source. The error names the source that ends the run. -/
def buildSource (loop : BuildLoop) (source : PersistSource) : Except PersistSource BuildLoop :=
  match source.sourceEntityId with
  | none => .ok loop
  | some sourceEntityId =>
    match instructions.find? (·.sourceEntityId = sourceEntityId) with
    | none => .ok loop
    | some instruction =>
      if !source.colocatable || (instruction.destination.isSome && !source.eligible) then
        .error source
      else
        let target := physicalTargetKey instruction source.connectionName
        if loop.writtenTargets.lookup target = some sourceEntityId then .ok loop
        else
          match failureReason fails loop source instruction with
          | some reason => .ok { loop with
              builds := loop.builds ++
                [(sourceEntityId, .failed (failedBuild source instruction reason))] }
          | none => .ok {
              writtenTargets := (target, sourceEntityId) :: loop.writtenTargets
              builds := loop.builds ++ [(sourceEntityId, .built (builtEntry source instruction))] }

/-- The builds of a run in order. -/
def buildSources (sources : List PersistSource) : Except PersistSource BuildLoop :=
  sources.foldlM (buildSource instructions fails) { writtenTargets := [], builds := [] }

end Build

/-! ## What the two loops come to -/

/-- What is known of a run's decisions. -/
structure InstructedFrom (options : RunOptions) (sources : List PersistSource)
    (state : SelfInstructions) : Prop where
  leads : ∀ instruction ∈ state.instructions, ∃ lead ∈ sources,
    lead.sourceEntityId = some instruction.sourceEntityId ∧
      instruction = selfInstruction options lead instruction.sourceEntityId
  carried : ∀ keyed ∈ state.carried, keyed ∈ options.priorEntries
  keys : (state.carried.map Prod.fst).Nodup
  seen : ∀ keyed ∈ state.carried, keyed.1 ∈ state.seen

section Instructed

variable {options : RunOptions} {sources : List PersistSource} {state state' : SelfInstructions}
  {source : PersistSource}

theorem carriedEntry_mem {sourceEntityId : String} {prior : ManifestEntry}
    (carried : carriedEntry options source sourceEntityId = some prior) :
    (sourceEntityId, prior) ∈ options.priorEntries := by
  unfold carriedEntry at carried
  split_ifs at carried
  obtain ⟨before, after, split, -⟩ :=
    List.lookup_eq_some_iff.mp (Option.filter_eq_some_iff.mp carried).1
  rw [split]
  exact List.mem_append_right _ (List.mem_cons_self ..)

/-- A decision on one source is one of three. -/
theorem instructSource_cases (decided : instructSource options state source = .ok state') :
    state' = state ∨
      ∃ sourceEntityId, source.sourceEntityId = some sourceEntityId ∧
        sourceEntityId ∉ state.seen ∧
        ((∃ prior, (sourceEntityId, prior) ∈ options.priorEntries ∧ state' = { state with
            carried := state.carried ++ [(sourceEntityId, prior)]
            seen := sourceEntityId :: state.seen }) ∨
          state' = { state with
            instructions := state.instructions ++ [selfInstruction options source sourceEntityId]
            seen := sourceEntityId :: state.seen }) := by
  unfold instructSource at decided
  split_ifs at decided
  · exact .inl (Except.ok.inj decided).symm
  · exact .inl (Except.ok.inj decided).symm
  · cases admitted : source.admission (resolveStorageDestination options.storageOn source) with
    | skipped => rw [admitted] at decided; exact .inl (Except.ok.inj decided).symm
    | refused => rw [admitted] at decided; cases decided
    | admitted =>
      cases address : source.sourceEntityId with
      | none => rw [admitted, address] at decided; cases decided
      | some sourceEntityId =>
        rw [admitted, address] at decided
        simp only at decided
        split_ifs at decided with known
        · exact .inl (Except.ok.inj decided).symm
        · cases carried : carriedEntry options source sourceEntityId with
          | some prior =>
            rw [carried] at decided
            exact .inr ⟨_, rfl, known, .inl ⟨prior, carriedEntry_mem carried,
              (Except.ok.inj decided).symm⟩⟩
          | none =>
            rw [carried] at decided
            exact .inr ⟨_, rfl, known, .inr (Except.ok.inj decided).symm⟩

theorem InstructedFrom.instructSource (known : InstructedFrom options sources state)
    (member : source ∈ sources) (decided : instructSource options state source = .ok state') :
    InstructedFrom options sources state' := by
  obtain rfl | ⟨sourceEntityId, address, fresh, ⟨prior, listed, rfl⟩ | rfl⟩ :=
    instructSource_cases decided
  · exact known
  · refine ⟨known.leads, fun keyed carried => ?_, ?_, fun keyed carried => ?_⟩
    · rcases List.mem_append.mp carried with earlier | here
      · exact known.carried keyed earlier
      · rw [List.mem_singleton.mp here]
        exact listed
    · rw [List.map_append, List.map_singleton, List.nodup_append]
      refine ⟨known.keys, by simp, fun key among other here same => fresh ?_⟩
      obtain ⟨keyed, carried, rfl⟩ := List.mem_map.mp among
      have here : keyed.1 = sourceEntityId := same.trans (List.mem_singleton.mp here)
      exact here ▸ known.seen keyed carried
    · rcases List.mem_append.mp carried with earlier | here
      · exact List.mem_cons_of_mem _ (known.seen keyed earlier)
      · rw [List.mem_singleton.mp here]
        exact List.mem_cons_self ..
  · refine ⟨fun instruction listed => ?_, known.carried, known.keys,
      fun keyed carried => List.mem_cons_of_mem _ (known.seen keyed carried)⟩
    rcases List.mem_append.mp listed with earlier | here
    · exact known.leads instruction earlier
    · rw [List.mem_singleton.mp here]
      exact ⟨source, member, address, rfl⟩

theorem instructedFrom_of_derives (derived : deriveSelfInstructions options sources = .ok state) :
    InstructedFrom options sources state := by
  refine foldlM_ok_induction ?_ (fun _ _ _ member known => known.instructSource member) derived
  exact ⟨fun _ listed => absurd listed List.not_mem_nil,
    fun _ listed => absurd listed List.not_mem_nil, List.nodup_nil,
    fun _ listed => absurd listed List.not_mem_nil⟩

end Instructed

/-- The sources that a run's builds build, and as they were instructed. -/
def BuiltFrom (instructions : List BuildInstruction) (sources : List PersistSource)
    (loop : BuildLoop) : Prop :=
  ∀ sourceEntityId entry, (sourceEntityId, SourceBuild.built entry) ∈ loop.builds →
    ∃ source ∈ sources, ∃ instruction ∈ instructions,
      source.sourceEntityId = some sourceEntityId ∧
        instruction.sourceEntityId = sourceEntityId ∧
        (instruction.destination.isSome = true → source.eligible = true) ∧
        source.colocatable = true ∧ entry = builtEntry source instruction

section Built

variable {instructions : List BuildInstruction} {fails : ℕ → Option String}
  {sources : List PersistSource} {loop loop' : BuildLoop} {source : PersistSource}

theorem BuiltFrom.buildSource (known : BuiltFrom instructions sources loop)
    (member : source ∈ sources) (built : buildSource instructions fails loop source = .ok loop') :
    BuiltFrom instructions sources loop' := by
  unfold Serving.buildSource at built
  cases address : source.sourceEntityId with
  | none => rw [address] at built; cases built; exact known
  | some sourceEntityId =>
    rw [address] at built
    simp only at built
    cases found : instructions.find? (·.sourceEntityId = sourceEntityId) with
    | none => rw [found] at built; cases built; exact known
    | some instruction =>
      rw [found] at built
      simp only at built
      split_ifs at built with refused written
      · cases built; exact known
      · have admitted : source.colocatable = true ∧
            (instruction.destination.isSome = true → source.eligible = true) := by
          simp only [Bool.or_eq_true, Bool.not_eq_true', Bool.and_eq_true, not_or, not_and,
            Bool.not_eq_false] at refused
          exact refused
        cases failed : failureReason fails loop source instruction with
        | some reason =>
          rw [failed] at built
          cases built
          intro other entry member
          rcases List.mem_append.mp member with earlier | here
          · exact known other entry earlier
          · cases List.mem_singleton.mp here
        | none =>
          rw [failed] at built
          cases built
          intro other entry among
          rcases List.mem_append.mp among with earlier | here
          · exact known other entry earlier
          · obtain ⟨rfl, same⟩ := Prod.mk.inj (List.mem_singleton.mp here)
            exact ⟨source, member, instruction, List.mem_of_find?_eq_some found, address,
              by simpa using List.find?_some found, admitted.2, admitted.1,
              SourceBuild.built.inj same⟩

theorem builtFrom_of_builds (built : buildSources instructions fails sources = .ok loop) :
    BuiltFrom instructions sources loop :=
  foldlM_ok_induction (fun _ _ among => absurd among List.not_mem_nil)
    (fun _ _ _ member known => known.buildSource member) built

end Built

/-! ## Automatic runs -/

/-- An automatic run over a package's sources, up to the entries it commits. -/
structure AutoRun (sources : List PersistSource) where
  options : RunOptions
  fails : ℕ → Option String
  instructed : SelfInstructions
  loop : BuildLoop
  derives : deriveSelfInstructions options sources = .ok instructed
  builds : buildSources instructed.instructions fails sources = .ok loop

namespace AutoRun

variable {sources : List PersistSource} (run : AutoRun sources)

theorem carried_clean (keyed : String × ManifestEntry) (carried : keyed ∈ run.instructed.carried) :
    isLegacyFailedEntry keyed.2 = false :=
  run.options.priorClean keyed ((instructedFrom_of_derives run.derives).carried keyed carried)

theorem built_clean (sourceEntityId : String) (entry : ManifestEntry)
    (member : (sourceEntityId, SourceBuild.built entry) ∈ run.loop.builds) :
    isLegacyFailedEntry entry = false := by
  obtain ⟨source, -, instruction, -, -, -, -, -, rfl⟩ :=
    builtFrom_of_builds run.builds sourceEntityId entry member
  rfl

/-- The run's builds over what it carries. -/
def buildRun : BuildRun where
  seedEntries := run.instructed.carried
  builds := run.loop.builds
  keys := (instructedFrom_of_derives run.derives).keys
  seeds := run.carried_clean
  built := run.built_clean

end AutoRun

/-! ## What the tables hold -/

/-- The table of a destination that an entry names. -/
def ManifestEntry.storedIn (entry : ManifestEntry) : Option PhysicalTarget :=
  match filled entry.storageDestinationName, filled entry.physicalTableName with
  | some destination, some table => some (.destination destination table)
  | _, _ => none

/-- The content address of whose rows a table holds once a run is over: that of the last
source built into it, or else the one it held before. -/
def BuildRun.storedAt (run : BuildRun) (before : PhysicalTarget → Option String)
    (target : PhysicalTarget) : Option String :=
  (run.builds.reverse.findSome? fun keyed =>
    match keyed.2 with
    | .built entry => if entry.storedIn = some target then some keyed.1 else none
    | .failed _ => none).or (before target)

/-- A table that the declarations name for a content address. -/
def NamesTable (sources : List PersistSource) (sourceEntityId : String) (target : PhysicalTarget) :
    Prop :=
  ∃ lead ∈ sources, ∃ destination, lead.sourceEntityId = some sourceEntityId ∧
    lead.declaredStorage = some destination ∧ target = .destination destination lead.tableName

/-- No table is named for two content addresses. -/
def OneContent (sources : List PersistSource) : Prop :=
  ∀ target first second, NamesTable sources first target → NamesTable sources second target →
    first = second

/-- The captured columns that have both a name and a type. -/
def PersistSource.captured (source : PersistSource) : List Column :=
  source.columns.filter fun column => column.name ≠ "" && column.type ≠ ""

/-- An entry as the declarations have it: one of them names its table, and one of the same
address built it. -/
structure RecordedFor (sources : List PersistSource) (sourceEntityId : String)
    (entry : ManifestEntry) (target : PhysicalTarget) : Prop where
  named : NamesTable sources sourceEntityId target
  builder : ∃ source ∈ sources, source.sourceEntityId = some sourceEntityId ∧
    source.eligible = true ∧ source.colocatable = true ∧ entry.sourceName = some source.name ∧
    entry.columns = source.captured ∧
    (if entry.origin = some .preaggregate then BindingOrigin.preaggregate else .persist) =
      source.origin

/-- Entries as the declarations have them, each over the rows of its address. -/
def Current (sources : List PersistSource) (entries : ManifestEntries)
    (stored : PhysicalTarget → Option String) : Prop :=
  ∀ sourceEntityId entry target, (sourceEntityId, entry) ∈ entries →
    entry.storedIn = some target →
      RecordedFor sources sourceEntityId entry target ∧ stored target = some sourceEntityId

section Stored

variable {sources : List PersistSource} {target : PhysicalTarget} {sourceEntityId : String}
  {entry : ManifestEntry}

theorem ManifestEntry.storedIn_eq_some_iff : entry.storedIn = some target ↔
    ∃ destination table, filled entry.storageDestinationName = some destination ∧
      filled entry.physicalTableName = some table ∧ target = .destination destination table := by
  unfold ManifestEntry.storedIn
  cases filled entry.storageDestinationName <;> cases filled entry.physicalTableName <;>
    simp [eq_comm]

theorem builtEntry_columns {source : PersistSource} {instruction : BuildInstruction}
    (stored : instruction.destination.isSome = true) :
    (builtEntry source instruction).columns = source.captured := by
  obtain ⟨destination, here⟩ := Option.isSome_iff_exists.mp stored
  simp only [ManifestEntry.columns, builtEntry, here, Option.map_some, Option.getD_some,
    List.filterMap_map, PersistSource.captured]
  induction source.columns with
  | nil => rfl
  | cons column columns ih =>
    rw [List.filterMap_cons, List.filter_cons, ih]
    by_cases named : column.name = "" <;> by_cases typed : column.type = "" <;>
      simp [named, typed, filled_some]

/-- What is built into a destination is recorded as the declarations have it. -/
theorem AutoRun.recordedFor_of_built (run : AutoRun sources)
    (member : (sourceEntityId, SourceBuild.built entry) ∈ run.loop.builds)
    (stored : entry.storedIn = some target) : RecordedFor sources sourceEntityId entry target := by
  obtain ⟨source, among, instruction, listed, address, rfl, eligible, colocatable, rfl⟩ :=
    builtFrom_of_builds run.builds sourceEntityId entry member
  obtain ⟨destination, table, into, named, rfl⟩ := ManifestEntry.storedIn_eq_some_iff.mp stored
  obtain ⟨into, -⟩ := filled_eq_some.mp into
  obtain ⟨named, -⟩ := filled_eq_some.mp named
  have isStored : instruction.destination.isSome = true := Option.isSome_iff_exists.mpr ⟨_, into⟩
  obtain ⟨lead, leads, same, instructed⟩ :=
    (instructedFrom_of_derives run.derives).leads instruction listed
  refine ⟨⟨lead, leads, destination, same, ?_, ?_⟩, source, among, address, eligible isStored,
    colocatable, rfl, builtEntry_columns isStored, ?_⟩
  · have resolved : resolveStorageDestination run.options.storageOn lead = some destination := by
      rw [← into, instructed]
      rfl
    unfold resolveStorageDestination at resolved
    split_ifs at resolved
    exact resolved
  · have table : instruction.physicalTableName = lead.tableName := by
      rw [instructed]
      rfl
    rw [← table, ← Option.some.inj named]
  · cases origin : source.origin <;> simp [builtEntry, origin]

/-- A table holds what it held before, or what a build of the run put there. -/
theorem BuildRun.storedAt_cases (run : BuildRun) (before : PhysicalTarget → Option String)
    (target : PhysicalTarget) :
    (∃ sourceEntityId entry, (sourceEntityId, SourceBuild.built entry) ∈ run.builds ∧
        entry.storedIn = some target ∧ run.storedAt before target = some sourceEntityId) ∨
      (∀ sourceEntityId entry, (sourceEntityId, SourceBuild.built entry) ∈ run.builds →
        entry.storedIn ≠ some target) ∧ run.storedAt before target = before target := by
  unfold BuildRun.storedAt
  cases found : run.builds.reverse.findSome? fun keyed =>
    match keyed.2 with
    | .built entry => if entry.storedIn = some target then some keyed.1 else none
    | .failed _ => none with
  | some sourceEntityId =>
    obtain ⟨⟨other, build⟩, member, answers⟩ := List.exists_of_findSome?_eq_some found
    cases build with
    | failed failure => cases answers
    | built entry =>
      simp only at answers
      split_ifs at answers with stored
      cases answers
      exact .inl ⟨_, entry, List.mem_reverse.mp member, stored, rfl⟩
  | none =>
    refine .inr ⟨fun sourceEntityId entry member stored => ?_, rfl⟩
    have silent := List.findSome?_eq_none_iff.mp found _ (List.mem_reverse.mpr member)
    simp [stored] at silent

/-- After an automatic run the committed entries are as the declarations have them, each over
the rows of its address. -/
theorem AutoRun.current (run : AutoRun sources) (oneContent : OneContent sources)
    {before : PhysicalTarget → Option String}
    (prior : Current sources run.options.priorEntries before) :
    Current sources run.buildRun.entries (run.buildRun.storedAt before) := by
  intro sourceEntityId entry target member stored
  have recorded : RecordedFor sources sourceEntityId entry target ∧
      ((∃ other, (sourceEntityId, SourceBuild.built other) ∈ run.loop.builds ∧
        other.storedIn = some target) ∨ before target = some sourceEntityId) := by
    rcases mem_buildEntries.mp member with ⟨build, last, rfl⟩ | ⟨-, carried⟩
    · cases build with
      | failed failure => cases stored
      | built entry =>
        have built := mem_of_lastWrite last
        exact ⟨run.recordedFor_of_built built stored, .inl ⟨entry, built, stored⟩⟩
    · have listed := (instructedFrom_of_derives run.derives).carried _ carried
      obtain ⟨recorded, holds⟩ := prior sourceEntityId entry target listed stored
      exact ⟨recorded, .inr holds⟩
  refine ⟨recorded.1, ?_⟩
  rcases run.buildRun.storedAt_cases before target with
    ⟨other, there, built, into, holds⟩ | ⟨untouched, holds⟩
  · rw [holds, oneContent target other sourceEntityId
      (run.recordedFor_of_built built into).named recorded.1.named]
  · rw [holds]
    rcases recorded.2 with ⟨other, built, into⟩ | holds
    · exact absurd into (untouched sourceEntityId other built)
    · exact holds

end Stored

end MalloyPublisher.Serving
