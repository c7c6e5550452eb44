import MalloyPublisher.Foundations.KeyedRecord
import MalloyPublisher.Serving.ServeBindings

/-!
# Loading a manifest right after its run

A run commits the entries it carried forward, the entries it built, and, for the
deprecation window of the wire format, one entry for each source that failed: it names the
table the source was headed for, and an error. A reload splits the committed entries by tier
and drops those that record a failure. The load at the end of an automatic run splits the
same entries in a loop of its own, and does not.

## Main definitions

* `executeInstructedBuild` — the entries a run commits
* `autoLoadManifest`, `splitManifestEntries` — the two loops
* `RoutingAgrees` — they route alike, and no failed source is routed to its failed table

## Main results

* `mem_buildEntries` — what the committed entries hold for each source
* `routingAgrees_iff` — the two agree exactly when no source is left failed under a name
-/

namespace MalloyPublisher.Serving

open Foundations

/-! ## The entries of a run -/

/-- What is kept of a source that failed: the fields it was instructed with, and the
reason. -/
structure FailedBuild where
  sourceName : String
  physicalTableName : String
  materializedTableId : Option String
  reason : String
  deriving DecidableEq

/-- A failure as it is mirrored among the entries. -/
def FailedBuild.mirror (failure : FailedBuild) (sourceEntityId : String) : ManifestEntry where
  sourceEntityId := sourceEntityId
  sourceName := some failure.sourceName
  materializedTableId := failure.materializedTableId
  physicalTableName := some failure.physicalTableName
  connectionName := none
  storageDestinationName := none
  schema := none
  origin := none
  dataAsOf := none
  freshnessWindowSeconds := none
  freshnessFallback := none
  error := some failure.reason

/-- How the build of one source ended. -/
inductive SourceBuild
  | built (entry : ManifestEntry)
  | failed (failure : FailedBuild)

/-- The entry a build leaves. -/
def SourceBuild.entry (sourceEntityId : String) : SourceBuild → ManifestEntry
  | .built entry => entry
  | .failed failure => failure.mirror sourceEntityId

/-- Whether an entry records a failed source. -/
def isLegacyFailedEntry (entry : ManifestEntry) : Bool := (filled entry.error).isSome

/-- A run: the entries it is seeded with and its builds in order, by content address. The
seeds come through readers that drop failures, and an entry that was built records none. -/
structure BuildRun where
  seedEntries : ManifestEntries
  builds : List (String × SourceBuild)
  keys : (seedEntries.map Prod.fst).Nodup
  seeds : ∀ keyed ∈ seedEntries, isLegacyFailedEntry keyed.2 = false
  built : ∀ sourceEntityId entry, (sourceEntityId, SourceBuild.built entry) ∈ builds →
    isLegacyFailedEntry entry = false

/-- The writes of a run's builds. A failure overwrites whatever was seeded. -/
def BuildRun.writes (run : BuildRun) : ManifestEntries :=
  run.builds.map fun (sourceEntityId, build) => (sourceEntityId, build.entry sourceEntityId)

/-- The entries after a run's builds. -/
def BuildRun.entries (run : BuildRun) : ManifestEntries := writeAll run.seedEntries run.writes

/-- The failures of a run, with the names of their sources. -/
def BuildRun.failedReasons (run : BuildRun) : List String :=
  run.builds.filterMap fun keyed =>
    match keyed.2 with
    | .built _ => none
    | .failed failure => some (failure.sourceName ++ ": " ++ failure.reason)

/-- Build the instructed sources. A run all of whose builds failed is an error. -/
def executeInstructedBuild (run : BuildRun) : Except String ManifestEntries :=
  if run.failedReasons.length = run.builds.length ∧ 0 < run.failedReasons.length then
    .error ("; ".intercalate run.failedReasons)
  else .ok run.entries

/-! ## The two loops -/

/-- A same-connection substitution: a table name, and the connection to quote it for. -/
structure TableNameEntry extends FreshnessAwareManifestEntry where
  connectionName : Option String
  deriving DecidableEq

/-- A manifest split by tier. -/
structure FetchedManifest where
  tableNameManifest : List (String × TableNameEntry)
  storageEntries : ManifestEntries

/-- The tier an entry belongs to. -/
inductive Tier
  | skipped
  | stored
  | colocated (entry : TableNameEntry)

/-- The tier of one entry, as a reload reads it. -/
def splitEntry (entry : ManifestEntry) : Tier :=
  if isLegacyFailedEntry entry then .skipped
  else
    match filled entry.physicalTableName with
    | none => .skipped
    | some physicalTableName =>
      if (filled entry.storageDestinationName).isSome then .stored
      else .colocated {
        tableName := physicalTableName
        connectionName := entry.connectionName
        dataAsOf := entry.dataAsOf
        freshnessWindowSeconds := entry.freshnessWindowSeconds
        freshnessFallback := entry.freshnessFallback }

/-- The colocated entry of a tier. -/
def Tier.tableName? : Tier → Option TableNameEntry
  | .colocated entry => some entry
  | _ => none

/-- Whether a tier is the stored one. -/
def Tier.isStored : Tier → Bool
  | .stored => true
  | _ => false

/-- Split a manifest's entries by tier. -/
def splitManifestEntries (entries : ManifestEntries) : FetchedManifest where
  tableNameManifest := entries.filterMap fun keyed =>
    (splitEntry keyed.2).tableName?.map (keyed.1, ·)
  storageEntries := entries.filter fun keyed => (splitEntry keyed.2).isStored

/-- The substitution the load after a run makes of an entry. It is bound without freshness. -/
def autoLoadEntry (entry : ManifestEntry) : Option TableNameEntry :=
  match filled entry.physicalTableName, filled entry.storageDestinationName with
  | some physicalTableName, none => some {
      tableName := physicalTableName
      connectionName := entry.connectionName
      dataAsOf := none
      freshnessWindowSeconds := none
      freshnessFallback := none }
  | _, _ => none

/-- Load a run's entries into the package: the colocated ones as substitutions, and all of
them as what storage bindings are derived from. -/
def autoLoadManifest (entries : ManifestEntries) : FetchedManifest where
  tableNameManifest := entries.filterMap fun keyed => (autoLoadEntry keyed.2).map (keyed.1, ·)
  storageEntries := entries

/-! ## Routing -/

/-- The substitutions of a load: source entity id, table, and connection. -/
def FetchedManifest.substitutions (fetched : FetchedManifest) :
    List (String × String × Option String) :=
  fetched.tableNameManifest.map fun keyed =>
    (keyed.1, keyed.2.tableName, keyed.2.connectionName)

/-- Whether a storage binding is derived from an entry. -/
def ManifestEntry.bindsStorage (entry : ManifestEntry) : Bool :=
  (filled entry.sourceName).isSome && (filled entry.storageDestinationName).isSome &&
    (filled entry.physicalTableName).isSome && !entry.columns.isEmpty

/-- The storage entries a load binds. -/
def FetchedManifest.boundStorage (fetched : FetchedManifest) : ManifestEntries :=
  fetched.storageEntries.filter fun keyed => keyed.2.bindsStorage

/-- The sources a run leaves failed: their last build in the run failed. -/
def BuildRun.LeavesFailed (run : BuildRun) (sourceEntityId : String) (failure : FailedBuild) :
    Prop :=
  lastWrite run.builds sourceEntityId = some (.failed failure)

/-- Routing right after a run is the routing a reload restores from what it committed, and no
source that was left failed is routed to the table it was headed for. -/
structure RoutingAgrees (run : BuildRun) (entries : ManifestEntries) : Prop where
  substitutions : ∀ substitution,
    substitution ∈ (autoLoadManifest entries).substitutions ↔
      substitution ∈ (splitManifestEntries entries).substitutions
  storage : ∀ keyed,
    keyed ∈ (autoLoadManifest entries).boundStorage ↔
      keyed ∈ (splitManifestEntries entries).boundStorage
  failedUnrouted : ∀ sourceEntityId failure, run.LeavesFailed sourceEntityId failure →
    (∀ connection, (sourceEntityId, failure.physicalTableName, connection) ∉
      (autoLoadManifest entries).substitutions) ∧
    ∀ entry, (sourceEntityId, entry) ∉ (autoLoadManifest entries).boundStorage

/-! ## What the committed entries hold -/

section Committed

variable {run : BuildRun} {sourceEntityId : String} {entry : ManifestEntry}

/-- A source's committed entry is that of its last build, or the one the run was seeded
with. -/
theorem mem_buildEntries :
    (sourceEntityId, entry) ∈ run.entries ↔
      (∃ build, lastWrite run.builds sourceEntityId = some build ∧
        build.entry sourceEntityId = entry) ∨
      lastWrite run.builds sourceEntityId = none ∧ (sourceEntityId, entry) ∈ run.seedEntries := by
  have written : lastWrite run.writes sourceEntityId =
      (lastWrite run.builds sourceEntityId).map (SourceBuild.entry sourceEntityId) :=
    lastWrite_map (fun id build => SourceBuild.entry id build) run.builds sourceEntityId
  rw [BuildRun.entries, mem_writeAll run.keys, written]
  simp

/-- An entry that was left by a failure is its mirror; the others record none. -/
theorem buildEntries_cases (member : (sourceEntityId, entry) ∈ run.entries) :
    isLegacyFailedEntry entry = false ∨
      ∃ failure, run.LeavesFailed sourceEntityId failure ∧
        entry = failure.mirror sourceEntityId := by
  rcases mem_buildEntries.mp member with ⟨build, last, rfl⟩ | ⟨-, seeded⟩
  · cases build with
    | built entry => exact .inl (run.built _ _ (mem_of_lastWrite last))
    | failed failure => exact .inr ⟨failure, last, rfl⟩
  · exact .inl (run.seeds _ seeded)

/-- Both loops read the entries one by one. -/
theorem mem_substitutions {entries stored : ManifestEntries}
    (read : ManifestEntry → Option TableNameEntry) {table : String} {connection : Option String} :
    (sourceEntityId, table, connection) ∈ FetchedManifest.substitutions
        ⟨entries.filterMap fun keyed => (read keyed.2).map (keyed.1, ·), stored⟩ ↔
      ∃ entry, (sourceEntityId, entry) ∈ entries ∧
        ∃ bound, read entry = some bound ∧ bound.tableName = table ∧
          bound.connectionName = connection := by
  simp only [FetchedManifest.substitutions, List.mem_map, List.mem_filterMap,
    Option.map_eq_some_iff, Prod.mk.injEq]
  constructor
  · rintro ⟨_, ⟨⟨_, entry⟩, member, bound, read, rfl⟩, rfl, table, connection⟩
    exact ⟨entry, member, bound, read, table, connection⟩
  · rintro ⟨entry, member, bound, read, table, connection⟩
    exact ⟨_, ⟨_, member, bound, read, rfl⟩, rfl, table, connection⟩

/-- The two loops make the same substitution of an entry that records no failure, but for
its freshness. -/
theorem splitEntry_of_clean (clean : isLegacyFailedEntry entry = false) :
    (splitEntry entry).tableName?.map (fun bound => (bound.tableName, bound.connectionName)) =
        (autoLoadEntry entry).map (fun bound => (bound.tableName, bound.connectionName)) ∧
      (entry.bindsStorage = true → (splitEntry entry).isStored = true) := by
  simp only [splitEntry, autoLoadEntry, clean, ManifestEntry.bindsStorage]
  cases named : filled entry.physicalTableName <;>
    cases stored : filled entry.storageDestinationName <;> simp [Tier.tableName?, Tier.isStored]

variable (sourceEntityId) in
/-- A failure without a table name is routed by neither loop. -/
theorem mirror_unrouted {failure : FailedBuild} (unnamed : failure.physicalTableName = "") :
    autoLoadEntry (failure.mirror sourceEntityId) = none ∧
      (splitEntry (failure.mirror sourceEntityId)).tableName? = none := by
  have absent : filled (failure.mirror sourceEntityId).physicalTableName = none := by
    simp [FailedBuild.mirror, unnamed]
  constructor
  · simp [autoLoadEntry, absent]
  · simp only [splitEntry, absent]
    split_ifs <;> rfl

theorem mirror_bindsStorage {failure : FailedBuild} :
    (failure.mirror sourceEntityId).bindsStorage = false := by
  simp [ManifestEntry.bindsStorage, FailedBuild.mirror]

variable (sourceEntityId) in
/-- The two loops route an entry alike when it records no failure, or a failure without a
table name. -/
theorem splitEntry_agrees
    (routable : isLegacyFailedEntry entry = false ∨ ∃ failure : FailedBuild,
      failure.physicalTableName = "" ∧ entry = failure.mirror sourceEntityId) :
    (splitEntry entry).tableName?.map (fun bound => (bound.tableName, bound.connectionName)) =
        (autoLoadEntry entry).map (fun bound => (bound.tableName, bound.connectionName)) ∧
      (entry.bindsStorage = true → (splitEntry entry).isStored = true) := by
  rcases routable with clean | ⟨failure, unnamed, rfl⟩
  · exact splitEntry_of_clean clean
  · obtain ⟨auto, split⟩ := mirror_unrouted sourceEntityId unnamed
    simp [auto, split, mirror_bindsStorage]

/-- Routing after a run is the routing a reload restores, exactly when each source the run
leaves failed was instructed without a table name. -/
theorem routingAgrees_iff {entries : ManifestEntries}
    (committed : executeInstructedBuild run = .ok entries) :
    RoutingAgrees run entries ↔
      ∀ sourceEntityId failure, run.LeavesFailed sourceEntityId failure →
        failure.physicalTableName = "" := by
  have entriesEq : entries = run.entries := by
    unfold executeInstructedBuild at committed
    split_ifs at committed
    exact (Except.ok.inj committed).symm
  subst entriesEq
  constructor
  · -- The mirror of a failure under a name is a substitution.
    rintro ⟨-, -, unrouted⟩ id failure left
    by_contra named
    refine (unrouted id failure left).1 none ((mem_substitutions _).mpr ?_)
    refine ⟨failure.mirror id, mem_buildEntries.mpr (.inl ⟨_, left, rfl⟩), ?_⟩
    simp [autoLoadEntry, FailedBuild.mirror, filled_some named]
  · intro unnamed
    have agrees (id : String) (entry : ManifestEntry) (member : (id, entry) ∈ run.entries) :=
      splitEntry_agrees id <| (buildEntries_cases member).imp_right
        fun ⟨failure, left, mirror⟩ => ⟨failure, unnamed id failure left, mirror⟩
    refine ⟨?_, ?_, ?_⟩
    · rintro ⟨id, table, connection⟩
      refine (mem_substitutions _).trans (Iff.trans ?_
        (mem_substitutions fun entry => (splitEntry entry).tableName?).symm)
      refine exists_congr fun entry => and_congr_right fun member => ?_
      have same := (agrees id entry member).1
      constructor
      · rintro ⟨bound, read, rfl, rfl⟩
        rw [read] at same
        simpa [Option.map_eq_some_iff] using same
      · rintro ⟨bound, read, rfl, rfl⟩
        rw [read] at same
        simpa [Option.map_eq_some_iff, eq_comm] using same
    · rintro ⟨id, entry⟩
      simp only [FetchedManifest.boundStorage, autoLoadManifest, splitManifestEntries,
        List.mem_filter]
      constructor
      · rintro ⟨member, binds⟩
        exact ⟨⟨member, (agrees id entry member).2 binds⟩, binds⟩
      · rintro ⟨⟨member, -⟩, binds⟩
        exact ⟨member, binds⟩
    · intro id failure left
      have only (entry : ManifestEntry) (member : (id, entry) ∈ run.entries) :
          entry = failure.mirror id := by
        rcases mem_buildEntries.mp member with ⟨build, last, rfl⟩ | ⟨never, -⟩
        · rw [Option.some.inj (last.symm.trans left)]
          rfl
        · exact absurd (never.symm.trans left) nofun
      constructor
      · intro connection member
        obtain ⟨entry, inside, bound, read, -⟩ := (mem_substitutions _).mp member
        rw [only entry inside, (mirror_unrouted id (unnamed id failure left)).1] at read
        cases read
      · intro entry member
        obtain ⟨inside, binds⟩ := List.mem_filter.mp member
        rw [only entry inside, mirror_bindsStorage] at binds
        cases binds

end Committed

/-! ## A run that loses a source -/

section PartialRun

/-- A table built in its source's own warehouse. -/
def ordersEntry : ManifestEntry where
  sourceEntityId := "e1"
  sourceName := some "orders"
  materializedTableId := none
  physicalTableName := some "orders_v1"
  connectionName := some "warehouse"
  storageDestinationName := none
  schema := none
  origin := none
  dataAsOf := none
  freshnessWindowSeconds := none
  freshnessFallback := none
  error := none

/-- A failure of the warehouse, which a run with another source survives. -/
def dailyFailure : FailedBuild where
  sourceName := "daily"
  physicalTableName := "daily_v1"
  materializedTableId := none
  reason := "permission denied"

/-- The builds of a run that loses one source of two. -/
def partialBuilds : List (String × SourceBuild) :=
  [("e1", .built ordersEntry), ("e2", .failed dailyFailure)]

theorem partialBuilds_built (sourceEntityId : String) (entry : ManifestEntry)
    (member : (sourceEntityId, SourceBuild.built entry) ∈ partialBuilds) :
    isLegacyFailedEntry entry = false := by
  have only : entry = ordersEntry := by
    simp only [partialBuilds, List.mem_cons, List.not_mem_nil, or_false, Prod.mk.injEq,
      SourceBuild.built.injEq, reduceCtorEq, and_false] at member
    exact member.2
  rw [only, isLegacyFailedEntry, ordersEntry, filled_none, Option.isSome_none]

/-- A run that builds one source of two. -/
def partialRun : BuildRun where
  seedEntries := []
  builds := partialBuilds
  keys := List.nodup_nil
  seeds := fun _ member => absurd member List.not_mem_nil
  built := partialBuilds_built

theorem partialRun_committed : executeInstructedBuild partialRun = .ok partialRun.entries := by
  simp [executeInstructedBuild, BuildRun.failedReasons, partialRun, partialBuilds]

theorem partialRun_routingAgrees_iff :
    RoutingAgrees partialRun partialRun.entries ↔
      ∀ sourceEntityId failure, partialRun.LeavesFailed sourceEntityId failure →
        failure.physicalTableName = "" :=
  routingAgrees_iff partialRun_committed

/-- After a run that failed to build `daily`, the name of its old table is bound again. -/
theorem partialRun_routes_failed :
    ¬ ∀ run entries, executeInstructedBuild run = .ok entries → RoutingAgrees run entries := by
  intro agrees
  obtain ⟨substitutions, -, -⟩ := agrees partialRun partialRun.entries partialRun_committed
  have bound : ("e2", "daily_v1", none) ∈ (autoLoadManifest partialRun.entries).substitutions := by
    decide +kernel
  have dropped :
      ("e2", "daily_v1", none) ∉ (splitManifestEntries partialRun.entries).substitutions := by
    decide +kernel
  exact dropped ((substitutions _).mp bound)

end PartialRun

end MalloyPublisher.Serving
