import MalloyPublisher.Materialization.InstructedBuild

/-!
# The books of an instructed run

A run goes over the sources of its graphs and keeps books of them: the entries it will commit, the
failures, the targets it has written, what was built and why what was not was not. Before it writes
anything it looks for two definitions that claim one table. One failing source does not end it; what
does is a cancellation, a connection that is missing, a refusal, or that nothing was built.

## Main definitions

* `GraphRun.executeInstructedBuild` — the run, with its books or what it throws
* `Balanced` — failures go with the entries that carry an error, what was written is named, and one
  target is written once
* `RunError.Justified` — what ends a run

## Main results

* `Entered.book` — what entering a build keeps of the books
* `balanced_of_run` — the books of a run that returns, and what one that throws was ended by
-/

namespace MalloyPublisher.Materialization

open Foundations
open Serving (ManifestEntry ManifestEntries filled FailedBuild PhysicalTarget)

/-! ## The run -/

/-- The sources of one model on one connection. -/
structure BuildGraph where
  connectionName : String
  sources : List GraphSource

/-- A run over graphs. Its seeds are of sources that were built. -/
structure GraphRun extends InstructedRun where
  graphs : List BuildGraph
  ofGraphs : sources = graphs.flatMap BuildGraph.sources
  healthy : ∀ keyed ∈ seedEntries, keyed.2.error = none
  persistCollisionEnforce : Bool
  /-- Whether the run is cancelled when it comes to a source, by how many it came to before. -/
  cancelled : ℕ → Bool

/-- A failure as it is reported. -/
structure SourceFailure where
  sourceEntityId : String
  sourceName : String
  materializedTableId : String
  physicalTableName : String
  reason : String
  connectionName : String
  storageDestinationName : Option String
  deriving DecidableEq

/-- One call of `buildOneSource`, with the table it was to write. -/
structure Build where
  address : String
  target : PhysicalTarget
  physicalTableName : String
  connectionName : String
  storageDestinationName : Option String
  succeeds : Bool
  deriving DecidableEq

/-- How far a run has come. `builds` records what was called, the latest first, and is not read. -/
structure Books where
  entries : ManifestEntries
  failures : List (String × SourceFailure)
  failedReasons : List String
  builtSources : List String
  writtenTargets : List (PhysicalTarget × String)
  visited : ℕ
  builds : List Build

/-- What a run throws. -/
inductive RunError
  | cancelled
  | connectionNotFound (connectionName : String)
  | ineligible (message : String)
  | collides (tables : List String)
  /-- The address of an instructed source cannot be computed. -/
  | unreadable (message : String)
  | nothingBuilt (books : Books)

/-- The two claims on a table and their collisions, as far as the sources have been looked at. -/
structure Claims where
  claimedBy : List (PhysicalTarget × String)
  collisions : List String

namespace GraphRun

variable (run : GraphRun)

/-- Claim the table of a source. One without a readable address claims none. -/
def claim (connectionName : String) (claims : Claims) (source : GraphSource) : Claims :=
  match source.computeSourceEntityId with
  | .error _ => claims
  | .ok address =>
    match (run.bySourceID source).or (run.bySourceEntityId address) with
    | none => claims
    | some instruction =>
      let target := InstructedRun.physicalTargetKey instruction connectionName
      match claims.claimedBy.lookup target with
      | none => { claims with claimedBy := (target, address) :: claims.claimedBy }
      | some claimed =>
        if claimed = address then claims
        else { claims with collisions := claims.collisions ++ [instruction.physicalTableName] }

def claims : Claims :=
  run.graphs.foldl
    (fun before graph => graph.sources.foldl (run.claim graph.connectionName) before)
    { claimedBy := [], collisions := [] }

/-- The gates of a source, and its address. -/
def admitted (source : GraphSource) (instruction : BuildInstruction) (orchestrated : Bool) :
    Except RunError String := do
  if orchestrated && (run.storageOf instruction).isSome then
    source.assertMaterializationEligible.mapError .ineligible
  else source.assertColocatedPersistNotAuthorizeGated.mapError .ineligible
  let sourceEntityId ← source.computeSourceEntityId.mapError .unreadable
  if !orchestrated && (run.storageOf instruction).isSome then
    source.assertMaterializationEligible.mapError .ineligible
  return sourceEntityId

/-- Record a source that failed, and mirror it among the entries. -/
def bookFailure (books : Books) (source : GraphSource) (instruction : BuildInstruction)
    (build : Build) (reason : String) : Books := { books with
  failedReasons := books.failedReasons ++ [source.name ++ ": " ++ reason]
  failures := setKey build.address
    { sourceEntityId := build.address
      sourceName := source.name
      materializedTableId := instruction.materializedTableId
      physicalTableName := instruction.physicalTableName
      reason := reason
      connectionName := source.connectionName
      storageDestinationName := filled instruction.destination } books.failures
  entries := setKey build.address
    (InstructedRun.failedEntry source instruction build.address reason) books.entries
  builds := { build with succeeds := false } :: books.builds }

/-- Record a source that was built. -/
def bookSuccess (books : Books) (source : GraphSource) (instruction : BuildInstruction)
    (build : Build) : Books := { books with
  builtSources := books.builtSources ++ [source.name]
  entries := setKey build.address (run.builtEntry source instruction) books.entries
  writtenTargets := setKey build.target build.address books.writtenTargets
  builds := { build with succeeds := true } :: books.builds }

/-- Build one source that was admitted, and enter how it ended. -/
def book (books : Books) (source : GraphSource) (instruction : BuildInstruction)
    (build : Build) : Books :=
  match run.refusal source instruction with
  | some reason => bookFailure books source instruction build reason
  | none =>
    match run.ends books.builds.length with
    | .built _ => run.bookSuccess books source instruction build
    | .failed _ reason => bookFailure books source instruction build reason
    | .failedRegistered reason => bookFailure books source instruction build reason

/-- The build of a source that an instruction asks for. -/
def attempt (connectionName : String) (source : GraphSource) (instruction : BuildInstruction)
    (sourceEntityId : String) : Build where
  address := sourceEntityId
  target := InstructedRun.physicalTargetKey instruction connectionName
  physicalTableName := instruction.physicalTableName
  connectionName := source.connectionName
  storageDestinationName := run.storageOf instruction
  succeeds := true

/-- One source of a graph. -/
def buildSource (connectionName : String) (books : Books) (source : GraphSource) :
    Except RunError Books :=
  if run.cancelled books.visited then .error .cancelled
  else
    let books := { books with visited := books.visited + 1 }
    match run.instructionOf source with
    | none => .ok books
    | some (instruction, orchestrated) =>
      match run.admitted source instruction orchestrated with
      | .error error => .error error
      | .ok sourceEntityId =>
        let build := run.attempt connectionName source instruction sourceEntityId
        if books.writtenTargets.lookup build.target = some sourceEntityId then .ok books
        else .ok (run.book books source instruction build)

/-- One graph, whose connection there has to be. -/
def buildGraph (books : Books) (graph : BuildGraph) : Except RunError Books :=
  match run.connections graph.connectionName with
  | none => .error (.connectionNotFound graph.connectionName)
  | some _ => graph.sources.foldlM (run.buildSource graph.connectionName) books

def seeded : Books where
  entries := writeAll [] run.seedEntries
  failures := []
  failedReasons := []
  builtSources := []
  writtenTargets := []
  visited := 0
  builds := []

/-- The run. -/
def executeInstructedBuild : Except RunError Books :=
  if !run.claims.collisions.isEmpty && run.persistCollisionEnforce then
    .error (.collides run.claims.collisions)
  else
    match run.graphs.foldlM run.buildGraph run.seeded with
    | .error error => .error error
    | .ok books =>
      if books.builtSources = [] ∧ books.failedReasons ≠ [] then .error (.nothingBuilt books)
      else .ok books

end GraphRun

/-! ## Books that balance -/

/-- An entry names the table of a build. -/
structure Names (entry : ManifestEntry) (build : Build) : Prop where
  table : entry.physicalTableName = some build.physicalTableName
  connection : entry.connectionName = some build.connectionName
  destination : entry.storageDestinationName = build.storageDestinationName
  healthy : entry.error = none

/-- The latest build of an address. -/
def Books.latest (books : Books) (address : String) : Option Build :=
  books.builds.find? fun build => build.address = address

/-- The entry of an address carries an error. -/
def Books.CarriesError (books : Books) (address : String) : Prop :=
  ∃ entry, books.entries.lookup address = some entry ∧ entry.error.isSome

/-- A build of an address failed, and a later one did not. -/
def Books.Rebuilt (books : Books) (address : String) : Prop :=
  (∃ build ∈ books.builds, build.address = address ∧ build.succeeds = false) ∧
    ∃ build, books.latest address = some build ∧ build.succeeds = true

/-- The targets that were written, the latest first. -/
def Books.written (books : Books) : List PhysicalTarget :=
  (books.builds.filter Build.succeeds).map Build.target

/-- The books as they are claimed to be: an address has failed exactly when its entry carries an
error, every table that was written is named by its address, and under enforcement each target was
written once. -/
structure InOrder (run : GraphRun) (books : Books) : Prop where
  failed : ∀ address,
    address ∈ books.failures.map Prod.fst ↔ books.CarriesError address
  named : ∀ build ∈ books.builds, build.succeeds = true →
    ∃ entry, books.entries.lookup build.address = some entry ∧ Names entry build
  once : run.persistCollisionEnforce = true → books.written.Nodup

/-- The books as they are: an address that was not built after it failed has failed exactly when its
entry carries an error; a table that was written is named by its address unless that was built
again later; and under enforcement each target was written once. -/
structure Balanced (run : GraphRun) (books : Books) : Prop where
  failed : ∀ address, ¬books.Rebuilt address →
    (address ∈ books.failures.map Prod.fst ↔ books.CarriesError address)
  named : ∀ address build, books.latest address = some build → build.succeeds = true →
    ∃ entry, books.entries.lookup address = some entry ∧ Names entry build
  once : run.persistCollisionEnforce = true → books.written.Nodup

/-- What may end a run: a cancellation, a connection that is missing, a refusal of an instructed
source or of a collision, or that no source was built and some failed; and a source that is
instructed by its own id and has no address. -/
def RunError.Justified (run : GraphRun) : RunError → Prop
  | .cancelled => ∃ visited, run.cancelled visited = true
  | .connectionNotFound connectionName =>
    connectionName ∈ run.graphs.map BuildGraph.connectionName ∧
      run.connections connectionName = none
  | .ineligible message => ∃ source ∈ run.sources, (run.instructionOf source).isSome ∧
      (source.assertMaterializationEligible = .error message ∨
        source.assertColocatedPersistNotAuthorizeGated = .error message)
  | .collides _ => run.persistCollisionEnforce = true ∧ run.claims.collisions ≠ []
  | .unreadable message => ∃ source ∈ run.sources, (run.bySourceID source).isSome ∧
      source.computeSourceEntityId = .error message
  | .nothingBuilt books => books.builds ≠ [] ∧ ∀ build ∈ books.builds, build.succeeds = false

/-! ## Entering a build -/

section Entering

variable {run : GraphRun} {books : Books} {source : GraphSource} {instruction : BuildInstruction}
  {build : Build}

/-- What an entry says of a build. -/
def Build.Recorded (build : Build) (entry : ManifestEntry) : Prop :=
  if build.succeeds then Names entry build else entry.error.isSome

/-- The entry of an address goes by its latest build, or is the one it was seeded with. -/
def GraphRun.Recorded (run : GraphRun) (address : String) (entry : Option ManifestEntry) :
    Option Build → Prop
  | none => entry = run.seedEntries.lookup address
  | some build => ∃ record, entry = some record ∧ build.Recorded record

/-- What the builds of a run make of its books. -/
structure Entered (run : GraphRun) (books : Books) : Prop where
  recorded : ∀ address,
    run.Recorded address (books.entries.lookup address) (books.latest address)
  failed : ∀ address, address ∈ books.failures.map Prod.fst ↔
    ∃ build ∈ books.builds, build.address = address ∧ build.succeeds = false
  barren : books.builtSources = [] ↔ ∀ build ∈ books.builds, build.succeeds = false
  reasons : books.failedReasons ≠ [] → books.builds ≠ []
  claimed : run.claims.collisions = [] →
    ∀ build ∈ books.builds, run.claims.claimedBy.lookup build.target = some build.address
  wrote : run.claims.collisions = [] → ∀ build ∈ books.builds, build.succeeds = true →
    books.writtenTargets.lookup build.target = some build.address
  once : run.claims.collisions = [] → books.written.Nodup

theorem entered_seeded (run : GraphRun) : Entered run run.seeded where
  recorded := by
    intro address
    have kept : writeAll [] run.seedEntries = run.seedEntries := writeAll_of_nodup run.keys
    simp [GraphRun.Recorded, GraphRun.seeded, Books.latest, kept]
  failed := by simp [GraphRun.seeded]
  barren := by simp [GraphRun.seeded]
  reasons := by simp [GraphRun.seeded]
  claimed := by simp [GraphRun.seeded]
  wrote := by simp [GraphRun.seeded]
  once := fun _ => List.nodup_nil

/-- Coming to a source enters nothing. -/
theorem Entered.visit (entered : Entered run books) (visited : ℕ) :
    Entered run { books with visited := visited } where
  recorded := entered.recorded
  failed := entered.failed
  barren := entered.barren
  reasons := entered.reasons
  claimed := entered.claimed
  wrote := entered.wrote
  once := entered.once

/-- A build and its entry are entered at its address, and leave every other as it was. -/
theorem recorded_enter (build : Build) {next : Books} {entry : ManifestEntry}
    (recorded : ∀ address,
      run.Recorded address (books.entries.lookup address) (books.latest address))
    (entries : next.entries = setKey build.address entry books.entries)
    (builds : next.builds = build :: books.builds) (here : build.Recorded entry)
    (address : String) :
    run.Recorded address (next.entries.lookup address) (next.latest address) := by
  rw [Books.latest, entries, builds, lookup_setKey, List.find?_cons]
  by_cases same : build.address = address
  · rw [if_pos same.symm, decide_eq_true same]
    exact ⟨entry, rfl, here⟩
  · rw [if_neg (Ne.symm same), decide_eq_false same]
    exact recorded address

/-- What is built next is claimed as what was built before is. -/
theorem claimed_cons
    (claimed : ∀ build ∈ books.builds,
      run.claims.claimedBy.lookup build.target = some build.address)
    (claims : run.claims.claimedBy.lookup build.target = some build.address) :
    ∀ later ∈ build :: books.builds,
      run.claims.claimedBy.lookup later.target = some later.address := by
  intro later member
  obtain rfl | earlier := List.mem_cons.mp member
  · exact claims
  · exact claimed later earlier

theorem Entered.bookFailure (entered : Entered run books) (reason : String)
    (claims : run.claims.collisions = [] →
      run.claims.claimedBy.lookup build.target = some build.address) :
    Entered run (GraphRun.bookFailure books source instruction build reason) where
  recorded := recorded_enter { build with succeeds := false } entered.recorded rfl rfl
    (by simp [Build.Recorded, InstructedRun.failedEntry, FailedBuild.mirror])
  failed := by
    intro address
    simp only [GraphRun.bookFailure, mem_keys_setKey, entered.failed, List.mem_cons,
      exists_eq_or_imp, and_true]
    exact or_congr_left eq_comm
  barren := by simp [GraphRun.bookFailure, entered.barren]
  reasons := by simp [GraphRun.bookFailure]
  claimed := fun apart => claimed_cons (entered.claimed apart) (claims apart)
  wrote := by
    intro apart later member succeeds
    obtain rfl | earlier := List.mem_cons.mp member
    · cases succeeds
    · exact entered.wrote apart later earlier succeeds
  once := entered.once

theorem Entered.bookSuccess (entered : Entered run books)
    (claims : run.claims.collisions = [] →
      run.claims.claimedBy.lookup build.target = some build.address)
    (unwritten : books.writtenTargets.lookup build.target ≠ some build.address)
    (names : Names (run.builtEntry source instruction) build) :
    Entered run (run.bookSuccess books source instruction build) where
  recorded := recorded_enter { build with succeeds := true } entered.recorded rfl rfl
    ⟨names.table, names.connection, names.destination, names.healthy⟩
  failed := by
    intro address
    simp [GraphRun.bookSuccess, ← entered.failed]
  barren := by simp [GraphRun.bookSuccess]
  reasons := by simp [GraphRun.bookSuccess]
  claimed := fun apart => claimed_cons (entered.claimed apart) (claims apart)
  wrote := by
    intro apart later member succeeds
    obtain rfl | earlier := List.mem_cons.mp member
    · simp only [GraphRun.bookSuccess, lookup_setKey, if_pos]
    · have target := entered.claimed apart later earlier
      simp only [GraphRun.bookSuccess, lookup_setKey]
      split_ifs with same
      · rw [← claims apart, ← same, target]
      · exact entered.wrote apart later earlier succeeds
  once := by
    intro apart
    refine List.nodup_cons.mpr ⟨fun again => unwritten ?_, entered.once apart⟩
    -- An older table on the target is of the address that claims it.
    obtain ⟨older, member, same⟩ := List.mem_map.mp again
    obtain ⟨member, succeeds⟩ := List.mem_filter.mp member
    have target := entered.claimed apart older member
    rw [← same, entered.wrote apart older member succeeds, ← target, same, claims apart]

/-- Entering a build keeps the books. -/
theorem Entered.book (entered : Entered run books)
    (claims : run.claims.collisions = [] →
      run.claims.claimedBy.lookup build.target = some build.address)
    (unwritten : books.writtenTargets.lookup build.target ≠ some build.address)
    (names : Names (run.builtEntry source instruction) build) :
    Entered run (run.book books source instruction build) := by
  unfold GraphRun.book
  split
  · exact entered.bookFailure _ claims
  · split
    · exact entered.bookSuccess claims unwritten names
    · exact entered.bookFailure _ claims
    · exact entered.bookFailure _ claims

end Entering

/-! ## The claims on tables -/

section Claiming

variable {run : GraphRun}

/-- What a source claims is its own, unless tables collide. -/
def GraphRun.ClaimedIn (run : GraphRun) (connectionName : String) (source : GraphSource)
    (claims : Claims) : Prop :=
  ∀ address instruction, source.computeSourceEntityId = .ok address →
    (run.bySourceID source).or (run.bySourceEntityId address) = some instruction →
    claims.collisions = [] →
    claims.claimedBy.lookup (InstructedRun.physicalTargetKey instruction connectionName) =
      some address

/-- A claim takes no claim back and no collision. -/
theorem GraphRun.claim_keeps (run : GraphRun) (connectionName : String) (source : GraphSource) (claims : Claims) :
    ((run.claim connectionName claims source).collisions = [] → claims.collisions = []) ∧
      ∀ target address, claims.claimedBy.lookup target = some address →
        (run.claim connectionName claims source).claimedBy.lookup target = some address := by
  unfold GraphRun.claim
  split
  · exact ⟨id, fun _ _ => id⟩
  · split
    · exact ⟨id, fun _ _ => id⟩
    · next instruction _ =>
      dsimp only
      split
      · next free =>
        refine ⟨id, fun target address held => ?_⟩
        have other : target ≠ InstructedRun.physicalTargetKey instruction connectionName := by
          rintro rfl
          rw [free] at held
          cases held
        rw [List.lookup_cons, beq_eq_false_iff_ne.mpr other]
        exact held
      · split
        · exact ⟨id, fun _ _ => id⟩
        · exact ⟨fun none => absurd none (by simp), fun _ _ => id⟩

theorem claimedIn_claim (connectionName : String) (source : GraphSource) (claims : Claims) :
    run.ClaimedIn connectionName source (run.claim connectionName claims source) := by
  intro address instruction reads instructed
  simp only [GraphRun.claim, reads, instructed]
  cases held : claims.claimedBy.lookup
      (InstructedRun.physicalTargetKey instruction connectionName) with
  | none => exact fun _ => List.lookup_cons_self
  | some claimed =>
    dsimp only
    split
    · next same => exact fun _ => same ▸ held
    · exact fun apart => absurd apart (by simp)

theorem GraphRun.ClaimedIn.claim {connectionName : String} {source : GraphSource} {claims : Claims}
    (claimed : run.ClaimedIn connectionName source claims) (other : String) (later : GraphSource) :
    run.ClaimedIn connectionName source (run.claim other claims later) := by
  intro address instruction reads instructed apart
  obtain ⟨apartBefore, claimedAfter⟩ := run.claim_keeps other later claims
  exact claimedAfter _ _ (claimed address instruction reads instructed (apartBefore apart))

/-- Every source of the graphs has claimed its table. -/
theorem claimedIn_claims {graph : BuildGraph} (inRun : graph ∈ run.graphs) {source : GraphSource}
    (inGraph : source ∈ graph.sources) :
    run.ClaimedIn graph.connectionName source run.claims := by
  refine foldl_of_mem inRun (fun before => ?_) (fun before later claimed => ?_)
  · exact foldl_of_mem inGraph (fun claims => claimedIn_claim _ source claims)
      fun claims later claimed => claimed.claim _ later
  · exact List.foldlRecOn later.sources _ claimed fun claims claimed other _ =>
      claimed.claim _ other

end Claiming

/-! ## Coming to a source -/

section Coming

variable {run : GraphRun} {source : GraphSource} {instruction : BuildInstruction}
  {orchestrated : Bool}

/-- An instruction by the source's own id, or by its address. -/
theorem instructionOf_eq_some
    (found : run.instructionOf source = some (instruction, orchestrated)) :
    (orchestrated = true ∧ run.bySourceID source = some instruction) ∨
      ∃ address, source.computeSourceEntityId = .ok address ∧ run.bySourceID source = none ∧
        run.bySourceEntityId address = some instruction := by
  unfold InstructedRun.instructionOf at found
  split at found
  · next known =>
    cases found
    exact .inl ⟨rfl, known⟩
  · next unknown =>
    split at found
    · cases found
    · next address reads =>
      obtain ⟨matched, isMatch, same⟩ := Option.map_eq_some_iff.mp found
      cases same
      exact .inr ⟨address, reads, unknown, isMatch⟩

/-- A source is admitted under its address, and refused by a gate or for want of an address. -/
theorem GraphRun.admitted_cases (run : GraphRun) (source : GraphSource) (instruction : BuildInstruction)
    (orchestrated : Bool) :
    match run.admitted source instruction orchestrated with
    | .ok address => source.computeSourceEntityId = .ok address
    | .error error =>
      (∃ message, error = .ineligible message ∧
        (source.assertMaterializationEligible = .error message ∨
          source.assertColocatedPersistNotAuthorizeGated = .error message)) ∨
        ∃ message, error = .unreadable message ∧ source.computeSourceEntityId = .error message := by
  unfold GraphRun.admitted
  cases source.assertMaterializationEligible <;>
    cases source.assertColocatedPersistNotAuthorizeGated <;>
    cases source.computeSourceEntityId <;>
    cases orchestrated <;> cases (run.storageOf instruction).isSome <;>
    simp [Except.mapError, bind, Except.bind, pure, Except.pure]

end Coming

/-! ## The run -/

section Run

variable {run : GraphRun}

/-- The instruction a source is built by is the one that its table is claimed by. -/
theorem claimed_of_instructed {graph : BuildGraph} (inRun : graph ∈ run.graphs)
    {source : GraphSource} (inGraph : source ∈ graph.sources) {instruction : BuildInstruction}
    {orchestrated : Bool} {address : String}
    (found : run.instructionOf source = some (instruction, orchestrated))
    (reads : source.computeSourceEntityId = .ok address) (apart : run.claims.collisions = []) :
    run.claims.claimedBy.lookup
      (InstructedRun.physicalTargetKey instruction graph.connectionName) = some address := by
  refine claimedIn_claims inRun inGraph address instruction reads ?_ apart
  rcases instructionOf_eq_some found with ⟨-, own⟩ | ⟨known, computed, noOwn, byAddress⟩
  · rw [own, Option.some_or]
  · obtain rfl : known = address := by simpa [reads] using computed.symm
    rw [noOwn, Option.none_or, byAddress]

/-- A source keeps the books, or what it throws is justified. -/
theorem Entered.buildSource {graph : BuildGraph} (inRun : graph ∈ run.graphs)
    {source : GraphSource} (inGraph : source ∈ graph.sources) {books : Books}
    (entered : Entered run books) :
    Ends (Entered run) (RunError.Justified run)
      (run.buildSource graph.connectionName books source) := by
  have inSources : source ∈ run.sources := by
    rw [run.ofGraphs]
    exact List.mem_flatMap.mpr ⟨graph, inRun, inGraph⟩
  unfold GraphRun.buildSource
  by_cases stopped : run.cancelled books.visited = true
  · rw [if_pos stopped]
    exact ⟨_, stopped⟩
  rw [if_neg stopped]
  cases found : run.instructionOf source with
  | none => exact entered.visit _
  | some instructed =>
    obtain ⟨instruction, orchestrated⟩ := instructed
    have gates := run.admitted_cases source instruction orchestrated
    dsimp only
    cases admits : run.admitted source instruction orchestrated with
    | error error =>
      rw [admits] at gates
      rcases gates with ⟨message, rfl, refuses⟩ | ⟨message, rfl, unreadable⟩
      · exact ⟨source, inSources, by rw [found]; rfl, refuses⟩
      · rcases instructionOf_eq_some found with ⟨-, own⟩ | ⟨known, computed, -⟩
        · exact ⟨source, inSources, by rw [own]; rfl, unreadable⟩
        · rw [computed] at unreadable
          cases unreadable
    | ok address =>
      rw [admits] at gates
      dsimp only
      split_ifs with written
      · exact entered.visit _
      · refine (entered.visit _).book ?_ written ⟨rfl, rfl, rfl, rfl⟩
        exact claimed_of_instructed inRun inGraph found gates

theorem Entered.buildGraph {graph : BuildGraph} (inRun : graph ∈ run.graphs) {books : Books}
    (entered : Entered run books) :
    Ends (Entered run) (RunError.Justified run) (run.buildGraph books graph) := by
  unfold GraphRun.buildGraph
  cases missing : run.connections graph.connectionName with
  | none => exact ⟨List.mem_map_of_mem inRun, missing⟩
  | some dialect =>
    exact foldlM_ends entered fun books source inGraph entered =>
      entered.buildSource inRun inGraph

/-- An address is recorded with an error where its latest build failed. -/
theorem Entered.carriesError_iff {books : Books} (entered : Entered run books) (address : String) :
    books.CarriesError address ↔
      ∃ build, books.latest address = some build ∧ build.succeeds = false := by
  have recorded := entered.recorded address
  cases latest : books.latest address with
  | none =>
    rw [latest] at recorded
    refine ⟨?_, by rintro ⟨_, ⟨⟩, _⟩⟩
    rintro ⟨entry, found, carries⟩
    rw [show books.entries.lookup address = run.seedEntries.lookup address from recorded] at found
    have healthy : entry.error = none :=
      run.healthy (address, entry) ((mem_iff_lookup run.keys).mpr found)
    rw [healthy] at carries
    cases carries
  | some build =>
    rw [latest] at recorded
    obtain ⟨record, found, told⟩ := recorded
    simp only [Books.CarriesError, found, Option.some.injEq, exists_eq_left']
    unfold Build.Recorded at told
    split_ifs at told with succeeds
    · simp [told.healthy, succeeds]
    · simp [told, succeeds]

/-- The books of a run balance. -/
theorem Entered.balanced {books : Books} (entered : Entered run books)
    (enforced : run.persistCollisionEnforce = true → run.claims.collisions = []) :
    Balanced run books where
  failed := by
    intro address notRebuilt
    rw [entered.failed, entered.carriesError_iff]
    constructor
    · rintro ⟨build, member, here, fails⟩
      cases isLatest : books.latest address with
      | none =>
        have absent := List.find?_eq_none.mp isLatest build member
        simp [here] at absent
      | some latest =>
        refine ⟨latest, rfl, ?_⟩
        cases succeeds : latest.succeeds with
        | false => rfl
        | true => exact absurd ⟨⟨build, member, here, fails⟩, latest, isLatest, succeeds⟩ notRebuilt
    · rintro ⟨latest, isLatest, fails⟩
      have here := List.find?_some isLatest
      exact ⟨latest, List.mem_of_find?_eq_some isLatest, by simpa using here, fails⟩
  named := by
    intro address build isLatest succeeds
    have recorded := entered.recorded address
    rw [isLatest] at recorded
    obtain ⟨entry, found, told⟩ := recorded
    rw [Build.Recorded, if_pos succeeds] at told
    exact ⟨entry, found, told⟩
  once := fun enforces => entered.once (enforced enforces)

/-- The books of a run that returns balance, and a run that throws was cancelled, lacks a
connection, met a refusal or an instructed source without an address, or built nothing. -/
theorem balanced_of_run (run : GraphRun) :
    match run.executeInstructedBuild with
    | .ok books => Balanced run books
    | .error error => error.Justified run := by
  unfold GraphRun.executeInstructedBuild
  split_ifs with collides
  · rw [Bool.and_eq_true, Bool.not_eq_true', List.isEmpty_eq_false_iff] at collides
    exact ⟨collides.2, collides.1⟩
  · have enforced : run.persistCollisionEnforce = true → run.claims.collisions = [] := by
      intro enforces
      simpa [enforces] using collides
    have ran : Ends (Entered run) (RunError.Justified run)
        (run.graphs.foldlM run.buildGraph run.seeded) :=
      foldlM_ends (entered_seeded run) fun books graph inRun entered => entered.buildGraph inRun
    cases folded : run.graphs.foldlM run.buildGraph run.seeded with
    | error error =>
      rw [folded] at ran
      exact ran
    | ok books =>
      rw [folded] at ran
      dsimp only
      split_ifs with nothing
      · exact ⟨ran.reasons nothing.2, ran.barren.mp nothing.1⟩
      · exact ran.balanced enforced

end Run

/-! ## Two tables for one address -/

/-- A source, by its id, of one content address. -/
def routeTo (sourceID : String) : GraphSource where
  sourceID := sourceID
  name := sourceID
  connectionName := "warehouse"
  dialectName := "duckdb"
  computeSourceEntityId := .ok "content"
  assertMaterializationEligible := .ok ()
  assertColocatedPersistNotAuthorizeGated := .ok ()
  declaredStorage := none
  rollup := none

/-- A base and its extension, each instructed by its own id, and into its own table. -/
def baseAndExtension (ends : ℕ → BuildEnd) : GraphRun where
  seedEntries := []
  keys := List.nodup_nil
  sources := [routeTo "base", routeTo "extension"]
  instructions := ["base", "extension"].map fun sourceID =>
    { sourceEntityId := "content", sourceID := some sourceID, materializedTableId := sourceID
      physicalTableName := sourceID, destination := none }
  connections := fun _ => some "duckdb"
  storageOn := false
  ends := ends
  graphs := [{ connectionName := "warehouse", sources := [routeTo "base", routeTo "extension"] }]
  ofGraphs := rfl
  healthy := by simp
  persistCollisionEnforce := true
  cancelled := fun _ => false

/-- Both tables are written, and the address names the second. -/
theorem twoTables_oneNamed :
    ¬∀ run : GraphRun, match run.executeInstructedBuild with
      | .ok books => InOrder run books
      | .error (.unreadable _) => False
      | .error error => error.Justified run := by
  intro every
  have inOrder := every (baseAndExtension fun _ => .built false)
  obtain ⟨entry, found, names⟩ := inOrder.named
    { address := "content", target := .connection "warehouse" "base"
      physicalTableName := "base", connectionName := "warehouse"
      storageDestinationName := none, succeeds := true } (by decide) rfl
  obtain rfl := Option.some.inj (show some _ = some entry from found)
  exact absurd names.table (by decide)

end MalloyPublisher.Materialization
