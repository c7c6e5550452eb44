import MalloyPublisher.Serving.AutoLoad
import MalloyPublisher.Serving.Eligibility

/-!
# The serve routing of a package

A package in memory carries what its queries are routed by: the colocated entries, which replace a
source by a table on its own connection, and the storage bindings, which serve it from another one.
Beside them it says whether a manifest is bound, and which. The entries come from two places, the
manifest a host publishes at the package's `manifestLocation` and the local records of its
materializations, and both are bound by the calls below, each under the package's lock.

## Main definitions

* `LoadedPackage` — the routing of a package in memory
* `bindManifest`, `rebindServeBindingsFromLocalStore` — the two sources of bindings at a load
* `Slot` — what an environment keeps of one package
* `getPackage`, `addPackage`, `installPackage`, `updatePackage`, `loadIntoModels`,
  `rebindServeBindingsAfterDelete` — the calls that bind
-/

namespace MalloyPublisher.Serving

/-! ## A package in memory -/

inductive ManifestBindingStatus
  | unbound
  | bound
  | liveFallback
  deriving DecidableEq, Repr

/-- Colocated entries by the id of their source. There is no entry where the source has none
retained. -/
abbrev TableNameManifest := List (String × TableNameEntry)

/-- A package in memory, as far as its routing goes. -/
structure LoadedPackage where
  manifestLocation : Option String
  /-- The build plan and the eligibility of its sources, computed when the package is loaded. -/
  plan : Option PlannedPackage
  freshnessEntries : TableNameManifest
  storageServeBindings : List ServeBinding
  manifestBindingStatus : ManifestBindingStatus
  boundManifestUri : Option String
  serveDestinationConfig : Bool

/-- What the environment of a package is, for as long as it runs. -/
structure ServeEnvironment where
  /-- Whether it was given a resolver of local materializations. -/
  storageBindingResolver : Bool
  persistStorageOff : Bool
  /-- The name a colocated table is read under, quoted for its connection. -/
  quoteTableName : TableNameEntry → String

namespace LoadedPackage

variable (package : LoadedPackage)

def hasBoundTableNameManifest : Bool := !package.freshnessEntries.isEmpty

def hasStorageServeBindings : Bool := !package.storageServeBindings.isEmpty

/-- Store the entries of a rebind. The status follows their number. -/
def recordManifestBinding (entries : TableNameManifest) : LoadedPackage := { package with
  freshnessEntries := entries
  manifestBindingStatus := if entries.isEmpty then .unbound else .bound
  boundManifestUri := if entries.isEmpty then none else package.boundManifestUri }

def markManifestBound (uri : String) : LoadedPackage := { package with
  boundManifestUri := some uri
  manifestBindingStatus := .bound }

def markManifestBindFailed : LoadedPackage := { package with
  manifestBindingStatus := .liveFallback }

/-- Route by the colocated entries that are eligible, without a recompile. -/
def bindColocated (entries : TableNameManifest) : LoadedPackage :=
  package.recordManifestBinding (bindColocatedServeManifest package.plan entries)

/-- Route by the storage bindings that are eligible. -/
def bindStorage (entries : ManifestEntries) : LoadedPackage := { package with
  storageServeBindings := bindStorageServeBindings package.plan entries }

end LoadedPackage

section Environment

variable (environment : ServeEnvironment)

def quoteBoundTableNames (entries : TableNameManifest) : TableNameManifest :=
  entries.map fun keyed =>
    (keyed.1, { keyed.2 with tableName := environment.quoteTableName keyed.2 })

/-- Compile every model against the entries. It throws when the pool cannot compile; else
`publisher.json` is read again, and the entries are those in force. -/
def reloadAllModels (declared : Option String) (compiled : Bool) (entries : TableNameManifest)
    (package : LoadedPackage) : Option LoadedPackage :=
  if compiled then
    some { package.recordManifestBinding (quoteBoundTableNames environment entries) with
      manifestLocation := declared }
  else none

/-- Compile only where there is something to substitute, or something to take back. -/
def reloadIfSubstituting (declared : Option String) (compiled : Bool)
    (entries : TableNameManifest) (package : LoadedPackage) : Option LoadedPackage :=
  if !entries.isEmpty || package.hasBoundTableNameManifest then
    reloadAllModels environment declared compiled entries package
  else some package

/-! ## The manifest of the host -/

/-- A host's manifest, by the address it was fetched from. -/
abbrev HostManifest := String × ManifestEntries

/-- Put a fetched manifest in force: first what has to be compiled, which can throw. -/
def applyManifest (declared : Option String) (uri : String) (compiled : Bool)
    (entries : ManifestEntries) (package : LoadedPackage) : Option LoadedPackage :=
  let split := splitManifestEntries entries
  let hadStorage := package.hasStorageServeBindings
  (reloadIfSubstituting environment declared compiled split.tableNameManifest package).map
    fun reloaded =>
      let bound :=
        if !split.storageEntries.isEmpty || hadStorage then
          reloaded.bindStorage split.storageEntries
        else reloaded
      bound.markManifestBound uri

/-- Fetch a manifest and bind it, with what was applied. A fetch without an answer threw. -/
def bindManifest (declared : Option String) (uri : String) (fetched : Option ManifestEntries)
    (compiled : Bool) (package : LoadedPackage) : LoadedPackage × Option HostManifest :=
  match fetched with
  | none => (package.markManifestBindFailed, none)
  | some entries =>
    match applyManifest environment declared uri compiled entries package with
    | none => (package.markManifestBindFailed, none)
    | some bound => (bound, some (uri, entries))

def bindManifestIfConfigured (fetched : Option ManifestEntries) (compiled : Bool)
    (package : LoadedPackage) : LoadedPackage × Option HostManifest :=
  match filled package.manifestLocation with
  | none => (package, none)
  | some uri => bindManifest environment package.manifestLocation uri fetched compiled package

/-! ## The local records -/

/-- Restore the routing of the latest local materialization. A lookup without an answer threw. -/
def rebindServeBindingsFromLocalStore (resolved : Option ManifestEntries)
    (package : LoadedPackage) : LoadedPackage :=
  if !environment.storageBindingResolver || (filled package.manifestLocation).isSome then package
  else
    match resolved with
    | none => package
    | some entries =>
      let split := splitManifestEntries entries
      let colocated :=
        if split.tableNameManifest.isEmpty then package
        else package.bindColocated split.tableNameManifest
      if environment.persistStorageOff || split.storageEntries.isEmpty then colocated
      else colocated.bindStorage split.storageEntries

/-! ## Loads -/

inductive PackageStatus
  | loading
  | serving
  deriving DecidableEq, Repr

/-- What an environment keeps of one package. -/
structure Slot where
  /-- The `manifestLocation` of the tree on disk, where there is a tree. -/
  onDisk : Option (Option String)
  package : Option LoadedPackage
  packageStatus : Option PackageStatus
  failedPackage : Option String
  mountError : Option String
  staleCompileError : Option String
  /-- The entries of the successful materializations, the latest first. -/
  records : List ManifestEntries
  /-- The host manifests that were applied, the last first. No call reads them. -/
  applied : List HostManifest

/-- What a load meets outside: the compiler's answer, the host's, that of the recompile under the
host's manifest, and whether the local store answers. -/
structure LoadOutcome where
  created : Except String (Option PlannedPackage)
  fetched : Option ManifestEntries
  compiled : Bool
  resolves : Bool

/-- `Package.create`: a package as it is compiled from its tree, with nothing bound. -/
def createPackage (manifestLocation : Option String) (plan : Option PlannedPackage) :
    LoadedPackage where
  manifestLocation := manifestLocation
  plan := plan
  freshnessEntries := []
  storageServeBindings := []
  manifestBindingStatus := .unbound
  boundManifestUri := none
  serveDestinationConfig := false

def attachDestinationServeConfig (package : LoadedPackage) : LoadedPackage :=
  { package with serveDestinationConfig := true }

namespace Slot

variable (slot : Slot)

def setPackageStatus (status : PackageStatus) : Slot := { slot with packageStatus := some status }

def clearPackageLoadFailure : Slot := { slot with
  failedPackage := none
  mountError := none
  staleCompileError := none }

/-- The entries the local store resolves to. -/
def latestEntries : ManifestEntries := slot.records.head?.getD []

/-- Put a package that was loaded into service. -/
def serve (package : LoadedPackage) (applied : Option HostManifest) : Slot :=
  (({ slot with
    package := some package
    applied := applied.toList ++ slot.applied }).setPackageStatus .serving).clearPackageLoadFailure

/-- The routing of a package that was just created: the host's, then that of the local store. -/
def bindAtLoad (outcome : LoadOutcome) (package : LoadedPackage) :
    LoadedPackage × Option HostManifest :=
  let (bound, applied) :=
    bindManifestIfConfigured environment outcome.fetched outcome.compiled package
  let resolved := if outcome.resolves then some slot.latestEntries else none
  (rebindServeBindingsFromLocalStore environment resolved bound, applied)

/-- `Package.create` on the tree on disk. -/
def create (created : Except String (Option PlannedPackage)) : Except String LoadedPackage :=
  match slot.onDisk, created with
  | none, _ => .error "Package manifest not found"
  | some _, .error error => .error error
  | some manifestLocation, .ok plan =>
    .ok (attachDestinationServeConfig (createPackage manifestLocation plan))

/-- Load a package, or answer the one in memory unless a reload is asked for. A reload that fails
leaves the package that is served. -/
def getPackage (reload : Bool) (outcome : LoadOutcome) : Slot :=
  if slot.package.isSome && !reload then slot
  else
    match slot.create outcome.created with
    | .ok created =>
      let (bound, applied) := bindAtLoad environment slot outcome created
      slot.serve bound applied
    | .error error =>
      if slot.package.isSome then
        { slot.setPackageStatus .serving with staleCompileError := some error }
      else { slot with packageStatus := none }

/-- Load a package that was put on disk, unless it is in memory. -/
def addPackage (created : Except String (Option PlannedPackage)) : Slot :=
  if slot.package.isSome then slot
  else
    match slot.create created with
    | .ok added => slot.serve added none
    | .error _ => { slot with packageStatus := none }

/-- How the swap of an install ends: the download throws; the new tree is rejected, and the old one
is put back or not; or it is committed. -/
inductive Swap
  | downloadFailed
  | rolledBack (restored : Bool)
  | committed (manifestLocation : Option String) (plan : Option PlannedPackage)

/-- Replace the tree on disk, and load it. -/
def installPackage (swap : Swap) (outcome : LoadOutcome) : Slot :=
  match swap with
  | .downloadFailed => slot
  | .rolledBack restored =>
    let onDisk := if restored then slot.onDisk else none
    if slot.package.isSome && onDisk.isSome then
      { slot.setPackageStatus .serving with onDisk := onDisk }
    else { slot with onDisk := onDisk, package := none, packageStatus := none }
  | .committed manifestLocation plan =>
    let newPackage := attachDestinationServeConfig (createPackage manifestLocation plan)
    let (bound, applied) := bindAtLoad environment slot outcome newPackage
    { slot with onDisk := some manifestLocation }.serve bound applied

/-! ## Calls on a package in memory -/

/-- Write the metadata of a package, in memory and on disk, and apply a `manifestLocation` that
was sent. Sent empty, it takes the manifest back. An update that is not accepted throws. -/
def updatePackage (accepted : Bool) (manifestLocation : Option (Option String))
    (fetched : Option ManifestEntries) (compiled : Bool) : Slot :=
  match slot.package, accepted, manifestLocation with
  | some package, true, some manifestLocation =>
    let updated := { package with manifestLocation := manifestLocation }
    let slot := { slot with onDisk := some manifestLocation }
    match filled manifestLocation with
    | some uri =>
      let (bound, applied) :=
        bindManifest environment manifestLocation uri fetched compiled updated
      { slot with package := some bound, applied := applied.toList ++ slot.applied }
    | none =>
      match reloadAllModels environment manifestLocation compiled [] updated with
      | none => { slot with package := some updated }
      | some reloaded => { slot with package := some (reloaded.bindStorage []) }
  | _, _, _ => slot

/-- What `publisher.json` declares when the models are compiled again. -/
def declared : Option String := slot.onDisk.getD none

/-- Compile the models under a manifest of colocated entries. -/
def reloadAllModelsForPackage (entries : TableNameManifest) (compiled : Bool)
    (package : LoadedPackage) : Option LoadedPackage :=
  reloadIfSubstituting environment slot.declared compiled entries package

/-- Bind the storage entries of a local materialization, unless the host's are bound. -/
def bindPackageStorageServeBindings (entries : ManifestEntries) (package : LoadedPackage) :
    LoadedPackage :=
  if (filled package.manifestLocation).isSome then package else package.bindStorage entries

/-- Bind the colocated entries of a local materialization, unless the host's are bound. -/
def bindPackageColocatedServeManifest (entries : TableNameManifest) (compiled : Bool)
    (package : LoadedPackage) : Option LoadedPackage :=
  if (filled package.manifestLocation).isSome then some package
  else reloadIfSubstituting environment slot.declared compiled entries package

/-- Load the manifest of a run into the models. Where compiling throws, nothing is bound. -/
def loadIntoModels (entries : ManifestEntries) (compiled : Bool) (package : LoadedPackage) :
    LoadedPackage :=
  let fetched := autoLoadManifest entries
  match slot.reloadAllModelsForPackage environment fetched.tableNameManifest compiled package with
  | none => package
  | some reloaded => bindPackageStorageServeBindings fetched.storageEntries reloaded

/-- Route by the latest materialization that remains. Where compiling throws, the bindings stay. -/
def rebindServeBindingsAfterDelete (compiled : Bool) (package : LoadedPackage) : LoadedPackage :=
  let entries := slot.latestEntries.filter fun keyed => !isLegacyFailedEntry keyed.2
  let split := splitManifestEntries entries
  match
    slot.bindPackageColocatedServeManifest environment split.tableNameManifest compiled package with
  | none => package
  | some colocated =>
    if environment.persistStorageOff then colocated
    else bindPackageStorageServeBindings split.storageEntries colocated

/-- A run that derives its own instructions: it records its entries, and loads them. -/
def autoRun (entries : ManifestEntries) (compiled : Bool) : Slot :=
  let recorded := { slot with records := entries :: slot.records }
  { recorded with
    package := slot.package.map (recorded.loadIntoModels environment entries compiled) }

/-- A run that was instructed: its entries are distributed by whoever instructed it. -/
def instructedBuild (entries : ManifestEntries) : Slot :=
  { slot with records := entries :: slot.records }

/-- Delete the record of a materialization. -/
def deleteMaterialization (index : ℕ) (compiled : Bool) : Slot :=
  let deleted := { slot with records := slot.records.eraseIdx index }
  { deleted with
    package := slot.package.map (deleted.rebindServeBindingsAfterDelete environment compiled) }

end Slot

end Environment

end MalloyPublisher.Serving
