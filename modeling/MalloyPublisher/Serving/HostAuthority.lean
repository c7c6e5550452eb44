import MalloyPublisher.Serving.Routing

/-!
# The authority of the host over routing

A package whose `manifestLocation` is set is routed by the manifests of its host and not by the
local records. Four of the calls see to that. A run that derives its own instructions compiles its
colocated entries into such a package all the same; a manifest that cannot be bound is reported as
serving live while the bindings it was to replace are in force; and where a cleared manifest cannot
be compiled away, the next local bindings come under its name.

## Main definitions

* `HostAuthority` — what is in force, as against the manifests of the host
* `EntryPoint`, `run` — the calls on one package, in any order
* `EntryPoint.Meets` — a call that does none of the three

## Main results

* `hostAuthority_step` — such a call keeps the authority of the host
* `hostAuthority_of_meets` — in a run of such calls, the host has authority in every state
* `localRun_overrides_host` — a run that breaks it
-/

namespace MalloyPublisher.Serving

variable (environment : ServeEnvironment)

/-! ## What a host's manifest binds -/

/-- The colocated entries a host's manifest puts in force. -/
def hostColocated (entries : ManifestEntries) : TableNameManifest :=
  quoteBoundTableNames environment (splitManifestEntries entries).tableNameManifest

/-- The storage bindings a host's manifest puts in force, but for those that are refused. -/
def hostStorage (plan : Option PlannedPackage) (entries : ManifestEntries) : List ServeBinding :=
  bindStorageServeBindings plan (splitManifestEntries entries).storageEntries

/-- The host's authority over a package, given the manifests that were applied. -/
structure HostAuthority (applied : List HostManifest) (package : LoadedPackage) : Prop where
  colocated : (filled package.manifestLocation).isSome → ∀ entry ∈ package.freshnessEntries,
    ∃ manifest ∈ applied, entry ∈ hostColocated environment manifest.2
  storage : (filled package.manifestLocation).isSome → ∀ binding ∈ package.storageServeBindings,
    ∃ manifest ∈ applied, binding ∈ hostStorage package.plan manifest.2
  bound : package.manifestBindingStatus = .bound → ∀ uri, package.boundManifestUri = some uri →
    ∃ entries, applied.lookup uri = some entries ∧
      package.freshnessEntries = hostColocated environment entries ∧
      package.storageServeBindings = hostStorage package.plan entries
  liveFallback : package.manifestBindingStatus = .liveFallback →
    package.freshnessEntries = [] ∧ package.storageServeBindings = []

/-- The host's authority in a state: over the package, where there is one in memory. -/
def Slot.HostAuthority (slot : Slot) : Prop :=
  ∀ package, slot.package = some package → Serving.HostAuthority environment slot.applied package

/-! ## The calls -/

/-- A call that puts a package into service, or changes what it is routed by. -/
inductive EntryPoint
  | getPackage (reload : Bool) (outcome : LoadOutcome)
  | addPackage (created : Except String (Option PlannedPackage))
  | installPackage (swap : Slot.Swap) (outcome : LoadOutcome)
  | updatePackage (accepted : Bool) (manifestLocation : Option (Option String))
    (fetched : Option ManifestEntries) (compiled : Bool)
  | autoRun (entries : ManifestEntries) (compiled : Bool)
  | instructedBuild (entries : ManifestEntries)
  | deleteMaterialization (index : ℕ) (compiled : Bool)

def EntryPoint.step (slot : Slot) : EntryPoint → Slot
  | .getPackage reload outcome => slot.getPackage environment reload outcome
  | .addPackage created => slot.addPackage created
  | .installPackage swap outcome => slot.installPackage environment swap outcome
  | .updatePackage accepted manifestLocation fetched compiled =>
    slot.updatePackage environment accepted manifestLocation fetched compiled
  | .autoRun entries compiled => slot.autoRun environment entries compiled
  | .instructedBuild entries => slot.instructedBuild entries
  | .deleteMaterialization index compiled => slot.deleteMaterialization environment index compiled

/-- The state after a sequence of calls. -/
def run (slot : Slot) (calls : List EntryPoint) : Slot :=
  calls.foldl (EntryPoint.step environment) slot

/-! ## The calls that keep to it -/

namespace LoadedPackage

variable (package : LoadedPackage)

/-- Whether the host is in charge of a package. -/
def hostManaged : Bool := (filled package.manifestLocation).isSome

/-- Whether a colocated manifest has to be compiled. -/
def recompiles (entries : TableNameManifest) : Bool :=
  !entries.isEmpty || package.hasBoundTableNameManifest

/-- Nothing is routed to a table. -/
def ServesLive : Prop := package.freshnessEntries = [] ∧ package.storageServeBindings = []

/-- A package that names no host manifest, and does not report that one could not be bound. -/
def NamesNoHost : Prop :=
  package.boundManifestUri = none ∧ package.manifestBindingStatus ≠ .liveFallback

/-- A manifest that is fetched, and compiles where it has to. -/
def Binds (fetched : Option ManifestEntries) (compiled : Bool) : Prop :=
  ∃ entries, fetched = some entries ∧
    (compiled = true ∨ package.recompiles (splitManifestEntries entries).tableNameManifest = false)

/-- Local bindings that come under no host's name. A recompile drops the name where it takes the
last colocated entries back, and it drops the report of a failed bind in any case. -/
def MayBindLocally (entries : TableNameManifest) (compiled : Bool) : Prop :=
  if package.recompiles entries then
    compiled = false ∨ entries = [] ∨ package.boundManifestUri = none
  else package.NamesNoHost

end LoadedPackage

/-- A call that does not override the host: a run brings no colocated entry into a package of the
host; local bindings come under no host's name; and a manifest that cannot be bound finds nothing
in force. -/
def EntryPoint.Meets (slot : Slot) (call : EntryPoint) : Prop :=
  ∀ package, slot.package = some package →
    match call with
    | .updatePackage true (some manifestLocation) fetched compiled =>
      (filled manifestLocation).isSome → package.Binds fetched compiled ∨ package.ServesLive
    | .autoRun entries compiled =>
      let colocated := (autoLoadManifest entries).tableNameManifest
      if package.hostManaged then colocated = [] ∨ compiled = false
      else package.MayBindLocally colocated compiled
    | .deleteMaterialization index compiled =>
      let remaining := ({ slot with records := slot.records.eraseIdx index }).latestEntries.filter
        fun keyed => !isLegacyFailedEntry keyed.2
      package.hostManaged = false →
        package.MayBindLocally (splitManifestEntries remaining).tableNameManifest compiled
    | _ => True

/-- Each call of a run meets the condition in the state it finds. -/
def RunMeets (slot : Slot) : List EntryPoint → Prop
  | [] => True
  | call :: later => call.Meets slot ∧ RunMeets (call.step environment slot) later

/-! ## What each binding leaves -/

section Bindings

variable {environment} {applied : List HostManifest} {package reloaded : LoadedPackage}
  {declared : Option String} {compiled : Bool} {entries : TableNameManifest}

@[simp] theorem bindStorageServeBindings_nil (plan : Option PlannedPackage) :
    bindStorageServeBindings plan [] = [] := rfl

@[simp] theorem quoteBoundTableNames_isEmpty (entries : TableNameManifest) :
    (quoteBoundTableNames environment entries).isEmpty = entries.isEmpty := by
  cases entries <;> rfl

/-- A package that names no host, with no host in charge, is under no authority. -/
theorem HostAuthority.of_namesNoHost (unmanaged : package.hostManaged = false)
    (unnamed : package.NamesNoHost) : HostAuthority environment applied package where
  colocated managed := absurd managed (by simpa [LoadedPackage.hostManaged] using unmanaged)
  storage managed := absurd managed (by simpa [LoadedPackage.hostManaged] using unmanaged)
  bound _ uri named := by simp [unnamed.1] at named
  liveFallback fallback := absurd fallback unnamed.2

/-- A package that serves live keeps every promise but that of its status. -/
theorem HostAuthority.of_servesLive (live : package.ServesLive)
    (status : package.manifestBindingStatus ≠ .bound ∨ package.boundManifestUri = none) :
    HostAuthority environment applied package where
  colocated _ entry member := by simp [live.1] at member
  storage _ binding member := by simp [live.2] at member
  bound isBound uri named := by
    obtain unbound | unnamed := status
    · exact absurd isBound unbound
    · simp [unnamed] at named
  liveFallback _ := live

/-- Reading `publisher.json` again, and finding there what is in memory, changes nothing. -/
theorem reloadAllModels_eq_some
    (read : reloadAllModels environment declared compiled entries package = some reloaded) :
    compiled = true ∧ reloaded =
      { package.recordManifestBinding (quoteBoundTableNames environment entries) with
        manifestLocation := declared } := by
  unfold reloadAllModels at read
  split_ifs at read with isCompiled
  exact ⟨isCompiled, (Option.some.inj read).symm⟩

/-- What a recompile leaves, where it is called for: the entries, compiled. -/
theorem reloadIfSubstituting_cases
    (read : reloadIfSubstituting environment declared compiled entries package = some reloaded) :
    (package.recompiles entries = true ∧ compiled = true ∧ reloaded =
      { package.recordManifestBinding (quoteBoundTableNames environment entries) with
        manifestLocation := declared }) ∨
    (entries = [] ∧ package.freshnessEntries = [] ∧ reloaded = package) := by
  unfold reloadIfSubstituting at read
  split_ifs at read with needed
  · exact .inl ⟨needed, reloadAllModels_eq_some read⟩
  · right
    simp only [LoadedPackage.hasBoundTableNameManifest, Bool.or_eq_true, Bool.not_eq_true',
      not_or, Bool.not_eq_false, List.isEmpty_iff] at needed
    exact ⟨needed.1, needed.2, (Option.some.inj read).symm⟩

/-- In either case the colocated entries in force are the manifest's. -/
theorem freshnessEntries_reloadIfSubstituting
    (read : reloadIfSubstituting environment declared compiled entries package = some reloaded) :
    reloaded.freshnessEntries = quoteBoundTableNames environment entries := by
  obtain ⟨-, -, rfl⟩ | ⟨rfl, none, rfl⟩ := reloadIfSubstituting_cases read
  · rfl
  · exact none

theorem reloadIfSubstituting_eq_none
    (thrown : reloadIfSubstituting environment declared compiled entries package = none) :
    package.recompiles entries = true ∧ compiled = false := by
  unfold reloadIfSubstituting reloadAllModels at thrown
  split_ifs at thrown with needed isCompiled
  exact ⟨needed, by simpa using isCompiled⟩

/-- What a recompile does not touch. -/
theorem reloadIfSubstituting_frame
    (read : reloadIfSubstituting environment declared compiled entries package = some reloaded) :
    reloaded.plan = package.plan ∧
      reloaded.storageServeBindings = package.storageServeBindings := by
  obtain ⟨-, -, rfl⟩ | ⟨-, -, rfl⟩ := reloadIfSubstituting_cases read <;> exact ⟨rfl, rfl⟩

/-- A recompile of the models of a package whose location is what is declared keeps it. -/
theorem manifestLocation_reloadIfSubstituting (synced : package.manifestLocation = declared)
    (read : reloadIfSubstituting environment declared compiled entries package = some reloaded) :
    reloaded.manifestLocation = declared := by
  obtain ⟨-, -, rfl⟩ | ⟨-, -, rfl⟩ := reloadIfSubstituting_cases read
  · rfl
  · exact synced

/-- Local bindings that come under no host's name leave a package that names none. -/
theorem namesNoHost_of_mayBindLocally (may : package.MayBindLocally entries compiled)
    (read : reloadIfSubstituting environment declared compiled entries package = some reloaded) :
    reloaded.NamesNoHost := by
  unfold LoadedPackage.MayBindLocally at may
  obtain ⟨needed, isCompiled, rfl⟩ | ⟨rfl, none, rfl⟩ := reloadIfSubstituting_cases read
  · rw [if_pos needed] at may
    have unnamed : entries = [] ∨ package.boundManifestUri = none :=
      may.resolve_left fun failed => by cases failed.symm.trans isCompiled
    -- The status follows the number of entries, and without one the name goes.
    cases entries with
    | nil => exact ⟨rfl, ManifestBindingStatus.noConfusion⟩
    | cons first rest =>
      exact ⟨unnamed.resolve_left (by simp), by simp [LoadedPackage.recordManifestBinding]⟩
  · rwa [if_neg] at may
    simp [LoadedPackage.recompiles, LoadedPackage.hasBoundTableNameManifest, none]

end Bindings

/-! ## The host's bind -/

section HostBind

variable {environment} {applied : List HostManifest} {package bound : LoadedPackage}
  {declared : Option String} {uri : String} {fetched : Option ManifestEntries} {compiled : Bool}
  {entries : ManifestEntries}

/-- Both tiers of a manifest that was applied are its split, and the status names it. -/
theorem applyManifest_spec
    (read : applyManifest environment declared uri compiled entries package = some bound) :
    bound.freshnessEntries = hostColocated environment entries ∧
      bound.storageServeBindings = hostStorage bound.plan entries ∧
      bound.manifestBindingStatus = .bound ∧ bound.boundManifestUri = some uri := by
  obtain ⟨reloaded, compiles, rfl⟩ := Option.map_eq_some_iff.mp read
  have colocated := freshnessEntries_reloadIfSubstituting compiles
  obtain ⟨samePlan, sameStorage⟩ := reloadIfSubstituting_frame compiles
  refine ⟨?_, ?_, rfl, rfl⟩
  · dsimp only
    split_ifs <;> exact colocated
  · dsimp only
    split_ifs with bindsStorage
    · rfl
    · -- There is no storage entry, and there was no storage binding.
      simp only [Bool.or_eq_true, Bool.not_eq_true', not_or, Bool.not_eq_false,
        List.isEmpty_iff, LoadedPackage.hasStorageServeBindings] at bindsStorage
      change reloaded.storageServeBindings = hostStorage reloaded.plan entries
      rw [sameStorage, bindsStorage.2, hostStorage, bindsStorage.1, bindStorageServeBindings_nil]

theorem manifestLocation_applyManifest (synced : package.manifestLocation = declared)
    (read : applyManifest environment declared uri compiled entries package = some bound) :
    bound.manifestLocation = declared := by
  obtain ⟨reloaded, compiles, rfl⟩ := Option.map_eq_some_iff.mp read
  have kept := manifestLocation_reloadIfSubstituting synced compiles
  dsimp only
  split_ifs <;> exact kept

/-- A manifest that is fetched and compiles is applied. -/
theorem applyManifest_of_compiles (compiles : compiled = true ∨
      package.recompiles (splitManifestEntries entries).tableNameManifest = false) :
    ∃ bound, applyManifest environment declared uri compiled entries package = some bound := by
  refine Option.ne_none_iff_exists'.mp fun thrown => ?_
  obtain ⟨needed, failed⟩ := reloadIfSubstituting_eq_none (Option.map_eq_none_iff.mp thrown)
  obtain isCompiled | unneeded := compiles
  · exact absurd (isCompiled.symm.trans failed) (by decide)
  · exact absurd (needed.symm.trans unneeded) (by decide)

/-- A manifest that was applied is the one in force. -/
theorem hostAuthority_of_applied
    (read : applyManifest environment declared uri compiled entries package = some bound) :
    HostAuthority environment ((uri, entries) :: applied) bound := by
  obtain ⟨colocated, storage, status, named⟩ := applyManifest_spec read
  constructor
  · rintro - entry member
    exact ⟨_, List.mem_cons_self, colocated ▸ member⟩
  · rintro - binding member
    exact ⟨_, List.mem_cons_self, storage ▸ member⟩
  · rintro - other isNamed
    obtain rfl := Option.some.inj (named.symm.trans isNamed)
    exact ⟨entries, by simp, colocated, storage⟩
  · intro fallback
    exact absurd (status.symm.trans fallback) (by decide)

/-- The bind of a host's manifest keeps its authority, where the manifest binds or nothing is in
force that it would leave. -/
theorem hostAuthority_bindManifest
    (meets : package.Binds fetched compiled ∨ package.ServesLive) :
    HostAuthority environment
      ((bindManifest environment declared uri fetched compiled package).2.toList ++ applied)
      (bindManifest environment declared uri fetched compiled package).1 := by
  have failed (live : package.ServesLive) :
      HostAuthority environment applied package.markManifestBindFailed :=
    .of_servesLive live (.inl ManifestBindingStatus.noConfusion)
  unfold bindManifest
  cases fetched with
  | none =>
    obtain ⟨entries, answer, -⟩ | live := meets
    · cases answer
    · exact failed live
  | some entries =>
    dsimp only
    cases read : applyManifest environment declared uri compiled entries package with
    | some bound => exact hostAuthority_of_applied read
    | none =>
      obtain ⟨_, answer, compiles⟩ | live := meets
      · obtain rfl := Option.some.inj answer
        obtain ⟨bound, applies⟩ := applyManifest_of_compiles compiles
        cases read.symm.trans applies
      · exact failed live

theorem manifestLocation_bindManifest (synced : package.manifestLocation = declared) :
    (bindManifest environment declared uri fetched compiled package).1.manifestLocation =
      declared := by
  unfold bindManifest
  cases fetched with
  | none => exact synced
  | some entries =>
    dsimp only
    cases read : applyManifest environment declared uri compiled entries package with
    | none => exact synced
    | some bound => exact manifestLocation_applyManifest synced read

end HostBind

/-! ## The state of a package -/

/-- The host has authority, and memory and disk agree on where its manifest is. -/
structure Slot.Kept (slot : Slot) : Prop where
  synced : ∀ package, slot.package = some package → slot.onDisk = some package.manifestLocation
  authority : slot.HostAuthority environment

section Loads

variable {environment} {slot : Slot} {package : LoadedPackage} {outcome : LoadOutcome}

theorem Slot.kept_of_unloaded (unloaded : slot.package = none) : slot.Kept environment where
  synced package loaded := by cases unloaded.symm.trans loaded
  authority package loaded := by cases unloaded.symm.trans loaded

/-- Serving a package that agrees with the disk, under the host's authority. -/
theorem Slot.kept_serve {applied : Option HostManifest}
    (synced : slot.onDisk = some package.manifestLocation)
    (authority : Serving.HostAuthority environment (applied.toList ++ slot.applied) package) :
    (slot.serve package applied).Kept environment where
  synced served isServed := by
    obtain rfl := Option.some.inj isServed
    exact synced
  authority served isServed := by
    obtain rfl := Option.some.inj isServed
    exact authority

/-- A package that was just created serves live, and names no host. -/
theorem created_servesLive (manifestLocation : Option String) (plan : Option PlannedPackage) :
    (attachDestinationServeConfig (createPackage manifestLocation plan)).ServesLive ∧
      (attachDestinationServeConfig (createPackage manifestLocation plan)).NamesNoHost :=
  ⟨⟨rfl, rfl⟩, rfl, ManifestBindingStatus.noConfusion⟩

/-- The local store leaves a package of the host alone. -/
theorem rebind_of_hostManaged {resolved : Option ManifestEntries} (managed : package.hostManaged) :
    rebindServeBindingsFromLocalStore environment resolved package = package := by
  unfold LoadedPackage.hostManaged at managed
  simp [rebindServeBindingsFromLocalStore, managed]

variable (environment package) in
/-- What the local store restores comes under no host's name. -/
theorem rebind_frame (resolved : Option ManifestEntries) :
    (rebindServeBindingsFromLocalStore environment resolved package).manifestLocation =
        package.manifestLocation ∧
      (package.NamesNoHost →
        (rebindServeBindingsFromLocalStore environment resolved package).NamesNoHost) := by
  have colocated (entries : TableNameManifest) : (package.bindColocated entries).manifestLocation =
      package.manifestLocation ∧
      (package.NamesNoHost → (package.bindColocated entries).NamesNoHost) := by
    refine ⟨rfl, fun unnamed => ⟨?_, ?_⟩⟩
    · simp [LoadedPackage.bindColocated, LoadedPackage.recordManifestBinding, unnamed.1]
    · simp only [LoadedPackage.bindColocated, LoadedPackage.recordManifestBinding]
      split_ifs <;> exact ManifestBindingStatus.noConfusion
  unfold rebindServeBindingsFromLocalStore
  split_ifs
  · exact ⟨rfl, id⟩
  · cases resolved with
    | none => exact ⟨rfl, id⟩
    | some entries =>
      dsimp only
      split_ifs
      · exact ⟨rfl, id⟩
      · exact colocated _
      · exact ⟨rfl, id⟩
      · exact colocated _

variable (environment slot outcome) in
/-- A load binds what the host's manifest says or, without a host, what the local store has. -/
theorem kept_bindAtLoad (onDisk : Option String) (plan : Option PlannedPackage) :
    let created := attachDestinationServeConfig (createPackage onDisk plan)
    let loaded := Slot.bindAtLoad environment slot outcome created
    loaded.1.manifestLocation = onDisk ∧
      Serving.HostAuthority environment (loaded.2.toList ++ slot.applied) loaded.1 := by
  intro created loaded
  obtain ⟨live, unnamed⟩ := created_servesLive onDisk plan
  have location : created.manifestLocation = onDisk := rfl
  cases host : filled onDisk with
  | none =>
    have unconfigured : bindManifestIfConfigured environment outcome.fetched outcome.compiled
        created = (created, none) := by
      simp [bindManifestIfConfigured, location, host]
    have isLoaded : loaded = (rebindServeBindingsFromLocalStore environment
        (if outcome.resolves then some slot.latestEntries else none) created, none) := by
      simp only [loaded, Slot.bindAtLoad, unconfigured]
    obtain ⟨sameLocation, names⟩ := rebind_frame environment created
      (if outcome.resolves then some slot.latestEntries else none)
    rw [isLoaded]
    refine ⟨sameLocation.trans location, .of_namesNoHost ?_ (names unnamed)⟩
    rw [LoadedPackage.hostManaged, sameLocation, location, host]
    rfl
  | some uri =>
    have configured : bindManifestIfConfigured environment outcome.fetched outcome.compiled
        created = bindManifest environment onDisk uri outcome.fetched outcome.compiled created := by
      simp only [bindManifestIfConfigured, location, host]
    have sameLocation : (bindManifest environment onDisk uri outcome.fetched outcome.compiled
        created).1.manifestLocation = onDisk := manifestLocation_bindManifest location
    have isLoaded : loaded =
        bindManifest environment onDisk uri outcome.fetched outcome.compiled created := by
      simp only [loaded, Slot.bindAtLoad, configured]
      rw [rebind_of_hostManaged]
      rw [LoadedPackage.hostManaged, sameLocation, host]
      rfl
    rw [isLoaded]
    exact ⟨sameLocation, hostAuthority_bindManifest (.inr live)⟩

theorem Slot.create_eq_ok {created : Except String (Option PlannedPackage)}
    (read : slot.create created = .ok package) : ∃ manifestLocation plan,
      slot.onDisk = some manifestLocation ∧
        package = attachDestinationServeConfig (createPackage manifestLocation plan) := by
  unfold Slot.create at read
  split at read
  · cases read
  · cases read
  · next manifestLocation plan onDisk =>
    exact ⟨manifestLocation, plan, onDisk, (Except.ok.inj read).symm⟩

/-- A change of the slot that leaves its package, its tree and its history alone. -/
theorem Slot.Kept.of_same {other : Slot} (kept : slot.Kept environment)
    (package : other.package = slot.package) (onDisk : other.onDisk = slot.onDisk)
    (applied : other.applied = slot.applied) : other.Kept environment where
  synced loaded isLoaded := onDisk ▸ kept.synced loaded (package ▸ isLoaded)
  authority loaded isLoaded := applied ▸ kept.authority loaded (package ▸ isLoaded)

theorem Slot.Kept.getPackage (kept : slot.Kept environment) (reload : Bool) :
    (slot.getPackage environment reload outcome).Kept environment := by
  unfold Slot.getPackage
  split
  · exact kept
  · cases read : slot.create outcome.created with
    | ok created =>
      obtain ⟨manifestLocation, plan, onDisk, rfl⟩ := Slot.create_eq_ok read
      obtain ⟨location, authority⟩ :=
        kept_bindAtLoad environment slot outcome manifestLocation plan
      exact Slot.kept_serve (location.symm ▸ onDisk) authority
    | error error =>
      dsimp only
      split <;> exact kept.of_same rfl rfl rfl

theorem Slot.Kept.addPackage (kept : slot.Kept environment)
    (created : Except String (Option PlannedPackage)) :
    (slot.addPackage created).Kept environment := by
  unfold Slot.addPackage
  split
  · exact kept
  · cases read : slot.create created with
    | ok added =>
      -- Nothing is bound here, of the host or of the local store.
      obtain ⟨manifestLocation, plan, onDisk, rfl⟩ := Slot.create_eq_ok read
      obtain ⟨live, unnamed⟩ := created_servesLive manifestLocation plan
      exact Slot.kept_serve onDisk (.of_servesLive live (.inr unnamed.1))
    | error error => exact kept.of_same rfl rfl rfl

theorem Slot.Kept.installPackage (kept : slot.Kept environment) (swap : Slot.Swap) :
    (slot.installPackage environment swap outcome).Kept environment := by
  cases swap with
  | downloadFailed => exact kept
  | rolledBack restored =>
    cases restored with
    | false =>
      refine Slot.kept_of_unloaded ?_
      simp [Slot.installPackage]
    | true =>
      simp only [Slot.installPackage, ↓reduceIte]
      split
      · exact kept.of_same rfl rfl rfl
      · exact Slot.kept_of_unloaded rfl
  | committed manifestLocation plan =>
    obtain ⟨location, authority⟩ := kept_bindAtLoad environment slot outcome manifestLocation plan
    refine Slot.kept_serve ?_ authority
    exact congrArg some location.symm

end Loads

/-! ## The calls on a package in memory -/

section InMemory

variable {environment} {slot : Slot} {package : LoadedPackage}

/-- A change of the package in memory. -/
theorem Slot.kept_of_package (onDisk : slot.onDisk = some package.manifestLocation)
    (loaded : slot.package = some package)
    (authority : Serving.HostAuthority environment slot.applied package) :
    slot.Kept environment where
  synced other isLoaded := by
    obtain rfl := Option.some.inj (loaded.symm.trans isLoaded)
    exact onDisk
  authority other isLoaded := by
    obtain rfl := Option.some.inj (loaded.symm.trans isLoaded)
    exact authority

/-- A package whose host is taken away keeps what it reports. -/
theorem HostAuthority.unmanaged {applied : List HostManifest} {manifestLocation : Option String}
    (authority : HostAuthority environment applied package) (none : filled manifestLocation = none) :
    HostAuthority environment applied { package with manifestLocation := manifestLocation } where
  colocated managed := by simp [none] at managed
  storage managed := by simp [none] at managed
  bound := authority.bound
  liveFallback := authority.liveFallback

/-- A package of the host keeps its storage bindings where its colocated entries are taken back. -/
theorem HostAuthority.takeBack {applied : List HostManifest} {declared : Option String}
    (authority : HostAuthority environment applied package)
    (synced : package.manifestLocation = declared) :
    HostAuthority environment applied
      { package.recordManifestBinding [] with manifestLocation := declared } where
  colocated _ entry member := by cases member
  storage managed := authority.storage (synced ▸ managed)
  bound isBound := by cases isBound
  liveFallback fallback := by cases fallback

theorem Slot.Kept.updatePackage (kept : slot.Kept environment) {accepted : Bool}
    {manifestLocation : Option (Option String)} {fetched : Option ManifestEntries}
    {compiled : Bool}
    (meets : (EntryPoint.updatePackage accepted manifestLocation fetched compiled).Meets slot) :
    (slot.updatePackage environment accepted manifestLocation fetched compiled).Kept
      environment := by
  unfold Slot.updatePackage
  split
  · next package manifestLocation loaded =>
    have meets := meets package loaded
    split
    · next uri host =>
      -- The manifest of the host is bound, or nothing is in force.
      have location : (bindManifest environment manifestLocation uri fetched compiled
          { package with manifestLocation := manifestLocation }).1.manifestLocation =
          manifestLocation := manifestLocation_bindManifest rfl
      refine Slot.kept_of_package ?_ rfl ?_
      · exact congrArg some location.symm
      · exact hostAuthority_bindManifest (meets (by simp [host]))
    · next host =>
      have updated := (kept.authority package loaded).unmanaged host
      dsimp only
      split
      · exact Slot.kept_of_package rfl rfl updated
      · next reloaded read =>
        obtain ⟨-, rfl⟩ := reloadAllModels_eq_some read
        exact Slot.kept_of_package rfl rfl
          (.of_servesLive ⟨rfl, rfl⟩ (.inr rfl))
  · exact kept

/-- The storage half of a local bind: nothing where the host is in charge, and a name of a host
is neither given nor taken. -/
theorem bindPackageStorageServeBindings_cases (entries : ManifestEntries)
    (package : LoadedPackage) :
    (package.hostManaged = true ∧
        Slot.bindPackageStorageServeBindings entries package = package) ∨
      (package.hostManaged = false ∧
        Slot.bindPackageStorageServeBindings entries package = package.bindStorage entries) := by
  unfold Slot.bindPackageStorageServeBindings LoadedPackage.hostManaged
  split_ifs with managed
  · exact .inl ⟨managed, rfl⟩
  · exact .inr ⟨by simpa using managed, rfl⟩

/-- A run's entries are loaded without overriding the host. -/
theorem hostAuthority_loadIntoModels {entries : ManifestEntries} {compiled : Bool}
    (synced : package.manifestLocation = slot.declared)
    (authority : Serving.HostAuthority environment slot.applied package)
    (meets : if package.hostManaged then
        (autoLoadManifest entries).tableNameManifest = [] ∨ compiled = false
      else package.MayBindLocally (autoLoadManifest entries).tableNameManifest compiled) :
    (slot.loadIntoModels environment entries compiled package).manifestLocation =
        package.manifestLocation ∧
      Serving.HostAuthority environment slot.applied
        (slot.loadIntoModels environment entries compiled package) := by
  unfold Slot.loadIntoModels Slot.reloadAllModelsForPackage
  dsimp only
  cases read : reloadIfSubstituting environment slot.declared compiled
      (autoLoadManifest entries).tableNameManifest package with
  | none => exact ⟨rfl, authority⟩
  | some reloaded =>
    have location := manifestLocation_reloadIfSubstituting synced read
    have managed : reloaded.hostManaged = package.hostManaged := by
      rw [LoadedPackage.hostManaged, location, ← synced, LoadedPackage.hostManaged]
    simp only
    obtain ⟨isManaged, same⟩ | ⟨unmanaged, same⟩ := bindPackageStorageServeBindings_cases
      (autoLoadManifest entries).storageEntries reloaded
    · rw [same]
      refine ⟨location.trans synced.symm, ?_⟩
      rw [if_pos (managed ▸ isManaged)] at meets
      obtain ⟨-, isCompiled, rfl⟩ | ⟨-, -, rfl⟩ := reloadIfSubstituting_cases read
      · obtain none | failed := meets
        · rw [none]
          exact authority.takeBack synced
        · cases failed.symm.trans isCompiled
      · exact authority
    · rw [same]
      rw [if_neg (by rw [← managed, unmanaged]; exact Bool.false_ne_true)] at meets
      have unnamed := namesNoHost_of_mayBindLocally meets read
      exact ⟨location.trans synced.symm, .of_namesNoHost unmanaged unnamed⟩

/-- What remains after a delete is bound without overriding the host. -/
theorem hostAuthority_rebindServeBindingsAfterDelete {compiled : Bool}
    (synced : package.manifestLocation = slot.declared)
    (authority : Serving.HostAuthority environment slot.applied package)
    (meets : package.hostManaged = false → package.MayBindLocally
      (splitManifestEntries (slot.latestEntries.filter fun keyed =>
        !isLegacyFailedEntry keyed.2)).tableNameManifest compiled) :
    (slot.rebindServeBindingsAfterDelete environment compiled package).manifestLocation =
        package.manifestLocation ∧
      Serving.HostAuthority environment slot.applied
        (slot.rebindServeBindingsAfterDelete environment compiled package) := by
  unfold Slot.rebindServeBindingsAfterDelete Slot.bindPackageColocatedServeManifest
  cases managed : package.hostManaged with
  | true =>
    have guarded : (filled package.manifestLocation).isSome = true := managed
    simp only [guarded, ↓reduceIte, Slot.bindPackageStorageServeBindings, ite_self]
    exact ⟨trivial, authority⟩
  | false =>
    have open' : (filled package.manifestLocation).isSome = false := managed
    simp only [open', Bool.false_eq_true, ↓reduceIte]
    split
    · exact ⟨rfl, authority⟩
    · next reloaded read =>
      have location := manifestLocation_reloadIfSubstituting synced read
      have unnamed := namesNoHost_of_mayBindLocally (meets managed) read
      have unmanaged : reloaded.hostManaged = false := by
        rw [LoadedPackage.hostManaged, location, ← synced]
        exact managed
      split
      · exact ⟨location.trans synced.symm, .of_namesNoHost unmanaged unnamed⟩
      · obtain ⟨managed, -⟩ | ⟨-, bound⟩ := bindPackageStorageServeBindings_cases _ reloaded
        · cases unmanaged.symm.trans managed
        · rw [bound]
          exact ⟨location.trans synced.symm, .of_namesNoHost unmanaged unnamed⟩

/-- A call that maps the package in memory keeps what the map keeps. -/
theorem Slot.Kept.mapPackage (kept : slot.Kept environment) (records : List ManifestEntries)
    (change : LoadedPackage → LoadedPackage)
    (keeps : ∀ package, slot.package = some package → package.manifestLocation = slot.declared →
      Serving.HostAuthority environment slot.applied package →
      (change package).manifestLocation = package.manifestLocation ∧
        Serving.HostAuthority environment slot.applied (change package)) :
    Slot.Kept environment
      { slot with records := records, package := slot.package.map change } := by
  cases loaded : slot.package with
  | none => exact Slot.kept_of_unloaded rfl
  | some package =>
    have onDisk := kept.synced package loaded
    have declared : package.manifestLocation = slot.declared := by
      rw [Slot.declared, onDisk, Option.getD_some]
    obtain ⟨location, authority⟩ := keeps package loaded declared (kept.authority package loaded)
    exact Slot.kept_of_package (location ▸ onDisk) rfl authority

end InMemory

/-! ## Runs -/

section Runs

variable {environment} {slot : Slot}

/-- A call that does not override the host keeps its authority. -/
theorem hostAuthority_step (kept : slot.Kept environment) (call : EntryPoint)
    (meets : call.Meets slot) : (call.step environment slot).Kept environment := by
  cases call with
  | getPackage reload outcome => exact kept.getPackage reload
  | addPackage created => exact kept.addPackage created
  | installPackage swap outcome => exact kept.installPackage swap
  | updatePackage accepted manifestLocation fetched compiled => exact kept.updatePackage meets
  | autoRun entries compiled =>
    refine kept.mapPackage _ _ fun package loaded declared authority => ?_
    exact hostAuthority_loadIntoModels declared authority (meets package loaded)
  | instructedBuild entries => exact kept.of_same rfl rfl rfl
  | deleteMaterialization index compiled =>
    refine kept.mapPackage _ _ fun package loaded declared authority => ?_
    exact hostAuthority_rebindServeBindingsAfterDelete declared authority (meets package loaded)

theorem kept_run (kept : slot.Kept environment) {calls : List EntryPoint}
    (meets : RunMeets environment slot calls) : (run environment slot calls).Kept environment := by
  induction calls generalizing slot with
  | nil => exact kept
  | cons call later ih => exact ih (hostAuthority_step kept call meets.1) meets.2

/-- In every run of calls that do not override the host, from a package that is not in memory, the
host has authority over what is in force. -/
theorem hostAuthority_of_meets (unloaded : slot.package = none) {calls : List EntryPoint}
    (meets : RunMeets environment slot calls) :
    (run environment slot calls).HostAuthority environment :=
  (kept_run (Slot.kept_of_unloaded unloaded) meets).authority

end Runs

/-! ## A local run on a package of the host -/

/-- The entry of the orders table, stored in the source's own warehouse under a name. -/
def warehouseOrders (table : String) : ManifestEntry where
  sourceEntityId := "orders"
  sourceName := some "orders"
  materializedTableId := none
  physicalTableName := some table
  connectionName := none
  storageDestinationName := none
  schema := none
  origin := none
  dataAsOf := none
  freshnessWindowSeconds := none
  freshnessFallback := none
  error := none

def restored : ServeEnvironment where
  storageBindingResolver := true
  persistStorageOff := false
  quoteTableName entry := entry.tableName

/-- A package on disk whose manifest its host publishes. -/
def hosted : Slot where
  onDisk := some (some "gs://plans/orders.json")
  package := none
  packageStatus := none
  failedPackage := none
  mountError := none
  staleCompileError := none
  records := []
  applied := []

/-- The load of the package, under a manifest that names the host's orders table. -/
def loadHosted : EntryPoint :=
  .getPackage false {
    created := .ok none
    fetched := some [("orders", warehouseOrders "orders_h7")]
    compiled := true
    resolves := true }

/-- A run of the host's, a delete, another manifest, the manifest taken back, and a run. -/
theorem hostAuthority_hosted :
    (run restored hosted [
      loadHosted,
      .instructedBuild [("orders", warehouseOrders "orders_l1")],
      .deleteMaterialization 0 true,
      .updatePackage true (some (some "gs://plans/next.json")) (some []) true,
      .updatePackage true (some none) none true,
      .autoRun [("orders", warehouseOrders "orders_l2")] true]).HostAuthority restored := by
  refine hostAuthority_of_meets rfl ⟨?_, ?_, ?_, ?_, ?_, ?_, trivial⟩
  · exact fun _ _ => trivial
  · exact fun _ _ => trivial
  · rintro package ⟨⟩ unmanaged
    cases unmanaged
  · rintro package ⟨⟩ -
    exact .inl ⟨[], rfl, .inl rfl⟩
  · rintro package ⟨⟩ managed
    cases managed
  · rintro package ⟨⟩
    exact .inr (.inr rfl)

/-- A run that derives its own instructions puts its table in force over that of the host, and the
package still reports the manifest of the host. -/
theorem localRun_overrides_host :
    ¬∀ (environment : ServeEnvironment) (slot : Slot) (calls : List EntryPoint),
      slot.package = none → (run environment slot calls).HostAuthority environment := by
  intro always
  have authority := always restored hosted
    [loadHosted, .autoRun [("orders", warehouseOrders "orders_l2")] true] rfl _ rfl
  obtain ⟨manifest, isApplied, within⟩ := authority.colocated rfl _ (List.mem_singleton_self _)
  obtain rfl := List.mem_singleton.mp isApplied
  exact absurd within (by decide)

end MalloyPublisher.Serving
