import MalloyPublisher.Serving.HostAuthority

/-!
# The paths that put a package into service

A package comes into service by a lazy load, by a reload, by an install and by an add. The first
three bind what the host publishes for it and then what the local store has of it; an add binds
neither, and a reload after it does. The local store is asked only in an environment that was
restored from the database.

## Main definitions

* `Slot.inService` — what a package is served with
* `BoundAlike` — every path serves a package with the same, and reloads keep it
* `NothingRestored` — an environment in which the local store has nothing to bind

## Main results

* `inService_getPackage`, `inService_installPackage`, `inService_addPackage` — what each path serves
* `boundAlike_iff` — the paths agree exactly for a package that none of them binds
-/

namespace MalloyPublisher.Serving

/-- What a package is served with: its routing, its registered status, and the failures that are
recorded against it. -/
structure InService where
  package : Option LoadedPackage
  packageStatus : Option PackageStatus
  failures : List String

def Slot.inService (slot : Slot) : InService where
  package := slot.package
  packageStatus := slot.packageStatus
  failures := slot.failedPackage.toList ++ slot.mountError.toList ++ slot.staleCompileError.toList

/-- A package as it is on disk and in the local store: what it declares, what its compile gives,
and the entries of its latest local materialization. -/
structure StoredPackage where
  manifestLocation : Option String
  plan : Option PlannedPackage
  latestEntries : ManifestEntries

/-- A slot in which this package is the one on disk. -/
structure Slot.Holds (slot : Slot) (stored : StoredPackage) : Prop where
  onDisk : slot.onDisk = some stored.manifestLocation
  latestEntries : slot.latestEntries = stored.latestEntries

/-- The package on disk, before it was in service. -/
def StoredPackage.unloaded (stored : StoredPackage) : Slot where
  onDisk := some stored.manifestLocation
  package := none
  packageStatus := none
  failedPackage := none
  mountError := none
  staleCompileError := none
  records := [stored.latestEntries]
  applied := []

theorem StoredPackage.holds_unloaded (stored : StoredPackage) : stored.unloaded.Holds stored :=
  ⟨rfl, rfl⟩

/-- What the loads of a package meet, as long as it compiles. -/
def StoredPackage.outcome (stored : StoredPackage) (fetched : Option ManifestEntries)
    (compiled resolves : Bool) : LoadOutcome where
  created := .ok stored.plan
  fetched := fetched
  compiled := compiled
  resolves := resolves

/-- Every path, in each of the environments, puts a package into service with the same, and so it
stays over any number of reloads. -/
def BoundAlike (environments : List ServeEnvironment) (stored : StoredPackage)
    (fetched : Option ManifestEntries) (compiled resolves : Bool) : Prop :=
  let outcome := stored.outcome fetched compiled resolves
  ∃ service, ∀ environment ∈ environments, ∀ slot : Slot, slot.Holds stored → ∀ reloads : ℕ,
    let later (slot : Slot) := (Slot.getPackage environment · true outcome)^[reloads] slot
    (slot.package = none →
      (later (slot.addPackage outcome.created)).inService = service ∧
        (later (slot.getPackage environment false outcome)).inService = service) ∧
    (later (slot.getPackage environment true outcome)).inService = service ∧
    (later (slot.installPackage environment (.committed stored.manifestLocation stored.plan)
      outcome)).inService = service

/-! ## What the local store may bind -/

/-- A colocated entry may be served if its content address is eligible. -/
def colocatedEligible (plan : Option PlannedPackage) (sourceEntityId : String) : Prop :=
  ∃ planned ∈ plan, sourceEntityId ∈ planned.colocatedSourceEligibility.eligibleEntityIds

/-- A storage binding may be served if its name is eligible. -/
def storageEligible (plan : Option PlannedPackage) (sourceName : String) : Prop :=
  ∃ planned ∈ plan, sourceName ∈ planned.sourceEligibility.eligible

/-- The local store has nothing that may be bound, or cannot be asked. -/
def NothingRestored (environment : ServeEnvironment) (stored : StoredPackage) (resolves : Bool) :
    Prop :=
  let split := splitManifestEntries stored.latestEntries
  let planSources := (stored.plan.map (·.planSources)).getD []
  environment.storageBindingResolver = false ∨ resolves = false ∨
    (∀ keyed ∈ split.tableNameManifest, ¬colocatedEligible stored.plan keyed.1) ∧
      (environment.persistStorageOff = true ∨
        ∀ binding ∈ deriveServeBindings split.storageEntries (groupAliasesByName planSources),
          ¬storageEligible stored.plan binding.sourceName)

section Eligible

variable {plan : Option PlannedPackage}

theorem bindColocatedServeManifest_eq_nil_iff {entries : TableNameManifest} :
    bindColocatedServeManifest plan entries = [] ↔
      ∀ keyed ∈ entries, ¬colocatedEligible plan keyed.1 := by
  rw [bindColocatedServeManifest, List.filter_eq_nil_iff]
  refine forall₂_congr fun keyed _ => not_congr ?_
  cases plan <;> simp [colocatedEligible]

theorem bindStorageServeBindings_eq_nil_iff {entries : ManifestEntries} :
    bindStorageServeBindings plan entries = [] ↔
      ∀ binding ∈ deriveServeBindings entries
        (groupAliasesByName ((plan.map (·.planSources)).getD [])),
        ¬storageEligible plan binding.sourceName := by
  rw [bindStorageServeBindings, List.filter_eq_nil_iff]
  refine forall₂_congr fun binding _ => not_congr ?_
  cases plan <;> simp [storageEligible]

end Eligible

/-! ## What each path serves -/

/-- The package as it is compiled, with nothing bound. -/
def StoredPackage.created (stored : StoredPackage) : LoadedPackage :=
  attachDestinationServeConfig (createPackage stored.manifestLocation stored.plan)

/-- The package as a load binds it. -/
def StoredPackage.bound (stored : StoredPackage) (environment : ServeEnvironment)
    (outcome : LoadOutcome) : LoadedPackage :=
  rebindServeBindingsFromLocalStore environment
    (if outcome.resolves then some stored.latestEntries else none)
    (bindManifestIfConfigured environment outcome.fetched outcome.compiled stored.created).1

/-- A package that is served, with no failure recorded. -/
def serving (package : LoadedPackage) : InService where
  package := some package
  packageStatus := some .serving
  failures := []

section Paths

variable {environment : ServeEnvironment} {stored : StoredPackage} {slot : Slot}
  {outcome : LoadOutcome}

theorem Slot.Holds.serve (holds : slot.Holds stored) (package : LoadedPackage)
    (applied : Option HostManifest) : (slot.serve package applied).Holds stored :=
  ⟨holds.onDisk, holds.latestEntries⟩

theorem Slot.Holds.create (holds : slot.Holds stored) :
    slot.create (.ok stored.plan) = .ok stored.created := by
  simp only [Slot.create, holds.onDisk]
  rfl

theorem Slot.Holds.bindAtLoad (holds : slot.Holds stored) :
    (Slot.bindAtLoad environment slot outcome stored.created).1 =
      stored.bound environment outcome := by
  rw [Slot.bindAtLoad, holds.latestEntries]
  rfl

/-- A load that is not answered from memory serves the package as it is bound. -/
theorem inService_getPackage (holds : slot.Holds stored) {reload : Bool}
    (created : outcome.created = .ok stored.plan) (loads : slot.package = none ∨ reload = true) :
    (slot.getPackage environment reload outcome).inService =
        serving (stored.bound environment outcome) ∧
      (slot.getPackage environment reload outcome).Holds stored := by
  have isLoaded : (slot.package.isSome && !reload) = false := by
    obtain absent | asked := loads
    · simp [absent]
    · simp [asked]
  rw [Slot.getPackage, isLoaded, if_neg Bool.false_ne_true, created, holds.create]
  exact ⟨holds.bindAtLoad ▸ rfl, holds.serve _ _⟩

theorem inService_installPackage (holds : slot.Holds stored) :
    (slot.installPackage environment (.committed stored.manifestLocation stored.plan)
        outcome).inService = serving (stored.bound environment outcome) ∧
      (slot.installPackage environment (.committed stored.manifestLocation stored.plan)
        outcome).Holds stored :=
  ⟨holds.bindAtLoad ▸ rfl, rfl, holds.latestEntries⟩

/-- An add serves the package with nothing bound. -/
theorem inService_addPackage (holds : slot.Holds stored) (absent : slot.package = none) :
    (slot.addPackage (.ok stored.plan)).inService = serving stored.created ∧
      (slot.addPackage (.ok stored.plan)).Holds stored := by
  rw [Slot.addPackage, absent, holds.create]
  exact ⟨rfl, holds.serve _ _⟩

/-- Reloads serve the package as it is bound. -/
theorem inService_reloads {service : LoadedPackage} (created : outcome.created = .ok stored.plan)
    (holds : slot.Holds stored) (before : slot.inService = serving service) (reloads : ℕ) :
    ((Slot.getPackage environment · true outcome)^[reloads] slot).inService =
      serving (if reloads = 0 then service else stored.bound environment outcome) := by
  induction reloads generalizing slot service with
  | zero => exact before
  | succ reloads ih =>
    obtain ⟨loaded, kept⟩ := inService_getPackage holds created (.inr rfl)
    rw [Function.iterate_succ_apply, ih kept loaded, ite_self, if_neg (Nat.succ_ne_zero _)]

end Paths

/-! ## Where the paths agree -/

section Agreement

variable {environment : ServeEnvironment} {stored : StoredPackage}
  {fetched : Option ManifestEntries} {compiled resolves : Bool}

/-- A package of a host is bound to its manifest, or reported as falling back. -/
theorem bound_ne_created_of_host {uri : String} (host : filled stored.manifestLocation = some uri) :
    stored.bound environment (stored.outcome fetched compiled resolves) ≠ stored.created := by
  have location : stored.created.manifestLocation = stored.manifestLocation := rfl
  have configured : bindManifestIfConfigured environment fetched compiled stored.created =
      bindManifest environment stored.manifestLocation uri fetched compiled stored.created := by
    simp only [bindManifestIfConfigured, location, host]
  have managed : (bindManifest environment stored.manifestLocation uri fetched compiled
      stored.created).1.hostManaged := by
    rw [LoadedPackage.hostManaged, manifestLocation_bindManifest location, host]
    rfl
  have bound : stored.bound environment (stored.outcome fetched compiled resolves) =
      (bindManifest environment stored.manifestLocation uri fetched compiled stored.created).1 := by
    simp only [StoredPackage.bound, StoredPackage.outcome, configured]
    exact rebind_of_hostManaged managed
  rw [bound]
  intro same
  have status := congrArg LoadedPackage.manifestBindingStatus same
  revert status
  unfold bindManifest
  cases fetched with
  | none => exact ManifestBindingStatus.noConfusion
  | some entries =>
    dsimp only
    cases read : applyManifest environment stored.manifestLocation uri compiled entries
        stored.created with
    | none => exact ManifestBindingStatus.noConfusion
    | some applied =>
      obtain ⟨-, -, isBound, -⟩ := applyManifest_spec read
      intro unbound
      cases isBound.symm.trans unbound

/-- What the local store restores, where it answers: both tiers, as far as they are eligible. -/
theorem rebind_created (resolver : environment.storageBindingResolver = true)
    (host : filled stored.manifestLocation = none) :
    rebindServeBindingsFromLocalStore environment (some stored.latestEntries) stored.created =
      { stored.created.recordManifestBinding (bindColocatedServeManifest stored.plan
          (splitManifestEntries stored.latestEntries).tableNameManifest) with
        storageServeBindings :=
          if environment.persistStorageOff then []
          else bindStorageServeBindings stored.plan
            (splitManifestEntries stored.latestEntries).storageEntries } := by
  have unmanaged : filled stored.created.manifestLocation = none := host
  -- A tier without entries is not bound, which is to bind nothing.
  have colocated : (if (splitManifestEntries stored.latestEntries).tableNameManifest.isEmpty then
        stored.created
      else stored.created.bindColocated
        (splitManifestEntries stored.latestEntries).tableNameManifest) =
      stored.created.recordManifestBinding (bindColocatedServeManifest stored.plan
        (splitManifestEntries stored.latestEntries).tableNameManifest) := by
    split_ifs with empty
    · rw [List.isEmpty_iff.mp empty]
      rfl
    · rfl
  simp only [rebindServeBindingsFromLocalStore, resolver, unmanaged, Bool.not_true,
    Option.isSome_none, Bool.or_self, Bool.false_eq_true, ↓reduceIte]
  rw [colocated]
  cases environment.persistStorageOff with
  | true => rfl
  | false =>
    cases empty : (splitManifestEntries stored.latestEntries).storageEntries.isEmpty with
    | false => rfl
    | true =>
      rw [List.isEmpty_iff.mp empty]
      rfl

/-- Without a host, a load leaves the package as it was created where nothing is restored. -/
theorem bound_eq_created_iff (host : filled stored.manifestLocation = none) :
    stored.bound environment (stored.outcome fetched compiled resolves) = stored.created ↔
      NothingRestored environment stored resolves := by
  have unconfigured : bindManifestIfConfigured environment fetched compiled stored.created =
      (stored.created, none) := by
    have location : stored.created.manifestLocation = stored.manifestLocation := rfl
    simp only [bindManifestIfConfigured, location, host]
  have isBound : stored.bound environment (stored.outcome fetched compiled resolves) =
      rebindServeBindingsFromLocalStore environment
        (if resolves then some stored.latestEntries else none)
        (bindManifestIfConfigured environment fetched compiled stored.created).1 := rfl
  rw [isBound, unconfigured]
  unfold NothingRestored
  dsimp only
  cases resolver : environment.storageBindingResolver with
  | false => simp [rebindServeBindingsFromLocalStore, resolver]
  | true =>
    cases resolves with
    | false => simp [rebindServeBindingsFromLocalStore]
    | true =>
      rw [if_pos rfl, rebind_created resolver host, ← bindColocatedServeManifest_eq_nil_iff,
        ← bindStorageServeBindings_eq_nil_iff]
      simp only [reduceCtorEq, false_or]
      constructor
      · intro same
        have colocated := congrArg LoadedPackage.freshnessEntries same
        have storage := congrArg LoadedPackage.storageServeBindings same
        refine ⟨colocated, or_iff_not_imp_left.mpr fun isOn => ?_⟩
        rwa [if_neg isOn] at storage
      · rintro ⟨colocated, storage⟩
        have unbound : (if environment.persistStorageOff then []
            else bindStorageServeBindings stored.plan
              (splitManifestEntries stored.latestEntries).storageEntries) = [] :=
          ite_eq_left_iff.mpr storage.resolve_left
        rw [colocated, unbound]
        rfl

/-- Every path serves a package alike exactly where a load binds nothing: the package has no host,
and in none of the environments is anything restored from the local store. -/
theorem boundAlike_iff (environment : ServeEnvironment) (others : List ServeEnvironment)
    (stored : StoredPackage) (fetched : Option ManifestEntries) (compiled resolves : Bool) :
    BoundAlike (environment :: others) stored fetched compiled resolves ↔
      filled stored.manifestLocation = none ∧
        ∀ among ∈ environment :: others, NothingRestored among stored resolves := by
  constructor
  · rintro ⟨service, alike⟩
    have created (among : ServeEnvironment) (listed : among ∈ environment :: others) :
        stored.bound among (stored.outcome fetched compiled resolves) = stored.created := by
      have holds := stored.holds_unloaded
      obtain ⟨added, loaded⟩ := (alike among listed _ holds 0).1 rfl
      have loadedBound : (stored.unloaded.getPackage among false
          (stored.outcome fetched compiled resolves)).inService = serving _ :=
        (inService_getPackage holds rfl (.inl rfl)).1
      have same := loadedBound.symm.trans <| loaded.trans <|
        added.symm.trans (inService_addPackage holds rfl).1
      exact Option.some.inj (congrArg InService.package same)
    have host : filled stored.manifestLocation = none := by
      refine Option.eq_none_iff_forall_not_mem.mpr fun uri host => ?_
      exact bound_ne_created_of_host host (created environment List.mem_cons_self)
    exact ⟨host, fun among listed => (bound_eq_created_iff host).mp (created among listed)⟩
  · rintro ⟨host, nothing⟩
    refine ⟨serving stored.created, fun among listed slot holds reloads => ?_⟩
    have bound : stored.bound among (stored.outcome fetched compiled resolves) = stored.created :=
      (bound_eq_created_iff host).mpr (nothing among listed)
    have kept {after : Slot} (isServed : after.inService = serving stored.created ∧
        after.Holds stored) :
        ((Slot.getPackage among · true (stored.outcome fetched compiled resolves))^[reloads]
          after).inService = serving stored.created := by
      rw [inService_reloads rfl isServed.2 isServed.1, bound, ite_self]
    refine ⟨fun absent => ⟨?_, ?_⟩, ?_, ?_⟩
    · exact kept (inService_addPackage holds absent)
    · exact kept (bound ▸ inService_getPackage holds rfl (.inl absent))
    · exact kept (bound ▸ inService_getPackage holds rfl (.inr rfl))
    · exact kept (bound ▸ inService_installPackage holds)

/-- An add of a package whose host publishes a manifest leaves it unbound. -/
theorem addedPackage_unbound :
    ¬∀ (environment : ServeEnvironment) (stored : StoredPackage)
      (fetched : Option ManifestEntries) (compiled resolves : Bool),
      BoundAlike [environment] stored fetched compiled resolves := by
  intro always
  obtain ⟨service, alike⟩ := always restored ⟨some "gs://plans/orders.json", none, []⟩
    (some [("orders", warehouseOrders "orders_h7")]) true true
  obtain ⟨added, loaded⟩ := (alike restored List.mem_cons_self hosted ⟨rfl, rfl⟩ 0).1 rfl
  have status := congrArg (fun service : InService =>
    service.package.map LoadedPackage.manifestBindingStatus) (added.trans loaded.symm)
  exact absurd status (by decide)

end Agreement

end MalloyPublisher.Serving
