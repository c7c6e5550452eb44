import MalloyPublisher.Serving.AutoRun
import MalloyPublisher.Serving.RollupBindings

/-!
# Tables of a model's own definitions

The serve bindings of a package are pushed to every model of it. A model keeps a binding if
it declares a source of that name with a public column among the captured ones, and a rollup
if one of its own plans has that name and those columns. Neither asks whether the model's
definition of the name is the one the table was built from. The bindings are right where the
declarations of the package make them so.

## Main definitions

* `PublishedPackage` — the namespaces of a package's models, and its persisted sources
* `bindStorageServeBindings`, `serveBindingsWithRefinements` — the bindings, and a model's
* `ServesOwn` — what a model serves was built from its own definitions
* `PublishedPackage.Coherent` — what the declarations have to agree on

## Main results

* `ServesOwn.of_current` — bindings over current entries are right in a coherent package
* `PublishedPackage.Reached.servesOwn` — over every history of a coherent package's automatic runs
-/

namespace MalloyPublisher.Serving

open Foundations

/-! ## Models -/

/-- A field of a compiled source, as far as narrowing reads it. -/
structure SourceField where
  name : Option String
  accessModifier : Option String
  deriving DecidableEq

def isAccessRestricted (field : SourceField) : Bool :=
  field.accessModifier.any (· ≠ "public")

/-- A source as one model's namespace has it. -/
structure SourceDecl where
  sourceEntityId : String
  fields : List SourceField
  deriving DecidableEq

/-- A model of a package: its namespace, and its rollups with their content addresses. -/
structure PublishedModel where
  contents : List (String × SourceDecl)
  rollups : List (RollupPlan × String)

/-- A package: its models, and the persisted sources of its build graphs in order. -/
structure PublishedPackage where
  models : List PublishedModel
  sources : List PersistSource
  /-- A content address is a digest. -/
  addressed : ∀ source ∈ sources, source.sourceEntityId ≠ some ""

/-- Whether the build plan lists a source. A rollup that its gates refuse stays listed, unless
it is the storage tier that refuses it. -/
def PersistSource.planned (source : PersistSource) : Bool :=
  source.sourceEntityId.isSome &&
    match source.origin with
    | .preaggregate =>
      !(source.colocatable && source.declaredStorage.isSome && !source.eligible)
    | .persist => if source.declaredStorage.isSome then source.eligible else source.colocatable

def PublishedPackage.planSources (package : PublishedPackage) : List PlanSource :=
  (package.sources.filter PersistSource.planned).map fun source =>
    { name := some source.name, sourceEntityId := source.sourceEntityId }

/-- The names of the sources the storage tier admits. -/
def PublishedPackage.eligible (package : PublishedPackage) : List String :=
  (package.sources.filter PersistSource.eligible).map PersistSource.name

/-- The bindings a package takes from a manifest: those of eligible names. -/
def PublishedPackage.bindStorageServeBindings (package : PublishedPackage)
    (entries : ManifestEntries) : List ServeBinding :=
  (deriveServeBindings entries (groupAliasesByName package.planSources)).filter
    (·.sourceName ∈ package.eligible)

/-! ## A model's bindings -/

section Narrowing

-- `String.prototype.toLowerCase`.
variable (toLowerCase : String → String)

/-- The names a source's fields can be reached by. -/
def publicNames (fields : List SourceField) : List String :=
  fields.filterMap fun field => if isAccessRestricted field then none else field.name

/-- The author's name of a captured column: its own, or the only one that folds alike. -/
def authorName (fields : List SourceField) (column : Column) : Option String :=
  if column.name ∈ publicNames fields then some column.name
  else
    match (publicNames fields).filter (toLowerCase · = toLowerCase column.name) with
    | [name] => some name
    | _ => none

/-- The captured columns that a source has in public, under the author's names. Of two that
come to one name the first counts. -/
def narrowSchemaToPublic (schema : List Column) (fields : List SourceField) : List Column :=
  schema.foldl (fun narrowed column =>
    match authorName toLowerCase fields column with
    | none => narrowed
    | some name =>
      if name ∈ narrowed.map Column.name then narrowed
      else narrowed ++ [{ name, type := column.type }]) []

-- The refinements of a source, with the sources that are materialized beside it.
variable (refinementsOf : List String → SourceDecl → List SourceRefinement)

/-- A binding in a model: its columns those the model has in public, its refinements the
model's. -/
def enriched (model : PublishedModel) (materialized : List String) (binding : ServeBinding) :
    ServeBinding :=
  let declared := model.contents.lookup binding.sourceName
  { binding with
    schema := narrowSchemaToPublic toLowerCase binding.schema ((declared.map (·.fields)).getD [])
    refinements := some ((declared.map (refinementsOf materialized)).getD []) }

/-- The bindings a model serves. -/
def serveBindingsWithRefinements (model : PublishedModel) (bindings : List ServeBinding) :
    List ServeBinding :=
  (bindings.map (enriched toLowerCase refinementsOf model (bindings.map (·.sourceName)))).filter
    (·.schema ≠ [])

end Narrowing

/-! ## Own definitions -/

/-- The table a binding stands over holds the rows of a content address. -/
def StandsOver (stored : PhysicalTarget → Option String) (binding : ServeBinding)
    (sourceEntityId : String) : Prop :=
  ∃ table, binding.tablePath = binding.destinationName ++ "." ++ table ∧
    stored (.destination binding.destinationName table) = some sourceEntityId

section Own

variable (localeCompare : String → String → Ordering) (toLowerCase : String → String)
  (refinementsOf : List String → SourceDecl → List SourceRefinement)

/-- What a model serves was built from its own definitions: a source from that of its name,
and a rollup from that of a plan, whose measures it declares. -/
structure ServesOwn (model : PublishedModel) (stored : PhysicalTarget → Option String)
    (bindings : List ServeBinding) : Prop where
  sources : ∀ binding ∈ serveBindingsWithRefinements toLowerCase refinementsOf model
      (bindings.filter (·.origin ≠ .preaggregate)),
    ∃ declared, model.contents.lookup binding.sourceName = some declared ∧
      StandsOver stored binding declared.sourceEntityId
  rollups : ∀ group ∈ (rollupServeBindings localeCompare bindings
      (model.rollups.map Prod.fst)).1, ∀ member ∈ group.members,
    ∃ rollup ∈ model.rollups, rollup.1.rollupSourceName = member.sourceName ∧
      rollup.1.baseSourceName = group.baseSourceName ∧
      member.refinements = some (rollupServeRefinements rollup.1) ∧
      StandsOver stored member rollup.2

/-- What a package's declarations have to agree on. No table is named for two content
addresses; and where a source's address is stored, each model that declares the name with a
public column among the table's declares it at that address. So with a rollup's plan. -/
structure PublishedPackage.Coherent (package : PublishedPackage) : Prop where
  oneContent : OneContent package.sources
  declared : ∀ builder ∈ package.sources, ∀ source ∈ package.sources, ∀ sourceEntityId target,
    builder.sourceEntityId = some sourceEntityId → source.sourceEntityId = some sourceEntityId →
    NamesTable package.sources sourceEntityId target → builder.origin = .persist →
    ∀ model ∈ package.models, ∀ declared, model.contents.lookup source.name = some declared →
      narrowSchemaToPublic toLowerCase builder.captured declared.fields ≠ [] →
      declared.sourceEntityId = sourceEntityId
  rollups : ∀ builder ∈ package.sources, ∀ source ∈ package.sources, ∀ sourceEntityId target,
    builder.sourceEntityId = some sourceEntityId → source.sourceEntityId = some sourceEntityId →
    NamesTable package.sources sourceEntityId target → builder.origin = .preaggregate →
    ∀ model ∈ package.models, ∀ rollup ∈ model.rollups,
      rollup.1.rollupSourceName = source.name →
      rollup.1.columns.all (· ∈ builder.captured.map Column.name) = true →
      rollup.2 = sourceEntityId

end Own

/-- What the automatic runs of a package come to: the entries last committed, and what the
tables hold. A run that was interrupted committed nothing, and left tables it had rewritten. -/
inductive PublishedPackage.Reached (package : PublishedPackage) :
    ManifestEntries → (PhysicalTarget → Option String) → Prop
  | new (stored : PhysicalTarget → Option String) : Reached package [] stored
  | run {prior entries : ManifestEntries} {stored : PhysicalTarget → Option String}
      (reached : Reached package prior stored) (run : AutoRun package.sources)
      (carries : ∀ keyed ∈ run.options.priorEntries, keyed ∈ prior)
      (committed : executeInstructedBuild run.buildRun = .ok entries) :
      Reached package entries (run.buildRun.storedAt stored)
  | interrupted {entries : ManifestEntries} {stored left : PhysicalTarget → Option String}
      (reached : Reached package entries stored)
      (rewritten : ∀ target, left target = stored target ∨
        ∃ sourceEntityId, left target = some sourceEntityId ∧
          NamesTable package.sources sourceEntityId target) :
      Reached package entries left

/-! ## A coherent package serves its own tables -/

section Coherent

variable {localeCompare : String → String → Ordering} {toLowerCase : String → String}
  {refinementsOf : List String → SourceDecl → List SourceRefinement} {package : PublishedPackage}
  {entries : ManifestEntries} {stored : PhysicalTarget → Option String} {binding : ServeBinding}

/-- What no field is public of has no column. -/
theorem narrowSchemaToPublic_nil (schema : List Column) :
    narrowSchemaToPublic toLowerCase schema [] = [] := by
  have none (column : Column) : authorName toLowerCase [] column = none := rfl
  unfold narrowSchemaToPublic
  induction schema with
  | nil => rfl
  | cons column schema ih =>
    rw [List.foldl_cons, none]
    exact ih

/-- A source that builds a stored table is in the plan. -/
theorem PersistSource.planned_of_admitted {source : PersistSource} {sourceEntityId : String}
    (address : source.sourceEntityId = some sourceEntityId) (eligible : source.eligible = true)
    (colocatable : source.colocatable = true) : source.planned = true := by
  unfold PersistSource.planned
  cases source.origin <;> simp [address, eligible, colocatable]

theorem PublishedPackage.mem_planSources {source : PersistSource}
    (member : source ∈ package.sources) (planned : source.planned = true) :
    { name := some source.name, sourceEntityId := source.sourceEntityId } ∈ package.planSources :=
  List.mem_map_of_mem (List.mem_filter.mpr ⟨member, planned⟩)

theorem PublishedPackage.exists_of_declares {planned : PlanSource} {address name : String}
    (listed : planned ∈ package.planSources) (declares : planned.Declares address name) :
    ∃ source ∈ package.sources, source.sourceEntityId = some address ∧ source.name = name := by
  obtain ⟨source, member, rfl⟩ := List.mem_map.mp listed
  exact ⟨source, (List.mem_filter.mp member).1, (filled_eq_some.mp declares.1).1,
    Option.some.inj (filled_eq_some.mp declares.2).1⟩

/-- A binding over current entries stands over the rows of an address, at which the package
has a source of its name and one that built the table. -/
theorem exists_of_mem_bindStorageServeBindings (current : Current package.sources entries stored)
    (member : binding ∈ package.bindStorageServeBindings entries) :
    ∃ sourceEntityId target, NamesTable package.sources sourceEntityId target ∧
      StandsOver stored binding sourceEntityId ∧
      ∃ builder ∈ package.sources, ∃ source ∈ package.sources,
        builder.sourceEntityId = some sourceEntityId ∧
        source.sourceEntityId = some sourceEntityId ∧ source.name = binding.sourceName ∧
        binding.schema = builder.captured ∧ binding.origin = builder.origin := by
  obtain ⟨⟨sourceEntityId, entry⟩, listed, sourceName, destination, table, named, into, inTable,
    bound, same⟩ := exists_of_mem_deriveServeBindings (List.mem_filter.mp member).1
  have isStored : entry.storedIn = some (.destination destination table) :=
    ManifestEntry.storedIn_eq_some_iff.mpr ⟨destination, table, into, inTable, rfl⟩
  obtain ⟨recorded, holds⟩ := current sourceEntityId entry _ listed isStored
  obtain ⟨builder, among, address, eligible, colocatable, name, columns, origin⟩ :=
    recorded.builder
  have builderName : builder.name = sourceName := by
    rw [name] at named
    exact Option.some.inj (filled_eq_some.mp named).1
  have source : ∃ source ∈ package.sources,
      source.sourceEntityId = some sourceEntityId ∧ source.name = binding.sourceName := by
    rcases bound with own | ⟨names, grouped, fellow⟩
    · exact ⟨builder, among, address, builderName.trans own.symm⟩
    · obtain ⟨place, ⟨planned, planned_mem, declares⟩, alone⟩ := alias_declared grouped fellow
      -- The builder has the alias's fellow for a name, and so its only address.
      have builds : PlanSource.Declares
          { name := some builder.name, sourceEntityId := builder.sourceEntityId }
          sourceEntityId sourceName := by
        constructor
        · rw [address]
          exact filled_some fun empty => package.addressed builder among (empty ▸ address)
        · rw [← name]
          exact named
      have here := alone _ (package.mem_planSources among
        (builder.planned_of_admitted address eligible colocatable)) _ builds
      exact here ▸ package.exists_of_declares planned_mem declares
  obtain ⟨source, there, sourceAddress, sourceNamed⟩ := source
  refine ⟨sourceEntityId, _, recorded.named, ⟨table, ?_, ?_⟩, builder, among, source, there,
    address, sourceAddress, sourceNamed, ?_, ?_⟩
  · rw [same]
    rfl
  · rw [same]
    exact holds
  · rw [same]
    exact columns
  · rw [same]
    exact origin

/-- Bindings over current entries are right in a coherent package. -/
theorem ServesOwn.of_current (coherent : package.Coherent toLowerCase)
    (current : Current package.sources entries stored) {model : PublishedModel}
    (ofPackage : model ∈ package.models) {bindings : List ServeBinding}
    (bound : ∀ binding ∈ bindings, binding ∈ package.bindStorageServeBindings entries) :
    ServesOwn localeCompare toLowerCase refinementsOf model stored bindings where
  sources binding served := by
    obtain ⟨mapped, nonempty⟩ := List.mem_filter.mp served
    obtain ⟨pushed, kept, rfl⟩ := List.mem_map.mp mapped
    obtain ⟨member, ordinary⟩ := List.mem_filter.mp kept
    obtain ⟨sourceEntityId, target, named, described, builder, among, source, there, built, address,
      sourceName, schema, origin⟩ :=
        exists_of_mem_bindStorageServeBindings current (bound pushed member)
    have persisted : builder.origin = .persist := by
      cases kind : builder.origin with
      | persist => rfl
      | preaggregate => simp [origin, kind] at ordinary
    cases declared : model.contents.lookup pushed.sourceName with
    | none => simp [enriched, declared, narrowSchemaToPublic_nil] at nonempty
    | some declaration =>
      refine ⟨declaration, declared, ?_⟩
      rw [coherent.declared builder among source there sourceEntityId target built address named
        persisted model ofPackage declaration (sourceName ▸ declared)]
      · exact described
      · simpa [enriched, declared, schema] using nonempty
  rollups group served member among := by
    obtain ⟨plan, listed, pushed, member', matched, ofBase, rfl⟩ :=
      exists_plan_of_mem_groups served among
    obtain ⟨rollup, ofModel, rfl⟩ := List.mem_map.mp listed
    obtain ⟨kind, -, sameName, columns⟩ := servedPlan_spec matched
    obtain ⟨sourceEntityId, target, named, described, builder, among, source, there, built, address,
      sourceName, schema, origin⟩ :=
        exists_of_mem_bindStorageServeBindings current (bound pushed member')
    refine ⟨rollup, ofModel, sameName, ofBase, rfl, ?_⟩
    rw [coherent.rollups builder among source there sourceEntityId target built address named
      (origin ▸ kind) model ofPackage rollup ofModel (sameName.trans sourceName.symm)
      (schema ▸ columns)]
    exact described

/-- Whatever automatic runs and interruptions come to, the entries are current. -/
theorem PublishedPackage.Reached.current (oneContent : OneContent package.sources)
    (reached : package.Reached entries stored) : Current package.sources entries stored := by
  induction reached with
  | new stored => exact fun _ _ _ listed => absurd listed List.not_mem_nil
  | run reached run carries committed ih =>
    unfold executeInstructedBuild at committed
    split_ifs at committed
    cases committed
    exact run.current oneContent fun sourceEntityId entry target listed =>
      ih sourceEntityId entry target (carries _ listed)
  | interrupted reached rewritten ih =>
    intro sourceEntityId entry target listed isStored
    obtain ⟨recorded, holds⟩ := ih sourceEntityId entry target listed isStored
    refine ⟨recorded, ?_⟩
    rcases rewritten target with same | ⟨other, left, named⟩
    · rw [same, holds]
    · rw [left, oneContent target other sourceEntityId named recorded.named]

/-- Over every history of a coherent package's automatic runs, and at every time, each model
serves what was built from its own definitions. -/
theorem PublishedPackage.Reached.servesOwn (reached : package.Reached entries stored)
    (coherent : package.Coherent toLowerCase) {model : PublishedModel}
    (ofPackage : model ∈ package.models) {fresh : List ServeBinding}
    (now : fresh.Sublist (package.bindStorageServeBindings entries)) :
    ServesOwn localeCompare toLowerCase refinementsOf model stored fresh :=
  ServesOwn.of_current coherent (reached.current coherent.oneContent) ofPackage
    fun _ member => now.subset member

end Coherent

/-! ## Two sources of one name -/

/-- A source that is stored in the lake. -/
def lakeOrders : PersistSource where
  name := "orders"
  sourceEntityId := some "tenant-orders"
  origin := .persist
  connectionName := "warehouse"
  declaredStorage := some "lake"
  tableName := "orders"
  columns := [⟨"id", "BIGINT"⟩, ⟨"total", "DOUBLE"⟩]
  eligible := true
  colocatable := true
  deltaEligible := false

/-- The namespace of a model with one source `orders`. -/
def oneSourceModel (sourceEntityId : String) : PublishedModel where
  contents := [("orders", { sourceEntityId, fields := [⟨some "id", none⟩, ⟨some "total", none⟩] })]
  rollups := []

theorem lakeOrders_addressed :
    ∀ source ∈ [lakeOrders], source.sourceEntityId ≠ some "" := by
  decide

/-- A second model imports the stored source. -/
def importedOrders : PublishedPackage where
  models := [oneSourceModel "tenant-orders", oneSourceModel "tenant-orders"]
  sources := [lakeOrders]
  addressed := lakeOrders_addressed

/-- A second model declares a source of the same name, which it does not store. -/
def twoOrders : PublishedPackage where
  models := [oneSourceModel "tenant-orders", oneSourceModel "other-orders"]
  sources := [lakeOrders]
  addressed := lakeOrders_addressed

theorem noPrior_clean : ∀ keyed ∈ ([] : ManifestEntries), isLegacyFailedEntry keyed.2 = false :=
  fun _ listed => absurd listed List.not_mem_nil

def firstOptions : RunOptions where
  storageOn := true
  sourceNames := none
  priorEntries := []
  priorClean := noPrior_clean

/-- The first automatic run of either package. -/
def firstRun : AutoRun [lakeOrders] where
  options := firstOptions
  fails _ := none
  instructed := {
    instructions := [selfInstruction firstOptions lakeOrders "tenant-orders"]
    carried := []
    seen := ["tenant-orders"] }
  loop := {
    writtenTargets := [(.destination "lake" "orders", "tenant-orders")]
    builds := [("tenant-orders", .built (builtEntry lakeOrders
      (selfInstruction firstOptions lakeOrders "tenant-orders")))] }
  derives := rfl
  builds := rfl

theorem firstRun_reached (models : List PublishedModel) :
    PublishedPackage.Reached ⟨models, [lakeOrders], lakeOrders_addressed⟩
      firstRun.buildRun.entries (firstRun.buildRun.storedAt fun _ => none) :=
  @PublishedPackage.Reached.run ⟨models, [lakeOrders], lakeOrders_addressed⟩ [] _ _ (.new _)
    firstRun (fun _ listed => absurd listed List.not_mem_nil) rfl

/-- The other model's `orders` is served from the stored source's table. -/
theorem twoOrders_not_servesOwn : ∃ entries stored, twoOrders.Reached entries stored ∧
    ∃ model ∈ twoOrders.models, ¬ ServesOwn compare String.toLower (fun _ _ => []) model stored
      (twoOrders.bindStorageServeBindings entries) := by
  refine ⟨_, _, firstRun_reached _, oneSourceModel "other-orders", by simp [twoOrders],
    fun own => ?_⟩
  have served : (serveBindingsWithRefinements String.toLower (fun _ _ => [])
      (oneSourceModel "other-orders") ((twoOrders.bindStorageServeBindings
        firstRun.buildRun.entries).filter (·.origin ≠ .preaggregate))).map (·.sourceName) =
      ["orders"] := by
    decide +kernel
  obtain ⟨binding, member, named⟩ := List.mem_map.mp (served ▸ List.mem_singleton_self "orders")
  obtain ⟨declared, declares, table, -, holds⟩ := own.sources binding member
  rw [named] at declares
  cases declares
  rcases firstRun.buildRun.storedAt_cases (fun _ => none)
    (.destination binding.destinationName table) with ⟨other, entry, built, -, there⟩ | ⟨-, nothing⟩
  · rw [there] at holds
    obtain ⟨rfl, -⟩ := Prod.mk.inj (List.mem_singleton.mp built)
    exact absurd (Option.some.inj holds) (by decide)
  · rw [nothing] at holds
    cases holds

theorem importedOrders_coherent : importedOrders.Coherent String.toLower where
  oneContent target first second here there := by
    obtain ⟨lead, among, -, address, -⟩ := here
    obtain ⟨lead', among', -, address', -⟩ := there
    obtain rfl := List.mem_singleton.mp among
    obtain rfl := List.mem_singleton.mp among'
    exact Option.some.inj (address.symm.trans address')
  declared builder _ source among sourceEntityId target _ address _ _ model ofPackage declared
      declares _ := by
    obtain rfl := List.mem_singleton.mp among
    obtain rfl : model = oneSourceModel "tenant-orders" := by
      simpa [importedOrders] using ofPackage
    cases declares
    exact Option.some.inj address
  rollups builder _ source _ sourceEntityId target _ _ _ _ model ofPackage rollup ofModel := by
    obtain rfl : model = oneSourceModel "tenant-orders" := by
      simpa [importedOrders] using ofPackage
    cases ofModel

theorem importedOrders_servesOwn : ∃ entries stored, importedOrders.Reached entries stored ∧
    importedOrders.bindStorageServeBindings entries ≠ [] ∧
    ∀ model ∈ importedOrders.models,
      ServesOwn compare String.toLower (fun _ _ => []) model stored
        (importedOrders.bindStorageServeBindings entries) := by
  refine ⟨_, _, firstRun_reached _, by decide +kernel, fun model ofPackage => ?_⟩
  exact (firstRun_reached importedOrders.models).servesOwn importedOrders_coherent ofPackage
    (List.Sublist.refl _)

end MalloyPublisher.Serving
