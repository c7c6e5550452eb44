import MalloyPublisher.Serving.Freshness
import Mathlib.Data.List.Induction

/-!
# Serve bindings of a manifest

A build's manifest says which tables it wrote. An entry written into a storage destination
becomes a serve binding: the source's name, rebound to the stored table. Since `#@ persist`
is inherited, sources that share a content address share one entry and one table, and each
of their names is bound to it.

## Main definitions

* `ManifestEntry`, `ServeBinding` — what a build wrote, and what the serve path reads
* `groupAliasesByName` — the names that share a table
* `deriveServeBindings` — the serve bindings of a manifest
-/

namespace MalloyPublisher.Serving

/-! ## Entries and bindings -/

/-- A captured column, with the storage engine's own type. -/
structure Column where
  name : String
  type : String
  deriving DecidableEq, Repr

/-- What the source a table was built for is. An entry without one is `persist`. -/
inductive BindingOrigin
  | persist
  | preaggregate
  deriving DecidableEq, Repr

/-- One table of a build's manifest. A column of the wire format may lack a name or a type. -/
structure ManifestEntry where
  sourceEntityId : String
  sourceName : Option String
  materializedTableId : Option String
  physicalTableName : Option String
  connectionName : Option String
  storageDestinationName : Option String
  schema : Option (List (Option String × Option String))
  origin : Option BindingOrigin
  dataAsOf : Option String
  freshnessWindowSeconds : Option ℤ
  freshnessFallback : Option FreshnessFallback
  error : Option String
  deriving DecidableEq

/-- A manifest's entries in key order, keyed by source entity id. -/
abbrev ManifestEntries := List (String × ManifestEntry)

inductive FieldKind
  | dimension
  | measure
  deriving DecidableEq, Repr

inductive JoinKeyword
  | joinOne
  | joinMany
  | joinCross
  deriving DecidableEq, Repr

/-- A refinement to declare again on the virtual base of a serve shape. -/
inductive SourceRefinement
  | field (kind : FieldKind) (name code : String)
  | join (name : String) (keyword : JoinKeyword) (text dependsOn : String)
  | view (name text : String)
  /-- A `where:` of the source. It is what the source means, and not an optimization. -/
  | filter (code : String)
  deriving DecidableEq, Repr

/-- A source name rebound to a stored table. -/
structure ServeBinding where
  sourceName : String
  origin : BindingOrigin
  destinationName : String
  virtualHandle : String
  tablePath : String
  schema : List Column
  refinements : Option (List SourceRefinement)
  freshAsOf : Option String
  freshnessWindowSeconds : Option ℤ
  freshnessFallback : Option FreshnessFallback
  deriving DecidableEq, Repr

/-! ## Deriving bindings -/

/-- A text that is there and is not empty. -/
def filled (text : Option String) : Option String := text.filter (· ≠ "")

@[simp] theorem filled_none : filled none = none := rfl

@[simp] theorem filled_empty : filled (some "") = none := rfl

theorem filled_some {text : String} (named : text ≠ "") : filled (some text) = some text := by
  simp [filled, Option.filter, named]

theorem filled_eq_some {text : Option String} {value : String} :
    filled text = some value ↔ text = some value ∧ value ≠ "" := by
  simp [filled, Option.filter_eq_some_iff]

/-- A source of the build plan, as far as aliasing reads it. -/
structure PlanSource where
  name : Option String
  sourceEntityId : Option String

/-- Enter a source's name under its content address, unless it is there. -/
def addToGroup (groups : List (String × List String)) (source : PlanSource) :
    List (String × List String) :=
  match filled source.sourceEntityId, filled source.name with
  | some address, some name =>
    match groups.lookup address with
    | none => groups ++ [(address, [name])]
    | some _ => groups.map fun group =>
        if group.1 = address ∧ name ∉ group.2 then (group.1, group.2 ++ [name]) else group
  | _, _ => groups

/-- For each source of a plan, the sources that materialize into its table. A name declared
at more than one address cannot be resolved to a table by name, and is left out. -/
def groupAliasesByName (planSources : List PlanSource) : List (String × List String) :=
  let namesByAddress := planSources.foldl addToGroup []
  let addressesPerName (name : String) := (namesByAddress.filter fun group => name ∈ group.2).length
  namesByAddress.flatMap fun group =>
    let unambiguous := group.2.filter fun name => addressesPerName name = 1
    unambiguous.map fun name => (name, unambiguous)

/-- The columns of an entry that have both a name and a type. -/
def ManifestEntry.columns (entry : ManifestEntry) : List Column :=
  (entry.schema.getD []).filterMap fun (name, type) =>
    match filled name, filled type with
    | some name, some type => some ⟨name, type⟩
    | _, _ => none

/-- The names one entry is bound under: its builder's first, then those aliases that have no
table of their own. -/
def boundNames (aliasesBySourceName : List (String × List String)) (builders : List String)
    (sourceName : String) : List String :=
  (sourceName :: ((aliasesBySourceName.lookup sourceName).getD []).filter
    (· ∉ builders)).eraseDups

/-- The binding of one name to an entry's table. -/
def entryBinding (entry : ManifestEntry) (destination table sourceName : String) :
    ServeBinding where
  sourceName := sourceName
  origin := if entry.origin = some .preaggregate then .preaggregate else .persist
  destinationName := destination
  virtualHandle := entry.sourceEntityId
  tablePath := destination ++ "." ++ table
  schema := entry.columns
  refinements := none
  freshAsOf := entry.dataAsOf
  freshnessWindowSeconds := entry.freshnessWindowSeconds
  freshnessFallback := entry.freshnessFallback

/-- The bindings of one entry; a colocated entry, or one without columns, has none. -/
def entryBindings (aliasesBySourceName : List (String × List String)) (builders : List String)
    (entry : ManifestEntry) : List ServeBinding :=
  match filled entry.sourceName, filled entry.storageDestinationName,
      filled entry.physicalTableName with
  | some sourceName, some destination, some table =>
    if entry.columns = [] then []
    else (boundNames aliasesBySourceName builders sourceName).map
      (entryBinding entry destination table)
  | _, _, _ => []

/-- The serve bindings of a manifest's entries. -/
def deriveServeBindings (entries : ManifestEntries)
    (aliasesBySourceName : List (String × List String)) : List ServeBinding :=
  let builders := entries.filterMap fun keyed => filled keyed.2.sourceName
  entries.flatMap fun keyed => entryBindings aliasesBySourceName builders keyed.2

/-! ## What is bound to a table -/

/-- A source of the plan has a name at a content address. -/
def PlanSource.Declares (source : PlanSource) (address name : String) : Prop :=
  filled source.sourceEntityId = some address ∧ filled source.name = some name

section Aliases

variable {groups : List (String × List String)} {source : PlanSource} {planSources : List PlanSource}
  {group : String × List String} {address name : String}

/-- The names of a group are those it had, and the one entered. -/
theorem exists_of_mem_addToGroup (member : group ∈ addToGroup groups source)
    (listed : name ∈ group.2) :
    (∃ earlier ∈ groups, earlier.1 = group.1 ∧ name ∈ earlier.2) ∨ source.Declares group.1 name := by
  unfold addToGroup at member
  split at member
  · rename_i entered named here there
    split at member
    · rcases List.mem_append.mp member with earlier | new
      · exact .inl ⟨group, earlier, rfl, listed⟩
      · obtain rfl := List.mem_singleton.mp new
        obtain rfl := List.mem_singleton.mp listed
        exact .inr ⟨here, there⟩
    · obtain ⟨earlier, before, rfl⟩ := List.mem_map.mp member
      split_ifs at listed ⊢ with due
      · rcases List.mem_append.mp listed with old | new
        · exact .inl ⟨earlier, before, rfl, old⟩
        · obtain rfl := List.mem_singleton.mp new
          exact .inr ⟨due.1 ▸ here, there⟩
      · exact .inl ⟨earlier, before, rfl, listed⟩
  · exact .inl ⟨group, member, rfl, listed⟩

/-- Entering a source loses no name of a group. -/
theorem exists_mem_addToGroup (member : group ∈ groups) (listed : name ∈ group.2) :
    ∃ later ∈ addToGroup groups source, later.1 = group.1 ∧ name ∈ later.2 := by
  unfold addToGroup
  split
  · split
    · exact ⟨group, List.mem_append_left _ member, rfl, listed⟩
    · refine ⟨_, List.mem_map_of_mem member, ?_, ?_⟩
      · split_ifs <;> rfl
      · split_ifs
        · exact List.mem_append_left _ listed
        · exact listed
  · exact ⟨group, member, rfl, listed⟩

/-- The source that is entered is in its group. -/
theorem exists_mem_addToGroup_self (declares : source.Declares address name) :
    ∃ later ∈ addToGroup groups source, later.1 = address ∧ name ∈ later.2 := by
  unfold addToGroup
  rw [declares.1, declares.2]
  simp only
  cases known : groups.lookup address with
  | none => exact ⟨_, List.mem_append_right _ (List.mem_singleton_self _), rfl, by simp⟩
  | some names =>
    obtain ⟨before, after, split, -⟩ := List.lookup_eq_some_iff.mp known
    have member : (address, names) ∈ groups := by simp [split]
    refine ⟨_, List.mem_map_of_mem member, ?_, ?_⟩
    · split_ifs <;> rfl
    · split_ifs with due
      · simp
      · simpa using due

/-- The groups hold the names of the plan, each under the addresses it has there. -/
theorem exists_mem_namesByAddress_iff :
    (∃ group ∈ planSources.foldl addToGroup [], group.1 = address ∧ name ∈ group.2) ↔
      ∃ source ∈ planSources, source.Declares address name := by
  induction planSources using List.reverseRecOn with
  | nil => simp
  | append_singleton sources last ih =>
    rw [List.foldl_concat]
    constructor
    · rintro ⟨group, member, rfl, listed⟩
      rcases exists_of_mem_addToGroup member listed with ⟨earlier, before, same, old⟩ | declares
      · obtain ⟨source, among, declares⟩ := ih.mp ⟨earlier, before, same, old⟩
        exact ⟨source, List.mem_append_left _ among, declares⟩
      · exact ⟨last, List.mem_append_right _ (List.mem_singleton_self _), declares⟩
    · rintro ⟨source, among, declares⟩
      rcases List.mem_append.mp among with earlier | here
      · obtain ⟨group, member, rfl, listed⟩ := ih.mpr ⟨source, earlier, declares⟩
        exact exists_mem_addToGroup member listed
      · obtain rfl := List.mem_singleton.mp here
        exact exists_mem_addToGroup_self declares

/-- An alias stands at the only address its fellow has. -/
theorem alias_declared {names : List String} {other : String}
    (grouped : (name, names) ∈ groupAliasesByName planSources) (listed : other ∈ names) :
    ∃ address, (∃ source ∈ planSources, source.Declares address other) ∧
      ∀ source ∈ planSources, ∀ place, source.Declares place name → place = address := by
  obtain ⟨group, member, unambiguous⟩ := List.mem_flatMap.mp grouped
  simp only [List.mem_map, List.mem_filter, Prod.mk.injEq] at unambiguous
  obtain ⟨_, ⟨ofGroup, once⟩, rfl, rfl⟩ := unambiguous
  refine ⟨group.1, exists_mem_namesByAddress_iff.mp
    ⟨group, member, rfl, (List.mem_filter.mp listed).1⟩, fun source among place declares => ?_⟩
  obtain ⟨group', member', rfl, ofGroup'⟩ :=
    exists_mem_namesByAddress_iff.mpr ⟨source, among, declares⟩
  obtain ⟨only, alone⟩ := List.length_eq_one_iff.mp (of_decide_eq_true once)
  have here : group ∈ [only] := alone ▸ List.mem_filter.mpr ⟨member, by simpa using ofGroup⟩
  have there : group' ∈ [only] := alone ▸ List.mem_filter.mpr ⟨member', by simpa using ofGroup'⟩
  rw [List.mem_singleton.mp here, List.mem_singleton.mp there]

end Aliases

/-- A binding stands over the table of an entry, under its builder's name or an alias of it. -/
theorem exists_of_mem_deriveServeBindings {entries : ManifestEntries}
    {aliases : List (String × List String)} {binding : ServeBinding}
    (member : binding ∈ deriveServeBindings entries aliases) :
    ∃ keyed ∈ entries, ∃ sourceName destination table,
      filled keyed.2.sourceName = some sourceName ∧
      filled keyed.2.storageDestinationName = some destination ∧
      filled keyed.2.physicalTableName = some table ∧
      (binding.sourceName = sourceName ∨
        ∃ names, (sourceName, names) ∈ aliases ∧ binding.sourceName ∈ names) ∧
      binding = entryBinding keyed.2 destination table binding.sourceName := by
  obtain ⟨keyed, listed, bound⟩ := List.mem_flatMap.mp member
  refine ⟨keyed, listed, ?_⟩
  unfold entryBindings at bound
  split at bound
  · rename_i sourceName destination table named stored inTable
    split_ifs at bound
    · cases bound
    · obtain ⟨name, among, rfl⟩ := List.mem_map.mp bound
      refine ⟨sourceName, destination, table, named, stored, inTable, ?_, rfl⟩
      rcases List.mem_cons.mp (List.mem_eraseDups.mp among) with own | other
      · exact .inl own
      · have grouped := (List.mem_filter.mp other).1
        cases known : aliases.lookup sourceName with
        | none => rw [known] at grouped; cases grouped
        | some names =>
          rw [known] at grouped
          obtain ⟨before, after, split, -⟩ := List.lookup_eq_some_iff.mp known
          exact .inr ⟨names, by simp [split], grouped⟩
  · cases bound

end MalloyPublisher.Serving
