import MalloyPublisher.Foundations.KeyedRecord
import MalloyPublisher.Serving.ServeBindings

/-!
# Names bound to one table each

A serve shape declares a source for each binding, so a name that is bound twice is declared
twice, and the shape does not compile. The bindings of a manifest bind a name under two rules.
A builder's name is bound to the table of its entry. The names that stand at the builder's
content address are bound to that table as well, unless they own an entry; and a name that the
plan declares at two addresses is no alias, because which of the two tables it means cannot be
told.

The second rule keeps an alias from a builder's name. Nothing keeps two builders of one name
apart, nor the aliases of two builders at one address; and a builder's name that is ambiguous
loses the aliases of its table their routing, though their own addresses are plain.

## Main definitions

* `DeclaredOnlyAt` — the names that are aliases, and where
* `BoundOnce` — each name is bound once, and to the table of its own content
* `BuildersApart` — what the builders of a manifest's stored entries have to be

## Main results

* `boundOnce_iff` — names are bound once exactly where the builders are apart
-/

namespace MalloyPublisher.Serving

open Foundations

/-! ## Addresses of names -/

section Plan

variable {planSources : List PlanSource} {address name : String}

/-- The plan declares a name at a content address. -/
def DeclaredAt (planSources : List PlanSource) (address name : String) : Prop :=
  ∃ source ∈ planSources, source.Declares address name

/-- The plan declares a name at this content address and at no other. -/
def DeclaredOnlyAt (planSources : List PlanSource) (address name : String) : Prop :=
  DeclaredAt planSources address name ∧
    ∀ other, DeclaredAt planSources other name → other = address

theorem DeclaredOnlyAt.eq {other : String} (here : DeclaredOnlyAt planSources address name)
    (there : DeclaredOnlyAt planSources other name) : address = other :=
  there.2 address here.1

/-- Names that are declared only at one address have the same addresses. -/
theorem DeclaredOnlyAt.declaredAt_iff {fellow : String}
    (here : DeclaredOnlyAt planSources address name)
    (there : DeclaredOnlyAt planSources address fellow) (place : String) :
    DeclaredAt planSources place name ↔ DeclaredAt planSources place fellow := by
  constructor
  · intro declared
    rw [here.2 place declared]
    exact there.1
  · intro declared
    rw [there.2 place declared]
    exact here.1

/-- The groups are kept under distinct addresses. -/
theorem nodup_keys_addToGroup {groups : List (String × List String)} {source : PlanSource}
    (distinct : (groups.map Prod.fst).Nodup) :
    ((addToGroup groups source).map Prod.fst).Nodup := by
  unfold addToGroup
  split
  · rename_i entered named here there
    split
    · rename_i absent
      have unlisted : entered ∉ groups.map Prod.fst := by
        intro listed
        obtain ⟨group, member, rfl⟩ := List.mem_map.mp listed
        have miss := List.lookup_eq_none_iff.mp absent group member
        simp at miss
      rw [List.map_append, List.map_singleton]
      exact List.Nodup.append distinct (List.nodup_singleton _)
        (List.disjoint_singleton.mpr unlisted)
    · have keys : (groups.map fun group =>
          if group.1 = entered ∧ named ∉ group.2 then (group.1, group.2 ++ [named])
          else group).map Prod.fst = groups.map Prod.fst := by
        rw [List.map_map]
        apply List.map_congr_left
        intro group _
        simp only [Function.comp_apply]
        split_ifs <;> rfl
      rw [keys]
      exact distinct
  · exact distinct

theorem nodup_keys_namesByAddress (planSources : List PlanSource) :
    ((planSources.foldl addToGroup []).map Prod.fst).Nodup := by
  induction planSources using List.reverseRecOn with
  | nil => exact List.nodup_nil
  | append_singleton sources last ih =>
    rw [List.foldl_concat]
    exact nodup_keys_addToGroup ih

/-- The names of a group that are in no other group are those declared only at its address. -/
theorem declaredOnlyAt_iff_of_group {group : String × List String}
    (member : group ∈ planSources.foldl addToGroup []) :
    (name ∈ group.2 ∧ ((planSources.foldl addToGroup []).filter fun other =>
        name ∈ other.2).length = 1) ↔ DeclaredOnlyAt planSources group.1 name := by
  have distinct := nodup_keys_namesByAddress planSources
  have unique : ∀ other ∈ planSources.foldl addToGroup [], other.1 = group.1 → other = group :=
    fun other among same => List.inj_on_of_nodup_map distinct among member same
  constructor
  · rintro ⟨listed, once⟩
    obtain ⟨only, alone⟩ := List.length_eq_one_iff.mp once
    have here : group ∈ [only] := alone ▸ List.mem_filter.mpr ⟨member, by simpa using listed⟩
    refine ⟨exists_mem_namesByAddress_iff.mp ⟨group, member, rfl, listed⟩, ?_⟩
    intro place declared
    obtain ⟨other, among, rfl, ofOther⟩ := exists_mem_namesByAddress_iff.mpr declared
    have there : other ∈ [only] := alone ▸ List.mem_filter.mpr ⟨among, by simpa using ofOther⟩
    rw [List.mem_singleton.mp here, List.mem_singleton.mp there]
  · rintro ⟨declared, only⟩
    obtain ⟨other, among, same, listed⟩ := exists_mem_namesByAddress_iff.mpr declared
    obtain rfl := unique other among same
    refine ⟨listed, ?_⟩
    have alone : ((planSources.foldl addToGroup []).filter fun other => name ∈ other.2).Perm
        [other] := by
      apply (List.perm_ext_iff_of_nodup (distinct.of_map.filter _) (List.nodup_singleton _)).mpr
      intro third
      rw [List.mem_filter, List.mem_singleton, decide_eq_true_iff]
      constructor
      · rintro ⟨among', listed'⟩
        apply unique third among'
        exact only third.1 (exists_mem_namesByAddress_iff.mp ⟨third, among', rfl, listed'⟩)
      · rintro rfl
        exact ⟨among, listed⟩
    exact alone.length_eq

/-- What is listed for a name are the names declared only where it is, and it is declared at
one address only. -/
theorem mem_groupAliasesByName {names : List String}
    (grouped : (name, names) ∈ groupAliasesByName planSources) :
    ∃ address, DeclaredOnlyAt planSources address name ∧
      ∀ other, other ∈ names ↔ DeclaredOnlyAt planSources address other := by
  obtain ⟨group, member, unambiguous⟩ := List.mem_flatMap.mp grouped
  simp only [List.mem_map, List.mem_filter, Prod.mk.injEq, decide_eq_true_iff] at unambiguous
  obtain ⟨_, own, rfl, rfl⟩ := unambiguous
  refine ⟨group.1, (declaredOnlyAt_iff_of_group member).mp own, fun other => ?_⟩
  rw [List.mem_filter, decide_eq_true_iff]
  exact declaredOnlyAt_iff_of_group member

/-- The aliases looked up for a builder are the names declared only where the builder is, if
that is one address. -/
theorem mem_aliases_iff {builder : String} :
    name ∈ ((groupAliasesByName planSources).lookup builder).getD [] ↔
      ∃ address, DeclaredOnlyAt planSources address builder ∧
        DeclaredOnlyAt planSources address name := by
  cases known : (groupAliasesByName planSources).lookup builder with
  | some names =>
    obtain ⟨before, after, split, -⟩ := List.lookup_eq_some_iff.mp known
    have grouped : (builder, names) ∈ groupAliasesByName planSources := by simp [split]
    obtain ⟨address, builderOnly, fellows⟩ := mem_groupAliasesByName grouped
    rw [Option.getD_some, fellows]
    constructor
    · exact fun only => ⟨address, builderOnly, only⟩
    · rintro ⟨place, here, only⟩
      rw [builderOnly.eq here]
      exact only
  | none =>
    rw [Option.getD_none]
    refine ⟨fun listed => absurd listed List.not_mem_nil, ?_⟩
    rintro ⟨address, builderOnly, -⟩
    obtain ⟨group, member, rfl, listed⟩ := exists_mem_namesByAddress_iff.mpr builderOnly.1
    have grouped : (builder, group.2.filter fun name =>
        ((planSources.foldl addToGroup []).filter fun other => name ∈ other.2).length = 1) ∈
        groupAliasesByName planSources := by
      apply List.mem_flatMap.mpr
      refine ⟨group, member, List.mem_map.mpr ⟨builder, ?_, rfl⟩⟩
      rw [List.mem_filter, decide_eq_true_iff]
      exact (declaredOnlyAt_iff_of_group member).mpr builderOnly
    have miss := List.lookup_eq_none_iff.mp known _ grouped
    simp at miss

end Plan

/-! ## Stored entries -/

/-- An entry is of a table in a destination, with the columns that were captured there. -/
structure ManifestEntry.StoredAs (entry : ManifestEntry) (builder destination table : String) :
    Prop where
  named : filled entry.sourceName = some builder
  inDestination : filled entry.storageDestinationName = some destination
  inTable : filled entry.physicalTableName = some table
  captured : entry.columns ≠ []

/-- An entry is stored, and this source built it. -/
def ManifestEntry.BuiltBy (entry : ManifestEntry) (builder : String) : Prop :=
  ∃ destination table, entry.StoredAs builder destination table

/-- A name owns an entry of the manifest, stored or not. -/
def OwnsEntry (entries : ManifestEntries) (name : String) : Prop :=
  ∃ keyed ∈ entries, filled keyed.2.sourceName = some name

theorem ManifestEntry.BuiltBy.eq {entry : ManifestEntry} {builder other : String}
    (built : entry.BuiltBy builder) (built' : entry.BuiltBy other) : builder = other := by
  obtain ⟨_, _, stored⟩ := built
  obtain ⟨_, _, stored'⟩ := built'
  exact Option.some.inj (stored.named.symm.trans stored'.named)

theorem ManifestEntry.BuiltBy.ownsEntry {entries : ManifestEntries}
    {keyed : String × ManifestEntry} {builder : String} (member : keyed ∈ entries)
    (built : keyed.2.BuiltBy builder) : OwnsEntry entries builder := by
  obtain ⟨_, _, stored⟩ := built
  exact ⟨keyed, member, stored.named⟩

/-- A binding stands over an entry's table, under its handle and with its columns. -/
structure ServeBinding.BindsTo (binding : ServeBinding) (entry : ManifestEntry)
    (destination table : String) : Prop where
  virtualHandle : binding.virtualHandle = entry.sourceEntityId
  tablePath : binding.tablePath = destination ++ "." ++ table
  schema : binding.schema = entry.columns

/-- The names an entry's table is bound under. -/
def tableNames (entries : ManifestEntries) (planSources : List PlanSource)
    (keyed : String × ManifestEntry) : List String :=
  (entryBindings (groupAliasesByName planSources)
    (entries.filterMap fun keyed => filled keyed.2.sourceName) keyed.2).map (·.sourceName)

section Bound

variable {entries : ManifestEntries} {planSources : List PlanSource}

/-- Each name is bound once: no two bindings have one name; an alias is bound to the table
its builder has; and what is bound to a table has the content addresses of its builder. -/
structure BoundOnce (entries : ManifestEntries) (planSources : List PlanSource) : Prop where
  once : ((deriveServeBindings entries (groupAliasesByName planSources)).map
    (·.sourceName)).Nodup
  aliases : ∀ keyed ∈ entries, ∀ builder destination table,
    keyed.2.StoredAs builder destination table →
    ∀ address name, DeclaredAt planSources address builder →
      DeclaredOnlyAt planSources address name → ¬ OwnsEntry entries name →
      ∃ binding ∈ deriveServeBindings entries (groupAliasesByName planSources),
        binding.sourceName = name ∧ binding.BindsTo keyed.2 destination table
  ownContent : ∀ keyed ∈ entries, ∀ builder, keyed.2.BuiltBy builder →
    ∀ name ∈ tableNames entries planSources keyed, ∀ address,
      DeclaredAt planSources address name ↔ DeclaredAt planSources address builder

/-- The builders of stored entries are apart. No two have one name. No alias without an entry
stands at the only address of two of them. And where such an alias stands at an address of a
builder, it is the only address of that builder, or of one whose entry has the same handle,
table and columns. -/
structure BuildersApart (entries : ManifestEntries) (planSources : List PlanSource) :
    Prop where
  names : entries.Pairwise fun earlier later => ∀ builder,
    earlier.2.BuiltBy builder → ¬ later.2.BuiltBy builder
  aliases : entries.Pairwise fun earlier later => ∀ builder other,
    earlier.2.BuiltBy builder → later.2.BuiltBy other →
    ∀ address name, DeclaredOnlyAt planSources address builder →
      DeclaredOnlyAt planSources address other → DeclaredOnlyAt planSources address name →
      OwnsEntry entries name
  plain : ∀ keyed ∈ entries, ∀ builder destination table,
    keyed.2.StoredAs builder destination table →
    ∀ address name, DeclaredAt planSources address builder →
      DeclaredOnlyAt planSources address name → ¬ OwnsEntry entries name →
      ∃ alike ∈ entries, ∃ other destination' table',
        alike.2.StoredAs other destination' table' ∧
        DeclaredOnlyAt planSources address other ∧
        alike.2.sourceEntityId = keyed.2.sourceEntityId ∧
        destination' ++ "." ++ table' = destination ++ "." ++ table ∧
        alike.2.columns = keyed.2.columns

/-! ## The names of an entry -/

theorem mem_builders_iff {name : String} :
    name ∈ (entries.filterMap fun keyed => filled keyed.2.sourceName) ↔ OwnsEntry entries name := by
  rw [List.mem_filterMap]
  rfl

/-- The bindings of a stored entry are those of its builder's name and its aliases. -/
theorem entryBindings_of_storedAs {entry : ManifestEntry} {builder destination table : String}
    (stored : entry.StoredAs builder destination table) (aliases : List (String × List String))
    (builders : List String) :
    entryBindings aliases builders entry =
      (boundNames aliases builders builder).map (entryBinding entry destination table) := by
  unfold entryBindings
  rw [stored.named, stored.inDestination, stored.inTable]
  exact if_neg stored.captured

/-- An entry that has bindings is stored. -/
theorem exists_storedAs_of_mem_entryBindings {entry : ManifestEntry} {binding : ServeBinding}
    {aliases : List (String × List String)} {builders : List String}
    (bound : binding ∈ entryBindings aliases builders entry) :
    ∃ builder destination table, entry.StoredAs builder destination table := by
  unfold entryBindings at bound
  split at bound
  · rename_i builder destination table named inDestination inTable
    split_ifs at bound with captured
    · cases bound
    · exact ⟨builder, destination, table, named, inDestination, inTable, captured⟩
  · cases bound

/-- A stored entry's table is bound under its builder's name and under the aliases that stand
with it at its only address and own no entry. -/
theorem mem_tableNames_iff {keyed : String × ManifestEntry} {name : String} :
    name ∈ tableNames entries planSources keyed ↔
      ∃ builder, keyed.2.BuiltBy builder ∧ (name = builder ∨
        (∃ address, DeclaredOnlyAt planSources address builder ∧
          DeclaredOnlyAt planSources address name) ∧ ¬ OwnsEntry entries name) := by
  constructor
  · intro listed
    obtain ⟨binding, bound, rfl⟩ := List.mem_map.mp listed
    obtain ⟨builder, destination, table, stored⟩ := exists_storedAs_of_mem_entryBindings bound
    refine ⟨builder, ⟨destination, table, stored⟩, ?_⟩
    rw [entryBindings_of_storedAs stored] at bound
    obtain ⟨name, among, rfl⟩ := List.mem_map.mp bound
    rcases List.mem_cons.mp (List.mem_eraseDups.mp among) with own | other
    · exact .inl own
    · obtain ⟨grouped, free⟩ := List.mem_filter.mp other
      refine .inr ⟨mem_aliases_iff.mp grouped, ?_⟩
      rw [← mem_builders_iff]
      exact of_decide_eq_true free
  · rintro ⟨builder, ⟨destination, table, stored⟩, among⟩
    rw [tableNames, entryBindings_of_storedAs stored, List.map_map]
    refine List.mem_map.mpr ⟨name, List.mem_eraseDups.mpr (List.mem_cons.mpr ?_), rfl⟩
    rcases among with rfl | ⟨fellow, free⟩
    · exact .inl rfl
    · refine .inr (List.mem_filter.mpr ⟨mem_aliases_iff.mpr fellow, ?_⟩)
      rw [← mem_builders_iff] at free
      exact decide_eq_true free

theorem nodup_tableNames (keyed : String × ManifestEntry) :
    (tableNames entries planSources keyed).Nodup := by
  cases bound : entryBindings (groupAliasesByName planSources)
      (entries.filterMap fun keyed => filled keyed.2.sourceName) keyed.2 with
  | nil =>
    rw [tableNames, bound]
    exact List.nodup_nil
  | cons first rest =>
    obtain ⟨builder, destination, table, stored⟩ :=
      exists_storedAs_of_mem_entryBindings (bound ▸ List.mem_cons_self ..)
    rw [tableNames, entryBindings_of_storedAs stored, List.map_map]
    have same : (fun binding : ServeBinding => binding.sourceName) ∘
        entryBinding keyed.2 destination table = id := rfl
    rw [same, List.map_id]
    exact nodup_eraseDups _

theorem map_sourceName_deriveServeBindings :
    (deriveServeBindings entries (groupAliasesByName planSources)).map (·.sourceName) =
      entries.flatMap (tableNames entries planSources) := by
  rw [deriveServeBindings, List.map_flatMap]
  rfl

/-! ## Where names are bound once -/

/-- The bindings have distinct names exactly if no two entries' tables share one. -/
theorem nodup_sourceNames_iff :
    ((deriveServeBindings entries (groupAliasesByName planSources)).map (·.sourceName)).Nodup ↔
      entries.Pairwise fun earlier later => ∀ name,
        name ∈ tableNames entries planSources earlier →
          name ∉ tableNames entries planSources later := by
  rw [map_sourceName_deriveServeBindings, List.nodup_flatMap]
  constructor
  · rintro ⟨-, apart⟩
    apply apart.imp
    intro earlier later disjoint name ofEarlier ofLater
    exact disjoint ofEarlier ofLater
  · intro apart
    refine ⟨fun keyed _ => nodup_tableNames keyed, ?_⟩
    apply apart.imp
    intro earlier later separate name ofEarlier ofLater
    exact separate name ofEarlier ofLater

/-- Two stored entries share a name exactly if one source built both, or an alias without an
entry stands at the only address of both builders. -/
theorem tableNames_disjoint_iff {earlier later : String × ManifestEntry}
    (first : earlier ∈ entries) (second : later ∈ entries) :
    (∀ name, name ∈ tableNames entries planSources earlier →
        name ∉ tableNames entries planSources later) ↔
      (∀ builder, earlier.2.BuiltBy builder → ¬ later.2.BuiltBy builder) ∧
      ∀ builder other, earlier.2.BuiltBy builder → later.2.BuiltBy other →
        ∀ address name, DeclaredOnlyAt planSources address builder →
          DeclaredOnlyAt planSources address other → DeclaredOnlyAt planSources address name →
          OwnsEntry entries name := by
  simp only [mem_tableNames_iff]
  constructor
  · intro separate
    constructor
    · intro builder built built'
      exact separate builder ⟨builder, built, .inl rfl⟩ ⟨builder, built', .inl rfl⟩
    · intro builder other built built' address name only only' fellow
      by_contra free
      exact separate name ⟨builder, built, .inr ⟨⟨address, only, fellow⟩, free⟩⟩
        ⟨other, built', .inr ⟨⟨address, only', fellow⟩, free⟩⟩
  · rintro ⟨names, aliases⟩ name ⟨builder, built, ofFirst⟩ ⟨other, built', ofSecond⟩
    have owner := built.ownsEntry first
    have owner' := built'.ownsEntry second
    rcases ofFirst with rfl | ⟨⟨address, only, fellow⟩, free⟩
    · rcases ofSecond with rfl | ⟨-, free⟩
      · exact names _ built built'
      · exact free owner
    · rcases ofSecond with rfl | ⟨⟨address', only', fellow'⟩, -⟩
      · exact free owner'
      · obtain rfl := fellow.eq fellow'
        exact free (aliases builder other built built' address name only only' fellow)

/-- What a name is bound to has the content addresses of the name. -/
theorem declaredAt_iff_of_mem_tableNames {keyed : String × ManifestEntry} {builder name : String}
    (built : keyed.2.BuiltBy builder) (listed : name ∈ tableNames entries planSources keyed)
    (address : String) :
    DeclaredAt planSources address name ↔ DeclaredAt planSources address builder := by
  obtain ⟨_, built', among⟩ := mem_tableNames_iff.mp listed
  obtain rfl := built.eq built'
  rcases among with rfl | ⟨⟨place, only, fellow⟩, -⟩
  · exact Iff.rfl
  · exact fellow.declaredAt_iff only address

/-- A name is bound to a table exactly through an entry of that handle, table and columns
among whose names it is. -/
theorem exists_binding_iff {keyed : String × ManifestEntry} {destination table name : String} :
    (∃ binding ∈ deriveServeBindings entries (groupAliasesByName planSources),
        binding.sourceName = name ∧ binding.BindsTo keyed.2 destination table) ↔
      ∃ alike ∈ entries, ∃ other destination' table',
        alike.2.StoredAs other destination' table' ∧
        name ∈ tableNames entries planSources alike ∧
        alike.2.sourceEntityId = keyed.2.sourceEntityId ∧
        destination' ++ "." ++ table' = destination ++ "." ++ table ∧
        alike.2.columns = keyed.2.columns := by
  constructor
  · rintro ⟨binding, member, rfl, binds⟩
    obtain ⟨alike, among, bound⟩ := List.mem_flatMap.mp member
    obtain ⟨other, destination', table', stored⟩ := exists_storedAs_of_mem_entryBindings bound
    have listed : binding.sourceName ∈ tableNames entries planSources alike :=
      List.mem_map.mpr ⟨binding, bound, rfl⟩
    rw [entryBindings_of_storedAs stored] at bound
    obtain ⟨name, -, rfl⟩ := List.mem_map.mp bound
    exact ⟨alike, among, other, destination', table', stored, listed, binds.virtualHandle,
      binds.tablePath, binds.schema⟩
  · rintro ⟨alike, among, other, destination', table', stored, listed, handle, path, columns⟩
    obtain ⟨binding, bound, rfl⟩ := List.mem_map.mp listed
    refine ⟨binding, List.mem_flatMap.mpr ⟨alike, among, bound⟩, rfl, ?_⟩
    rw [entryBindings_of_storedAs stored] at bound
    obtain ⟨name, -, rfl⟩ := List.mem_map.mp bound
    exact ⟨handle, path, columns⟩

/-- Names are bound once each, and to the tables of their own content, exactly where the
builders of the stored entries are apart. -/
theorem boundOnce_iff (entries : ManifestEntries) (planSources : List PlanSource) :
    BoundOnce entries planSources ↔ BuildersApart entries planSources := by
  have pairs : entries.Pairwise (fun earlier later => ∀ name,
        name ∈ tableNames entries planSources earlier →
          name ∉ tableNames entries planSources later) ↔
      entries.Pairwise fun earlier later =>
        (∀ builder, earlier.2.BuiltBy builder → ¬ later.2.BuiltBy builder) ∧
        ∀ builder other, earlier.2.BuiltBy builder → later.2.BuiltBy other →
          ∀ address name, DeclaredOnlyAt planSources address builder →
            DeclaredOnlyAt planSources address other →
            DeclaredOnlyAt planSources address name → OwnsEntry entries name :=
    List.Pairwise.iff_of_mem fun first second => tableNames_disjoint_iff first second
  constructor
  · intro bound
    obtain ⟨names, aliases⟩ := List.pairwise_and_iff.mp
      (pairs.mp (nodup_sourceNames_iff.mp bound.once))
    refine ⟨names, aliases, ?_⟩
    intro keyed member builder destination table stored address name here only free
    obtain ⟨alike, among, other, destination', table', stored', listed, same⟩ :=
      exists_binding_iff.mp
        (bound.aliases keyed member builder destination table stored address name here only free)
    refine ⟨alike, among, other, destination', table', stored', ?_, same⟩
    obtain ⟨builder', built, named⟩ := mem_tableNames_iff.mp listed
    obtain rfl := built.eq ⟨destination', table', stored'⟩
    rcases named with rfl | ⟨⟨place, onlyPlace, fellow⟩, -⟩
    · exact absurd (built.ownsEntry among) free
    · rw [only.eq fellow]
      exact onlyPlace
  · intro apart
    refine ⟨nodup_sourceNames_iff.mpr (pairs.mpr
      (List.pairwise_and_iff.mpr ⟨apart.names, apart.aliases⟩)), ?_, ?_⟩
    · intro keyed member builder destination table stored address name here only free
      obtain ⟨alike, among, other, destination', table', stored', onlyOther, same⟩ :=
        apart.plain keyed member builder destination table stored address name here only free
      refine exists_binding_iff.mpr ⟨alike, among, other, destination', table', stored', ?_, same⟩
      exact mem_tableNames_iff.mpr
        ⟨other, ⟨destination', table', stored'⟩, .inr ⟨⟨address, onlyOther, only⟩, free⟩⟩
    · intro keyed _ builder built name listed address
      exact declaredAt_iff_of_mem_tableNames built listed address

end Bound

/-! ## Two builders of one name -/

/-- The entry of a source stored in a lake. -/
def lakeEntry (sourceName sourceEntityId table : String) : ManifestEntry where
  sourceEntityId := sourceEntityId
  sourceName := some sourceName
  materializedTableId := none
  physicalTableName := some table
  connectionName := some "warehouse"
  storageDestinationName := some "lake"
  schema := some [(some "day", some "date")]
  origin := none
  dataAsOf := none
  freshnessWindowSeconds := none
  freshnessFallback := none
  error := none

/-- Two models each declare and store a source `daily`: the name is bound to both tables. -/
theorem two_builders_not_boundOnce :
    ¬ BoundOnce [("a1", lakeEntry "daily" "a1" "daily_web"),
        ("b2", lakeEntry "daily" "b2" "daily_app")]
      [⟨some "daily", some "a1"⟩, ⟨some "daily", some "b2"⟩] := by
  intro bound
  have names := bound.once
  revert names
  decide

end MalloyPublisher.Serving
