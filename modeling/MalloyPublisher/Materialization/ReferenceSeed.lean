import MalloyPublisher.Serving.AutoLoad

/-!
# The references that a build is seeded with

An instructed build resolves the tables that it does not build itself from three records: the
references of its call, the manifest that the package is bound to and the manifest of the last
local run. An entry of one is filled with what the next ones have under the same address. An
address is of the content of a table and not of a table, so that the records may mean different
tables by it.

## Main definitions

* `seedEntries` — the entries that a build is seeded with
* `recordsOf` — what the three records have under an address
* `OfOneTable` — where an entry says nothing of another table than the one it names

## Main results

* `lookup_seedEntries` — an entry has of each field what the first record has of it
* `ofOneTable_iff` — when all entries are of one table each
* `generation_mixed` — a reference that is filled with the place of an older table
-/

namespace MalloyPublisher.Materialization

open Foundations
open Serving (ManifestEntry ManifestEntries FetchedManifest)

/-! ## The three steps -/

/-- An upstream that the caller refers to. -/
structure ManifestReference where
  sourceEntityId : String
  physicalTableName : String
  connectionName : Option String

/-- An entry that has nothing but a place. -/
def placed (sourceEntityId physicalTableName : String) (connectionName : Option String) :
    ManifestEntry where
  sourceEntityId
  sourceName := none
  materializedTableId := none
  physicalTableName := some physicalTableName
  connectionName
  storageDestinationName := none
  schema := none
  origin := none
  dataAsOf := none
  freshnessWindowSeconds := none
  freshnessFallback := none
  error := none

def referenceManifestToEntries (referenceManifest : List ManifestReference) : ManifestEntries :=
  writeAll [] (referenceManifest.map fun ref =>
    (ref.sourceEntityId, placed ref.sourceEntityId ref.physicalTableName ref.connectionName))

/-- The defined fields of an entry over those of another. -/
def fillGaps (existing entry : ManifestEntry) : ManifestEntry where
  sourceEntityId := existing.sourceEntityId
  sourceName := existing.sourceName.or entry.sourceName
  materializedTableId := existing.materializedTableId.or entry.materializedTableId
  physicalTableName := existing.physicalTableName.or entry.physicalTableName
  connectionName := existing.connectionName.or entry.connectionName
  storageDestinationName := existing.storageDestinationName.or entry.storageDestinationName
  schema := existing.schema.or entry.schema
  origin := existing.origin.or entry.origin
  dataAsOf := existing.dataAsOf.or entry.dataAsOf
  freshnessWindowSeconds := existing.freshnessWindowSeconds.or entry.freshnessWindowSeconds
  freshnessFallback := existing.freshnessFallback.or entry.freshnessFallback
  error := existing.error.or entry.error

/-- The entries of both tiers of a bound manifest. -/
def boundEntries (fetched : FetchedManifest) : ManifestEntries :=
  fetched.tableNameManifest.foldl (fun bound keyed =>
    match bound.lookup keyed.1 with
    | some _ => bound
    | none => setKey keyed.1 (placed keyed.1 keyed.2.tableName keyed.2.connectionName) bound)
    (writeAll [] fetched.storageEntries)

/-- One entry of a bound manifest, unless the build is to write it. -/
def seedEntry (building : List String) (carried : ManifestEntries)
    (keyed : String × ManifestEntry) : ManifestEntries :=
  if keyed.1 ∈ building then carried
  else match carried.lookup keyed.1 with
    | none => setKey keyed.1 keyed.2 carried
    | some existing => setKey keyed.1 (fillGaps existing keyed.2) carried

/-- A package that is not bound, or whose manifest cannot be fetched, adds nothing. -/
def seedFromBoundManifest (carried : ManifestEntries) (fetched : Option FetchedManifest)
    (building : List String) : ManifestEntries :=
  match fetched with
  | none => carried
  | some fetched => (boundEntries fetched).foldl (seedEntry building) carried

/-- One reference, over what was built of it last. -/
def resolveReference (cached : ManifestEntries) (keyed : String × ManifestEntry) :
    String × ManifestEntry :=
  (keyed.1, match cached.lookup keyed.1 with
    | none => keyed.2
    | some entry => fillGaps keyed.2 entry)

/-- A store that cannot be read adds nothing. -/
def resolveReferencesFromStore (carried : ManifestEntries) (cached : Option ManifestEntries) :
    ManifestEntries :=
  match cached with
  | none => carried
  | some cached => carried.map (resolveReference cached)

/-- What an instructed build resolves its references from. -/
structure Records where
  referenceManifest : List ManifestReference
  fetched : Option FetchedManifest
  building : List String
  cached : Option ManifestEntries

namespace Records

variable (records : Records)

def carried : ManifestEntries :=
  seedFromBoundManifest (referenceManifestToEntries records.referenceManifest) records.fetched
    records.building

/-- The store is looked up where there is something to resolve. -/
def seedEntries : ManifestEntries :=
  if records.carried = [] then records.carried
  else resolveReferencesFromStore records.carried records.cached

/-! ## What the records have -/

/-- The last reference to an address. -/
def explicit (address : String) : Option ManifestEntry :=
  (referenceManifestToEntries records.referenceManifest).lookup address

/-- What a bound manifest has under an address that the build does not write. -/
def bound (address : String) : Option ManifestEntry :=
  if address ∈ records.building then none
  else records.fetched.bind fun fetched => (boundEntries fetched).lookup address

def stored (address : String) : Option ManifestEntry :=
  records.cached.bind fun cached => cached.lookup address

/-- The records under an address, the first before the others. -/
def recordsOf (address : String) : List ManifestEntry :=
  (records.explicit address).toList ++ (records.bound address).toList ++
    (records.stored address).toList

/-- An address that is referred to or bound is seeded. -/
def Seeded (address : String) : Prop :=
  (records.explicit address).isSome ∨ (records.bound address).isSome

end Records

/-! ## What is seeded -/

section Overlay

variable {carried bound : ManifestEntries} {building : List String} {address : String}

/-- An entry over another, where there are both. -/
def overlay : Option ManifestEntry → Option ManifestEntry → Option ManifestEntry
  | none, lower => lower
  | some existing, none => some existing
  | some existing, some entry => some (fillGaps existing entry)

theorem lookup_seedEntry (keyed : String × ManifestEntry) :
    (seedEntry building carried keyed).lookup address =
      if address = keyed.1 ∧ keyed.1 ∉ building then
        overlay (carried.lookup address) (some keyed.2)
      else carried.lookup address := by
  unfold seedEntry
  by_cases built : keyed.1 ∈ building
  · rw [if_pos built, if_neg fun both => both.2 built]
  · rw [if_neg built]
    cases existing : carried.lookup keyed.1 with
    | none =>
      dsimp only
      rw [lookup_setKey]
      by_cases same : address = keyed.1
      · rw [if_pos same, if_pos ⟨same, built⟩, same, existing]
        rfl
      · rw [if_neg same, if_neg fun both => same both.1]
    | some entry =>
      dsimp only
      rw [lookup_setKey]
      by_cases same : address = keyed.1
      · rw [if_pos same, if_pos ⟨same, built⟩, same, existing]
        rfl
      · rw [if_neg same, if_neg fun both => same both.1]

theorem lookup_foldl_seedEntry (distinct : (bound.map Prod.fst).Nodup) :
    (bound.foldl (seedEntry building) carried).lookup address =
      overlay (carried.lookup address)
        (if address ∈ building then none else bound.lookup address) := by
  induction bound generalizing carried with
  | nil =>
    rw [List.foldl_nil, List.lookup_nil, ite_self]
    cases carried.lookup address <;> rfl
  | cons keyed bound ih =>
    obtain ⟨fresh, distinct⟩ := List.nodup_cons.mp distinct
    rw [List.foldl_cons, ih distinct, lookup_seedEntry]
    obtain ⟨key, entry⟩ := keyed
    by_cases same : address = key
    · subst same
      have absent : bound.lookup address = none := by
        rw [← Option.not_isSome_iff_eq_none, isSome_lookup_iff]
        exact fresh
      rw [absent, ite_self, List.lookup_cons_self]
      by_cases built : address ∈ building
      · rw [if_neg fun both => both.2 built, if_pos built]
      · rw [if_pos ⟨rfl, built⟩, if_neg built]
        cases carried.lookup address <;> rfl
    · rw [if_neg fun both => same both.1, List.lookup_cons, beq_eq_false_iff_ne.mpr same]

theorem lookup_resolveReferencesFromStore (cached : Option ManifestEntries) :
    (resolveReferencesFromStore carried cached).lookup address =
      (carried.lookup address).bind fun entry =>
        overlay (some entry) (cached.bind fun cached => cached.lookup address) := by
  cases cached with
  | none =>
    cases existing : carried.lookup address with
    | none => exact existing
    | some entry => exact existing
  | some cached =>
    have resolved : ∀ keyed : String × ManifestEntry, keyed.1 = address →
        some (resolveReference cached keyed).2 = overlay (some keyed.2) (cached.lookup address) := by
      rintro ⟨key, entry⟩ rfl
      unfold resolveReference
      dsimp only
      cases cached.lookup key <;> rfl
    change (carried.map (resolveReference cached)).lookup address = _
    induction carried with
    | nil => rfl
    | cons keyed carried ih =>
      rw [List.map_cons, List.lookup_cons, List.lookup_cons]
      have isKey : (resolveReference cached keyed).1 = keyed.1 := rfl
      rw [isKey]
      by_cases same : address = keyed.1
      · rw [beq_iff_eq.mpr same]
        exact resolved keyed same.symm
      · rw [beq_eq_false_iff_ne.mpr same]
        exact ih

theorem nodup_boundEntries (fetched : FetchedManifest) :
    ((boundEntries fetched).map Prod.fst).Nodup := by
  unfold boundEntries
  have start : ((writeAll [] fetched.storageEntries).map Prod.fst).Nodup :=
    nodup_writeAll List.nodup_nil
  generalize writeAll [] fetched.storageEntries = bound at start
  induction fetched.tableNameManifest generalizing bound with
  | nil => exact start
  | cons keyed names ih =>
    rw [List.foldl_cons]
    refine ih _ ?_
    cases bound.lookup keyed.1 with
    | none => exact nodup_setKey start
    | some entry => exact start

end Overlay

/-! ## Of one table each -/

/-- A field that an entry has only where another lacks it. -/
def FillsGaps {α : Type} (field : ManifestEntry → Option α) : Prop :=
  ∀ existing entry, field (fillGaps existing entry) = (field existing).or (field entry)

section Seeded

variable {records : Records} {address : String} {entry : ManifestEntry} {α : Type}
  {field : ManifestEntry → Option α}

theorem lookup_carried : records.carried.lookup address =
    overlay (records.explicit address) (records.bound address) := by
  unfold Records.carried seedFromBoundManifest Records.bound
  cases records.fetched with
  | none =>
    rw [Option.bind_none, ite_self]
    change records.explicit address = _
    cases records.explicit address <;> rfl
  | some fetched => exact lookup_foldl_seedEntry (nodup_boundEntries fetched)

/-- What is seeded has of each field what the first record has of it. -/
theorem lookup_seedEntries : records.seedEntries.lookup address =
    (overlay (records.explicit address) (records.bound address)).bind fun entry =>
      overlay (some entry) (records.stored address) := by
  unfold Records.seedEntries
  split_ifs with nothing
  · have none : records.carried.lookup address = none := by
      rw [nothing, List.lookup_nil]
    rw [none, ← lookup_carried, none, Option.bind_none]
  · rw [lookup_resolveReferencesFromStore, lookup_carried]
    rfl

theorem exists_seeded_iff :
    (∃ entry, records.seedEntries.lookup address = some entry) ↔ records.Seeded address := by
  rw [lookup_seedEntries, Records.Seeded]
  cases records.explicit address <;> cases records.bound address <;>
    cases records.stored address <;> simp [overlay]

theorem field_of_seeded (fills : FillsGaps field)
    (isEntry : records.seedEntries.lookup address = some entry) :
    field entry = (records.recordsOf address).findSome? field := by
  have single : ∀ found : Option ManifestEntry, found.toList.findSome? field = found.bind field := by
    rintro (_ | found)
    · rfl
    · cases isField : field found <;> simp [isField]
  rw [lookup_seedEntries] at isEntry
  rw [Records.recordsOf, List.findSome?_append, List.findSome?_append, single, single, single]
  cases explicit : records.explicit address <;> cases bound : records.bound address <;>
    cases stored : records.stored address <;>
    simp only [explicit, bound, stored, overlay, Option.bind_none, Option.bind_some, reduceCtorEq,
      Option.some_inj] at isEntry <;>
    subst isEntry <;> simp [fills _ _]

end Seeded

section Tables

variable {α : Type} {sources : List ManifestEntry} {entry : ManifestEntry}
  {field : ManifestEntry → Option α}

/-- What an entry has of a field, a record has of the table that the entry names. -/
def IsOfTable (sources : List ManifestEntry) (entry : ManifestEntry)
    (field : ManifestEntry → Option α) : Prop :=
  ∀ value, field entry = some value →
    ∃ source ∈ sources, source.physicalTableName = entry.physicalTableName ∧
      field source = some value

/-- The table that is named first. -/
def tableNamed (sources : List ManifestEntry) : Option String :=
  sources.findSome? (·.physicalTableName)

/-- A record of another table than the one that is named has nothing of a field that the records
before it lack, unless it is what a record of that table has. -/
def KeptApart (sources : List ManifestEntry) (field : ManifestEntry → Option α) : Prop :=
  ∀ before lower behind, sources = before ++ lower :: behind →
    lower.physicalTableName ≠ tableNamed sources →
      field lower = none ∨ (∃ source ∈ before, field source ≠ none) ∨
        ∃ source ∈ sources, source.physicalTableName = tableNamed sources ∧
          field source = field lower

/-- What is first is of the table where what is of other tables is kept apart. -/
theorem isOfTable_iff (isName : entry.physicalTableName = tableNamed sources)
    (isField : field entry = sources.findSome? field) :
    IsOfTable sources entry field ↔ KeptApart sources field := by
  unfold IsOfTable
  rw [isName, isField]
  constructor
  · intro ofTable before lower behind split _
    by_cases lacks : field lower = none
    · exact .inl lacks
    by_cases had : ∃ source ∈ before, field source ≠ none
    · exact .inr (.inl had)
    push Not at had
    obtain ⟨value, isValue⟩ := Option.ne_none_iff_exists'.mp lacks
    have first : sources.findSome? field = some value :=
      List.findSome?_eq_some_iff.mpr ⟨before, lower, behind, split, isValue, had⟩
    obtain ⟨source, member, sameTable, same⟩ := ofTable value first
    exact .inr (.inr ⟨source, member, sameTable, same.trans isValue.symm⟩)
  · intro apart value first
    obtain ⟨before, lower, behind, split, isValue, lacking⟩ := List.findSome?_eq_some_iff.mp first
    by_cases sameTable : lower.physicalTableName = tableNamed sources
    · exact ⟨lower, by rw [split]; simp, sameTable, isValue⟩
    · rcases apart before lower behind split sameTable with
        lacks | ⟨source, member, has⟩ | ⟨source, member, isTable, same⟩
      · rw [lacks] at isValue
        cases isValue
      · exact absurd (lacking source member) has
      · exact ⟨source, member, isTable, same.trans isValue⟩

end Tables

/-- The place of an entry's table and its columns are all of the table that the entry names. -/
structure OfOneTable (sources : List ManifestEntry) (entry : ManifestEntry) : Prop where
  destination : IsOfTable sources entry (·.storageDestinationName)
  connection : IsOfTable sources entry (·.connectionName)
  columns : IsOfTable sources entry (·.schema)

/-- The records of other tables are kept apart, whichever of the three they would fill. -/
structure TablesApart (sources : List ManifestEntry) : Prop where
  destination : KeptApart sources (·.storageDestinationName)
  connection : KeptApart sources (·.connectionName)
  columns : KeptApart sources (·.schema)

/-- All that a build is seeded with is of one table each exactly where records of other tables are
kept apart under each address that is seeded. -/
theorem ofOneTable_iff (records : Records) :
    (∀ address entry, records.seedEntries.lookup address = some entry →
        OfOneTable (records.recordsOf address) entry) ↔
      ∀ address, records.Seeded address → TablesApart (records.recordsOf address) := by
  have step : ∀ {address entry}, records.seedEntries.lookup address = some entry →
      (OfOneTable (records.recordsOf address) entry ↔
        TablesApart (records.recordsOf address)) := by
    intro address entry isEntry
    have isName : entry.physicalTableName = tableNamed (records.recordsOf address) :=
      field_of_seeded (fun _ _ => rfl) isEntry
    have place {α : Type} {field : ManifestEntry → Option α} (fills : FillsGaps field) :
        IsOfTable (records.recordsOf address) entry field ↔
          KeptApart (records.recordsOf address) field :=
      isOfTable_iff isName (field_of_seeded fills isEntry)
    have destination := place fun existing entry =>
      (rfl : (fillGaps existing entry).storageDestinationName = _)
    have connection := place fun existing entry =>
      (rfl : (fillGaps existing entry).connectionName = _)
    have columns := place fun existing entry => (rfl : (fillGaps existing entry).schema = _)
    constructor
    · rintro ⟨first, second, third⟩
      exact ⟨destination.mp first, connection.mp second, columns.mp third⟩
    · rintro ⟨first, second, third⟩
      exact ⟨destination.mpr first, connection.mpr second, columns.mpr third⟩
  constructor
  · intro ofOneTable address seeded
    obtain ⟨entry, isEntry⟩ := exists_seeded_iff.mpr seeded
    exact (step isEntry).mp (ofOneTable address entry isEntry)
  · intro apart address entry isEntry
    exact (step isEntry).mpr (apart address (exists_seeded_iff.mp ⟨entry, isEntry⟩))

/-- A reference to the second generation of a table, and a first one that was stored here. -/
def renamedTable : Records where
  referenceManifest := [⟨"e", "orders_v2", some "warehouse"⟩]
  fetched := none
  building := []
  cached := some [("e", { placed "e" "orders_v1" (some "warehouse") with
    storageDestinationName := some "lake" })]

/-- The reference is seeded as a table of the destination of the other. -/
theorem generation_mixed :
    ∃ entry, renamedTable.seedEntries.lookup "e" = some entry ∧
      entry.physicalTableName = some "orders_v2" ∧ entry.storageDestinationName = some "lake" ∧
      ¬OfOneTable (renamedTable.recordsOf "e") entry := by
  refine ⟨_, rfl, rfl, rfl, fun ofOneTable => ?_⟩
  obtain ⟨source, member, isTable, stored⟩ := ofOneTable.destination "lake" rfl
  have records : renamedTable.recordsOf "e" =
      [placed "e" "orders_v2" (some "warehouse"), { placed "e" "orders_v1" (some "warehouse") with
        storageDestinationName := some "lake" }] := by decide
  rw [records] at member
  rcases List.mem_cons.mp member with rfl | member
  · cases stored
  · rw [List.mem_singleton.mp member] at isTable
    exact absurd isTable (by decide)

end MalloyPublisher.Materialization
