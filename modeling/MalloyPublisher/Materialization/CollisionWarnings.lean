import MalloyPublisher.Foundations.Grouping
import MalloyPublisher.Materialization.InstructedBuild

/-!
# Warnings of colliding tables

Two persisted sources of different content that are planned into one table overwrite each other.
A package warns of them when it is loaded: it gathers the planned sources by the text of their
container, a space and the name of their table. The text does not say whether the container is a
storage destination or a connection, nor where its name ends.

## Main definitions

* `persistenceCollisionWarnings` — what a package warns of
* `tableOf` — the table that a source is planned into, as a build tells tables apart
* `WarnsExactly` — the groups that are warned of are the tables that sources collide in

## Main results

* `warnsExactly_iff` — they are where no text is shared between tables
* `sharedName_warned` — a destination and a connection of one name
-/

namespace MalloyPublisher.Materialization

open Foundations
open Serving (filled PhysicalTarget)

/-! ## What is warned of -/

/-- A source of a build plan. -/
structure PlannedSource where
  name : String
  connectionName : String
  sourceEntityId : String
  annotationFields : List (String × String)
  deriving DecidableEq

namespace PlannedSource

variable (source : PlannedSource)

def trimmed (text : String) : String := String.ofList (trim text.toList)

/-- `(fields.name || source.name).trim()`. -/
def physicalName : String := trimmed ((filled (source.annotationFields.lookup "name")).getD source.name)

/-- `fields.storage?.trim()`, where it is not empty. -/
def storage : Option String := filled ((source.annotationFields.lookup "storage").map trimmed)

/-- Where a source is built: in the destination that it declares, or in its own warehouse. -/
def destination : String := source.storage.getD source.connectionName

def targetKey : String := source.destination ++ " " ++ source.physicalName

/-- The table that a source is planned into, as a build tells tables apart. -/
def tableOf : PhysicalTarget :=
  match source.storage with
  | some destination => .destination destination source.physicalName
  | none => .connection source.connectionName source.physicalName

end PlannedSource

/-- The sources that resolve to one target, each under its address. -/
structure CollisionTarget where
  name : String
  destination : String
  sources : List (String × String)
  deriving DecidableEq

namespace CollisionTarget

/-- A target that no source has been put into. -/
def of (source : PlannedSource) : CollisionTarget where
  name := source.physicalName
  destination := source.destination
  sources := []

/-- Sources of identical content collapse to one. -/
def add (target : CollisionTarget) (source : PlannedSource) : CollisionTarget :=
  { target with sources := setKey source.sourceEntityId source.name target.sources }

/-- `[...colliding.values()].sort()`. -/
def names (target : CollisionTarget) : List String :=
  (target.sources.map Prod.snd).insertionSort fun a b => stringLess b a = false

def warning (target : CollisionTarget) : String :=
  "#@ persist sources " ++
    ", ".intercalate (target.names.map fun name => "\"" ++ name ++ "\"") ++
    " all resolve to the same materialized table \"" ++ target.name ++ "\" in destination \"" ++
    target.destination ++ "\". Distinct sources must not share a physical target — the second " ++
    "build would overwrite the first, and a serve binding or GC drop for one would affect the " ++
    "other. Give each a distinct #@ persist name=."

end CollisionTarget

/-- The targets of a plan under their keys. -/
def targets (plan : List PlannedSource) : List (String × CollisionTarget) :=
  gather CollisionTarget.of CollisionTarget.add (plan.map fun source => (source.targetKey, source))

/-- The targets of a plan that are warned of. -/
def collidingTargets (plan : List PlannedSource) : List (String × CollisionTarget) :=
  (targets plan).filter fun target => 2 ≤ target.2.sources.length

def persistenceCollisionWarnings (plan : List PlannedSource) : List String :=
  (collidingTargets plan).map fun target => target.2.warning

/-! ## What there is to warn of -/

/-- A warning is given of these sources. -/
def Warned (plan : List PlannedSource) (sources : Set PlannedSource) : Prop :=
  ∃ target ∈ collidingTargets plan,
    sources = { source | source ∈ plan ∧ source.targetKey = target.1 }

/-- These are the sources that are planned into a table, and there are two addresses among them. -/
def Collide (plan : List PlannedSource) (sources : Set PlannedSource) : Prop :=
  (∃ table, sources = { source | source ∈ plan ∧ source.tableOf = table }) ∧
    ∃ source ∈ sources, ∃ other ∈ sources, source.sourceEntityId ≠ other.sourceEntityId

/-- A warning is given of the sources that collide in a table, and of no others. -/
def WarnsExactly (plan : List PlannedSource) : Prop :=
  ∀ sources, Warned plan sources ↔ Collide plan sources

section Targets

variable {plan : List PlannedSource} {key : String} {target : CollisionTarget}

theorem nodup_foldl_add (sources : List PlannedSource)
    (distinct : (target.sources.map Prod.fst).Nodup) :
    ((sources.foldl CollisionTarget.add target).sources.map Prod.fst).Nodup := by
  induction sources generalizing target with
  | nil => exact distinct
  | cons source sources ih => exact ih (nodup_setKey distinct)

theorem mem_foldl_add {sources : List PlannedSource} {address : String} :
    address ∈ (sources.foldl CollisionTarget.add target).sources.map Prod.fst ↔
      address ∈ target.sources.map Prod.fst ∨
        ∃ source ∈ sources, source.sourceEntityId = address := by
  induction sources generalizing target with
  | nil => simp
  | cons source sources ih =>
    rw [List.foldl_cons, ih, CollisionTarget.add, mem_keys_setKey]
    simp only [List.mem_cons, exists_eq_or_imp, eq_comm (a := address)]
    tauto

/-- A list without repetitions has two members where there are two. -/
theorem two_le_length_iff {α : Type*} {l : List α} (distinct : l.Nodup) :
    2 ≤ l.length ↔ ∃ a ∈ l, ∃ b ∈ l, a ≠ b := by
  classical
  rw [← List.toFinset_card_of_nodup distinct]
  have more : 1 < l.toFinset.card ↔ ∃ a ∈ l.toFinset, ∃ b ∈ l.toFinset, a ≠ b := Finset.one_lt_card
  simp only [List.mem_toFinset] at more
  exact more

/-- The addresses of a target are those of the sources with its key. -/
theorem mem_targets (member : (key, target) ∈ targets plan) :
    (target.sources.map Prod.fst).Nodup ∧ ∀ address, address ∈ target.sources.map Prod.fst ↔
      ∃ source ∈ plan, source.targetKey = key ∧ source.sourceEntityId = address := by
  obtain ⟨first, -, rfl⟩ := (mem_gather CollisionTarget.of CollisionTarget.add).mp member
  refine ⟨nodup_foldl_add _ List.nodup_nil, fun address => ?_⟩
  rw [mem_foldl_add]
  simp only [CollisionTarget.of, List.map_nil, List.not_mem_nil, false_or, mem_valuesOf,
    List.mem_map, Prod.mk.injEq]
  constructor
  · rintro ⟨source, ⟨_, planned, isKey, rfl⟩, isAddress⟩
    exact ⟨_, planned, isKey, isAddress⟩
  · rintro ⟨source, planned, isKey, isAddress⟩
    exact ⟨source, ⟨source, planned, isKey, rfl⟩, isAddress⟩

/-- A key is warned of where two addresses have it. -/
theorem exists_colliding_iff :
    (∃ target, (key, target) ∈ collidingTargets plan) ↔
      ∃ source ∈ plan, ∃ other ∈ plan, source.targetKey = key ∧ other.targetKey = key ∧
        source.sourceEntityId ≠ other.sourceEntityId := by
  constructor
  · rintro ⟨target, member⟩
    obtain ⟨isTarget, many⟩ := List.mem_filter.mp member
    obtain ⟨distinct, addresses⟩ := mem_targets isTarget
    have two : 2 ≤ (target.sources.map Prod.fst).length := by
      rw [List.length_map]
      exact of_decide_eq_true many
    obtain ⟨_, first, _, second, differ⟩ := (two_le_length_iff distinct).mp two
    obtain ⟨source, planned, isKey, rfl⟩ := (addresses _).mp first
    obtain ⟨other, planned', isKey', rfl⟩ := (addresses _).mp second
    exact ⟨source, planned, other, planned', isKey, isKey', differ⟩
  · rintro ⟨source, planned, other, planned', rfl, isKey, differ⟩
    have keyed : (source.targetKey, source) ∈ plan.map fun source => (source.targetKey, source) :=
      List.mem_map.mpr ⟨source, planned, rfl⟩
    obtain ⟨target, isTarget⟩ := exists_group CollisionTarget.of CollisionTarget.add keyed
    obtain ⟨distinct, addresses⟩ := mem_targets isTarget
    refine ⟨target, List.mem_filter.mpr ⟨isTarget, decide_eq_true ?_⟩⟩
    have two := (two_le_length_iff distinct).mpr
      ⟨_, (addresses _).mpr ⟨source, planned, rfl, rfl⟩, _,
        (addresses _).mpr ⟨other, planned', isKey, rfl⟩, differ⟩
    rwa [List.length_map] at two

end Targets

/-! ## Where the two are the same -/

section Exact

variable {plan : List PlannedSource} {source other : PlannedSource}

/-- The sources of one table have one key. -/
theorem targetKey_eq_of_tableOf_eq (same : source.tableOf = other.tableOf) :
    source.targetKey = other.targetKey := by
  unfold PlannedSource.tableOf at same
  unfold PlannedSource.targetKey PlannedSource.destination
  cases first : source.storage with
  | none =>
    cases second : other.storage with
    | none =>
      rw [first, second] at same
      obtain ⟨connection, table⟩ := PhysicalTarget.connection.inj same
      rw [connection, table]
    | some destination =>
      rw [first, second] at same
      cases same
  | some destination =>
    cases second : other.storage with
    | none =>
      rw [first, second] at same
      cases same
    | some destination' =>
      rw [first, second] at same
      obtain ⟨rfl, table⟩ := PhysicalTarget.destination.inj same
      rw [table]
      rfl

theorem tableOf_eq_of_warnsExactly (exact : WarnsExactly plan) (planned : source ∈ plan)
    (planned' : other ∈ plan) (differ : source.sourceEntityId ≠ other.sourceEntityId)
    (sameKey : source.targetKey = other.targetKey) : source.tableOf = other.tableOf := by
  obtain ⟨target, member⟩ :=
    exists_colliding_iff.mpr ⟨source, planned, other, planned', rfl, sameKey.symm, differ⟩
  obtain ⟨⟨table, same⟩, -⟩ := (exact _).mp ⟨_, member, rfl⟩
  have inTable : ∀ {source}, source ∈ plan → source.targetKey = _ → source.tableOf = table :=
    fun planned isKey => ((Set.ext_iff.mp same _).mp ⟨planned, isKey⟩).2
  exact (inTable planned rfl).trans (inTable planned' sameKey.symm).symm

/-- A package warns of exactly the sources that collide where sources of different addresses that
are planned into different tables have different keys. -/
theorem warnsExactly_iff (plan : List PlannedSource) :
    WarnsExactly plan ↔ ∀ source ∈ plan, ∀ other ∈ plan,
      source.sourceEntityId ≠ other.sourceEntityId → source.targetKey = other.targetKey →
        source.tableOf = other.tableOf := by
  constructor
  · intro exact source planned other planned' differ sameKey
    exact tableOf_eq_of_warnsExactly exact planned planned' differ sameKey
  · intro apart sources
    -- With two addresses in it, the sources of a key are those of a table.
    have fibre : ∀ {source other}, source ∈ plan → other ∈ plan →
        source.targetKey = other.targetKey → source.sourceEntityId ≠ other.sourceEntityId →
          { member | member ∈ plan ∧ member.targetKey = source.targetKey } =
            { member | member ∈ plan ∧ member.tableOf = source.tableOf } := by
      intro source other planned planned' sameKey differ
      ext member
      constructor
      · rintro ⟨inPlan, isKey⟩
        refine ⟨inPlan, ?_⟩
        by_cases same : member.sourceEntityId = source.sourceEntityId
        · have apartOther := apart member inPlan other planned' (same ▸ differ) (isKey.trans sameKey)
          exact apartOther.trans (apart source planned other planned' differ sameKey).symm
        · exact apart member inPlan source planned same isKey
      · rintro ⟨inPlan, isTable⟩
        exact ⟨inPlan, targetKey_eq_of_tableOf_eq isTable⟩
    constructor
    · rintro ⟨⟨key, target⟩, member, rfl⟩
      obtain ⟨source, planned, other, planned', rfl, isKey, differ⟩ :=
        exists_colliding_iff.mp ⟨target, member⟩
      refine ⟨⟨source.tableOf, fibre planned planned' isKey.symm differ⟩, source, ⟨planned, rfl⟩,
        other, ⟨planned', isKey⟩, differ⟩
    · rintro ⟨⟨table, rfl⟩, source, ⟨planned, rfl⟩, other, ⟨planned', isTable⟩, differ⟩
      have sameKey := targetKey_eq_of_tableOf_eq isTable
      obtain ⟨target, member⟩ :=
        exists_colliding_iff.mpr ⟨source, planned, other, planned', rfl, sameKey, differ⟩
      exact ⟨_, member, (fibre planned planned' sameKey.symm differ).symm⟩

end Exact

/-- A destination and a connection of one name, and a table of one name in each. -/
def sharedName : List PlannedSource :=
  [{ name := "orders", connectionName := "warehouse", sourceEntityId := "first",
     annotationFields := [("name", "orders"), ("storage", "lake")] },
   { name := "orders", connectionName := "lake", sourceEntityId := "second",
     annotationFields := [("name", "orders")] }]

/-- A package warns of the two, though they are different tables. -/
theorem sharedName_warned :
    (persistenceCollisionWarnings sharedName).length = 1 ∧ ¬WarnsExactly sharedName := by
  refine ⟨by decide +kernel, fun exact => ?_⟩
  have same := tableOf_eq_of_warnsExactly exact (.head _) (.tail _ (.head _)) (by decide)
    (by decide +kernel)
  exact absurd same (by decide +kernel)

end MalloyPublisher.Materialization
