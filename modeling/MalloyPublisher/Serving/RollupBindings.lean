import MalloyPublisher.Serving.ServeShape

/-!
# Serve bindings of rollups

A rollup's table holds partial aggregates of a base at one grain. Its binding is matched to
the plan of its name, has to hold the plan's columns, and declares the merged measures. The
rollups of one base are served together under the base's name, unless they live in
different destinations or the base has a stored table of its own.

## Main definitions

* `RollupPlan` — one base, one grain, one table
* `rollupServeBindings` — the groups that are served, and the bases that are not

## Main results

* `exists_plan_of_mem_groups` — a member's table has the columns of a plan of its base
-/

namespace MalloyPublisher.Serving

open Foundations

/-- How a stored partial is merged. -/
inductive ReaggregateFunction
  | sum
  | min
  | max
  deriving DecidableEq, Repr

def ReaggregateFunction.text : ReaggregateFunction → String
  | .sum => "sum"
  | .min => "min"
  | .max => "max"

/-- A measure of a rollup, and the merge of its stored partial. -/
structure RollupMeasure where
  name : String
  partialName : String
  reaggregate : ReaggregateFunction
  deriving DecidableEq, Repr

/-- A rollup: one base, one grain, one table. -/
structure RollupPlan where
  baseSourceName : String
  rollupSourceName : String
  grainDimensions : List String
  measures : List RollupMeasure
  deriving DecidableEq, Repr

/-- The merged measures a rollup declares. -/
def rollupServeRefinements (plan : RollupPlan) : List SourceRefinement :=
  plan.measures.map fun measure =>
    .field .measure measure.name (measure.partialName ++ "." ++ measure.reaggregate.text ++ "()")

/-- The columns a plan's table has to have. -/
def RollupPlan.columns (plan : RollupPlan) : List String :=
  plan.grainDimensions ++ plan.measures.map RollupMeasure.partialName

/-- The plan of a rollup binding whose table has the plan's columns. Of several plans of one
name the last counts. -/
def servedPlan (plans : List RollupPlan) (binding : ServeBinding) : Option RollupPlan :=
  if binding.origin = .preaggregate then
    (plans.reverse.find? (·.rollupSourceName = binding.sourceName)).filter fun plan =>
      plan.columns.all (· ∈ binding.schema.map Column.name)
  else none

/-- A base whose rollups are not served, and why. -/
structure RollupServeConflict where
  baseSourceName : String
  reason : String
  deriving DecidableEq, Repr

section Bindings

-- `String.prototype.localeCompare`, whose order depends on the locale.
variable (localeCompare : String → String → Ordering)

/-- Coarsest grain first. -/
def compareRollupBreadth (a b : RollupPlan) : Bool :=
  a.grainDimensions.length < b.grainDimensions.length ||
    a.grainDimensions.length = b.grainDimensions.length &&
      (localeCompare a.rollupSourceName b.rollupSourceName).isLE

/-- The members of a base's group, each with its merged measures. -/
def rollupMembers (entries : List (RollupPlan × ServeBinding)) : List ServeBinding :=
  (entries.mergeSort fun a b => compareRollupBreadth localeCompare a.1 b.1).map
    fun (plan, binding) => { binding with refinements := some (rollupServeRefinements plan) }

/-- What becomes of one base's rollups. -/
def rollupGroup (claimedByPersist : List String) (baseSourceName : String)
    (entries : List (RollupPlan × ServeBinding)) : RollupServeConflict ⊕ RollupShapeGroup :=
  let destinations := (entries.map (·.2.destinationName)).eraseDups
  if 1 < destinations.length then
    .inl { baseSourceName, reason :=
      "its rollups are built into different storage destinations (" ++
        ", ".intercalate (destinations.mergeSort fun a b => !stringLess b a) ++
        "), and every member of one composite must live on a single connection; give every grain on `" ++
        baseSourceName ++ "` the same `storage=`" }
  else if baseSourceName ∈ claimedByPersist then
    .inl { baseSourceName, reason :=
      "the source is itself materialized into storage, so its own binding already claims the name `" ++
        baseSourceName ++
        "`; one name cannot be rebound to both a stored copy of the source and its rollups" }
  else .inr { baseSourceName, members := rollupMembers localeCompare entries }

/-- The rollups that are served, by base, and the bases whose rollups are not. -/
def rollupServeBindings (bindings : List ServeBinding) (plans : List RollupPlan) :
    List RollupShapeGroup × List RollupServeConflict :=
  let claimedByPersist :=
    (bindings.filter (·.origin ≠ .preaggregate)).map ServeBinding.sourceName
  let served := bindings.filterMap fun binding => (servedPlan plans binding).map (·, binding)
  let bases := (served.map (·.1.baseSourceName)).eraseDups.mergeSort fun a b =>
    (localeCompare a b).isLE
  let settled := bases.map fun base => rollupGroup localeCompare claimedByPersist base
    (served.filter (·.1.baseSourceName = base))
  (settled.filterMap Sum.getRight?, settled.filterMap Sum.getLeft?)

variable {localeCompare} {bindings : List ServeBinding} {plans : List RollupPlan}

/-- The plan of a binding is one of its name, whose columns the binding has. -/
theorem servedPlan_spec {plan : RollupPlan} {binding : ServeBinding}
    (served : servedPlan plans binding = some plan) :
    binding.origin = .preaggregate ∧ plan ∈ plans ∧ plan.rollupSourceName = binding.sourceName ∧
      plan.columns.all (· ∈ binding.schema.map Column.name) = true := by
  unfold servedPlan at served
  split_ifs at served with rollup
  obtain ⟨found, columns⟩ := Option.filter_eq_some_iff.mp served
  exact ⟨rollup, List.mem_reverse.mp (List.mem_of_find?_eq_some found),
    by simpa using List.find?_some found, columns⟩

/-- A served rollup stands over the table of a binding, with a plan's columns and measures. -/
theorem exists_plan_of_mem_groups {group : RollupShapeGroup} {member : ServeBinding}
    (served : group ∈ (rollupServeBindings localeCompare bindings plans).1)
    (among : member ∈ group.members) :
    ∃ plan ∈ plans, ∃ binding ∈ bindings, servedPlan plans binding = some plan ∧
      plan.baseSourceName = group.baseSourceName ∧
      member = { binding with refinements := some (rollupServeRefinements plan) } := by
  unfold rollupServeBindings at served
  obtain ⟨settled, listed, right⟩ := List.mem_filterMap.mp served
  obtain ⟨base, -, rfl⟩ := List.mem_map.mp listed
  unfold rollupGroup at right
  simp only at right
  split_ifs at right
  · cases right
  · cases right
  cases right
  obtain ⟨⟨plan, binding⟩, entry, rfl⟩ := List.mem_map.mp among
  obtain ⟨entry, ofBase⟩ := List.mem_filter.mp (List.mem_mergeSort.mp entry)
  obtain ⟨other, member, matched⟩ := List.mem_filterMap.mp entry
  obtain ⟨found, answered, same⟩ := Option.map_eq_some_iff.mp matched
  obtain ⟨rfl, rfl⟩ := Prod.mk.inj same
  exact ⟨found, (servedPlan_spec answered).2.1, other, member, answered,
    of_decide_eq_true ofBase, rfl⟩

end Bindings

end MalloyPublisher.Serving
