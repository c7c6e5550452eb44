import MalloyPublisher.Foundations.StableOrder
import MalloyPublisher.Incremental.Bound
import MalloyPublisher.Preaggregation.AcceptedPlans

/-!
# The companion model

The rollups of a model are written as a model of their own. It imports each base under an alias,
declares a source for each rollup, and composes them with the base under the base's own name.

## Main definitions

* `synthesizePreaggregationModel` — the companion's text
* `sourceNames`, `RollupPlan.columnNames` — the names it declares

## Main results

* `mem_basesOf`, `nodup_basesOf` — each base that rollups are of is imported once
* `sourceNames_eq` — the names of the sources it declares
-/

namespace MalloyPublisher.Preaggregation

open Foundations

/-! ## The text -/

/-- A declaration of the companion, and the name it declares. -/
structure Declared where
  name : String
  text : String

/-- A text that is not empty. -/
def truthy (text : Option String) : Option String := text.filter (· ≠ "")

/-- The annotation that persists a rollup: a destination wins over a namespace. -/
def RollupPlan.persist (plan : RollupPlan) : String :=
  match truthy plan.storage, truthy plan.persistNamespace with
  | some storage, _ => "#@ persist storage=" ++ Incremental.jsonStringify storage
  | none, some persistNamespace =>
    "#@ persist name=\"" ++ persistNamespace ++ "." ++ plan.rollupSourceName ++ "\""
  | none, none => "#@ persist"

/-- One rollup's source. -/
def emitRollup (plan : RollupPlan) : Declared where
  name := plan.rollupSourceName
  text :=
    let lines (texts : List String) : String := "\n".intercalate texts
    plan.persist ++ "\nsource: " ++ plan.rollupSourceName ++ " is " ++
      baseAlias plan.baseSourceName ++ " -> \x7b\n  group_by:\n" ++
      lines (plan.grainDimensions.map ("    " ++ ·)) ++ "\n  aggregate:\n" ++
      lines (plan.measures.map fun m => "    " ++ m.partialName ++ " is " ++ m.name) ++
      "\n\x7d extend \x7b\n  measure:\n" ++
      lines (plan.measures.map fun m =>
        "    " ++ m.name ++ " is " ++ m.partialName ++ "." ++ m.reaggregate.text ++ "()") ++ "\n\x7d"

/-- The sources that have rollups. -/
def basesOf (plans : List RollupPlan) : List String :=
  (plans.map RollupPlan.baseSourceName).eraseDups.insertionSort fun a b => sortLE a b

def emitImport (importPath base : String) : Declared where
  name := baseAlias base
  text := "import \x7b " ++ baseAlias base ++ " is " ++ base ++ " \x7d from " ++
    Incremental.jsonStringify importPath

/-- A base under its own name: its rollups, except those in a destination, and itself last. -/
def emitComposite (plans : List RollupPlan) (base : String) : Declared where
  name := base
  text :=
    let members := (plans.filter fun plan =>
      plan.baseSourceName = base && (truthy plan.storage).isNone).map RollupPlan.rollupSourceName
    "source: " ++ base ++ " is compose(" ++ ", ".intercalate (members ++ [baseAlias base]) ++ ")"

def importsOf (plans : List RollupPlan) (importPath : String) : List Declared :=
  (basesOf plans).map (emitImport importPath)

def compositesOf (plans : List RollupPlan) : List Declared :=
  (basesOf plans).map (emitComposite plans)

/-- The companion's text, if there is anything to declare. -/
def synthesizePreaggregationModel (plans : List RollupPlan) (importPath : String)
    (experimentalFlags : String := "persistence composite_sources") : Option String :=
  if plans.isEmpty then none
  else
    let texts (separator : String) (declared : List Declared) : String :=
      separator.intercalate (declared.map Declared.text)
    some ("##! experimental \x7b " ++ experimentalFlags ++ " \x7d\n" ++
      texts "\n" (importsOf plans importPath) ++ "\n\n" ++
      texts "\n\n" (plans.map emitRollup) ++ "\n\n" ++
      texts "\n" (compositesOf plans) ++ "\n")

/-! ## The names -/

/-- The names of the sources that are declared. -/
def sourceNames (plans : List RollupPlan) (importPath : String) : List String :=
  (importsOf plans importPath ++ plans.map emitRollup ++ compositesOf plans).map Declared.name

/-- The names inside a rollup. -/
def RollupPlan.columnNames (plan : RollupPlan) : List String :=
  plan.grainDimensions ++ plan.measures.map RollupMeasure.partialName ++
    plan.measures.map RollupMeasure.name

theorem sourceNames_eq (plans : List RollupPlan) (importPath : String) :
    sourceNames plans importPath = (basesOf plans).map baseAlias ++
      plans.map RollupPlan.rollupSourceName ++ basesOf plans := by
  unfold sourceNames importsOf compositesOf
  rw [List.map_append, List.map_append, List.map_map, List.map_map, List.map_map]
  congr 1
  exact List.map_id (basesOf plans)

theorem mem_basesOf {plans : List RollupPlan} {base : String} :
    base ∈ basesOf plans ↔ ∃ plan ∈ plans, plan.baseSourceName = base := by
  unfold basesOf
  rw [List.mem_insertionSort, List.mem_eraseDups, List.mem_map]

theorem nodup_basesOf (plans : List RollupPlan) : (basesOf plans).Nodup :=
  (List.perm_insertionSort _ _).nodup_iff.mpr (nodup_eraseDups _)

end MalloyPublisher.Preaggregation
