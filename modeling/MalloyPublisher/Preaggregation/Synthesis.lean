import MalloyPublisher.Preaggregation.Validation

/-!
# Planning rollups

The declarations of a source are gathered by grain, one rollup for each. A rollup lists the
measures declared at its grain, each with the merge of its partials, and is created where the
first of them asks for, or beside the base.

## Main definitions

* `planSourcePreaggregation` — the rollups of a source
* `planModelPreaggregation` — the rollups of a model

## Main results

* `mem_planSourcePreaggregation` — a rollup is what is declared at its grain
* `plan_public` — no rollup lists what the source hides
-/

namespace MalloyPublisher.Preaggregation

open Foundations

/-! ## Names -/

def BASE_ALIAS_SUFFIX : String := "__preagg_base"

def PARTIAL_SUFFIX : String := "__partial"

/-- One measure of a rollup. -/
structure RollupMeasure where
  name : String
  partialName : String
  reaggregate : ReaggregateFunction
deriving DecidableEq

/-- One rollup: one base, one grain, one table. -/
structure RollupPlan where
  baseSourceName : String
  rollupSourceName : String
  persistNamespace : Option String
  storage : Option String
  grainDimensions : List String
  measures : List RollupMeasure
deriving DecidableEq

def NAME_SLUG_LIMIT : ℕ := 40

/-- The characters that fit in a number of code units. -/
def takeUnits : ℕ → List Char → List Char
  | _, [] => []
  | limit, c :: rest =>
    if (codeUnits c).length ≤ limit then c :: takeUnits (limit - (codeUnits c).length) rest else []

/-- The readable part of a rollup's name. Half of a character that is cut in two is left out. -/
def grainSlug (grainDimensions : List String) : String :=
  String.ofList (takeUnits NAME_SLUG_LIMIT
    (("_".intercalate grainDimensions).toList.map fun c => if c = '.' then '_' else c))

variable (library : Library)

def grainDigest (grainDimensions : List String) : String :=
  library.digest (grainKey grainDimensions)

def rollupSourceName (baseSourceName : String) (grainDimensions : List String) : String :=
  baseSourceName ++ "__preagg__" ++ grainSlug grainDimensions ++ "__" ++
    grainDigest library grainDimensions

def baseAlias (baseSourceName : String) : String := baseSourceName ++ BASE_ALIAS_SUFFIX

/-- Everything before the last dot of a `#@ persist name=`. -/
def persistNamespace (persistName : Option String) : Option String :=
  match persistName with
  | none => none
  | some name =>
    let pieces := splitText '.' name
    let candidate := ".".intercalate pieces.dropLast
    if candidate = "" || trimmed (pieces.getLastD "") = "" then none
    else if isSpliceableNamespace candidate then some candidate else none

/-- The namespace a rollup takes over from its base. -/
def basePersistNamespace (source : SourceDef) : Option String :=
  if source.annotations.isNone then none
  else
    match source.tag with
    | none => none
    | some tag =>
      if !tag.has "persist" then none
      else if ((tag.text ["persist", "storage"]).or (tag.text ["storage"])).any
          (fun storage => trimmed storage ≠ "") then none
      else persistNamespace ((tag.text ["persist", "name"]).or (tag.text ["name"]))

/-! ## Plans -/

/-- The coarser rollup is offered first. -/
def compareRollupBreadth (a b : RollupPlan) : Bool :=
  a.grainDimensions.length < b.grainDimensions.length ||
    (a.grainDimensions.length = b.grainDimensions.length &&
      library.localeLE a.rollupSourceName b.rollupSourceName)

/-- A measure at one of its grains. -/
structure Contribution where
  grain : PreaggregateGrain
  measure : RollupMeasure
deriving DecidableEq

/-- What is declared at one grain. -/
structure GrainEntry where
  grainDimensions : List String
  measures : List RollupMeasure
  persistNamespace : Option String
  storage : Option String

def isHidden (source : SourceDef) (dimension : String) : Bool :=
  (source.fieldNamed dimension).any FieldDef.isAccessRestricted

/-- What a field brings to the rollups. -/
def fieldContributions (source : SourceDef) (f : FieldDef) : List (String × Contribution) :=
  let declaration := declarationOf library f
  if !declaration.declared || declaration.errors ≠ [] || f.isAccessRestricted then []
  else
    match f.reaggregate with
    | none => []
    | some reaggregate =>
      (declaration.grains.filter fun grain =>
        !grain.dimensions.isEmpty && !grain.dimensions.any (isHidden source)).map fun grain =>
          (grainKey grain.dimensions,
            ⟨grain, f.fieldName, f.fieldName ++ PARTIAL_SUFFIX, reaggregate⟩)

def contributions (source : SourceDef) : List (String × Contribution) :=
  source.fields.flatMap (fieldContributions library source)

def startEntry (contribution : Contribution) : GrainEntry :=
  ⟨contribution.grain.dimensions, [], none, none⟩

/-- The first place named at a grain is the one it is created in. -/
def GrainEntry.add (entry : GrainEntry) (contribution : Contribution) : GrainEntry where
  grainDimensions := entry.grainDimensions
  measures := entry.measures ++ [contribution.measure]
  persistNamespace := entry.persistNamespace.or contribution.grain.persistNamespace
  storage := entry.storage.or contribution.grain.storage

/-- The plan of one grain. -/
def GrainEntry.plan (entry : GrainEntry) (baseSourceName : String) (source : SourceDef) :
    RollupPlan where
  baseSourceName := baseSourceName
  rollupSourceName := rollupSourceName library baseSourceName entry.grainDimensions
  persistNamespace := entry.persistNamespace.or (basePersistNamespace source)
  storage := entry.storage
  grainDimensions := entry.grainDimensions
  measures := entry.measures.insertionSort fun a b => library.localeLE a.name b.name

/-- The rollups of one source. -/
def planSourcePreaggregation (baseSourceName : String) (source : SourceDef) : List RollupPlan :=
  ((gather startEntry GrainEntry.add (contributions library source)).map fun entry =>
    entry.2.plan library baseSourceName source).insertionSort fun a b =>
      compareRollupBreadth library a b

/-- The rollups of a model, whose contents are its named sources. -/
def planModelPreaggregation (contents : List (String × SourceDef)) : List RollupPlan :=
  (contents.insertionSort fun a b => library.localeLE a.1 b.1).flatMap fun entry =>
    planSourcePreaggregation library entry.1 entry.2

/-! ## What a plan is -/

section Plans

variable {library : Library} {baseSourceName : String} {source : SourceDef}

theorem foldl_add (entry : GrainEntry) (cs : List Contribution) :
    cs.foldl GrainEntry.add entry =
      { grainDimensions := entry.grainDimensions
        measures := entry.measures ++ cs.map Contribution.measure
        persistNamespace := entry.persistNamespace.or (cs.findSome? fun c => c.grain.persistNamespace)
        storage := entry.storage.or (cs.findSome? fun c => c.grain.storage) } := by
  induction cs generalizing entry with
  | nil => simp
  | cons c cs ih =>
    rw [List.foldl_cons, ih]
    simp only [GrainEntry.add, List.map_cons, List.append_assoc, List.singleton_append,
      List.findSome?_cons, Option.or_assoc]
    congr 2
    · cases c.grain.persistNamespace <;> rfl
    · cases c.grain.storage <;> rfl

/-- What the contributions to one grain make of its rollup. -/
def planOf (library : Library) (baseSourceName : String) (source : SourceDef)
    (first : Contribution) (cs : List Contribution) : RollupPlan where
  baseSourceName := baseSourceName
  rollupSourceName := rollupSourceName library baseSourceName first.grain.dimensions
  persistNamespace := (cs.findSome? fun c => c.grain.persistNamespace).or (basePersistNamespace source)
  storage := cs.findSome? fun c => c.grain.storage
  grainDimensions := first.grain.dimensions
  measures := (cs.map Contribution.measure).insertionSort fun a b =>
    library.localeLE a.name b.name

/-- A rollup is what is declared at its grain. -/
theorem mem_planSourcePreaggregation {plan : RollupPlan} :
    plan ∈ planSourcePreaggregation library baseSourceName source ↔
      ∃ key first, (valuesOf (contributions library source) key).head? = some first ∧
        plan = planOf library baseSourceName source first
          (valuesOf (contributions library source) key) := by
  unfold planSourcePreaggregation
  rw [List.mem_insertionSort, List.mem_map]
  constructor
  · rintro ⟨⟨key, entry⟩, member, rfl⟩
    obtain ⟨first, head, rfl⟩ := (mem_gather _ _).mp member
    refine ⟨key, first, head, ?_⟩
    simp [foldl_add, startEntry, GrainEntry.plan, planOf]
  · rintro ⟨key, first, head, rfl⟩
    refine ⟨(key, _), (mem_gather _ _).mpr ⟨first, head, rfl⟩, ?_⟩
    simp [foldl_add, startEntry, GrainEntry.plan, planOf]

/-- What a field brings to a rollup at a key. -/
theorem mem_fieldContributions {f : FieldDef} {key : String} {c : Contribution} :
    (key, c) ∈ fieldContributions library source f ↔
      (declarationOf library f).declared = true ∧ (declarationOf library f).errors = [] ∧
        f.isAccessRestricted = false ∧ f.reaggregate = some c.measure.reaggregate ∧
          c.measure.name = f.fieldName ∧ c.measure.partialName = f.fieldName ++ PARTIAL_SUFFIX ∧
            c.grain ∈ (declarationOf library f).grains ∧ c.grain.dimensions ≠ [] ∧
              (∀ d ∈ c.grain.dimensions, isHidden source d = false) ∧
                key = grainKey c.grain.dimensions := by
  obtain ⟨grain, name, partialName, reaggregate⟩ := c
  unfold fieldContributions
  cases declared : (declarationOf library f).declared with
  | false => simp [declared]
  | true =>
    by_cases errors : (declarationOf library f).errors = []
    · cases hidden : f.isAccessRestricted with
      | true => simp
      | false =>
        cases merge : f.reaggregate with
        | none => simp [declared, errors]
        | some merge =>
          simp only [declared, errors, Bool.not_true, ne_eq, not_true_eq_false,
            decide_false, Bool.or_self, Bool.false_eq_true, if_false, List.mem_map,
            List.mem_filter, Bool.and_eq_true, Bool.not_eq_true', List.isEmpty_eq_false_iff,
            List.any_eq_false, Prod.mk.injEq, Contribution.mk.injEq, RollupMeasure.mk.injEq,
            Option.some.injEq, true_and]
          constructor
          · rintro ⟨other, ⟨listed, filled, shown⟩, rfl, rfl, rfl, rfl, rfl⟩
            exact ⟨rfl, rfl, rfl, listed, filled,
              fun d inside => eq_false_of_ne_true (shown d inside), rfl⟩
          · rintro ⟨rfl, rfl, rfl, listed, filled, shown, rfl⟩
            exact ⟨grain, ⟨listed, filled, fun d inside => by simp [shown d inside]⟩, rfl, rfl, rfl,
              rfl, rfl⟩
    · simp [errors]

/-- No rollup lists what the source hides. -/
theorem plan_public {plan : RollupPlan}
    (planned : plan ∈ planSourcePreaggregation library baseSourceName source) :
    (∀ measure ∈ plan.measures, ∃ f ∈ source.fields, f.fieldName = measure.name ∧
      f.isAccessRestricted = false ∧ f.reaggregate = some measure.reaggregate) ∧
    ∀ dimension ∈ plan.grainDimensions, ∀ f, source.fieldNamed dimension = some f →
      f.isAccessRestricted = false := by
  obtain ⟨key, first, head, rfl⟩ := mem_planSourcePreaggregation.mp planned
  have brought : ∀ c ∈ valuesOf (contributions library source) key, ∃ f ∈ source.fields,
      (key, c) ∈ fieldContributions library source f := fun c member =>
    List.mem_flatMap.mp (mem_valuesOf.mp member)
  constructor
  · intro measure member
    obtain ⟨c, inside, rfl⟩ := List.mem_map.mp ((List.mem_insertionSort _).mp member)
    obtain ⟨f, listed, contributed⟩ := brought c inside
    obtain ⟨-, -, shown, merge, name, -⟩ := mem_fieldContributions.mp contributed
    exact ⟨f, listed, name.symm, shown, merge⟩
  · intro dimension member f found
    obtain ⟨g, -, contributed⟩ := brought first (List.mem_of_mem_head? head)
    obtain ⟨-, -, -, -, -, -, -, -, shown, -⟩ := mem_fieldContributions.mp contributed
    simpa [isHidden, found] using shown dimension member

end Plans

end MalloyPublisher.Preaggregation
