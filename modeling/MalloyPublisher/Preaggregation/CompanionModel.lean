import MalloyPublisher.Preaggregation.Companion
import MalloyPublisher.Preaggregation.ModelOrder

/-!
# When the companion model compiles

The names the companion declares are made from names its author chose, and nothing keeps the
author from choosing one of them. The companion is well formed when no source is named like
another's alias or rollup and no measure or dimension of a rollup is named like another
measure's partial; and it is one text in any order of the contents when nothing ties.

## Main definitions

* `Synthesized` — the companion is well formed and does not depend on the order of the contents
* `Unambiguous` — what its contents have to be for that

## Main results

* `synthesized_iff` — the contents whose companion is well formed
-/

namespace MalloyPublisher.Preaggregation

open Foundations

variable {library : Library} {contents : List (String × SourceDef)}

/-! ## Names that are made -/

/-- A rollup's name ends in its digest. -/
theorem rollupSourceName_toList (base : String) (a : List String) :
    ∃ front, (rollupSourceName library base a).toList =
      front ++ (grainDigest library a).toList := by
  unfold rollupSourceName
  exact ⟨_, String.toList_append⟩

/-- Rollups of one name are of one source and one grain, if the digest tells the grains apart. -/
theorem Library.Lawful.rollupSourceName_injective (lawful : library.Lawful)
    {base base' : String} {a b : List String}
    (digests : grainDigest library a = grainDigest library b → a = b)
    (same : rollupSourceName library base a = rollupSourceName library base' b) :
    base = base' ∧ a = b := by
  obtain ⟨front, names⟩ := rollupSourceName_toList base a
  obtain ⟨front', names'⟩ := rollupSourceName_toList base' b
  have ends : front ++ (grainDigest library a).toList = front' ++ (grainDigest library b).toList := by
    rw [← names, ← names', same]
  have equal := (List.append_inj' ends ((lawful.short _).trans (lawful.short _).symm)).2
  obtain rfl := digests (String.toList_injective equal)
  unfold rollupSourceName at same
  simp only [String.append_left_inj] at same
  exact ⟨same, rfl⟩

/-- No alias is named like a rollup: it does not end in a digest. -/
theorem Library.Lawful.baseAlias_ne_rollupSourceName (lawful : library.Lawful)
    (base base' : String) (a : List String) :
    baseAlias base ≠ rollupSourceName library base' a := by
  intro same
  obtain ⟨front, names⟩ := rollupSourceName_toList base' a
  have suffix : (baseAlias base).toList = (base.toList ++ "__pre".toList) ++ "agg_base".toList := by
    unfold baseAlias BASE_ALIAS_SUFFIX
    rw [String.toList_append, List.append_assoc]
    rfl
  have ends : (base.toList ++ "__pre".toList) ++ "agg_base".toList =
      front ++ (grainDigest library a).toList := by
    rw [← suffix, ← names, same]
  have equal := (List.append_inj' ends (by rw [grainDigest, lawful.short]; rfl)).2
  have digit := lawful.hex (grainKey a) 'g' (by
    rw [← grainDigest, ← equal]
    decide)
  revert digit
  decide

theorem baseAlias_injective : Function.Injective baseAlias := fun _ _ same =>
  (String.append_left_inj _).mp same

/-! ## The names of the companion -/

section Names

variable (plannable : PlannableModel library contents)

include plannable

theorem PlannableModel.mem_basesOf_iff {base : String} :
    base ∈ basesOf (planModelPreaggregation library contents) ↔
      ∃ e ∈ contents, e.1 = base ∧ ∃ a, e.2.declares library a := by
  rw [mem_basesOf]
  constructor
  · rintro ⟨plan, planned, rfl⟩
    obtain ⟨e, member, own⟩ := mem_planModelPreaggregation.mp planned
    exact ⟨e, member, (names_of_plan own).1.symm, plan.grainDimensions,
      (plannable.source member).mem_grains_plans.mp (List.mem_map_of_mem own)⟩
  · rintro ⟨e, member, rfl, a, declared⟩
    obtain ⟨plan, own, -⟩ :=
      List.mem_map.mp ((plannable.source member).mem_grains_plans.mpr declared)
    exact ⟨plan, mem_planModelPreaggregation.mpr ⟨e, member, own⟩, (names_of_plan own).1⟩

theorem PlannableModel.mem_rollupNames_iff {rollup : String} :
    rollup ∈ (planModelPreaggregation library contents).map RollupPlan.rollupSourceName ↔
      ∃ e ∈ contents, ∃ a, e.2.declares library a ∧ rollupSourceName library e.1 a = rollup := by
  rw [List.mem_map]
  constructor
  · rintro ⟨plan, planned, rfl⟩
    obtain ⟨e, member, own⟩ := mem_planModelPreaggregation.mp planned
    exact ⟨e, member, plan.grainDimensions,
      (plannable.source member).mem_grains_plans.mp (List.mem_map_of_mem own),
      (names_of_plan own).2.1.symm⟩
  · rintro ⟨e, member, a, declared, rfl⟩
    obtain ⟨plan, own, rfl⟩ :=
      List.mem_map.mp ((plannable.source member).mem_grains_plans.mpr declared)
    exact ⟨plan, mem_planModelPreaggregation.mpr ⟨e, member, own⟩, (names_of_plan own).2.1⟩

/-- Rollups have distinct names. -/
theorem PlannableModel.nodup_rollupNames (lawful : library.Lawful) :
    ((planModelPreaggregation library contents).map RollupPlan.rollupSourceName).Nodup := by
  refine List.Nodup.map_on ?_ (nodup_planModelPreaggregation plannable.named)
  intro p inP q inQ same
  obtain ⟨e, member, own⟩ := mem_planModelPreaggregation.mp inP
  obtain ⟨e', member', own'⟩ := mem_planModelPreaggregation.mp inQ
  have declared := (plannable.source member).mem_grains_plans.mp (List.mem_map_of_mem own)
  have declared' := (plannable.source member').mem_grains_plans.mp (List.mem_map_of_mem own')
  rw [(names_of_plan own).2.1, (names_of_plan own').2.1] at same
  obtain ⟨names, grains⟩ := lawful.rollupSourceName_injective
    (plannable.digests e member e' member' _ _ declared declared') same
  obtain rfl := List.inj_on_of_nodup_map plannable.named member member' names
  exact List.inj_on_of_nodup_map nodup_grainKey_plans own own' (congrArg grainKey grains)

/-- Each source is declared once when no source is named like an alias or a rollup. -/
theorem PlannableModel.nodup_sourceNames_iff (lawful : library.Lawful) (importPath : String) :
    (sourceNames (planModelPreaggregation library contents) importPath).Nodup ↔
      (∀ e ∈ contents, ∀ e' ∈ contents, ∀ a b, e.2.declares library a →
        e'.2.declares library b → e.1 ≠ baseAlias e'.1) ∧
      ∀ e ∈ contents, ∀ e' ∈ contents, ∀ a b, e.2.declares library a →
        e'.2.declares library b → e.1 ≠ rollupSourceName library e'.1 b := by
  have aliases : ((basesOf (planModelPreaggregation library contents)).map baseAlias).Nodup :=
    (nodup_basesOf _).map baseAlias_injective
  have apart : List.Disjoint ((basesOf (planModelPreaggregation library contents)).map baseAlias)
      ((planModelPreaggregation library contents).map RollupPlan.rollupSourceName) := by
    intro both isAlias isRollup
    obtain ⟨base, -, rfl⟩ := List.mem_map.mp isAlias
    obtain ⟨e, -, a, -, same⟩ := plannable.mem_rollupNames_iff.mp isRollup
    exact lawful.baseAlias_ne_rollupSourceName base e.1 a same.symm
  rw [sourceNames_eq, List.nodup_append', List.nodup_append']
  simp only [aliases, plannable.nodup_rollupNames lawful, apart, nodup_basesOf, true_and,
    List.disjoint_append_left]
  refine and_congr ⟨fun disjoint => ?_, fun different => ?_⟩ ⟨fun disjoint => ?_, fun different => ?_⟩
  · intro e member e' member' a b declared declared' same
    refine disjoint ?_ (plannable.mem_basesOf_iff.mpr ⟨e, member, rfl, a, declared⟩)
    rw [same]
    exact List.mem_map_of_mem (plannable.mem_basesOf_iff.mpr ⟨e', member', rfl, b, declared'⟩)
  · intro both isAlias isBase
    obtain ⟨base, listed, rfl⟩ := List.mem_map.mp isAlias
    obtain ⟨e, member, same, a, declared⟩ := plannable.mem_basesOf_iff.mp isBase
    obtain ⟨e', member', rfl, b, declared'⟩ := plannable.mem_basesOf_iff.mp listed
    exact different e member e' member' a b declared declared' same
  · intro e member e' member' a b declared declared' same
    refine disjoint ?_ (plannable.mem_basesOf_iff.mpr ⟨e, member, rfl, a, declared⟩)
    rw [same]
    exact plannable.mem_rollupNames_iff.mpr ⟨e', member', b, declared', rfl⟩
  · intro both isRollup isBase
    obtain ⟨e', member', b, declared', rfl⟩ := plannable.mem_rollupNames_iff.mp isRollup
    obtain ⟨e, member, same, a, declared⟩ := plannable.mem_basesOf_iff.mp isBase
    exact different e member e' member' a b declared declared' same

end Names

/-! ## The names in a rollup -/

/-- No dimension of a grain is a measure that is declared there. -/
theorem PlannableSource.not_mem_grain {name : String} {source : SourceDef}
    (plannable : PlannableSource library name source) {f : FieldDef} (member : f ∈ source.fields)
    {g : FieldDef} (member' : g ∈ source.fields) {a : List String}
    (declared : a ∈ f.grainList library) (declared' : a ∈ g.grainList library) :
    g.fieldName ∉ a := by
  intro named
  obtain ⟨grain, last, rfl⟩ := mem_grainList.mp declared
  have field := accepted_field plannable.accepted member (declared_of_mem_grainList declared)
  have field' := accepted_field plannable.accepted member' (declared_of_mem_grainList declared')
  obtain ⟨h, found, -, dimension⟩ := exists_field_of_validateGrainDimension
    (field.resolved grain (mem_grains_iff.mpr last) _ named)
  have same : h.fieldName = g.fieldName := by
    simpa using List.find?_some found
  obtain rfl := List.inj_on_of_nodup_map plannable.named (List.mem_of_find?_eq_some found)
    member' same
  rw [(public_of_misplacement field'.placed).2] at dimension
  cases dimension

/-- A grain names each dimension once. -/
theorem nodup_of_mem_grainList {f : FieldDef} {a : List String}
    (declared : a ∈ f.grainList library) : a.Nodup := by
  obtain ⟨grain, last, rfl⟩ := mem_grainList.mp declared
  obtain ⟨line, -, read, -⟩ := exists_line_of_lastGrain last
  obtain ⟨text, -, same⟩ := Option.map_eq_some_iff.mp (lineGrain_eq_some read).1
  rw [← same]
  exact (parseGrainDimensions_sorted text).2

/-- The partials of a rollup are named after its measures. -/
theorem map_partialName {name : String} {source : SourceDef} {plan : RollupPlan}
    (planned : plan ∈ planSourcePreaggregation library name source) :
    plan.measures.map RollupMeasure.partialName =
      (plan.measures.map RollupMeasure.name).map (· ++ PARTIAL_SUFFIX) := by
  rw [List.map_map]
  exact List.map_congr_left fun m member => (names_of_plan planned).2.2 m member

/-- The names in a rollup are distinct when none is another measure's partial. -/
theorem PlannableSource.nodup_columnNames_iff {name : String} {source : SourceDef}
    (plannable : PlannableSource library name source) {plan : RollupPlan}
    (planned : plan ∈ planSourcePreaggregation library name source) :
    plan.columnNames.Nodup ↔ ∀ f ∈ source.fields, plan.grainDimensions ∈ f.grainList library →
      f.fieldName ++ PARTIAL_SUFFIX ∉ plan.grainDimensions ∧
        ∀ g ∈ source.fields, plan.grainDimensions ∈ g.grainList library →
          f.fieldName ++ PARTIAL_SUFFIX ≠ g.fieldName := by
  obtain ⟨f, member, declared⟩ := plannable.mem_grains_plans.mp (List.mem_map_of_mem planned)
  have dimensions : plan.grainDimensions.Nodup := nodup_of_mem_grainList declared
  have partials : ((plan.measures.map RollupMeasure.name).map (· ++ PARTIAL_SUFFIX)).Nodup :=
    (plannable.nodup_names planned).map fun _ _ same => (String.append_left_inj _).mp same
  have apart : List.Disjoint plan.grainDimensions (plan.measures.map RollupMeasure.name) := by
    intro both isDimension isMeasure
    obtain ⟨g, member', declared', rfl⟩ := (plannable.mem_names_plan planned).mp isMeasure
    exact plannable.not_mem_grain member member' declared declared' isDimension
  rw [RollupPlan.columnNames, map_partialName planned, List.nodup_append', List.nodup_append']
  simp only [dimensions, partials, apart, plannable.nodup_names planned, true_and,
    List.disjoint_append_left]
  constructor
  · rintro ⟨fresh, different⟩ g member' declared'
    have inside : g.fieldName ++ PARTIAL_SUFFIX ∈
        (plan.measures.map RollupMeasure.name).map (· ++ PARTIAL_SUFFIX) :=
      List.mem_map_of_mem ((plannable.mem_names_plan planned).mpr ⟨g, member', declared', rfl⟩)
    refine ⟨fun isDimension => fresh isDimension inside, fun h other listed same => ?_⟩
    refine different inside ?_
    rw [same]
    exact (plannable.mem_names_plan planned).mpr ⟨h, other, listed, rfl⟩
  · intro free
    refine ⟨fun both isDimension isPartial => ?_, fun both isPartial isMeasure => ?_⟩
    · obtain ⟨measure, listed, rfl⟩ := List.mem_map.mp isPartial
      obtain ⟨g, member', declared', rfl⟩ := (plannable.mem_names_plan planned).mp listed
      exact (free g member' declared').1 isDimension
    · obtain ⟨measure, listed, rfl⟩ := List.mem_map.mp isPartial
      obtain ⟨g, member', declared', rfl⟩ := (plannable.mem_names_plan planned).mp listed
      obtain ⟨h, other, listed', same⟩ := (plannable.mem_names_plan planned).mp isMeasure
      exact (free g member' declared').2 h other listed' same.symm

/-! ## The companion -/

/-- Whether the companion is well formed and the same in any order of the contents. -/
structure Synthesized (library : Library) (contents : List (String × SourceDef))
    (importPath experimentalFlags : String) : Prop where
  plans : ∀ other, Reordered contents other →
    planModelPreaggregation library other = planModelPreaggregation library contents
  text : ∀ other, Reordered contents other →
    synthesizePreaggregationModel (planModelPreaggregation library other) importPath
        experimentalFlags =
      synthesizePreaggregationModel (planModelPreaggregation library contents) importPath
        experimentalFlags
  sources : (sourceNames (planModelPreaggregation library contents) importPath).Nodup
  columns : ∀ plan ∈ planModelPreaggregation library contents, plan.columnNames.Nodup

/-- Whether nothing ties and no name is one the synthesis makes. -/
structure Unambiguous (library : Library) (contents : List (String × SourceDef)) : Prop where
  ties : ModelTieFree library contents
  /-- No source that has rollups is named like the alias of one. -/
  aliases : ∀ e ∈ contents, ∀ e' ∈ contents, ∀ a b, e.2.declares library a →
    e'.2.declares library b → e.1 ≠ baseAlias e'.1
  /-- No source that has rollups is named like a rollup. -/
  rollups : ∀ e ∈ contents, ∀ e' ∈ contents, ∀ a b, e.2.declares library a →
    e'.2.declares library b → e.1 ≠ rollupSourceName library e'.1 b
  /-- No dimension of a grain and no measure declared at it is named like the partial of one. -/
  partials : ∀ e ∈ contents, ∀ f ∈ e.2.fields, ∀ a ∈ f.grainList library,
    f.fieldName ++ PARTIAL_SUFFIX ∉ a ∧ ∀ g ∈ e.2.fields, a ∈ g.grainList library →
      f.fieldName ++ PARTIAL_SUFFIX ≠ g.fieldName

/-- Whether the names in every rollup are distinct. -/
theorem PlannableModel.nodup_columnNames_iff (plannable : PlannableModel library contents) :
    (∀ plan ∈ planModelPreaggregation library contents, plan.columnNames.Nodup) ↔
      ∀ e ∈ contents, ∀ f ∈ e.2.fields, ∀ a ∈ f.grainList library,
        f.fieldName ++ PARTIAL_SUFFIX ∉ a ∧ ∀ g ∈ e.2.fields, a ∈ g.grainList library →
          f.fieldName ++ PARTIAL_SUFFIX ≠ g.fieldName := by
  constructor
  · intro distinct e member f field a declared
    obtain ⟨plan, own, rfl⟩ := List.mem_map.mp
      ((plannable.source member).mem_grains_plans.mpr ⟨f, field, declared⟩)
    have columns := distinct plan (mem_planModelPreaggregation.mpr ⟨e, member, own⟩)
    exact ((plannable.source member).nodup_columnNames_iff own).mp columns f field declared
  · intro free plan planned
    obtain ⟨e, member, own⟩ := mem_planModelPreaggregation.mp planned
    exact ((plannable.source member).nodup_columnNames_iff own).mpr fun f field declared =>
      free e member f field plan.grainDimensions declared

/-- The companion of contents without violations is well formed and one text in any order of
the contents, if and only if nothing of them ties and none of their names is one that the
synthesis makes. -/
theorem synthesized_iff (lawful : library.Lawful) (plannable : PlannableModel library contents)
    (importPath experimentalFlags : String) :
    Synthesized library contents importPath experimentalFlags ↔ Unambiguous library contents := by
  constructor
  · intro synthesized
    obtain ⟨aliases, rollups⟩ :=
      (plannable.nodup_sourceNames_iff lawful importPath).mp synthesized.sources
    exact ⟨(plannable.planModelPreaggregation_reordered_iff lawful).mp synthesized.plans, aliases,
      rollups, plannable.nodup_columnNames_iff.mp synthesized.columns⟩
  · intro unambiguous
    have plans := (plannable.planModelPreaggregation_reordered_iff lawful).mpr unambiguous.ties
    refine ⟨plans, fun other reordered => by rw [plans other reordered], ?_, ?_⟩
    · exact (plannable.nodup_sourceNames_iff lawful importPath).mpr
        ⟨unambiguous.aliases, unambiguous.rollups⟩
    · exact plannable.nodup_columnNames_iff.mpr unambiguous.partials

/-! ## Plain contents -/

theorem plainLibrary_lawful : plainLibrary.Lawful := by
  have digits : "edb2cd3b".toList.length = 8 ∧
      ∀ c ∈ "edb2cd3b".toList, c ∈ "0123456789abcdef".toList := by
    simp
  refine ⟨?_, ?_, fun _ => digits.1, fun _ => digits.2⟩
  · exact fun a b => total_of (fun a b : String => sortLE a b = true) a b
  · intro a b c first second
    exact trans_of (fun a b : String => sortLE a b = true) first second

/-- A public sum that is declared at the grain `category`. -/
def categorySum (name : String) : FieldDef where
  name := name
  type := some "number"
  expressionType := some .aggregate
  annotations := some (.mk
    [siblingNote "#@ preaggregate grain=\"category\"\n" [("grain", "category")]] [] none)
  e := some (.aggregate "sum" [.other []])

def categorySums (names : List String) : List (String × SourceDef) :=
  [("orders", {
    fields := { name := "category", type := some "string" } :: names.map categorySum })]

/-- Where all grains are one, the digest tells them apart. -/
theorem plannable_of_one_grain (accepted : ∀ e ∈ contents,
      validateSourcePreaggregation library e.1 e.2 = [])
    (named : (contents.map Prod.fst).Nodup)
    (fields : ∀ e ∈ contents, (e.2.fields.map FieldDef.fieldName).Nodup) (grain : List String)
    (one : ∀ e ∈ contents, ∀ f ∈ e.2.fields, ∀ a ∈ f.grainList library, a = grain) :
    PlannableModel library contents where
  accepted := accepted
  named := named
  fields := fields
  digests e member e' member' a b first second _ := by
    obtain ⟨f, field, declared⟩ := first
    obtain ⟨g, field', declared'⟩ := second
    rw [one e member f field a declared, one e' member' g field' b declared']

theorem synthesized_iff_one_measure :
    Synthesized plainLibrary (categorySums ["total"]) "orders.malloy" "persistence" ↔
      Unambiguous plainLibrary (categorySums ["total"]) :=
  synthesized_iff plainLibrary_lawful
    (plannable_of_one_grain (by decide +kernel) (by decide +kernel) (by decide +kernel)
      ["category"] (by decide +kernel)) "orders.malloy" "persistence"

/-- A measure named like another's partial is declared twice in their rollup. -/
theorem measureNamedPartial_not_synthesized :
    ¬ ∀ (library : Library) (contents : List (String × SourceDef))
        (importPath experimentalFlags : String), library.Lawful →
      PlannableModel library contents →
        Synthesized library contents importPath experimentalFlags := by
  intro all
  have synthesized := all plainLibrary (categorySums ["total", "total__partial"]) "orders.malloy"
    "persistence composite_sources" plainLibrary_lawful
    (plannable_of_one_grain (by decide +kernel) (by decide +kernel) (by decide +kernel)
      ["category"] (by decide +kernel))
  have repeated : ¬ ∀ plan ∈ planModelPreaggregation plainLibrary
      (categorySums ["total", "total__partial"]), plan.columnNames.Nodup := by
    decide +kernel
  exact repeated synthesized.columns

end MalloyPublisher.Preaggregation
