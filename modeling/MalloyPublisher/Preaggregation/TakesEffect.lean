import MalloyPublisher.Preaggregation.AcceptedPlans

/-!
# Whether a declaration takes effect

A source that is not refused plans a rollup for every grain that is read off its measures. What
is read of a measure is less than what its author wrote: a later line at a grain replaces an
earlier one, with the places that one named, and of what a measure inherits one level is read.

## Main definitions

* `TakesEffect` — a line has one rollup, with its measure and in its places
* `Kept` — what a line asks for is still asked for in what is read

## Main results

* `everyLineTakesEffect_iff` — the sources whose lines take effect
-/

namespace MalloyPublisher.Preaggregation

open Foundations

/-! ## The lines of a field -/

/-- All the notes of a field, what it inherits first. -/
def AnnotationsDef.allNotes : AnnotationsDef → List Note
  | .mk blockNotes notes none => (blockNotes ++ notes).filter fun note => note.text ≠ ""
  | .mk blockNotes notes (some inherited) =>
    inherited.allNotes ++ (blockNotes ++ notes).filter fun note => note.text ≠ ""

/-- The `#@ preaggregate` lines on a field that no negation follows. -/
def FieldDef.writtenLines (f : FieldDef) : List ReadTag :=
  linesInForce ((f.annotations.map AnnotationsDef.allNotes).getD [])

theorem inForce_subset (before notes : List Note) :
    inForce notes ⊆ inForce (before ++ notes) := by
  intro note member
  unfold inForce at member ⊢
  rw [List.mem_reverse] at member ⊢
  rw [List.reverse_append, List.takeWhile_append]
  split_ifs
  · exact List.mem_append_left _ (List.takeWhile_subset _ member)
  · exact member

theorem linesInForce_subset (before notes : List Note) :
    linesInForce notes ⊆ linesInForce (before ++ notes) := by
  intro tag member
  obtain ⟨note, inside, line⟩ := List.mem_filterMap.mp member
  exact List.mem_filterMap.mpr ⟨note, inForce_subset before notes inside, line⟩

/-- What is read of a field's notes are the last of them. -/
theorem exists_allNotes_eq_append (annotations : AnnotationsDef) :
    ∃ before, annotations.allNotes = before ++ orderedNotes (some annotations) := by
  cases annotations with
  | mk blockNotes notes inherited =>
    cases inherited with
    | none => exact ⟨[], by simp [AnnotationsDef.allNotes, orderedNotes, AnnotationsDef.inherited,
        AnnotationsDef.collect]⟩
    | some inherited =>
      cases inherited with
      | mk block own deeper =>
        cases deeper with
        | none => exact ⟨[], by simp [AnnotationsDef.allNotes, orderedNotes,
            AnnotationsDef.inherited, AnnotationsDef.collect]⟩
        | some deeper => exact ⟨deeper.allNotes, by simp [AnnotationsDef.allNotes, orderedNotes,
            AnnotationsDef.inherited, AnnotationsDef.collect]⟩

theorem FieldDef.readLines_subset (f : FieldDef) : f.readLines ⊆ f.writtenLines := by
  unfold FieldDef.readLines FieldDef.writtenLines
  cases f.annotations with
  | none => exact List.Subset.refl _
  | some annotations =>
    obtain ⟨before, split⟩ := exists_allNotes_eq_append annotations
    rw [Option.map_some, Option.getD_some, split]
    exact linesInForce_subset before _

/-! ## Lines that take effect -/

variable {library : Library} {sourceName : String} {source : SourceDef}

/-- A line, and the rollup it takes effect in. -/
structure Effect (library : Library) (sourceName : String) (source : SourceDef) (f : FieldDef)
    (tag : ReadTag) (dimensions : List String) (plan : RollupPlan) : Prop where
  grain : tag.dimensions = some dimensions
  one : ((planSourcePreaggregation library sourceName source).filter fun plan =>
    sameDimensions plan.grainDimensions dimensions) = [plan]
  merged : ∃ merge, f.reaggregate = some merge ∧
    (⟨f.fieldName, f.fieldName ++ PARTIAL_SUFFIX, merge⟩ : RollupMeasure) ∈ plan.measures
  persistNamespace : ∀ written, tag.key "namespace" = some written →
    plan.persistNamespace = some (trimmed written)
  storage : ∀ written, tag.key "storage" = some written → plan.storage = some (trimmed written)

/-- A line has exactly one rollup at its grain, which merges its measure as the classifier says
and is in the places the line names. -/
def TakesEffect (library : Library) (sourceName : String) (source : SourceDef) (f : FieldDef)
    (tag : ReadTag) : Prop :=
  ∃ dimensions plan, Effect library sourceName source f tag dimensions plan

/-- What a line asks for is still asked for in what is read of its source. -/
structure Kept (source : SourceDef) (f : FieldDef) (tag : ReadTag) (dimensions : List String) :
    Prop where
  grain : tag.dimensions = some dimensions
  /-- A line at the grain is read off the measure. -/
  read : ∃ g ∈ source.fields, g.fieldName = f.fieldName ∧ g.reaggregate = f.reaggregate ∧
    ∃ line ∈ g.readLines, line.dimensions = some dimensions
  /-- No line at other dimensions has the same key. -/
  apart : ∀ g ∈ source.fields, ∀ line ∈ g.readLines, ∀ others, line.dimensions = some others →
    grainKey others = grainKey dimensions → others = dimensions
  /-- The namespace is still asked for, or none is and the base lends the same. -/
  persistNamespace : ∀ written, tag.key "namespace" = some written →
    source.asks PreaggregateGrain.persistNamespace (grainKey dimensions) (trimmed written) ∨
      (∀ asked, ¬ source.asks PreaggregateGrain.persistNamespace (grainKey dimensions) asked) ∧
        basePersistNamespace source = some (trimmed written)
  /-- The destination is still asked for. -/
  storage : ∀ written, tag.key "storage" = some written →
    source.asks PreaggregateGrain.storage (grainKey dimensions) (trimmed written)

section Accepted

variable (accepted : validateSourcePreaggregation library sourceName source = [])

include accepted

/-- What is kept of a line takes effect. -/
theorem takesEffect_of_kept {f : FieldDef} {tag : ReadTag} {dimensions : List String}
    (kept : Kept source f tag dimensions) : TakesEffect library sourceName source f tag := by
  obtain ⟨g, field, name, merges, line, inside, declared⟩ := kept.read
  -- The measure's last line at the key is at the same dimensions, as no others have the key.
  obtain ⟨grain, read⟩ := exists_grain_of_accepted accepted field inside
  obtain rfl : grain.dimensions = dimensions :=
    Option.some.inj ((lineGrain_eq_some read).1.symm.trans declared)
  obtain ⟨last, isLast⟩ := exists_lastGrain inside read
  obtain ⟨merge, additive, brought⟩ := exists_contribution accepted field isLast
  have listed := mem_valuesOf.mpr brought
  obtain ⟨first, rest, values⟩ := List.exists_cons_of_ne_nil (List.ne_nil_of_mem listed)
  have head : (valuesOf (contributions library source) (grainKey grain.dimensions)).head? =
      some first := by rw [values]; rfl
  obtain ⟨h, firstField, -, -, -, firstLine, firstInside, firstDeclared, firstKey⟩ :=
    exists_line_of_contribution accepted (List.mem_of_mem_head? head)
  have same : first.grain.dimensions = grain.dimensions :=
    kept.apart h firstField firstLine firstInside _ firstDeclared firstKey
  refine ⟨grain.dimensions, planOf library sourceName source first
    (valuesOf (contributions library source) (grainKey grain.dimensions)), kept.grain, ?_, ?_,
    ?_, ?_⟩
  · refine filter_eq_singleton nodup_grainKey_plans
      (mem_planSourcePreaggregation.mpr ⟨_, first, head, rfl⟩) ?_ ?_
    · rw [planOf, same]
      exact sameDimensions_self _
    · intro other planned equal
      obtain ⟨key, otherFirst, otherHead, rfl⟩ := mem_planSourcePreaggregation.mp planned
      obtain ⟨_, -, -, -, -, otherLine, -, otherDeclared, -⟩ :=
        exists_line_of_contribution accepted (List.mem_of_mem_head? otherHead)
      exact congrArg grainKey ((eq_of_sameDimensions otherDeclared declared equal).trans same.symm)
  · refine ⟨merge, merges.symm.trans additive, ?_⟩
    rw [planOf, List.mem_insertionSort]
    exact List.mem_map.mpr ⟨_, listed, by rw [name]⟩
  · intro written names
    exact (namespace_planOf_eq_some accepted).mpr (kept.persistNamespace written names)
  · intro written names
    exact (storage_planOf_eq_some accepted).mpr (kept.storage written names)

/-- A line that takes effect does so in the rollup at its key. -/
theorem exists_planOf_of_takesEffect {f : FieldDef} {tag : ReadTag} {dimensions : List String}
    {plan : RollupPlan} (effect : Effect library sourceName source f tag dimensions plan) :
    ∃ first, (valuesOf (contributions library source) (grainKey dimensions)).head? = some first ∧
      first.grain.dimensions = dimensions ∧
        plan = planOf library sourceName source first
          (valuesOf (contributions library source) (grainKey dimensions)) := by
  have only : plan ∈ [plan] := List.mem_singleton_self plan
  rw [← effect.one, List.mem_filter] at only
  obtain ⟨key, first, head, rfl⟩ := mem_planSourcePreaggregation.mp only.1
  obtain ⟨_, -, -, -, -, line, -, declared, keys⟩ :=
    exists_line_of_contribution accepted (List.mem_of_mem_head? head)
  have same : first.grain.dimensions = dimensions :=
    eq_of_sameDimensions declared effect.grain only.2
  rw [same] at keys
  subst keys
  exact ⟨first, head, same, rfl⟩

/-- Where every line takes effect, every line is kept. -/
theorem kept_of_takesEffect
    (all : ∀ f ∈ source.fields, ∀ tag ∈ f.writtenLines,
      TakesEffect library sourceName source f tag)
    {f : FieldDef} (field : f ∈ source.fields) {tag : ReadTag} (written : tag ∈ f.writtenLines) :
    ∃ dimensions, Kept source f tag dimensions := by
  obtain ⟨dimensions, plan, effect⟩ := all f field tag written
  obtain ⟨first, head, same, rfl⟩ := exists_planOf_of_takesEffect accepted effect
  -- Lines of one key have one rollup, and it has one grain.
  have apart : ∀ g ∈ source.fields, ∀ line ∈ g.readLines, ∀ others,
      line.dimensions = some others → grainKey others = grainKey dimensions →
        others = dimensions := by
    intro g member line inside others declared keys
    obtain ⟨otherDimensions, otherPlan, otherEffect⟩ := all g member line (g.readLines_subset inside)
    obtain rfl : otherDimensions = others :=
      Option.some.inj (otherEffect.grain.symm.trans declared)
    obtain ⟨otherFirst, otherHead, otherSame, -⟩ :=
      exists_planOf_of_takesEffect accepted otherEffect
    rw [keys, head] at otherHead
    rw [← otherSame, ← same, Option.some.inj otherHead]
  refine ⟨dimensions, effect.grain, ?_, apart, ?_, ?_⟩
  · obtain ⟨merge, merges, listed⟩ := effect.merged
    rw [planOf, List.mem_insertionSort] at listed
    obtain ⟨c, inside, measure⟩ := List.mem_map.mp listed
    obtain ⟨g, member, -, otherMerge, name, line, read, declared, keys⟩ :=
      exists_line_of_contribution accepted inside
    rw [measure] at otherMerge name
    rw [apart g member line read _ declared keys] at declared
    exact ⟨g, member, name.symm, otherMerge.trans merges.symm, line, read, declared⟩
  · intro text names
    exact (namespace_planOf_eq_some accepted).mp (effect.persistNamespace text names)
  · intro text names
    exact (storage_planOf_eq_some accepted).mp (effect.storage text names)

end Accepted

/-! ## Every declaration -/

/-- Whether every line that no negation follows takes effect, unless the source is refused. -/
def EveryLineTakesEffect (library : Library) (sourceName : String) (source : SourceDef) : Prop :=
  validateSourcePreaggregation library sourceName source = [] →
    ∀ f ∈ source.fields, ∀ tag ∈ f.writtenLines, TakesEffect library sourceName source f tag

/-- Whether a rollup lists only what the source exposes. -/
def RollupPlan.isPublic (source : SourceDef) (plan : RollupPlan) : Prop :=
  (∀ measure ∈ plan.measures, ∃ f ∈ source.fields, f.fieldName = measure.name ∧
    f.isAccessRestricted = false ∧ f.reaggregate = some measure.reaggregate) ∧
  ∀ dimension ∈ plan.grainDimensions, ∀ f, source.fieldNamed dimension = some f →
    f.isAccessRestricted = false

/-- Every line of a source takes effect or the source is refused, if and only if every line of
it is kept in what is read. Refused or not, no rollup lists what the source hides. -/
theorem everyLineTakesEffect_iff (library : Library) (sourceName : String) (source : SourceDef) :
    (EveryLineTakesEffect library sourceName source ↔
      (validateSourcePreaggregation library sourceName source = [] →
        ∀ f ∈ source.fields, ∀ tag ∈ f.writtenLines, ∃ dimensions, Kept source f tag dimensions)) ∧
    ∀ plan ∈ planSourcePreaggregation library sourceName source, plan.isPublic source := by
  refine ⟨⟨?_, ?_⟩, fun plan planned => plan_public planned⟩
  · intro effect accepted f field tag written
    exact kept_of_takesEffect accepted (effect accepted) field written
  · intro kept accepted f field tag written
    obtain ⟨dimensions, keeps⟩ := kept accepted f field tag written
    exact takesEffect_of_kept accepted keeps

/-! ## A later line at the same grain -/

def placedNote : Note :=
  siblingNote "#@ preaggregate grain=\"category\" namespace=\"analytics\"\n"
    [("grain", "category"), ("namespace", "analytics")]

def repeatedNote : Note :=
  siblingNote "#@ preaggregate grain=\"category\"\n" [("grain", "category")]

/-- A sum declared at one grain twice, first with a namespace and then without. -/
def ordersTotal : FieldDef where
  name := "total"
  type := some "number"
  expressionType := some .aggregate
  annotations := some (.mk [placedNote, repeatedNote] [] none)
  e := some (.aggregate "sum" [.other []])

def ordersSource : SourceDef where
  fields := [{ name := "category", type := some "string" }, ordersTotal]

/-- The namespace of the first line is neither honoured nor refused. -/
theorem repeatedGrain_loses_namespace :
    ¬ ∀ (library : Library) (sourceName : String) (source : SourceDef),
      EveryLineTakesEffect library sourceName source := by
  intro all
  have accepted : validateSourcePreaggregation plainLibrary "orders" ordersSource = [] := by
    decide +kernel
  have quiet : NEGATION placedNote.text = false ∧ NEGATION repeatedNote.text = false := by
    decide +kernel
  have written : ∃ tag, placedNote.tag = some tag ∧ tag.has "preaggregate" = true ∧
      tag.key "namespace" = some "analytics" := ⟨_, rfl, by decide +kernel, by decide +kernel⟩
  obtain ⟨tag, parsed, declares, names⟩ := written
  have line : tag ∈ ordersTotal.writtenLines := by
    refine List.mem_filterMap.mpr ⟨placedNote, ?_, by
      rw [Note.line, parsed, Option.filter_some, if_pos declares]⟩
    have notes : (ordersTotal.annotations.map AnnotationsDef.allNotes).getD [] =
        [placedNote, repeatedNote] := by
      simp [ordersTotal, AnnotationsDef.allNotes, placedNote, repeatedNote, siblingNote]
    rw [notes]
    simp [inForce, quiet]
  obtain ⟨dimensions, plan, effect⟩ := all plainLibrary "orders" ordersSource accepted ordersTotal
    (by simp [ordersSource]) tag line
  have unplaced : ∀ plan ∈ planSourcePreaggregation plainLibrary "orders" ordersSource,
      plan.persistNamespace = none := by
    decide +kernel
  have planned : plan ∈ planSourcePreaggregation plainLibrary "orders" ordersSource := by
    have only : plan ∈ [plan] := List.mem_singleton_self plan
    rw [← effect.one] at only
    exact List.mem_of_mem_filter only
  have placed := effect.persistNamespace "analytics" names
  rw [unplaced plan planned] at placed
  cases placed

end MalloyPublisher.Preaggregation
