import MalloyPublisher.Foundations.Grouping
import MalloyPublisher.Preaggregation.Annotation

/-!
# Refusing `#@ preaggregate` at publish

A declaration that quietly does nothing is the worst outcome, so the validator looks for
`#@ preaggregate` wherever it may stand and refuses what cannot take effect: on what is no
measure, on a measure that cannot be merged or is not public, at a grain that does not resolve,
and where the measures of one grain ask for different places.

## Main definitions

* `FieldDef`, `SourceDef` — what is read of a compiled source
* `validateSourcePreaggregation` — everything that is refused

## Main results

* `accepted_field` — what holds of each annotated field of a source that is not refused
* `one_place` — a grain asks for one place
-/

namespace MalloyPublisher.Preaggregation

open Foundations

/-! ## Compiled sources -/

/-- What is read of a compiled field. -/
structure FieldDef where
  name : String
  as' : Option String := none
  type : Option String := none
  join : Option String := none
  expressionType : Option ExpressionType := none
  annotations : Option AnnotationsDef := none
  accessModifier : Option String := none
  e : Option Expr := none
  requiresGroupBy : ℕ := 0
  ungroupings : ℕ := 0

structure SourceDef where
  annotations : Option AnnotationsDef := none
  /-- The tag of all its annotations together, unless parsing it throws. -/
  tag : Option ReadTag := none
  fields : List FieldDef

/-- The compiler's own predicates, the runtime's `localeCompare` and its digest. -/
structure Library where
  isJoined : FieldDef → Bool
  expressionIsAggregate : Option ExpressionType → Bool
  expressionIsAnalytic : Option ExpressionType → Bool
  localeLE : String → String → Bool
  digest : String → String

def FieldDef.fieldName (f : FieldDef) : String := f.as'.getD f.name

/-- A field the source does not publicly expose. -/
def FieldDef.isAccessRestricted (f : FieldDef) : Bool :=
  f.accessModifier.any (· ≠ "public")

def FieldDef.isView (f : FieldDef) : Bool := f.type = some "turtle"

def isTemporalType (type : String) : Bool :=
  type = "date" || type = "timestamp" || type = "timestamptz"

def FieldDef.additivity (f : FieldDef) : AdditivityResult :=
  classifyMeasureAdditivity {
    name := f.fieldName
    e := f.e
    expressionType := f.expressionType
    requiresGroupBy := f.requiresGroupBy
    ungroupings := f.ungroupings }

/-- The merge of an additive measure's partials. -/
def FieldDef.reaggregate (f : FieldDef) : Option ReaggregateFunction :=
  match f.additivity with
  | .additive _ reaggregate => some reaggregate
  | .nonAdditive _ _ => none

/-- The field a name resolves to. -/
def SourceDef.fieldNamed (source : SourceDef) (name : String) : Option FieldDef :=
  source.fields.find? fun f => f.fieldName = name

/-! ## Violations -/

inductive PreaggregateViolationCode
  | misplaced_on_source | misplaced_on_dimension | misplaced_on_join | misplaced_on_view
  | declaration (kind : DeclarationErrorKind)
  | conflicting_namespace | conflicting_storage | namespace_with_storage
  | non_additive_measure | non_public_measure
  | unknown_grain_dimension | grain_dimension_is_measure | grain_dimension_is_view
  | grain_dimension_not_public | grain_path_through_join | grain_truncation_expression
  | truncation_on_non_temporal
  | base_source_has_fanout_join
deriving DecidableEq

structure PreaggregateViolation where
  code : PreaggregateViolationCode
  sourceName : String
  fieldName : Option String
  message : String

variable (library : Library)

def isFanoutJoin (f : FieldDef) : Bool := library.isJoined f && f.join ≠ some "one"

def isMeasure (f : FieldDef) : Bool :=
  library.expressionIsAggregate f.expressionType && !library.expressionIsAnalytic f.expressionType

def isGroupableDimension (f : FieldDef) : Bool :=
  if library.isJoined f || f.isView then false
  else f.expressionType = none || f.expressionType = some .scalar

/-- Resolve one grain dimension against the source. -/
def validateGrainDimension (sourceName measure : String) (source : SourceDef)
    (grainDimension : String) : Option PreaggregateViolation :=
  let violation (code : PreaggregateViolationCode) (message : String) :
      Option PreaggregateViolation :=
    some ⟨code, sourceName, some measure, message⟩
  let parts := splitText '.' grainDimension
  let head := parts.headD ""
  match source.fieldNamed head with
  | none =>
    violation .unknown_grain_dimension ("Measure " ++ ticked measure ++ " declares \x60#@ " ++
      "preaggregate\x60 at a grain naming " ++ ticked grainDimension ++ ", but " ++ ticked head ++
      " is not a field of " ++ ticked sourceName ++ ". Use a dimension that exists on the " ++
      "source; a rollup can only group by the source's own dimensions.")
  | some field =>
    if library.isJoined field then
      violation .grain_path_through_join ("Measure " ++ ticked measure ++ " declares a grain of " ++
        ticked grainDimension ++ ", which reaches through the join " ++ ticked head ++
        ". Pre-aggregating across a join is not supported in this version; copy the value into " ++
        "a dimension on " ++ ticked sourceName ++ " and group by that instead.")
    else if parts.length > 1 then
      let type := field.type.getD ""
      if !isTemporalType type then
        violation .truncation_on_non_temporal ("Measure " ++ ticked measure ++ " declares a " ++
          "grain of " ++ ticked grainDimension ++ ", but " ++ ticked head ++ " is a " ++
          ticked (if type = "" then "non-temporal" else type) ++ " field of " ++
          ticked sourceName ++ ", so " ++ ticked ("." ++ ".".intercalate (parts.drop 1)) ++
          " reads as neither a join path nor a time truncation. Name a dimension of " ++
          ticked sourceName ++ " instead.")
      else
        let suggested := head ++ "_" ++ parts.getLastD ""
        violation .grain_truncation_expression ("Measure " ++ ticked measure ++ " declares a " ++
          "grain of " ++ ticked grainDimension ++ ". A grain may name only dimensions " ++
          ticked sourceName ++ " already declares, not a truncation written inline: a rollup " ++
          "built this way either answers untruncated queries from truncated rows, or is never " ++
          "used at all. Add \x60dimension: " ++ suggested ++ " is " ++ grainDimension ++
          "\x60 to " ++ ticked sourceName ++ " and write \x60grain=\"" ++ suggested ++
          "\"\x60. Queries that group by " ++ ticked suggested ++ ", or by a coarser truncation " ++
          "of it, will then be served by the rollup.")
    else if field.isAccessRestricted then
      violation .grain_dimension_not_public ("Measure " ++ ticked measure ++ " declares a grain " ++
        "naming " ++ ticked grainDimension ++ ", which " ++ ticked sourceName ++ " does not " ++
        "publicly expose. A rollup STORES its grain, and the stored table is served without the " ++
        "source's field visibility applying to it, so no rollup is built at this grain. Group " ++
        "by a public dimension, or expose " ++ ticked grainDimension ++ " publicly.")
    else if field.isView then
      violation .grain_dimension_is_view ("Measure " ++ ticked measure ++ " declares a grain " ++
        "naming " ++ ticked grainDimension ++ ", which is a view, not a dimension. A grain must " ++
        "list dimensions to group by.")
    else if isMeasure library field then
      violation .grain_dimension_is_measure ("Measure " ++ ticked measure ++ " declares a grain " ++
        "naming " ++ ticked grainDimension ++ ", which is itself a measure. A grain lists the " ++
        "dimensions the rollup groups by, not the values it aggregates.")
    else if !isGroupableDimension library field then
      violation .unknown_grain_dimension ("Measure " ++ ticked measure ++ " declares a grain " ++
        "naming " ++ ticked grainDimension ++ ", which is not a dimension that can be grouped " ++
        "by. Use a scalar dimension or a column of " ++ ticked sourceName ++ ".")
    else none

/-! ## One field -/

/-- The declaration on a field. -/
def declarationOf (f : FieldDef) : PreaggregateDeclaration :=
  readPreaggregateAnnotation library.localeLE f.fieldName f.annotations

/-- Why a field cannot carry the annotation at all. -/
def misplacement (sourceName : String) (f : FieldDef) : Option PreaggregateViolation :=
  let name := f.fieldName
  let violation (code : PreaggregateViolationCode) (message : String) :
      Option PreaggregateViolation :=
    some ⟨code, sourceName, some name, message⟩
  if library.isJoined f then
    violation .misplaced_on_join ("The join " ++ ticked name ++ " on " ++ ticked sourceName ++
      " carries \x60#@ preaggregate\x60, which applies to measures, not to joins. Move it onto " ++
      "the measures that should be pre-aggregated.")
  else if f.isView then
    violation .misplaced_on_view ("The view " ++ ticked name ++ " on " ++ ticked sourceName ++
      " carries \x60#@ preaggregate\x60, which applies to measures, not to views. Annotate the " ++
      "measures the view aggregates instead; a rollup serves a view through its measures.")
  else if !isMeasure library f then
    violation .misplaced_on_dimension (ticked name ++ " on " ++ ticked sourceName ++
      " carries \x60#@ preaggregate\x60, but it is a dimension, not a measure. Dimensions are " ++
      "named in a measure's \x60grain=\x60; annotate the measure you want pre-aggregated and " ++
      "list " ++ ticked name ++ " in its grain.")
  else if f.isAccessRestricted then
    violation .non_public_measure ("Measure " ++ ticked name ++ " on " ++ ticked sourceName ++
      " carries \x60#@ preaggregate\x60, but the source does not publicly expose it. A rollup " ++
      "stores the measure's partial aggregate and serves it back under the measure's name, " ++
      "without the source's field visibility applying to the stored table — so no rollup is " ++
      "built for it here. If it should be pre-aggregated on " ++ ticked sourceName ++
      ", expose it publicly; if this source deliberately hides a measure it inherited the " ++
      "annotation with, nothing is wrong and the rollup on the source that exposes it is " ++
      "unaffected.")
  else none

/-- The violations of one declared field. -/
def fieldViolations (sourceName : String) (source : SourceDef) (f : FieldDef) :
    List PreaggregateViolation :=
  let name := f.fieldName
  let declaration := declarationOf library f
  match misplacement library sourceName f with
  | some violation => [violation]
  | none =>
    if declaration.errors ≠ [] then
      declaration.errors.map fun error =>
        ⟨.declaration error.kind, sourceName, some name, error.message⟩
    else
      (match f.additivity with
        | .nonAdditive _ detail => [⟨.non_additive_measure, sourceName, some name, detail⟩]
        | .additive _ _ => []) ++
      declaration.grains.flatMap fun grain =>
        grain.dimensions.filterMap (validateGrainDimension library sourceName name source)

/-! ## The places a grain asks for -/

/-- Whether the places a field's grains ask for are recorded. -/
def recordsPlaces (f : FieldDef) : Bool :=
  (declarationOf library f).declared && (misplacement library "" f).isNone &&
    (declarationOf library f).errors = [] && f.reaggregate.isSome

/-- A place a field's grain asks for: the place, the measure and the grain as written. -/
structure AskedPlace where
  place : String
  measure : String
  text : String

/-- The places asked for, in the order of the fields and of their grains. -/
def askedPlaces (source : SourceDef) (place : PreaggregateGrain → Option String) :
    List (String × AskedPlace) :=
  (source.fields.filter (recordsPlaces library)).flatMap fun f =>
    (declarationOf library f).grains.filterMap fun grain =>
      (place grain).map fun asked => (grainKey grain.dimensions, ⟨asked, f.fieldName, grain.text⟩)

/-- Record the first measure that asks for each place. -/
def addPlace (named : List (String × String)) (asked : AskedPlace) : List (String × String) :=
  if asked.place ∈ named.map Prod.fst then named
  else named ++ [(asked.place, asked.measure)]

/-- For each grain the places asked for at it. -/
def placesByGrain (source : SourceDef) (place : PreaggregateGrain → Option String) :
    List (String × List (String × String)) :=
  gather (fun _ => []) addPlace (askedPlaces library source place)

/-- A grain as it was written last by a measure that asks for a place. -/
def grainText (source : SourceDef) (key : String) : String :=
  (lastWrite ((source.fields.filter (recordsPlaces library)).flatMap fun f =>
    ((declarationOf library f).grains.filter fun grain =>
      grain.persistNamespace.isSome || grain.storage.isSome).map fun grain =>
        (grainKey grain.dimensions, grain.text)) key).getD "undefined"

def choices (named : List (String × String)) : String :=
  ", ".intercalate (named.map fun entry => ticked entry.1 ++ " (on " ++ ticked entry.2 ++ ")")

/-- One grain is one table, created in one place and built in one store. -/
def conflicts (sourceName : String) (source : SourceDef) : List PreaggregateViolation :=
  let namespaces := placesByGrain library source PreaggregateGrain.persistNamespace
  let storages := placesByGrain library source PreaggregateGrain.storage
  (namespaces.filter fun entry => entry.2.length ≥ 2).map (fun entry =>
    ⟨.conflicting_namespace, sourceName, none, "Measures on " ++ ticked sourceName ++
      " declare \x60#@ preaggregate\x60 at the grain " ++
      ticked (grainText library source entry.1) ++ " with different namespaces: " ++
      choices entry.2 ++ ". One grain is one rollup table, so it can only be created in one of " ++
      "them. Give every measure at this grain the same \x60namespace=\x60, or move one to a " ++
      "different grain."⟩) ++
  (storages.filter fun entry => entry.2.length ≥ 2).map (fun entry =>
    ⟨.conflicting_storage, sourceName, none, "Measures on " ++ ticked sourceName ++
      " declare \x60#@ preaggregate\x60 at the grain " ++
      ticked (grainText library source entry.1) ++ " with different storage destinations: " ++
      choices entry.2 ++ ". One grain is one rollup table, so it can only be built into one of " ++
      "them. Give every measure at this grain the same \x60storage=\x60, or move one to a " ++
      "different grain."⟩) ++
  namespaces.filterMap fun entry =>
    match entry.2, storages.lookup entry.1 with
    | (path, pathMeasure) :: _, some ((destination, storageMeasure) :: _) =>
      some ⟨.namespace_with_storage, sourceName, none, "The grain " ++
        ticked (grainText library source entry.1) ++ " on " ++ ticked sourceName ++
        " declares both \x60namespace=\"" ++ path ++ "\"\x60 (on " ++ ticked pathMeasure ++
        ") and \x60storage=" ++ destination ++ "\x60 (on " ++ ticked storageMeasure ++
        "). A rollup built into a storage destination is placed by the destination, not by a " ++
        "namespace, so the two cannot both apply. Remove the \x60namespace=\x60, or remove the " ++
        "\x60storage=\x60 to build this rollup alongside its base."⟩
    | _, _ => none

/-! ## A source -/

/-- Everything refused on one compiled source. -/
def validateSourcePreaggregation (sourceName : String) (source : SourceDef) :
    List PreaggregateViolation :=
  let declaredFields := source.fields.filter fun f => (declarationOf library f).declared
  let fanout := if declaredFields.isEmpty then [] else source.fields.filter (isFanoutJoin library)
  (if ( readPreaggregateAnnotation library.localeLE sourceName source.annotations).declared then
    [⟨.misplaced_on_source, sourceName, none, "Source " ++ ticked sourceName ++ " carries " ++
      "\x60#@ preaggregate\x60, which applies to measures, not to sources. Move it onto each " ++
      "measure that should be pre-aggregated."⟩]
  else []) ++
  declaredFields.flatMap (fieldViolations library sourceName source) ++
  conflicts library sourceName source ++
  if fanout.isEmpty then []
  else [⟨.base_source_has_fanout_join, sourceName, none, "Source " ++ ticked sourceName ++
    " declares \x60#@ preaggregate\x60 but joins " ++
    ", ".intercalate (fanout.map fun f => ticked f.fieldName) ++ " with a fan-out join. A rollup " ++
    "over a fan-out join can return a wrong total, because every measure was computed against " ++
    "duplicated rows, so pre-aggregating such a source is not supported in this version. " ++
    "Pre-aggregate a source whose joins are all \x60join_one\x60, or remove the annotations."⟩]

/-! ## What is not refused -/

section Accepted

variable {library : Library} {sourceName : String} {source : SourceDef}

theorem misplacement_isNone (first second : String) (f : FieldDef) :
    (misplacement library first f).isNone = (misplacement library second f).isNone := by
  unfold misplacement
  split_ifs <;> rfl

theorem public_of_misplacement {f : FieldDef}
    (placed : (misplacement library sourceName f).isNone = true) :
    f.isAccessRestricted = false ∧ isMeasure library f = true := by
  unfold misplacement at placed
  split_ifs at placed with joined view measure hidden
  · cases placed
  · cases placed
  · cases placed
  · cases placed
  · exact ⟨eq_false_of_ne_true hidden, by simpa using measure⟩

/-- What holds of a field that is declared and has nothing refused. -/
structure AcceptedField (library : Library) (sourceName : String) (source : SourceDef)
    (f : FieldDef) : Prop where
  placed : (misplacement library sourceName f).isNone = true
  usable : (declarationOf library f).errors = []
  additive : f.reaggregate.isSome = true
  resolved : ∀ grain ∈ (declarationOf library f).grains, ∀ dimension ∈ grain.dimensions,
    validateGrainDimension library sourceName f.fieldName source dimension = none

theorem accepted_of_fieldViolations {f : FieldDef}
    (none : fieldViolations library sourceName source f = []) :
    AcceptedField library sourceName source f := by
  unfold fieldViolations at none
  cases placed : misplacement library sourceName f with
  | some violation => simp [placed] at none
  | none =>
    simp only [placed] at none
    split_ifs at none with errors
    · exact absurd (List.map_eq_nil_iff.mp none) errors
    · obtain ⟨merges, resolved⟩ := List.append_eq_nil_iff.mp none
      refine ⟨by rw [placed]; rfl, not_not.mp errors, ?_, ?_⟩
      · unfold FieldDef.reaggregate
        cases additivity : f.additivity with
        | additive => rfl
        | nonAdditive reason detail => simp [additivity] at merges
      · intro grain member dimension inside
        have all := List.flatMap_eq_nil_iff.mp resolved grain member
        exact List.filterMap_eq_nil_iff.mp all dimension inside

/-- Every annotated field of a source that is not refused is accepted. -/
theorem accepted_field (accepted : validateSourcePreaggregation library sourceName source = [])
    {f : FieldDef} (member : f ∈ source.fields)
    (declared : (declarationOf library f).declared = true) :
    AcceptedField library sourceName source f := by
  unfold validateSourcePreaggregation at accepted
  have fields := (List.append_eq_nil_iff.mp (List.append_eq_nil_iff.mp
    (List.append_eq_nil_iff.mp accepted).1).1).2
  exact accepted_of_fieldViolations (List.flatMap_eq_nil_iff.mp fields f
    (List.mem_filter.mpr ⟨member, declared⟩))

theorem conflicts_eq_nil (accepted : validateSourcePreaggregation library sourceName source = []) :
    conflicts library sourceName source = [] := by
  unfold validateSourcePreaggregation at accepted
  exact (List.append_eq_nil_iff.mp (List.append_eq_nil_iff.mp accepted).1).2

/-- A field that is accepted has the places of its grains recorded. -/
theorem AcceptedField.records {f : FieldDef} (field : AcceptedField library sourceName source f)
    (declared : (declarationOf library f).declared = true) : recordsPlaces library f = true := by
  have placed := field.placed
  rw [misplacement_isNone sourceName ""] at placed
  simp [recordsPlaces, declared, placed, field.usable, field.additive]

theorem mem_foldl_addPlace {start : List (String × String)} {asked : List AskedPlace}
    {place : String} :
    place ∈ (asked.foldl addPlace start).map Prod.fst ↔
      place ∈ start.map Prod.fst ∨ ∃ one ∈ asked, one.place = place := by
  induction asked generalizing start with
  | nil => simp
  | cons first asked ih =>
    rw [List.foldl_cons, ih, addPlace]
    split_ifs with known
    · constructor
      · rintro (before | ⟨one, member, same⟩)
        · exact .inl before
        · exact .inr ⟨one, List.mem_cons_of_mem _ member, same⟩
      · rintro (before | ⟨one, member, rfl⟩)
        · exact .inl before
        · rcases List.mem_cons.mp member with rfl | later
          · exact .inl known
          · exact .inr ⟨one, later, rfl⟩
    · simp only [List.map_append, List.map_cons, List.map_nil, List.mem_append,
        List.mem_singleton, List.exists_mem_cons_iff, or_assoc, eq_comm]

/-- Two places asked for at one grain are both recorded. -/
theorem one_place {place : PreaggregateGrain → Option String} {key : String}
    (short : ∀ entry ∈ placesByGrain library source place, entry.2.length < 2)
    {first second : AskedPlace} (memberFirst : (key, first) ∈ askedPlaces library source place)
    (memberSecond : (key, second) ∈ askedPlaces library source place) :
    first.place = second.place := by
  obtain ⟨named, group⟩ := exists_group (fun _ => []) addPlace memberFirst
  obtain ⟨_, _, gathered⟩ := (mem_gather _ _).mp group
  have recorded : ∀ one : AskedPlace, (key, one) ∈ askedPlaces library source place →
      one.place ∈ named.map Prod.fst := by
    intro one member
    rw [← gathered]
    exact mem_foldl_addPlace.mpr (.inr ⟨one, mem_valuesOf.mpr member, rfl⟩)
  have inFirst := recorded first memberFirst
  have inSecond := recorded second memberSecond
  have few : named.length < 2 := short (key, named) group
  match named, few with
  | [], _ => cases inFirst
  | [only], _ =>
    rw [List.map_singleton, List.mem_singleton] at inFirst inSecond
    rw [inFirst, inSecond]
  | _ :: _ :: rest, few => exact absurd few (by simp)

theorem namespace_short
    (accepted : validateSourcePreaggregation library sourceName source = []) :
    ∀ entry ∈ placesByGrain library source PreaggregateGrain.persistNamespace, entry.2.length < 2 := by
  have none := conflicts_eq_nil accepted
  unfold conflicts at none
  have first := (List.append_eq_nil_iff.mp (List.append_eq_nil_iff.mp none).1).1
  intro entry member
  by_contra many
  have kept := List.filter_eq_nil_iff.mp (List.map_eq_nil_iff.mp first) entry member
  simp only [ge_iff_le, decide_eq_true_eq, not_le] at kept
  exact many kept

theorem storage_short
    (accepted : validateSourcePreaggregation library sourceName source = []) :
    ∀ entry ∈ placesByGrain library source PreaggregateGrain.storage, entry.2.length < 2 := by
  have none := conflicts_eq_nil accepted
  unfold conflicts at none
  have second := (List.append_eq_nil_iff.mp (List.append_eq_nil_iff.mp none).1).2
  intro entry member
  by_contra many
  have kept := List.filter_eq_nil_iff.mp (List.map_eq_nil_iff.mp second) entry member
  simp only [ge_iff_le, decide_eq_true_eq, not_le] at kept
  exact many kept

/-- A place a grain of an accepted field asks for is recorded. -/
theorem AcceptedField.asked {f : FieldDef} (field : AcceptedField library sourceName source f)
    (member : f ∈ source.fields) (declared : (declarationOf library f).declared = true)
    {place : PreaggregateGrain → Option String} {grain : PreaggregateGrain}
    (listed : grain ∈ (declarationOf library f).grains) {asked : String}
    (asks : place grain = some asked) :
    (grainKey grain.dimensions, (⟨asked, f.fieldName, grain.text⟩ : AskedPlace)) ∈
      askedPlaces library source place := by
  refine List.mem_flatMap.mpr ⟨f, List.mem_filter.mpr ⟨member, field.records declared⟩, ?_⟩
  exact List.mem_filterMap.mpr ⟨grain, listed, by rw [asks]; rfl⟩

/-- A grain's dimension that is not refused is a public field of the source. -/
theorem exists_field_of_validateGrainDimension {measure dimension : String}
    (resolved : validateGrainDimension library sourceName measure source dimension = none) :
    ∃ f, source.fieldNamed dimension = some f ∧ f.isAccessRestricted = false ∧
      isMeasure library f = false := by
  unfold validateGrainDimension at resolved
  cases found : source.fieldNamed ((splitText '.' dimension).headD "") with
  | none =>
    simp only [found] at resolved
    cases resolved
  | some f =>
    simp only [found] at resolved
    split_ifs at resolved with joined dotted temporal hidden view measured groupable
    rw [splitText_of_length_le_one (not_lt.mp dotted)] at found
    exact ⟨f, found, eq_false_of_ne_true hidden, eq_false_of_ne_true measured⟩

end Accepted

end MalloyPublisher.Preaggregation
