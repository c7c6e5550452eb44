import MalloyPublisher.Context.CollapseAliases

/-!
# Collecting the entities of a package

The models of a package are gone through in the order of their paths. Each of their sources is an
entity, with its joins, the fields that a join reaches, its views, dimensions and measures; so is
each query on a named source. What one model surfaces twice is one entity, and what two models
surface is two.

## Main definitions

* `ModelFile` — a model as it is compiled
* `collectEntities` — the entities of a package

## Main results

* `distinct_collectEntities` — each entity is collected once
* `exists_source_iff` — the sources are those that the models surface
-/

namespace MalloyPublisher.Context

open Foundations

/-! ## Annotations -/

/-- What follows the first `#(doc)` of an annotation. -/
def afterDocTag : List Char → Option (List Char)
  | [] => none
  | c :: rest =>
    if "#(doc)".toList.isPrefixOf (c :: rest) then some ((c :: rest).drop 6) else afterDocTag rest

/-- The characters at which `.` stops. -/
def endsLine (c : Char) : Bool := c.toNat ∈ [0xA, 0xD, 0x2028, 0x2029]

/-- Each run of white space as one blank. -/
def collapseSpace : List Char → List Char
  | [] => []
  | c :: rest =>
    if isSpace c then
      if rest.head?.any isSpace then collapseSpace rest else ' ' :: collapseSpace rest
    else c :: collapseSpace rest

/-- Lines joined by blanks, with no more white space than one blank. -/
def oneLine (lines : List (List Char)) : String :=
  String.ofList (trim (collapseSpace ([' '].intercalate lines)))

/-- The text of the `#(doc)` annotations. -/
def docOnlyText (annotations : List String) : String :=
  let docs := annotations.map fun annotation =>
    match afterDocTag annotation.toList with
    | none => []
    | some rest => trim ((rest.dropWhile isSpace).takeWhile fun c => !endsLine c)
  oneLine (docs.filter (· ≠ []))

/-- The same, or the annotations themselves where there is none. -/
def docText (annotations : List String) : String :=
  let doc := docOnlyText annotations
  if doc ≠ "" then doc else oneLine (annotations.map String.toList)

/-! ## Models -/

inductive FieldKind
  | view
  | dimension
  | measure
  /-- A field that is not indexed. -/
  | other
  deriving DecidableEq, Repr

def FieldKind.entityKind : FieldKind → Option EntityKind
  | view => some .view
  | dimension => some .dimension
  | measure => some .measure
  | other => none

/-- A field of a schema. A join has the schema that it reaches. -/
inductive SchemaField
  | field (kind : FieldKind) (name : Label) (annotations : List String) (dataType : Option String)
  | join (name : Label) (annotations : List String) (relationship : Option Relationship)
      (fields : List SchemaField)

/-- A field as it is compiled: `path` is the path of a definition that is one reference. -/
structure FieldDefinition where
  name : Option Label
  renamed : Option Label
  code : Option String
  path : Option (List Label)

structure SourceInfo where
  name : Label
  annotations : List String
  fields : List SchemaField
  definitions : List FieldDefinition

structure NamedQuery where
  name : Option Label
  sourceName : Option Label
  annotations : List String

/-- A model of the package: `compiled` is what is served at its path, when there is anything. -/
structure ModelFile where
  path : Option Label
  compiled : Option (List SourceInfo × List NamedQuery)

/-! ## The walk -/

structure FieldProvenance where
  code : Option String
  aliasOf : Option Label

/-- The sibling that a definition refers to: a path of one segment, and not the field itself. -/
def referentName (name : Label) : Option (List Label) → Option Label
  | some [segment] => if segment ≠ name then some segment else none
  | _ => none

def readFieldProvenance (definitions : List FieldDefinition) : List (Label × FieldProvenance) :=
  definitions.filterMap fun definition =>
    (definition.renamed.or definition.name).map fun name =>
      (name, ⟨definition.code, referentName name definition.path⟩)

/-- The provenance of a field. The last entry of a name is the one that is kept. -/
def provenanceOf (provenance : List (Label × FieldProvenance)) (name : Label) :
    Option FieldProvenance :=
  (provenance.reverse.find? fun entry => entry.1 = name).map Prod.snd

/-- A path of names. -/
def Label.dot (path name : Label) : Label where
  text := path.text ++ "." ++ name.text
  nonempty same := path.nonempty (by simp [String.append_eq_empty_iff] at same)
  plain member := by
    simp only [String.toList_append, List.mem_append] at member
    obtain (member | member) | member := member
    · exact path.plain member
    · revert member
      decide +kernel
    · exact name.plain member

/-- `MAX_JOIN_PATH_DEPTH`. -/
def maxJoinPathDepth : ℕ := 2

/-- A dimension or a measure that a join reaches. -/
def joinedField (sourceName modelPath joinPath : Label) (fanout : Option Relationship) :
    SchemaField → List Entity
  | .field kind name annotations dataType =>
    if kind = .dimension ∨ kind = .measure then
      [{ kind := if kind = .dimension then .dimension else .measure
         name := joinPath.dot name
         source := some sourceName
         modelPath := modelPath
         doc := docText annotations
         embedDoc := docOnlyText annotations
         relationship := fanout
         aliases := []
         code := none
         aliasOf := none
         dataType := dataType
         joinPath := some joinPath }]
    else []
  | .join .. => []

/-- The fields that a join reaches, with those of further joins down to a depth. -/
def collectJoinedFields (sourceName modelPath : Label) :
    ℕ → Label → Option Relationship → List SchemaField → List Entity
  | 0, joinPath, fanout, fields => fields.flatMap (joinedField sourceName modelPath joinPath fanout)
  | levels + 1, joinPath, fanout, fields => fields.flatMap fun
    | .join name _ relationship reached =>
      collectJoinedFields sourceName modelPath levels (joinPath.dot name)
        (if relationship = some .one then fanout else relationship.or fanout) reached
    | field => joinedField sourceName modelPath joinPath fanout field

def fieldEntities (modelPath : Label) (source : SourceInfo)
    (provenance : List (Label × FieldProvenance)) : SchemaField → List Entity
  | .join name annotations relationship fields =>
    { kind := .join
      name := name
      source := some source.name
      modelPath := modelPath
      doc := docText annotations
      embedDoc := docOnlyText annotations
      relationship := relationship
      aliases := []
      code := none
      aliasOf := none
      dataType := none
      joinPath := none } ::
    collectJoinedFields source.name modelPath (maxJoinPathDepth - 1) name relationship fields
  | .field kind name annotations dataType =>
    match kind.entityKind with
    | none => []
    | some entityKind =>
      let isView := entityKind = .view
      let found := provenanceOf provenance name
      [{ kind := entityKind
         name := name
         source := some source.name
         modelPath := modelPath
         doc := docText annotations
         embedDoc := docOnlyText annotations
         relationship := none
         aliases := []
         code := found.bind FieldProvenance.code
         -- A view is no spelling of another field, and has no type.
         aliasOf := if isView then none else found.bind FieldProvenance.aliasOf
         dataType := if isView then none else dataType
         joinPath := none }]

def sourceEntity (modelPath : Label) (source : SourceInfo) : Entity where
  kind := .source
  name := source.name
  source := some source.name
  modelPath := modelPath
  doc := docText source.annotations
  embedDoc := docOnlyText source.annotations
  relationship := none
  aliases := []
  code := none
  aliasOf := none
  dataType := none
  joinPath := none

/-- A query on a named source. One on a source without a name would have no card. -/
def queryEntity (modelPath : Label) (query : NamedQuery) : Option Entity :=
  match query.name, query.sourceName with
  | some name, some sourceName => some
    { kind := .query
      name := name
      source := some sourceName
      modelPath := modelPath
      doc := docText query.annotations
      embedDoc := docOnlyText query.annotations
      relationship := none
      aliases := []
      code := none
      aliasOf := none
      dataType := none
      joinPath := none }
  | _, _ => none

def sourceEntities (modelPath : Label) (source : SourceInfo) : List Entity :=
  sourceEntity modelPath source ::
    source.fields.flatMap (fieldEntities modelPath source (readFieldProvenance source.definitions))

def modelEntities (model : ModelFile) : List Entity :=
  match model.path, model.compiled with
  | some path, some (sources, queries) =>
    sources.flatMap (sourceEntities path) ++ queries.filterMap (queryEntity path)
  | _, _ => []

/-- The entities whose key was not met before. -/
def dedupe (seen : List String) : List Entity → List Entity
  | [] => []
  | entity :: rest =>
    if entityCardKey entity ∈ seen then dedupe seen rest
    else entity :: dedupe (entityCardKey entity :: seen) rest

/-- The path of a model, for the order of the models. -/
def ModelFile.pathText (model : ModelFile) : String := sourceText model.path

def collectEntities (models : List ModelFile) : List Entity :=
  let sorted := models.insertionSort fun a b => sortLE a.pathText b.pathText
  collapseAliases (dedupe [] (sorted.flatMap modelEntities))

/-! ## What is collected -/

section Collected

variable {entities : List Entity} {entity : Entity} {seen : List String}

theorem mem_of_dedupe (member : entity ∈ dedupe seen entities) :
    entity ∈ entities ∧ entityCardKey entity ∉ seen := by
  induction entities generalizing seen with
  | nil => cases member
  | cons first rest ih =>
    rw [dedupe] at member
    split_ifs at member with old
    · exact ⟨List.mem_cons_of_mem _ (ih member).1, (ih member).2⟩
    · obtain rfl | member := List.mem_cons.mp member
      · exact ⟨List.mem_cons_self, old⟩
      · obtain ⟨inRest, new⟩ := ih member
        exact ⟨List.mem_cons_of_mem _ inRest, fun inSeen => new (List.mem_cons_of_mem _ inSeen)⟩

/-- Each card is met. -/
theorem exists_dedupe (member : entity ∈ entities) (new : entityCardKey entity ∉ seen) :
    ∃ kept ∈ dedupe seen entities, entityCardKey kept = entityCardKey entity := by
  induction entities generalizing seen with
  | nil => cases member
  | cons first rest ih =>
    rw [dedupe]
    by_cases same : entityCardKey first = entityCardKey entity
    · rw [if_neg (same ▸ new)]
      exact ⟨first, List.mem_cons_self, same⟩
    · obtain rfl | member := List.mem_cons.mp member
      · exact absurd rfl same
      · split_ifs
        · exact ih member new
        · have new' : entityCardKey entity ∉ entityCardKey first :: seen := by
            rw [List.mem_cons, not_or]
            exact ⟨Ne.symm same, new⟩
          obtain ⟨kept, isKept, card⟩ := ih member new'
          exact ⟨kept, List.mem_cons_of_mem _ isKept, card⟩

theorem distinct_dedupe (seen : List String) (entities : List Entity) :
    Distinct (dedupe seen entities) := by
  induction entities generalizing seen with
  | nil => exact List.nodup_nil
  | cons first rest ih =>
    rw [dedupe]
    split_ifs with old
    · exact ih seen
    · refine List.nodup_cons.mpr ⟨fun again => ?_, ih _⟩
      obtain ⟨entity, member, same⟩ := List.mem_map.mp again
      exact (mem_of_dedupe member).2 (same ▸ List.mem_cons_self)

/-- Each entity is collected once. -/
theorem distinct_collectEntities (models : List ModelFile) : Distinct (collectEntities models) :=
  distinct_collapseAliases (distinct_dedupe _ _)

/-! ## The sources -/

theorem kind_joinedField {sourceName modelPath joinPath : Label} {fanout : Option Relationship}
    {field : SchemaField} (member : entity ∈ joinedField sourceName modelPath joinPath fanout field) :
    entity.kind ≠ .source := by
  cases field with
  | join => cases member
  | field kind name annotations dataType =>
    rw [joinedField] at member
    split_ifs at member
    · rw [List.mem_singleton.mp member]
      exact EntityKind.noConfusion
    · rw [List.mem_singleton.mp member]
      exact EntityKind.noConfusion
    · cases member

theorem kind_collectJoinedFields {sourceName modelPath joinPath : Label} {levels : ℕ}
    {fanout : Option Relationship} {fields : List SchemaField}
    (member : entity ∈ collectJoinedFields sourceName modelPath levels joinPath fanout fields) :
    entity.kind ≠ .source := by
  induction levels generalizing joinPath fanout fields with
  | zero =>
    obtain ⟨field, -, inField⟩ := List.mem_flatMap.mp member
    exact kind_joinedField inField
  | succ levels ih =>
    obtain ⟨field, -, inField⟩ := List.mem_flatMap.mp member
    cases field with
    | join name annotations relationship reached => exact ih inField
    | field kind name annotations dataType => exact kind_joinedField inField

theorem kind_fieldEntities {modelPath : Label} {source : SourceInfo}
    {provenance : List (Label × FieldProvenance)} {field : SchemaField}
    (member : entity ∈ fieldEntities modelPath source provenance field) : entity.kind ≠ .source := by
  cases field with
  | join name annotations relationship fields =>
    obtain rfl | reached := List.mem_cons.mp member
    · exact EntityKind.noConfusion
    · exact kind_collectJoinedFields reached
  | field kind name annotations dataType =>
    cases kind with
    | other => cases member
    | view | dimension | measure =>
      obtain rfl := List.mem_singleton.mp member
      exact EntityKind.noConfusion

/-- The sources of a model. -/
theorem mem_modelEntities_of_source {model : ModelFile} (isSource : entity.kind = .source) :
    entity ∈ modelEntities model ↔ ∃ path sources queries, model.path = some path ∧
      model.compiled = some (sources, queries) ∧ ∃ source ∈ sources,
        entity = sourceEntity path source := by
  unfold modelEntities
  split
  · next path sources queries hasPath isCompiled =>
    rw [List.mem_append, List.mem_flatMap, List.mem_filterMap]
    constructor
    · rintro (⟨source, member, found⟩ | ⟨query, -, found⟩)
      · obtain same | inField := List.mem_cons.mp found
        · exact ⟨path, sources, queries, hasPath, isCompiled, source, member, same⟩
        · obtain ⟨field, -, inField⟩ := List.mem_flatMap.mp inField
          exact absurd isSource (kind_fieldEntities inField)
      · unfold queryEntity at found
        split at found
        · obtain rfl := Option.some.inj found
          exact EntityKind.noConfusion isSource
        · cases found
    · rintro ⟨path', sources', queries', hasPath', isCompiled', source, member, rfl⟩
      obtain rfl := Option.some.inj (hasPath.symm.trans hasPath')
      obtain ⟨rfl, -⟩ := Prod.mk.inj (Option.some.inj (isCompiled.symm.trans isCompiled'))
      exact .inl ⟨source, member, List.mem_cons_self⟩
  · next absent =>
    refine iff_of_false List.not_mem_nil ?_
    rintro ⟨path, sources, queries, hasPath, isCompiled, -⟩
    exact absent path sources queries hasPath isCompiled

/-- What a package surfaces: a source of a model that is compiled, at its path. -/
def Surfaces (models : List ModelFile) (modelPath name : Label) : Prop :=
  ∃ model ∈ models, model.path = some modelPath ∧
    ∃ sources queries, model.compiled = some (sources, queries) ∧
      ∃ source ∈ sources, source.name = name

/-- A collected source is named by its own source. -/
theorem source_of_mem_collectEntities {models : List ModelFile} (isSource : entity.kind = .source)
    (member : entity ∈ collectEntities models) : entity.source = some entity.name := by
  rw [collectEntities, mem_collapseAliases_of_source isSource] at member
  obtain ⟨model, -, inModel⟩ := List.mem_flatMap.mp (mem_of_dedupe member).1
  obtain ⟨path, sources, queries, -, -, source, -, rfl⟩ :=
    (mem_modelEntities_of_source isSource).mp inModel
  rfl

/-- The collected sources are those that the package surfaces. -/
theorem exists_source_iff {models : List ModelFile} {modelPath name : Label} :
    (∃ entity ∈ collectEntities models, entity.kind = .source ∧ entity.modelPath = modelPath ∧
      entity.name = name) ↔ Surfaces models modelPath name := by
  constructor
  · rintro ⟨entity, member, isSource, rfl, rfl⟩
    rw [collectEntities, mem_collapseAliases_of_source isSource] at member
    obtain ⟨model, isModel, inModel⟩ := List.mem_flatMap.mp (mem_of_dedupe member).1
    obtain ⟨path, sources, queries, hasPath, isCompiled, source, isMember, rfl⟩ :=
      (mem_modelEntities_of_source isSource).mp inModel
    exact ⟨model, (List.mem_insertionSort _).mp isModel, hasPath, sources, queries, isCompiled,
      source, isMember, rfl⟩
  · rintro ⟨model, isModel, hasPath, sources, queries, isCompiled, source, isMember, rfl⟩
    have inModel : sourceEntity modelPath source ∈ modelEntities model :=
      (mem_modelEntities_of_source rfl).mpr
        ⟨modelPath, sources, queries, hasPath, isCompiled, source, isMember, rfl⟩
    have walked := List.mem_flatMap.mpr
      ⟨model, (List.mem_insertionSort fun a b : ModelFile => sortLE a.pathText b.pathText).mpr isModel,
        inModel⟩
    obtain ⟨kept, isKept, card⟩ := exists_dedupe walked List.not_mem_nil
    obtain ⟨path, kind, -, name⟩ := entityCardKey_inj.mp card
    exact ⟨kept, (mem_collapseAliases_of_source kind).mpr isKept, kind, path, name⟩

end Collected

end MalloyPublisher.Context
