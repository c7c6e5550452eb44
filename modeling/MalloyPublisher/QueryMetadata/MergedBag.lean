import MalloyPublisher.Foundations.JsonStrings
import MalloyPublisher.Foundations.Shedding
import MalloyPublisher.Foundations.Text
import MalloyPublisher.Foundations.KeyedRecord
import Mathlib.Data.List.Sort

/-!
# The bag of properties a statement carries

A statement is tagged with a bag of string properties, merged from four layers of declarations
and the server's own context. The warehouse refuses a bag that is not legal, so the merge clamps
every value, and gives up properties until the bag fits: an author's first, then the
deployment's, and the server's own only when nothing else is left.

## Main definitions

* `PropertyName`, `PropertyValue` — what may stand in a bag
* `mergeQueryMetadata` — the merge
* `WellMerged` — what a bag and its list of drops promise

## Main results

* `Merging.declareAll_spec` — what the layers leave before anything is given up
* `mergeQueryMetadata_wellMerged` — the promises are kept whenever the tags are on
-/

namespace MalloyPublisher.QueryMetadata

open Foundations

/-! ## Names and values -/

def MAX_PROPERTY_NAME_LENGTH : ℕ := 128
def MAX_PROPERTY_VALUE_LENGTH : ℕ := 256
def MAX_PROPERTIES : ℕ := 20
def MAX_SERIALIZED_LENGTH : ℕ := 2000

/-- A code unit of `[A-Za-z0-9_]`. -/
def isNameUnit (code : ℕ) : Bool :=
  (0x41 ≤ code && code ≤ 0x5A) || (0x61 ≤ code && code ≤ 0x7A) ||
    (0x30 ≤ code && code ≤ 0x39) || code == 0x5F

/-- `PROPERTY_NAME_RE`, and the length a name may have. -/
def isPropertyName (name : JsString) : Bool :=
  !name.isEmpty && name.all isNameUnit && name.length ≤ MAX_PROPERTY_NAME_LENGTH

/-- Printable ASCII other than the double quote. -/
def isRenderable (code : ℕ) : Bool :=
  !(code < 0x20 || code > 0x7E || code == 0x22)

def isRenderableValue (value : JsString) : Bool := value.all isRenderable

/-- A name a bag may hold. -/
structure PropertyName where
  text : JsString
  legal : isPropertyName text = true
deriving DecidableEq

/-- A value a bag may hold. -/
structure PropertyValue where
  text : JsString
  renderable : isRenderableValue text = true
  short : text.length ≤ MAX_PROPERTY_VALUE_LENGTH
deriving DecidableEq

/-- Cut a value to the length it may have and put `_` for what cannot be rendered. -/
def sanitizedText (value : JsString) : JsString :=
  (value.take MAX_PROPERTY_VALUE_LENGTH).map fun code => if isRenderable code then code else 0x5F

theorem isRenderableValue_sanitizedText (value : JsString) :
    isRenderableValue (sanitizedText value) = true := by
  unfold isRenderableValue sanitizedText
  rw [List.all_map, List.all_eq_true]
  intro code _
  by_cases fine : isRenderable code = true
  · simp [fine]
  · simp only [Function.comp_apply, fine]
    rfl

theorem length_sanitizedText_le (value : JsString) :
    (sanitizedText value).length ≤ MAX_PROPERTY_VALUE_LENGTH := by
  rw [sanitizedText, List.length_map, List.length_take]
  exact Nat.min_le_left ..

def sanitizeValue (value : JsString) : PropertyValue :=
  ⟨sanitizedText value, isRenderableValue_sanitizedText value, length_sanitizedText_le value⟩

/-- A value that may stand in a bag is left as it is. -/
theorem sanitizeValue_of_legal {value : JsString} (renderable : isRenderableValue value = true)
    (short : value.length ≤ MAX_PROPERTY_VALUE_LENGTH) : (sanitizeValue value).text = value := by
  change sanitizedText value = value
  rw [sanitizedText, List.take_of_length_le short]
  calc value.map (fun code => if isRenderable code then code else 0x5F) = value.map id := by
        apply List.map_congr_left
        intro code member
        exact if_pos (List.all_eq_true.mp renderable code member)
    _ = value := List.map_id value

/-! ## The server's context -/

inductive QueryClass
  | interactive | materialize | index | ops
deriving DecidableEq

def QueryClass.text : QueryClass → JsString
  | .interactive => utf16 "interactive"
  | .materialize => utf16 "materialize"
  | .index => utf16 "index"
  | .ops => utf16 "ops"

/-- The server's own description of a query. -/
structure QueryContext where
  queryClass : Option QueryClass := none
  environment : Option JsString := none
  package : Option JsString := none
  version : Option JsString := none
  model : Option JsString := none
  source : Option JsString := none
  trigger : Option JsString := none
  runId : Option JsString := none
  correlationId : Option JsString := none

/-- The properties the context may set. -/
inductive ContextProperty
  | queryClass | environment | package | version | model | source | trigger | run_id | query_id
deriving DecidableEq

def ContextProperty.text : ContextProperty → JsString
  | .queryClass => utf16 "class"
  | .environment => utf16 "environment"
  | .package => utf16 "package"
  | .version => utf16 "version"
  | .model => utf16 "model"
  | .source => utf16 "source"
  | .trigger => utf16 "trigger"
  | .run_id => utf16 "run_id"
  | .query_id => utf16 "query_id"

theorem isPropertyName_text (property : ContextProperty) :
    isPropertyName property.text = true := by
  cases property <;> decide

def ContextProperty.name (property : ContextProperty) : PropertyName :=
  ⟨property.text, isPropertyName_text property⟩

/-- The order in which context properties are given up. -/
def CONTEXT_SHED_ORDER : List ContextProperty :=
  [.version, .model, .source, .trigger, .environment, .package, .run_id, .query_id, .queryClass]

def QueryContext.value (context : QueryContext) : ContextProperty → Option JsString
  | .queryClass => context.queryClass.map QueryClass.text
  | .environment => context.environment
  | .package => context.package
  | .version => context.version
  | .model => context.model
  | .source => context.source
  | .trigger => context.trigger
  | .run_id => context.runId
  | .query_id => context.correlationId

/-- The context as properties, an absent or empty field left out. -/
def queryContextProperties (context : QueryContext) : List (ContextProperty × JsString) :=
  [ContextProperty.queryClass, .environment, .package, .version, .model, .source, .trigger, .run_id,
    .query_id].filterMap fun property =>
      ((context.value property).filter (· ≠ [])).map fun value => (property, value)

/-! ## The layers -/

/-- The properties of a declaration; a value that is no string is `none`. -/
structure Layer where
  properties : List (JsString × Option JsString)
  distinct : (properties.map Prod.fst).Nodup

structure QueryMetadataLayers where
  connection : Option Layer := none
  model : Option Layer := none
  request : Option Layer := none
  enforced : Option Layer := none
  context : QueryContext := {}

inductive QueryMetadataDropReason
  | invalid_name | invalid_value | reserved_name | property_cap | serialized_cap
deriving DecidableEq

structure Drop where
  name : JsString
  reason : QueryMetadataDropReason
deriving DecidableEq

abbrev Bag := List (PropertyName × PropertyValue)

structure ResolvedQueryMetadata where
  metadata : Option Bag
  drops : List Drop
deriving DecidableEq

/-- The layer of what a model declares. -/
def DECLARED_LAYER_INDEX : ℕ := 1

/-- The layer of what the deployment enforces. -/
def enforcedIndex : ℕ := 3

def RESERVED_NAMES : List JsString := CONTEXT_SHED_ORDER.map ContextProperty.text

/-- The four declarations, least specific first. -/
def QueryMetadataLayers.orderedLayers (layers : QueryMetadataLayers) : List (Option Layer) :=
  [layers.connection, layers.model, layers.request, layers.enforced]

/-! ## The merge -/

/-- What the layers read so far come to. -/
structure Merging where
  merged : Bag := []
  winningLayer : List (PropertyName × ℕ) := []
  drops : List Drop := []

/-- A property declared in the layer at an index. -/
def Merging.declare (index : ℕ) (state : Merging) (property : JsString × Option JsString) :
    Merging :=
  if legal : isPropertyName property.1 = true then
    if index = DECLARED_LAYER_INDEX ∧ property.1 ∈ RESERVED_NAMES then
      { state with drops := state.drops ++ [⟨property.1, .reserved_name⟩] }
    else
      match property.2 with
      | none => { state with drops := state.drops ++ [⟨property.1, .invalid_value⟩] }
      | some value =>
        { state with
          winningLayer := setKey ⟨property.1, legal⟩ index state.winningLayer
          merged := setKey ⟨property.1, legal⟩ (sanitizeValue value) state.merged }
  else { state with drops := state.drops ++ [⟨property.1, .invalid_name⟩] }

/-- The properties of the four layers, each with the index of its layer. -/
def QueryMetadataLayers.declared (layers : QueryMetadataLayers) :
    List (ℕ × JsString × Option JsString) :=
  layers.orderedLayers.zipIdx.flatMap fun layer =>
    ((layer.1.map Layer.properties).getD []).map fun property => (layer.2, property)

def Merging.declareAll (layers : QueryMetadataLayers) : Merging :=
  layers.declared.foldl (fun state entry => state.declare entry.1 entry.2) {}

/-- The context as it is put on top of the layers. -/
def contextEntries (context : QueryContext) : Bag :=
  (queryContextProperties context).map fun property =>
    (property.1.name, sanitizeValue property.2)

/-- The bag before anything is given up. -/
def mergedBag (layers : QueryMetadataLayers) : Bag :=
  writeAll (Merging.declareAll layers).merged (contextEntries layers.context)

/-- The names of the properties the context sets. -/
def contextNames (context : QueryContext) : List PropertyName :=
  (queryContextProperties context).map (·.1.name)

/-- The properties the context does not set, the least specific layers first. -/
def shedOrder (layers : QueryMetadataLayers) : List PropertyName :=
  (((Merging.declareAll layers).winningLayer.filter fun entry =>
      entry.1 ∉ contextNames layers.context).insertionSort
    fun a b => a.2 ≤ b.2).map Prod.fst

def contextShedOrder (context : QueryContext) : List PropertyName :=
  (CONTEXT_SHED_ORDER.filter fun property =>
    property ∈ (queryContextProperties context).map Prod.fst).map ContextProperty.name

/-! ## Serialising a bag -/

/-- `JSON.stringify` of a bag. The runtime writes names that are numbers first; the length, which
is all that is read of it, does not depend on the order. -/
def serialized (bag : Bag) : JsString :=
  utf16 "\x7b" ++ (utf16 ",").intercalate (bag.map fun entry =>
    jsonString entry.1.text ++ utf16 ":" ++ jsonString entry.2.text) ++ utf16 "\x7d"

def overCount (bag : Bag) : Bool := bag.length > MAX_PROPERTIES

def overLength (bag : Bag) : Bool := (serialized bag).length > MAX_SERIALIZED_LENGTH

def overBudget (bag : Bag) : Bool := overCount bag || overLength bag

/-- Why a context property is given up. -/
def contextReason (bag : Bag) : QueryMetadataDropReason :=
  if overCount bag then .property_cap else .serialized_cap

/-- Properties of the layers given up to the number a bag may hold. -/
def counted (layers : QueryMetadataLayers) :
    Shedding PropertyName PropertyValue QueryMetadataDropReason :=
  shedWhile overCount (fun _ => .property_cap) (shedOrder layers) (mergedBag layers)

/-- Properties of the layers given up to the length a bag may have. -/
def measured (layers : QueryMetadataLayers) :
    Shedding PropertyName PropertyValue QueryMetadataDropReason :=
  shedWhile overLength (fun _ => .serialized_cap) (counted layers).spared (counted layers).left

/-- Properties of the context given up to either. -/
def fitted (layers : QueryMetadataLayers) :
    Shedding PropertyName PropertyValue QueryMetadataDropReason :=
  shedWhile overBudget contextReason (contextShedOrder layers.context) (measured layers).left

def givenUp (layers : QueryMetadataLayers) : List (PropertyName × QueryMetadataDropReason) :=
  (counted layers).shed ++ (measured layers).shed ++ (fitted layers).shed

/-- The merge while the tags are on. -/
def mergeLayers (layers : QueryMetadataLayers) : ResolvedQueryMetadata where
  metadata := if (fitted layers).left.isEmpty then none else some (fitted layers).left
  drops := (Merging.declareAll layers).drops ++
    (givenUp layers).map fun given => ⟨given.1.text, given.2⟩

inductive QueryMetadataMode
  | on | off
deriving DecidableEq

/-- The mode `PUBLISHER_QUERY_METADATA` sets. -/
def getQueryMetadataMode (setting : Option String) : Except JsString QueryMetadataMode :=
  match setting with
  | none => .ok .off
  | some raw =>
    let value := (trim raw.toList).map Char.toLower
    if value = [] then .ok .off
    else if value = ['o', 'n'] then .ok .on
    else if value = ['o', 'f', 'f'] then .ok .off
    else .error (utf16 "PUBLISHER_QUERY_METADATA must be on | off (got " ++
      jsonString (utf16 raw) ++ utf16 ")")

/-- Merge the layers into one bag the warehouse accepts, and say what was lost. -/
def mergeQueryMetadata (setting : Option String) (layers : QueryMetadataLayers) :
    Except JsString ResolvedQueryMetadata :=
  (getQueryMetadataMode setting).map fun
    | .off => ⟨none, []⟩
    | .on => mergeLayers layers

/-! ## What the layers come to -/

/-- What a declared property writes, if the merge takes it. -/
def takenWrite (entry : ℕ × JsString × Option JsString) : Option (PropertyName × ℕ × JsString) :=
  if legal : isPropertyName entry.2.1 = true then
    if entry.1 = DECLARED_LAYER_INDEX ∧ entry.2.1 ∈ RESERVED_NAMES then none
    else entry.2.2.map fun value => (⟨entry.2.1, legal⟩, entry.1, value)
  else none

theorem takenWrite_eq_some {entry : ℕ × JsString × Option JsString}
    {write : PropertyName × ℕ × JsString} (taken : takenWrite entry = some write) :
    entry = (write.2.1, write.1.text, some write.2.2) ∧
      ¬(write.2.1 = DECLARED_LAYER_INDEX ∧ write.1.text ∈ RESERVED_NAMES) := by
  obtain ⟨index, name, value⟩ := entry
  unfold takenWrite at taken
  split_ifs at taken with legal reserved
  obtain ⟨value, rfl, rfl⟩ := Option.map_eq_some_iff.mp taken
  exact ⟨rfl, reserved⟩

def QueryMetadataLayers.taken (layers : QueryMetadataLayers) :
    List (PropertyName × ℕ × JsString) :=
  layers.declared.filterMap takenWrite

def QueryMetadataDropReason.isCap : QueryMetadataDropReason → Bool
  | .property_cap | .serialized_cap => true
  | _ => false

/-- A declaration is either written or listed among the drops. -/
inductive Merging.Declared (state next : Merging) (entry : ℕ × JsString × Option JsString) : Prop
  | written (write : PropertyName × ℕ × JsString) (taken : takenWrite entry = some write)
      (merged : next.merged = setKey write.1 (sanitizeValue write.2.2) state.merged)
      (winning : next.winningLayer = setKey write.1 write.2.1 state.winningLayer)
      (drops : next.drops = state.drops)
  | dropped (drop : Drop) (refused : takenWrite entry = none)
      (name : drop.name = entry.2.1) (uncapped : drop.reason.isCap = false)
      (merged : next.merged = state.merged) (winning : next.winningLayer = state.winningLayer)
      (drops : next.drops = state.drops ++ [drop])

theorem Merging.declare_declared (state : Merging) (entry : ℕ × JsString × Option JsString) :
    state.Declared (state.declare entry.1 entry.2) entry := by
  obtain ⟨index, name, value⟩ := entry
  unfold Merging.declare
  split_ifs with legal reserved
  · have refused : takenWrite (index, name, value) = none := by
      rw [takenWrite, dif_pos legal, if_pos reserved]
    exact .dropped ⟨name, .reserved_name⟩ refused rfl rfl rfl rfl rfl
  · cases value with
    | none =>
      exact .dropped ⟨name, .invalid_value⟩ (by simp [takenWrite]) rfl rfl rfl rfl rfl
    | some value =>
      refine .written (⟨name, legal⟩, index, value) ?_ rfl rfl rfl
      rw [takenWrite, dif_pos legal, if_neg reserved]
      rfl
  · exact .dropped ⟨name, .invalid_name⟩ (by simp [takenWrite, legal]) rfl rfl rfl rfl rfl

/-- What a sequence of declarations leaves. -/
structure Merging.Follows (entries : List (ℕ × JsString × Option JsString)) (state : Merging) :
    Prop where
  merged : state.merged =
    writeAll [] ((entries.filterMap takenWrite).map fun write =>
      (write.1, sanitizeValue write.2.2))
  winningLayer : state.winningLayer =
    writeAll [] ((entries.filterMap takenWrite).map fun write => (write.1, write.2.1))
  uncapped : ∀ drop ∈ state.drops, drop.reason.isCap = false
  complete : ∀ entry ∈ entries, takenWrite entry = none →
    ∃ drop ∈ state.drops, drop.name = entry.2.1

theorem Merging.Follows.declare {entries : List (ℕ × JsString × Option JsString)}
    {state : Merging} (follows : state.Follows entries) (entry : ℕ × JsString × Option JsString) :
    (state.declare entry.1 entry.2).Follows (entries ++ [entry]) := by
  cases state.declare_declared entry with
  | written write taken merged winning drops =>
    have writes : (entries ++ [entry]).filterMap takenWrite =
        entries.filterMap takenWrite ++ [write] := by
      simp [taken]
    constructor
    · rw [merged, writes, List.map_append, List.map_singleton, writeAll_append_singleton,
        follows.merged]
    · rw [winning, writes, List.map_append, List.map_singleton, writeAll_append_singleton,
        follows.winningLayer]
    · rw [drops]
      exact follows.uncapped
    · rw [drops]
      intro other member refused
      rcases List.mem_append.mp member with earlier | last
      · exact follows.complete other earlier refused
      · rw [List.mem_singleton.mp last, taken] at refused
        cases refused
  | dropped drop refused name uncapped merged winning drops =>
    have writes : (entries ++ [entry]).filterMap takenWrite = entries.filterMap takenWrite := by
      simp [refused]
    constructor
    · rw [merged, writes, follows.merged]
    · rw [winning, writes, follows.winningLayer]
    · rw [drops]
      intro other member
      rcases List.mem_append.mp member with earlier | last
      · exact follows.uncapped other earlier
      · rw [List.mem_singleton.mp last]
        exact uncapped
    · rw [drops]
      intro other member refused
      rcases List.mem_append.mp member with earlier | last
      · obtain ⟨known, inside, same⟩ := follows.complete other earlier refused
        exact ⟨known, List.mem_append_left _ inside, same⟩
      · rw [List.mem_singleton.mp last]
        exact ⟨drop, List.mem_append_right _ (List.mem_singleton_self drop), name⟩

theorem Merging.declareAll_spec (layers : QueryMetadataLayers) :
    (Merging.declareAll layers).Follows layers.declared := by
  unfold Merging.declareAll
  induction layers.declared using List.reverseRecOn with
  | nil => exact ⟨rfl, rfl, by simp, by simp⟩
  | append_singleton entries entry ih =>
    rw [List.foldl_append, List.foldl_cons, List.foldl_nil]
    exact ih.declare entry

/-! ## The most specific layer -/

/-- A layer declares a property with a value that the merge takes. -/
structure Declares (layers : QueryMetadataLayers) (index : ℕ) (name : PropertyName)
    (value : JsString) : Prop where
  declared : (index, name.text, some value) ∈ layers.declared
  unreserved : ¬(index = DECLARED_LAYER_INDEX ∧ name.text ∈ RESERVED_NAMES)

/-- The most specific layer that declares a property, and the value it declares. -/
structure Governs (layers : QueryMetadataLayers) (index : ℕ) (name : PropertyName)
    (value : JsString) : Prop where
  declares : Declares layers index name value
  latest : ∀ other given, Declares layers other name given →
    other ≤ index ∧ (other = index → given = value)

variable {layers : QueryMetadataLayers} {name : PropertyName} {index : ℕ} {value : JsString}

theorem mem_taken : (name, index, value) ∈ layers.taken ↔ Declares layers index name value := by
  unfold QueryMetadataLayers.taken
  rw [List.mem_filterMap]
  constructor
  · rintro ⟨entry, member, taken⟩
    obtain ⟨rfl, unreserved⟩ := takenWrite_eq_some taken
    exact ⟨member, unreserved⟩
  · intro declares
    refine ⟨(index, name.text, some value), declares.declared, ?_⟩
    rw [takenWrite, dif_pos name.legal, if_neg declares.unreserved]
    rfl

/-- The layers are read from the least specific on. -/
theorem pairwise_declared (layers : QueryMetadataLayers) :
    layers.declared.Pairwise fun earlier later =>
      earlier.1 < later.1 ∨ earlier.1 = later.1 ∧ earlier.2.1 ≠ later.2.1 := by
  have apart : ∀ layer ∈ layers.orderedLayers.zipIdx,
      (((layer.1.map Layer.properties).getD []).map fun property =>
        (layer.2, property)).Pairwise fun earlier later : ℕ × JsString × Option JsString =>
          earlier.1 < later.1 ∨ earlier.1 = later.1 ∧ earlier.2.1 ≠ later.2.1 := by
    rintro ⟨layer, index⟩ _
    rw [List.pairwise_map]
    cases layer with
    | none => exact List.Pairwise.nil
    | some layer =>
      exact (List.pairwise_map.mp layer.distinct).imp fun other => .inr ⟨rfl, other⟩
  have increasing : layers.orderedLayers.zipIdx.Pairwise fun a b => a.2 < b.2 := by
    simp [QueryMetadataLayers.orderedLayers, List.zipIdx]
  unfold QueryMetadataLayers.declared
  rw [List.pairwise_flatMap]
  refine ⟨apart, increasing.imp ?_⟩
  rintro ⟨first, i⟩ ⟨second, j⟩ below x memberX y memberY
  obtain ⟨_, _, rfl⟩ := List.mem_map.mp memberX
  obtain ⟨_, _, rfl⟩ := List.mem_map.mp memberY
  exact .inl below

theorem index_le_of_declared {entry : ℕ × JsString × Option JsString}
    (member : entry ∈ layers.declared) : entry.1 ≤ enforcedIndex := by
  obtain ⟨⟨layer, index⟩, inside, written⟩ := List.mem_flatMap.mp member
  obtain ⟨_, _, rfl⟩ := List.mem_map.mp written
  have short := (List.mem_zipIdx inside).2.1
  simp [QueryMetadataLayers.orderedLayers] at short
  exact Nat.le_of_lt_succ short

theorem pairwise_taken (layers : QueryMetadataLayers) :
    layers.taken.Pairwise fun earlier later =>
      earlier.2.1 < later.2.1 ∨ earlier.2.1 = later.2.1 ∧ earlier.1 ≠ later.1 := by
  unfold QueryMetadataLayers.taken
  rw [List.pairwise_filterMap]
  refine (pairwise_declared layers).imp fun order earlier takenEarlier later takenLater => ?_
  obtain ⟨rfl, -⟩ := takenWrite_eq_some takenEarlier
  obtain ⟨rfl, -⟩ := takenWrite_eq_some takenLater
  exact order.imp_right fun same => ⟨same.1, fun equal =>
    same.2 (congrArg PropertyName.text equal)⟩

/-- The last value written is of the most specific layer. -/
theorem governs_of_lastWrite (last : lastWrite layers.taken name = some (index, value)) :
    Governs layers index name value := by
  obtain ⟨before, after, split, absent⟩ := lastWrite_eq_some_iff.mp last
  constructor
  · exact mem_taken.mp (by simp [split])
  · intro other given declares
    have member : (name, other, given) ∈ layers.taken := mem_taken.mpr declares
    have sorted := pairwise_taken layers
    rw [split] at member sorted
    rcases List.mem_append.mp member with earlier | here
    · rcases (List.pairwise_append.mp sorted).2.2 _ earlier _ (List.mem_cons_self ..) with
        below | ⟨-, apart⟩
      · exact ⟨below.le, fun same => absurd same below.ne⟩
      · exact absurd rfl apart
    · rcases List.mem_cons.mp here with same | later
      · obtain ⟨-, rfl, rfl⟩ : name = name ∧ other = index ∧ given = value := by simpa using same
        exact ⟨le_rfl, fun _ => rfl⟩
      · exact absurd (List.mem_map_of_mem later) absent

theorem mem_merged {value : PropertyValue} :
    (name, value) ∈ (Merging.declareAll layers).merged ↔
      ∃ index given, lastWrite layers.taken name = some (index, given) ∧
        value = sanitizeValue given := by
  have written : (Merging.declareAll layers).merged =
      writeAll [] (layers.taken.map fun write => (write.1, sanitizeValue write.2.2)) :=
    (Merging.declareAll_spec layers).merged
  have last := lastWrite_map (fun (_ : PropertyName) (write : ℕ × JsString) =>
    sanitizeValue write.2) layers.taken name
  have empty : (([] : Bag).map Prod.fst).Nodup := List.nodup_nil
  rw [written, mem_writeAll empty, last]
  constructor
  · rintro (read | ⟨-, absent⟩)
    · obtain ⟨⟨index, given⟩, last, rfl⟩ := Option.map_eq_some_iff.mp read
      exact ⟨index, given, last, rfl⟩
    · exact absurd absent List.not_mem_nil
  · rintro ⟨index, given, last, rfl⟩
    exact .inl (Option.map_eq_some_iff.mpr ⟨(index, given), last, rfl⟩)

theorem mem_winningLayer :
    (name, index) ∈ (Merging.declareAll layers).winningLayer ↔
      ∃ given, lastWrite layers.taken name = some (index, given) := by
  have written : (Merging.declareAll layers).winningLayer =
      writeAll [] (layers.taken.map fun write => (write.1, write.2.1)) :=
    (Merging.declareAll_spec layers).winningLayer
  have last := lastWrite_map (fun (_ : PropertyName) (write : ℕ × JsString) => write.1)
    layers.taken name
  have empty : (([] : List (PropertyName × ℕ)).map Prod.fst).Nodup := List.nodup_nil
  rw [written, mem_writeAll empty, last]
  constructor
  · rintro (read | ⟨-, absent⟩)
    · obtain ⟨⟨index, given⟩, last, rfl⟩ := Option.map_eq_some_iff.mp read
      exact ⟨given, last⟩
    · exact absurd absent List.not_mem_nil
  · rintro ⟨given, last⟩
    exact .inl (Option.map_eq_some_iff.mpr ⟨(index, given), last, rfl⟩)

/-! ## What is put on top of the layers -/

theorem name_injective : Function.Injective ContextProperty.name := by
  intro first second same
  have texts : first.text = second.text := congrArg PropertyName.text same
  cases first <;> cases second <;> first | rfl | exact absurd texts (by decide)

theorem nodup_contextProperties (context : QueryContext) :
    ((queryContextProperties context).map Prod.fst).Nodup :=
  nodup_map_fst_filterMap (fun property => (context.value property).filter (· ≠ [])) (by decide)

theorem map_fst_contextEntries (context : QueryContext) :
    (contextEntries context).map Prod.fst = contextNames context := by
  rw [contextEntries, List.map_map]
  rfl

theorem nodup_contextNames (context : QueryContext) : (contextNames context).Nodup := by
  have names : contextNames context =
      ((queryContextProperties context).map Prod.fst).map ContextProperty.name := by
    rw [contextNames, List.map_map]
    rfl
  rw [names]
  exact (nodup_contextProperties context).map name_injective

theorem mem_contextNames {context : QueryContext} :
    name ∈ contextNames context ↔
      ∃ property value, (property, value) ∈ queryContextProperties context ∧
        property.name = name := by
  simp [contextNames]

theorem mem_contextShedOrder {context : QueryContext} :
    name ∈ contextShedOrder context ↔ name ∈ contextNames context := by
  have listed : ∀ property : ContextProperty, property ∈ CONTEXT_SHED_ORDER := by
    intro property
    cases property <;> decide
  simp [contextShedOrder, contextNames, listed]

theorem mem_mergedBag {value : PropertyValue} :
    (name, value) ∈ mergedBag layers ↔
      (name, value) ∈ contextEntries layers.context ∨
        name ∉ contextNames layers.context ∧
          (name, value) ∈ (Merging.declareAll layers).merged := by
  have apart : ((contextEntries layers.context).map Prod.fst).Nodup := by
    rw [map_fst_contextEntries]
    exact nodup_contextNames layers.context
  have distinct : ((Merging.declareAll layers).merged.map Prod.fst).Nodup := by
    rw [(Merging.declareAll_spec layers).merged]
    exact nodup_writeAll List.nodup_nil
  rw [mergedBag, mem_writeAll distinct, lastWrite_eq_some_iff_mem apart, lastWrite_eq_none_iff,
    map_fst_contextEntries]

/-! ## What is given up -/

theorem mem_shedOrder : name ∈ shedOrder layers ↔
    (∃ index, (name, index) ∈ (Merging.declareAll layers).winningLayer) ∧
      name ∉ contextNames layers.context := by
  simp [shedOrder]

/-- Every property of the bag stands in one of the two orders. -/
theorem mem_orders_of_mem {entry : PropertyName × PropertyValue}
    (member : entry ∈ mergedBag layers) :
    entry.1 ∈ contextNames layers.context ∨ entry.1 ∈ shedOrder layers := by
  obtain ⟨name, value⟩ := entry
  rcases mem_mergedBag.mp member with ours | ⟨other, theirs⟩
  · left
    rw [← map_fst_contextEntries]
    exact List.mem_map_of_mem ours
  · right
    obtain ⟨index, given, last, -⟩ := mem_merged.mp theirs
    exact mem_shedOrder.mpr ⟨⟨index, mem_winningLayer.mpr ⟨given, last⟩⟩, other⟩

/-- The properties of the layers given up come first in their order. -/
theorem authorOrder_eq (layers : QueryMetadataLayers) :
    ((counted layers).shed ++ (measured layers).shed).map Prod.fst ++ (measured layers).spared =
      shedOrder layers := by
  rw [List.map_append, List.append_assoc]
  unfold measured
  rw [shedWhile_order]
  exact shedWhile_order ..

theorem contextOrder_eq (layers : QueryMetadataLayers) :
    (fitted layers).shed.map Prod.fst ++ (fitted layers).spared =
      contextShedOrder layers.context :=
  shedWhile_order ..

theorem left_eq (layers : QueryMetadataLayers) :
    (fitted layers).left = without ((givenUp layers).map Prod.fst) (mergedBag layers) := by
  have first : (counted layers).left = _ := shedWhile_left ..
  have second : (measured layers).left = _ := shedWhile_left ..
  have third : (fitted layers).left = _ := shedWhile_left ..
  rw [third, ← fitted, second, ← measured, first, ← counted, givenUp, List.map_append,
    List.map_append, without_append, without_append]

/-- While properties of the layers are left to give up, the bag fits. -/
theorem measured_fits (more : (measured layers).spared ≠ []) :
    overBudget (measured layers).left = false := by
  have short : overLength (measured layers).left = false :=
    (shedWhile_fits ..).resolve_right more
  have unfinished : (counted layers).spared ≠ [] := by
    intro finished
    have order : (measured layers).shed.map Prod.fst ++ (measured layers).spared =
        (counted layers).spared := shedWhile_order ..
    rw [finished] at order
    exact more (List.append_eq_nil_iff.mp order).2
  have few : overCount (counted layers).left = false :=
    (shedWhile_fits ..).resolve_right unfinished
  have fewer : (measured layers).left.length ≤ (counted layers).left.length := by
    have left : (measured layers).left = _ := shedWhile_left ..
    rw [left]
    exact (without_sublist _ _).length_le
  have still : overCount (measured layers).left = false := by
    simp only [overCount, decide_eq_false_iff_not] at few ⊢
    omega
  rw [overBudget, still, short]
  rfl

/-- Context properties are given up only once those of the layers are. -/
theorem spared_eq_nil (shed : (fitted layers).shed ≠ []) : (measured layers).spared = [] := by
  by_contra more
  have none : fitted layers = ⟨[], _, _⟩ := shedWhile_of_fits _ _ (measured_fits more)
  rw [none] at shed
  exact shed rfl

/-- With both orders at their end the bag is empty. -/
theorem left_eq_nil (authors : (measured layers).spared = []) (ours : (fitted layers).spared = []) :
    (fitted layers).left = [] := by
  have order := authorOrder_eq layers
  have contextOrder := contextOrder_eq layers
  rw [authors, List.append_nil] at order
  rw [ours, List.append_nil] at contextOrder
  rw [left_eq, List.eq_nil_iff_forall_not_mem]
  intro entry member
  obtain ⟨inside, kept⟩ := mem_without.mp member
  apply kept
  rw [givenUp, List.map_append, order, contextOrder, List.mem_append]
  exact (mem_orders_of_mem inside).symm.imp_right mem_contextShedOrder.mpr

theorem fits (layers : QueryMetadataLayers) : overBudget (fitted layers).left = false := by
  by_cases authors : (measured layers).spared = []
  · have ended : overBudget (fitted layers).left = false ∨ (fitted layers).spared = [] :=
      shedWhile_fits ..
    refine ended.elim id fun ours => ?_
    rw [left_eq_nil authors ours]
    decide
  · have none : fitted layers = ⟨[], _, _⟩ := shedWhile_of_fits _ _ (measured_fits authors)
    rw [none]
    exact measured_fits authors

/-- A property has one most specific layer. -/
theorem winningLayer_unique {other : ℕ}
    (first : (name, index) ∈ (Merging.declareAll layers).winningLayer)
    (second : (name, other) ∈ (Merging.declareAll layers).winningLayer) : index = other := by
  obtain ⟨_, last⟩ := mem_winningLayer.mp first
  obtain ⟨_, again⟩ := mem_winningLayer.mp second
  rw [last] at again
  exact congrArg Prod.fst (Option.some.inj again)

/-- The less specific layers' properties are given up first. -/
theorem pairwise_shedOrder (layers : QueryMetadataLayers) :
    (shedOrder layers).Pairwise fun earlier later => ∀ i j,
      (earlier, i) ∈ (Merging.declareAll layers).winningLayer →
        (later, j) ∈ (Merging.declareAll layers).winningLayer → i ≤ j := by
  unfold shedOrder
  rw [List.pairwise_map]
  have sorted := List.pairwise_insertionSort (fun a b : PropertyName × ℕ => a.2 ≤ b.2)
    ((Merging.declareAll layers).winningLayer.filter fun entry =>
      entry.1 ∉ contextNames layers.context)
  refine sorted.imp_of_mem fun earlier later below i j first second => ?_
  have known : ∀ entry ∈ ((Merging.declareAll layers).winningLayer.filter fun entry =>
      entry.1 ∉ contextNames layers.context).insertionSort fun a b => a.2 ≤ b.2,
        entry ∈ (Merging.declareAll layers).winningLayer := by
    intro entry member
    exact (List.mem_filter.mp ((List.mem_insertionSort _).mp member)).1
  rw [winningLayer_unique first (known _ earlier), winningLayer_unique second (known _ later)]
  exact below

/-! ## What a merge promises -/

/-- The bag a statement is given, empty when it is given none. -/
def ResolvedQueryMetadata.bag (resolved : ResolvedQueryMetadata) : Bag :=
  resolved.metadata.getD []

/-- The properties still in the bag once some drops have been made. -/
def remaining (layers : QueryMetadataLayers) (before : List Drop) : Bag :=
  (mergedBag layers).filter fun entry =>
    entry.1.text ∉ (before.filter (·.reason.isCap)).map Drop.name

/-- A property the deployment enforces. -/
def Enforced (layers : QueryMetadataLayers) (name : PropertyName) : Prop :=
  ∃ value, Declares layers enforcedIndex name value

/-- A legal bag, each property with the value of the most specific layer, every property that is
missing listed among the drops, and what is given up given up in order. -/
structure WellMerged (layers : QueryMetadataLayers) (resolved : ResolvedQueryMetadata) : Prop where
  count : resolved.bag.length ≤ MAX_PROPERTIES
  distinct : (resolved.bag.map Prod.fst).Nodup
  names : ∀ entry ∈ resolved.bag, entry.1.text ≠ [] ∧
    (∀ code ∈ entry.1.text, isNameUnit code = true) ∧
    entry.1.text.length ≤ MAX_PROPERTY_NAME_LENGTH
  values : ∀ entry ∈ resolved.bag,
    (∀ code ∈ entry.2.text, 0x20 ≤ code ∧ code ≤ 0x7E ∧ code ≠ 0x22) ∧
    entry.2.text.length ≤ MAX_PROPERTY_VALUE_LENGTH
  length : (serialized resolved.bag).length ≤ MAX_SERIALIZED_LENGTH
  fromContext : ∀ property value, (property, value) ∈ queryContextProperties layers.context →
    ∀ kept, (property.name, kept) ∈ resolved.bag → kept = sanitizeValue value
  fromLayers : ∀ name kept, (name, kept) ∈ resolved.bag → name ∉ contextNames layers.context →
    ∃ index value, Governs layers index name value ∧ kept = sanitizeValue value ∧
      (isRenderableValue value = true → value.length ≤ MAX_PROPERTY_VALUE_LENGTH →
        kept.text = value)
  complete : ∀ entry ∈ layers.declared, (∀ kept ∈ resolved.bag, kept.1.text ≠ entry.2.1) →
    ∃ drop ∈ resolved.drops, drop.name = entry.2.1
  contextComplete : ∀ name ∈ contextNames layers.context, (∀ kept ∈ resolved.bag, kept.1 ≠ name) →
    ∃ drop ∈ resolved.drops, drop.name = name.text
  enforcedLast : ∀ before drop after, resolved.drops = before ++ drop :: after →
    drop.reason.isCap = true → ∀ name, name.text = drop.name → Enforced layers name →
      ∀ entry ∈ remaining layers before,
        entry.1 ∈ contextNames layers.context ∨ Enforced layers entry.1
  contextLast : ∀ before drop after, resolved.drops = before ++ drop :: after →
    drop.reason.isCap = true → ∀ name, name.text = drop.name →
      name ∈ contextNames layers.context →
        ∀ entry ∈ remaining layers before, entry.1 ∈ contextNames layers.context

theorem PropertyName.text_injective : Function.Injective PropertyName.text := by
  rintro ⟨first, _⟩ ⟨second, _⟩ same
  congr

theorem bag_mergeLayers (layers : QueryMetadataLayers) :
    (mergeLayers layers).bag = (fitted layers).left := by
  unfold ResolvedQueryMetadata.bag mergeLayers
  cases left : (fitted layers).left <;> rfl

theorem drops_mergeLayers (layers : QueryMetadataLayers) :
    (mergeLayers layers).drops = (Merging.declareAll layers).drops ++
      (givenUp layers).map fun given => ⟨given.1.text, given.2⟩ := rfl

theorem isCap_of_mem_givenUp {given : PropertyName × QueryMetadataDropReason}
    (member : given ∈ givenUp layers) : given.2.isCap = true := by
  let capped : QueryMetadataDropReason → Prop := fun reason => reason.isCap = true
  have context : ∀ bag, capped (contextReason bag) := by
    intro bag
    unfold contextReason
    split_ifs <;> rfl
  rcases List.mem_append.mp member with author | ours
  · rcases List.mem_append.mp author with first | second
    · exact shedWhile_reason _ _ capped (fun _ => rfl) _ _ given first
    · exact shedWhile_reason _ _ capped (fun _ => rfl) _ _ given second
  · exact shedWhile_reason _ _ capped context _ _ given ours

/-- What is given up to a budget is listed after what the layers lost, in order. -/
theorem exists_split_of_isCap {before after : List Drop} {drop : Drop}
    (split : (mergeLayers layers).drops = before ++ drop :: after)
    (capped : drop.reason.isCap = true) :
    ∃ earlier given later, givenUp layers = earlier ++ given :: later ∧
      given.1.text = drop.name ∧
      (before.filter (·.reason.isCap)).map Drop.name = earlier.map fun given => given.1.text := by
  have uncapped := (Merging.declareAll_spec layers).uncapped
  have absent : drop ∉ (Merging.declareAll layers).drops := fun member => by
    rw [uncapped drop member] at capped
    cases capped
  obtain ⟨earlier, rfl, rest⟩ := split_past split absent
  obtain ⟨first, second, whole, rfl, tail⟩ := List.map_eq_append_iff.mp rest
  obtain ⟨given, later, rfl, rfl, -⟩ := List.map_eq_cons_iff.mp tail
  refine ⟨first, given, later, whole, rfl, ?_⟩
  have none : (Merging.declareAll layers).drops.filter (·.reason.isCap) = [] :=
    List.filter_eq_nil_iff.mpr fun lost member => by simp [uncapped lost member]
  have all : (first.map fun given : PropertyName × QueryMetadataDropReason =>
      (⟨given.1.text, given.2⟩ : Drop)).filter (·.reason.isCap) =
        first.map fun given => ⟨given.1.text, given.2⟩ := by
    apply List.filter_eq_self.mpr
    intro lost member
    obtain ⟨other, inside, rfl⟩ := List.mem_map.mp member
    exact isCap_of_mem_givenUp (whole ▸ List.mem_append_left _ inside)
  rw [List.filter_append, none, List.nil_append, all, List.map_map]
  rfl

/-- What remains when a property is given up has not been given up before it. -/
theorem mem_remaining {before : List Drop} {earlier : List (PropertyName × QueryMetadataDropReason)}
    (same : (before.filter (·.reason.isCap)).map Drop.name = earlier.map fun given => given.1.text)
    {entry : PropertyName × PropertyValue} (member : entry ∈ remaining layers before) :
    entry ∈ mergedBag layers ∧ entry.1 ∉ earlier.map Prod.fst := by
  obtain ⟨inside, kept⟩ := List.mem_filter.mp member
  refine ⟨inside, fun given => ?_⟩
  obtain ⟨other, listed, name⟩ := List.mem_map.mp given
  apply of_decide_eq_true kept
  rw [same]
  exact List.mem_map.mpr ⟨other, listed, congrArg PropertyName.text name⟩

/-- When a property is given up, the ones that remain are the context's or, while it is a layer's
property that is given up, stand in the order after it. -/
theorem remaining_order {earlier later : List (PropertyName × QueryMetadataDropReason)}
    {given : PropertyName × QueryMetadataDropReason}
    (split : givenUp layers = earlier ++ given :: later) {entry : PropertyName × PropertyValue}
    (inside : entry ∈ mergedBag layers) (kept : entry.1 ∉ earlier.map Prod.fst) :
    entry.1 ∈ contextNames layers.context ∨
      given.1 ∉ contextNames layers.context ∧
        ∃ before after, shedOrder layers = before ++ given.1 :: after ∧
          (entry.1 = given.1 ∨ entry.1 ∈ after) := by
  -- Once the context is given up, nothing of the layers remains.
  have past : ∀ ours, earlier = (counted layers).shed ++ (measured layers).shed ++ ours →
      (fitted layers).shed = ours ++ given :: later → entry.1 ∈ contextNames layers.context := by
    rintro ours rfl shed
    have order := authorOrder_eq layers
    rw [spared_eq_nil (by simp [shed]), List.append_nil] at order
    refine (mem_orders_of_mem inside).resolve_right fun theirs => kept ?_
    rw [List.map_append, order]
    exact List.mem_append_left _ theirs
  rcases List.append_eq_append_iff.mp split with ⟨ours, before, rest⟩ | ⟨theirs, shed, rest⟩
  · exact .inl (past ours before rest)
  · cases theirs with
    | nil => exact .inl (past [] (by simpa using shed.symm) rest.symm)
    | cons first theirs =>
      obtain ⟨rfl, -⟩ := List.cons_eq_cons.mp rest
      have order := authorOrder_eq layers
      rw [shed, List.map_append, List.map_cons, List.append_assoc, List.cons_append] at order
      have listed : given.1 ∈ shedOrder layers := by
        rw [← order]
        exact List.mem_append_right _ (List.mem_cons_self ..)
      refine (mem_orders_of_mem inside).imp_right fun theirs =>
        ⟨(mem_shedOrder.mp listed).2, _, _, order.symm, ?_⟩
      rw [← order] at theirs
      exact List.mem_cons.mp ((List.mem_append.mp theirs).resolve_left kept)

/-! ## The promises are kept -/

theorem nodup_mergedBag (layers : QueryMetadataLayers) :
    ((mergedBag layers).map Prod.fst).Nodup := by
  have distinct : ((Merging.declareAll layers).merged.map Prod.fst).Nodup := by
    rw [(Merging.declareAll_spec layers).merged]
    exact nodup_writeAll List.nodup_nil
  exact nodup_writeAll distinct

theorem mem_bag {entry : PropertyName × PropertyValue} :
    entry ∈ (mergeLayers layers).bag ↔
      entry ∈ mergedBag layers ∧ entry.1 ∉ (givenUp layers).map Prod.fst := by
  rw [bag_mergeLayers, left_eq, mem_without]

/-- A property of the merged bag that is missing is listed among the drops. -/
theorem exists_drop_of_missing {entry : PropertyName × PropertyValue}
    (inside : entry ∈ mergedBag layers)
    (missing : ∀ kept ∈ (mergeLayers layers).bag, kept.1 ≠ entry.1) :
    ∃ drop ∈ (mergeLayers layers).drops, drop.name = entry.1.text := by
  have given : entry.1 ∈ (givenUp layers).map Prod.fst := by
    by_contra kept
    exact missing entry (mem_bag.mpr ⟨inside, kept⟩) rfl
  obtain ⟨given, listed, same⟩ := List.mem_map.mp given
  rw [drops_mergeLayers]
  exact ⟨⟨given.1.text, given.2⟩, List.mem_append_right _ (List.mem_map.mpr ⟨given, listed, rfl⟩),
    congrArg PropertyName.text same⟩

/-- What the merge takes of a layer is in the merged bag, under its name at least. -/
theorem exists_mem_mergedBag (declares : Declares layers index name value) :
    ∃ kept, (name, kept) ∈ mergedBag layers := by
  by_cases ours : name ∈ contextNames layers.context
  · rw [← map_fst_contextEntries] at ours
    obtain ⟨entry, member, rfl⟩ := List.mem_map.mp ours
    exact ⟨entry.2, mem_mergedBag.mpr (.inl member)⟩
  · obtain ⟨⟨other, given⟩, last⟩ := exists_lastWrite (mem_taken.mpr declares)
    exact ⟨sanitizeValue given,
      mem_mergedBag.mpr (.inr ⟨ours, mem_merged.mpr ⟨other, given, last, rfl⟩⟩)⟩

theorem fromContext {property : ContextProperty} {kept : PropertyValue}
    (declared : (property, value) ∈ queryContextProperties layers.context)
    (inside : (property.name, kept) ∈ mergedBag layers) : kept = sanitizeValue value := by
  have ours : property.name ∈ contextNames layers.context :=
    mem_contextNames.mpr ⟨property, value, declared, rfl⟩
  have member := (mem_mergedBag.mp inside).resolve_right fun theirs => theirs.1 ours
  obtain ⟨⟨other, given⟩, listed, same⟩ := List.mem_map.mp member
  obtain ⟨names, rfl⟩ := Prod.ext_iff.mp same
  obtain rfl : other = property := name_injective names
  have apart := nodup_contextProperties layers.context
  have first := (mem_iff_lookup apart).mp listed
  rw [(mem_iff_lookup apart).mp declared] at first
  rw [Option.some.inj first]

theorem fromLayers {kept : PropertyValue} (inside : (name, kept) ∈ mergedBag layers)
    (theirs : name ∉ contextNames layers.context) :
    ∃ index value, Governs layers index name value ∧ kept = sanitizeValue value := by
  rcases mem_mergedBag.mp inside with ours | ⟨-, member⟩
  · have listed : name ∈ (contextEntries layers.context).map Prod.fst :=
      List.mem_map_of_mem ours
    rw [map_fst_contextEntries] at listed
    exact absurd listed theirs
  · obtain ⟨index, value, last, rfl⟩ := mem_merged.mp member
    exact ⟨index, value, governs_of_lastWrite last, rfl⟩

/-- What stands in the order after an enforced property is enforced. -/
theorem enforced_of_after {before after : List PropertyName} {other : PropertyName}
    (order : shedOrder layers = before ++ name :: after) (enforced : Enforced layers name)
    (later : other ∈ after) : Enforced layers other := by
  obtain ⟨value, declares⟩ := enforced
  have sorted := pairwise_shedOrder layers
  have member : other ∈ shedOrder layers := by
    rw [order]
    exact List.mem_append_right _ (List.mem_cons_of_mem _ later)
  obtain ⟨⟨i, given⟩, last⟩ := exists_lastWrite (mem_taken.mpr declares)
  obtain ⟨j, winner⟩ := (mem_shedOrder.mp member).1
  rw [order] at sorted
  have below : i ≤ j := (List.pairwise_cons.mp (List.pairwise_append.mp sorted).2.1).1 other later
    i j (mem_winningLayer.mpr ⟨given, last⟩) winner
  have top : enforcedIndex ≤ i := ((governs_of_lastWrite last).latest _ _ declares).1
  obtain ⟨held, governs⟩ := mem_winningLayer.mp winner
  have declared := (governs_of_lastWrite governs).declares
  have bottom : j ≤ enforcedIndex := index_le_of_declared declared.declared
  obtain rfl : j = enforcedIndex := le_antisymm bottom (top.trans below)
  exact ⟨held, declared⟩

theorem mergeLayers_wellMerged (layers : QueryMetadataLayers) :
    WellMerged layers (mergeLayers layers) where
  count := by
    have within := fits layers
    rw [bag_mergeLayers]
    simp only [overBudget, overCount, Bool.or_eq_false_iff, decide_eq_false_iff_not] at within
    omega
  distinct := by
    rw [bag_mergeLayers, left_eq]
    exact ((without_sublist _ _).map Prod.fst).nodup (nodup_mergedBag layers)
  names := by
    intro entry _
    have legal := entry.1.legal
    simp only [isPropertyName, Bool.and_eq_true, Bool.not_eq_true', List.isEmpty_eq_false_iff,
      List.all_eq_true, decide_eq_true_eq] at legal
    exact ⟨legal.1.1, legal.1.2, legal.2⟩
  values := by
    intro entry _
    refine ⟨fun code member => ?_, entry.2.short⟩
    have renderable := List.all_eq_true.mp entry.2.renderable code member
    simp only [isRenderable, Bool.not_eq_true', Bool.or_eq_false_iff, decide_eq_false_iff_not,
      beq_eq_false_iff_ne] at renderable
    omega
  length := by
    have within := fits layers
    rw [bag_mergeLayers]
    simp only [overBudget, overLength, Bool.or_eq_false_iff, decide_eq_false_iff_not] at within
    omega
  fromContext := fun property value declared kept member =>
    QueryMetadata.fromContext declared (mem_bag.mp member).1
  fromLayers := by
    intro name kept member theirs
    obtain ⟨index, value, governs, rfl⟩ := QueryMetadata.fromLayers (mem_bag.mp member).1 theirs
    exact ⟨index, value, governs, rfl, sanitizeValue_of_legal⟩
  complete := by
    intro entry declared missing
    cases taken : takenWrite entry with
    | none =>
      obtain ⟨drop, listed, same⟩ := (Merging.declareAll_spec layers).complete entry declared taken
      exact ⟨drop, List.mem_append_left _ listed, same⟩
    | some write =>
      obtain ⟨rfl, unreserved⟩ := takenWrite_eq_some taken
      obtain ⟨kept, inside⟩ := exists_mem_mergedBag ⟨declared, unreserved⟩
      exact exists_drop_of_missing inside fun other member same =>
        missing other member (congrArg PropertyName.text same)
  contextComplete := by
    intro name ours missing
    rw [← map_fst_contextEntries] at ours
    obtain ⟨entry, member, rfl⟩ := List.mem_map.mp ours
    exact exists_drop_of_missing (mem_mergedBag.mpr (.inl member)) missing
  enforcedLast := by
    intro before drop after split capped name same enforced entry member
    obtain ⟨earlier, given, later, whole, text, names⟩ := exists_split_of_isCap split capped
    obtain rfl : given.1 = name := PropertyName.text_injective (text.trans same.symm)
    obtain ⟨inside, kept⟩ := mem_remaining names member
    refine (remaining_order whole inside kept).imp_right ?_
    rintro ⟨-, _, _, order, here | after⟩
    · exact here ▸ enforced
    · exact enforced_of_after order enforced after
  contextLast := by
    intro before drop after split capped name same ours entry member
    obtain ⟨earlier, given, later, whole, text, names⟩ := exists_split_of_isCap split capped
    obtain rfl : given.1 = name := PropertyName.text_injective (text.trans same.symm)
    obtain ⟨inside, kept⟩ := mem_remaining names member
    exact (remaining_order whole inside kept).resolve_right fun theirs => theirs.1 ours

/-- With the tags on, every set of layers is merged as promised. Off, a statement carries no tags
and nothing is listed; a setting that is neither throws. -/
theorem mergeQueryMetadata_wellMerged (setting : Option String) (layers : QueryMetadataLayers) :
    match getQueryMetadataMode setting with
    | .ok .on => ∃ resolved, mergeQueryMetadata setting layers = .ok resolved ∧
        WellMerged layers resolved
    | .ok .off => mergeQueryMetadata setting layers = .ok ⟨none, []⟩
    | .error message => mergeQueryMetadata setting layers = .error message := by
  unfold mergeQueryMetadata
  rcases getQueryMetadataMode setting with message | _ | _
  · rfl
  · exact ⟨mergeLayers layers, rfl, mergeLayers_wellMerged layers⟩
  · rfl

/-- A layer of the one property `team`. -/
def teamLayer (value : String) : Layer where
  properties := [(utf16 "team", some (utf16 value))]
  distinct := List.nodup_singleton _

/-- `team` as a connection declares it, and a request whose value cannot be rendered. -/
def teamLayers : QueryMetadataLayers where
  connection := some (teamLayer "x")
  request := some (teamLayer "\u00e9")

/-- With the tags off a declared property is lost without a drop; with them on, what is carried is
the request's value made legal, though a less specific layer declares a legal one. -/
theorem teamLayers_not_claimed :
    (∃ resolved, mergeQueryMetadata (some "off") teamLayers = .ok resolved ∧
      ¬WellMerged teamLayers resolved) ∧
    ∃ resolved, mergeQueryMetadata (some "on") teamLayers = .ok resolved ∧
      resolved.bag.map (fun entry => (entry.1.text, entry.2.text)) =
        [(utf16 "team", utf16 "_")] := by
  refine ⟨⟨⟨none, []⟩, rfl, fun wellMerged => ?_⟩, mergeLayers teamLayers, rfl, ?_⟩
  · have declared : (0, utf16 "team", some (utf16 "x")) ∈ teamLayers.declared := by decide +kernel
    obtain ⟨drop, listed, -⟩ := wellMerged.complete _ declared (by simp [ResolvedQueryMetadata.bag])
    exact List.not_mem_nil listed
  · decide +kernel

end MalloyPublisher.QueryMetadata
