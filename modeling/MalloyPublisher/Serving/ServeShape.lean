import MalloyPublisher.Serving.ServeBindings
import MalloyPublisher.Foundations.ReadyOrder
import MalloyPublisher.Foundations.Text

/-!
# The text of a serve shape

A serve shape is a transient model in which each materialized source stands over its stored
table: the captured columns as a type, the source over that type, and the refinements the
source adds, joins before fields before filters before views. Rollups come last, each group
a composite under the name of its base.

## Main definitions

* `SourceShape` — what a shape declares of one binding
* `orderBindingsByJoinDeps` — the order of declaration
* `buildServeShapeModelForBindings` — the text

## Main results

* `sourceShape_thinned_congr` — what a thinned binding declares, its full declaration decides
* `exists_mem_orderBindingsByJoinDeps` — each name is declared, and once
-/

namespace MalloyPublisher.Serving

open Foundations

/-! ## Types and names -/

/-- `String.prototype.toUpperCase`, where its result is compared with ASCII texts: no other
character has an upper-case form in ASCII alone. -/
def toUpperCase (c : Char) : List Char :=
  match c.toNat with
  | 0x131 => ['I']
  | 0x17F => ['S']
  | 0xDF => ['S', 'S']
  | 0xFB00 => ['F', 'F']
  | 0xFB01 => ['F', 'I']
  | 0xFB02 => ['F', 'L']
  | 0xFB03 => ['F', 'F', 'I']
  | 0xFB04 => ['F', 'F', 'L']
  | 0xFB05 => ['S', 'T']
  | 0xFB06 => ['S', 'T']
  | _ => [c.toUpper]

/-- Whether a closing bracket stands behind an opening one, blanks aside. -/
def hasArraySuffix : List Char → Bool
  | [] => false
  | '[' :: rest => (rest.dropWhile isSpace).head? = some ']' || hasArraySuffix rest
  | _ :: rest => hasArraySuffix rest

/-- The characters `.` does not match. -/
def isLineTerminator (c : Char) : Bool := c.toNat ∈ [0xA, 0xD, 0x2028, 0x2029]

/-- A text without its first parenthesis, up to the last that closes on its line. -/
def stripPrecision : List Char → List Char
  | [] => []
  | '(' :: rest =>
    let line := rest.takeWhile (!isLineTerminator ·)
    if ')' ∈ line then
      (line.reverse.takeWhile (· ≠ ')')).reverse ++ rest.dropWhile (!isLineTerminator ·)
    else '(' :: stripPrecision rest
  | c :: rest => c :: stripPrecision rest

/-- The Malloy type of a captured column. What has none is carried as `json`. -/
def duckdbTypeToMalloy (duckdbType : String) : String :=
  let raw := trim duckdbType.toList
  if hasArraySuffix raw then "json"
  else
    let base := String.ofList ((trim (stripPrecision raw)).flatMap toUpperCase)
    if base = "DATE" then "date"
    else if "TIMESTAMP".toList.isPrefixOf base.toList || base = "DATETIME" ||
        base = "TIMESTAMPTZ" then "timestamp"
    else if base = "TIME" then "string"
    else if base ∈ ["TINYINT", "SMALLINT", "INTEGER", "INT", "INT4", "BIGINT", "INT8", "HUGEINT",
        "UTINYINT", "USMALLINT", "UINTEGER", "UBIGINT", "UHUGEINT", "DOUBLE", "FLOAT", "FLOAT4",
        "FLOAT8", "REAL", "DECIMAL", "NUMERIC"] then "number"
    else if base ∈ ["VARCHAR", "TEXT", "CHAR", "BPCHAR", "STRING", "UUID"] then "string"
    else if base ∈ ["BOOLEAN", "BOOL"] then "boolean"
    else "json"

/-- An identifier that needs no quoting. -/
def isBareIdentifier : List Char → Bool
  | [] => false
  | c :: rest => (c.isAlpha || c = '_') && rest.all fun c => c.isAlphanum || c = '_'

/-- A field name, bare where it can be, else in backticks. -/
def emitFieldName (name : String) : String :=
  if isBareIdentifier name.toList then name
  else
    let quoted := name.toList.flatMap fun c => if c = '\x60' then ['\x60', '\x60'] else [c]
    "\x60" ++ String.ofList quoted ++ "\x60"

/-! ## One source -/

/-- What a refinement is. -/
inductive RefinementKind
  | join
  | dimension
  | measure
  | filter
  | view
  deriving DecidableEq, Repr

def SourceRefinement.kind : SourceRefinement → RefinementKind
  | .field .dimension _ _ => .dimension
  | .field .measure _ _ => .measure
  | .join .. => .join
  | .view .. => .view
  | .filter _ => .filter

def JoinKeyword.text : JoinKeyword → String
  | .joinOne => "join_one"
  | .joinMany => "join_many"
  | .joinCross => "join_cross"

def FieldKind.text : FieldKind → String
  | .dimension => "dimension"
  | .measure => "measure"

/-- The line that declares a refinement again. -/
def SourceRefinement.line : SourceRefinement → String
  | .join _ keyword text _ => "   " ++ keyword.text ++ ": " ++ text
  | .field kind name code => "   " ++ kind.text ++ ": " ++ name ++ " is " ++ code
  | .filter code => "   where: " ++ code
  | .view _ text => "   view: " ++ text

/-- What a shape declares of a binding. -/
structure SourceShape where
  sourceName : String
  destinationName : String
  virtualHandle : String
  fields : List String
  joinLines : List String
  fieldLines : List String
  filterLines : List String
  viewLines : List String
  deriving DecidableEq, Repr

/-- The lines of the refinements of some kinds, in the order they were carried. -/
def linesOf (kinds : List RefinementKind) (refinements : List SourceRefinement) : List String :=
  (refinements.filter (·.kind ∈ kinds)).map SourceRefinement.line

def sourceShape (binding : ServeBinding) : SourceShape where
  sourceName := binding.sourceName
  destinationName := binding.destinationName
  virtualHandle := binding.virtualHandle
  fields := binding.schema.map fun column =>
    "   " ++ emitFieldName column.name ++ "::" ++ duckdbTypeToMalloy column.type
  joinLines := linesOf [.join] (binding.refinements.getD [])
  fieldLines := linesOf [.dimension, .measure] (binding.refinements.getD [])
  filterLines := linesOf [.filter] (binding.refinements.getD [])
  viewLines := linesOf [.view] (binding.refinements.getD [])

/-- The text of one source and its type. -/
def SourceShape.text (shape : SourceShape) : String :=
  let shapeTypeName := shape.sourceName ++ "__shape"
  let source := "source: " ++ shape.sourceName ++ " is " ++ shape.destinationName ++ ".virtual('" ++
    shape.virtualHandle ++ "')::" ++ shapeTypeName
  let lines := shape.joinLines ++ shape.fieldLines ++ shape.filterLines ++ shape.viewLines
  let refined :=
    if lines = [] then source else source ++ " extend \x7b\n" ++ "\n".intercalate lines ++ "\n\x7d"
  "type: " ++ shapeTypeName ++ " is \x7b\n" ++ ",\n".intercalate shape.fields ++ "\n\x7d\n" ++ refined

def serveShapeFragment (binding : ServeBinding) : String := (sourceShape binding).text

/-! ## The order of declaration -/

/-- The bound sources a binding joins, itself aside. -/
def joinedSources (present : List String) (binding : ServeBinding) : List String :=
  (binding.refinements.getD []).filterMap fun
    | .join _ _ _ dependsOn =>
      if dependsOn ≠ binding.sourceName ∧ dependsOn ∈ present then some dependsOn else none
    | _ => none

/-- What must be declared before a name. Of several bindings of one name the last counts. -/
def dependsOn (bindings : List ServeBinding) (name : String) : List String :=
  match bindings.reverse.find? (·.sourceName = name) with
  | some binding => joinedSources (bindings.map ServeBinding.sourceName) binding
  | none => []

/-- The bindings, a joined source before the source that joins it. -/
def orderBindingsByJoinDeps (bindings : List ServeBinding) : List ServeBinding :=
  readyOrder ServeBinding.sourceName
    (fun binding emitted => (dependsOn bindings binding.sourceName).all (· ∈ emitted)) bindings

theorem mem_of_mem_orderBindingsByJoinDeps {bindings : List ServeBinding} {binding : ServeBinding}
    (ordered : binding ∈ orderBindingsByJoinDeps bindings) : binding ∈ bindings :=
  mem_of_mem_readyOrder ordered

/-- Each name is declared. -/
theorem exists_mem_orderBindingsByJoinDeps {bindings : List ServeBinding} {binding : ServeBinding}
    (member : binding ∈ bindings) :
    ∃ other ∈ orderBindingsByJoinDeps bindings, other.sourceName = binding.sourceName :=
  exists_mem_readyOrder member

/-- No name is declared twice. -/
theorem eq_of_mem_orderBindingsByJoinDeps {bindings : List ServeBinding}
    {binding other : ServeBinding} (ordered : binding ∈ orderBindingsByJoinDeps bindings)
    (ordered' : other ∈ orderBindingsByJoinDeps bindings)
    (same : binding.sourceName = other.sourceName) : binding = other :=
  eq_of_mem_readyOrder ordered ordered' same

/-! ## The shape -/

/-- A base source that is exposed again over its rollups. -/
structure RollupShapeGroup where
  baseSourceName : String
  members : List ServeBinding
  deriving DecidableEq, Repr

/-- What a shape declares, in order. -/
structure ServeShape where
  sources : List SourceShape
  groups : List RollupShapeGroup
  deriving DecidableEq, Repr

def rollupServeShapeFragment (group : RollupShapeGroup) : String :=
  "\n".intercalate (group.members.map serveShapeFragment) ++ "\nsource: " ++ group.baseSourceName ++
    " is compose(" ++ ", ".intercalate (group.members.map ServeBinding.sourceName) ++ ")"

/-- The model text of a shape. -/
def ServeShape.modelText (shape : ServeShape) : String :=
  let fragments := "\n".intercalate (shape.sources.map SourceShape.text)
  let groups := "\n".intercalate (shape.groups.map rollupServeShapeFragment)
  let flags := if shape.groups = [] then "##! experimental.virtual_source"
    else "##! experimental \x7b virtual_source composite_sources \x7d"
  if groups = "" then flags ++ "\n" ++ fragments ++ "\n"
  else flags ++ "\n" ++ fragments ++ "\n" ++ groups ++ "\n"

/-- The shape that rebinds every supplied source. -/
def buildServeShapeModelForBindings (bindings : List ServeBinding)
    (rollupGroups : List RollupShapeGroup) : ServeShape where
  sources := (orderBindingsByJoinDeps bindings).map sourceShape
  groups := rollupGroups

/-! ## Thinning -/

/-- A binding that carries the refinements of some kinds only. -/
def thinned (keep : List RefinementKind) (binding : ServeBinding) : ServeBinding :=
  { binding with refinements := binding.refinements.map (·.filter (·.kind ∈ keep)) }

section Thinning

variable {kinds keep : List RefinementKind} {refinements : List SourceRefinement}
variable {binding other : ServeBinding}

theorem linesOf_filter_of_subset (kept : ∀ kind ∈ kinds, kind ∈ keep) :
    linesOf kinds (refinements.filter (·.kind ∈ keep)) = linesOf kinds refinements := by
  unfold linesOf
  rw [List.filter_filter]
  congr 1
  refine List.filter_congr fun refinement _ => ?_
  by_cases among : refinement.kind ∈ kinds
  · simp [among, kept _ among]
  · simp [among]

theorem linesOf_filter_of_disjoint (dropped : ∀ kind ∈ kinds, kind ∉ keep) :
    linesOf kinds (refinements.filter (·.kind ∈ keep)) = [] := by
  unfold linesOf
  rw [List.filter_filter, List.map_eq_nil_iff, List.filter_eq_nil_iff]
  intro refinement _ both
  simp only [Bool.and_eq_true, decide_eq_true_eq] at both
  exact dropped _ both.1 both.2

theorem refinements_thinned : (thinned keep binding).refinements.getD [] =
    (binding.refinements.getD []).filter (·.kind ∈ keep) := by
  unfold thinned
  cases binding.refinements <;> rfl

/-- The lines of kinds that are kept together or dropped together. -/
theorem linesOf_thinned_congr (together : (∀ kind ∈ kinds, kind ∈ keep) ∨ ∀ kind ∈ kinds, kind ∉ keep)
    (same : linesOf kinds (binding.refinements.getD []) = linesOf kinds (other.refinements.getD [])) :
    linesOf kinds ((thinned keep binding).refinements.getD []) =
      linesOf kinds ((thinned keep other).refinements.getD []) := by
  rw [refinements_thinned, refinements_thinned]
  rcases together with kept | dropped
  · rw [linesOf_filter_of_subset kept, linesOf_filter_of_subset kept, same]
  · rw [linesOf_filter_of_disjoint dropped, linesOf_filter_of_disjoint dropped]

/-- What a thinned binding declares, its full declaration decides, where dimensions and
measures are kept together. -/
theorem sourceShape_thinned_congr (together : .dimension ∈ keep ↔ .measure ∈ keep)
    (same : sourceShape binding = sourceShape other) :
    sourceShape (thinned keep binding) = sourceShape (thinned keep other) := by
  have alone (kind : RefinementKind) :
      (∀ other ∈ [kind], other ∈ keep) ∨ ∀ other ∈ [kind], other ∉ keep := by
    simpa using em (kind ∈ keep)
  have fields : (∀ kind ∈ [RefinementKind.dimension, .measure], kind ∈ keep) ∨
      ∀ kind ∈ [RefinementKind.dimension, .measure], kind ∉ keep := by
    simp only [List.forall_mem_cons, List.not_mem_nil, false_imp_iff, implies_true, and_true,
      ← together, and_self]
    exact em _
  simp only [sourceShape, SourceShape.mk.injEq] at same ⊢
  obtain ⟨name, destination, handle, columns, joins, fieldLines, filters, views⟩ := same
  exact ⟨name, destination, handle, columns, linesOf_thinned_congr (alone _) joins,
    linesOf_thinned_congr fields fieldLines, linesOf_thinned_congr (alone _) filters,
    linesOf_thinned_congr (alone _) views⟩

/-- A binding keeps its filters where filters are kept. -/
theorem filterLines_thinned (kept : .filter ∈ keep) :
    (sourceShape (thinned keep binding)).filterLines = (sourceShape binding).filterLines := by
  simp only [sourceShape, refinements_thinned]
  exact linesOf_filter_of_subset (by simpa using kept)

/-- A binding of which every kind is kept is carried as it is. -/
theorem sourceShape_thinned_of_all (all : ∀ kind, kind ∈ keep) :
    sourceShape (thinned keep binding) = sourceShape binding := by
  have same : (thinned keep binding).refinements.getD [] = binding.refinements.getD [] := by
    rw [refinements_thinned]
    exact List.filter_eq_self.mpr fun refinement _ => by simpa using all refinement.kind
  unfold sourceShape
  rw [same]
  rfl

end Thinning

end MalloyPublisher.Serving
