import MalloyPublisher.Context.Entities

/-!
# Requests for context

A request names what to look for, each target with or without a text, and a scope. Targets without a
text ask for a listing, and a listing of sources alone is the one that can be taken page by page.

## Main definitions

* `ContextParams` — a request as it comes
* `resolveRequest` — what retrieval works in
* `matchesScope` — whether an entity is in the scope of a request
-/

namespace MalloyPublisher.Context

open Foundations

inductive SearchTargetType
  | source
  | dimension
  | measure
  | view
  | dimensionalValue
  | join
  deriving DecidableEq, Repr

/-- `KINDS_BY_TARGET`: the kinds that a target selects. -/
def SearchTargetType.kinds : SearchTargetType → List EntityKind
  | source => [.source]
  | dimension => [.dimension]
  | measure => [.measure]
  | view => [.view, .query]
  | join => [.join]
  | dimensionalValue => []

structure SearchTarget where
  targetType : SearchTargetType
  searchText : Option String

structure ContextParams where
  searchTargets : List SearchTarget
  modelPath : Option String
  source : Option String
  entityName : Option String
  includeCode : Bool
  limit : Option ℕ
  offset : Option ℕ

/-- A target with a text, and its place among the targets. -/
structure ResolvedSearch where
  targetIndex : ℕ
  text : String
  kinds : List EntityKind

structure ResolvedRequest where
  pureSourceListing : Bool
  modelPath : Option String
  sourceName : Option String
  entityName : Option String
  kinds : List EntityKind
  searches : List ResolvedSearch
  listingOnly : Bool
  includeCode : Bool
  unsupported : List SearchTargetType
  limit : ℕ
  offset : ℕ

/-- `MAX_LIMIT`. -/
def maxLimit : ℕ := 150

/-- `DEFAULT_RANKED_LIMIT`. -/
def defaultRankedLimit : ℕ := 20

/-- A text that says something. -/
def truthy (text : Option String) : Option String := text.filter (· ≠ "")

/-- The text of a target. White space alone is none. -/
def SearchTarget.text (target : SearchTarget) : Option String := truthy (target.searchText.map trimmed)

/-- The targets that carry a text, of those that can be searched for. -/
def searchesOf (targets : List SearchTarget) : List ResolvedSearch :=
  targets.zipIdx.filterMap fun (target, targetIndex) =>
    if target.targetType.kinds = [] then none
    else target.text.map fun text => ⟨targetIndex, text, target.targetType.kinds⟩

def resolveRequest (params : ContextParams) : ResolvedRequest :=
  let searches := searchesOf params.searchTargets
  let listingOnly := searches.isEmpty
  { pureSourceListing := listingOnly && !params.searchTargets.isEmpty &&
      params.searchTargets.all (·.targetType = .source)
    modelPath := truthy params.modelPath
    sourceName := truthy params.source
    entityName := truthy params.entityName
    kinds := params.searchTargets.flatMap (·.targetType.kinds)
    searches := searches
    listingOnly := listingOnly
    -- A request that names one entity asks what it is.
    includeCode := params.includeCode || (truthy params.entityName).isSome
    unsupported := (params.searchTargets.map (·.targetType)).filter (·.kinds = [])
    limit := params.limit.getD (if listingOnly then maxLimit else defaultRankedLimit)
    offset := params.offset.getD 0 }

/-- Whether an entity is in the scope of a request. A source is, whatever entity is named. -/
def matchesScope (entity : Entity) (request : ResolvedRequest) : Bool :=
  request.modelPath.all (entity.modelPath.text = ·) &&
    request.sourceName.all (fun name => entity.source.any (·.text = name)) &&
      request.entityName.all (fun name => entity.kind = .source || entity.name.text = name)

end MalloyPublisher.Context
