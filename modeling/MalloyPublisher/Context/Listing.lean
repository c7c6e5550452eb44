import MalloyPublisher.Context.CollectEntities
import MalloyPublisher.Context.Requests
import MalloyPublisher.Context.SourceCards

/-!
# Listing a package

A request without texts lists what its targets name. A listing of sources alone is taken in pages:
each page skips what came before, and says where the next one starts.

## Main definitions

* `listing` — the answer to a request without texts
* `pagesFrom` — the pages that are reached by following where the next one starts
* `BrowsesOnce` — the pages show each source once

## Main results

* `exists_browsesOnce` — following the pages ends, and shows each source once
-/

namespace MalloyPublisher.Context

/-- The entities that a listing lists. A source that the scope names becomes the card. -/
def inScope (entities : List Entity) (request : ResolvedRequest) : List Entity :=
  entities.filter fun entity =>
    (request.sourceName.any (fun name => entity.kind = .source && entity.source.any (·.text = name)) ||
      decide (entity.kind ∈ request.kinds)) && matchesScope entity request

/-- The first entities, as many as there is room for beside those that take none. -/
def spend (free : Entity → Bool) : ℕ → List Entity → List Entity
  | _, [] => []
  | budget, entity :: rest =>
    if free entity then entity :: spend free budget rest
    else match budget with
      | 0 => spend free 0 rest
      | left + 1 => entity :: spend free left rest

/-- The answer to a listing, without its warnings. -/
structure ListingResponse (γ : Type) where
  sources : List (SourceCard γ)
  totalAvailable : ℕ
  returned : ℕ
  nextOffset : Option ℕ

section Listing

variable {γ : Type} (sourceContext : String → Option (SourceContextEntry γ))

def listing (entities : List Entity) (request : ResolvedRequest) : ListingResponse γ :=
  let scope := inScope entities request
  let paged := if request.pureSourceListing then scope.drop request.offset else scope
  let capped := spend (fun entity => request.sourceName.isSome && entity.kind = .source)
    request.limit paged
  let sources := toSourceResults sourceContext (fun _ => none) request.includeCode
    (capped.map projectEntity)
  let consumed := request.offset + sources.length
  { sources := sources
    totalAvailable := if request.sourceName.isSome then
        (scope.map fun entity => sourceContextKey entity.modelPath entity.source).dedup.length
      else scope.length
    returned := sources.length
    nextOffset := if request.pureSourceListing && decide (consumed < scope.length) then some consumed
      else none }

/-- The page of a listing at an offset. -/
def page (models : List ModelFile) (params : ContextParams) (offset : ℕ) : ListingResponse γ :=
  listing sourceContext (collectEntities models)
    (resolveRequest { params with offset := some offset })

variable {sourceContext}

/-- The pages from an offset on, if that many calls reach the last one. -/
def pagesFrom (pageAt : ℕ → ListingResponse γ) : ℕ → ℕ → Option (List (ListingResponse γ))
  | 0, _ => none
  | calls + 1, offset =>
    let first := pageAt offset
    match first.nextOffset with
    | none => some [first]
    | some next => (pagesFrom pageAt calls next).map (first :: ·)

/-- The cards of pages, one after the other. -/
def cardsOf (pages : List (ListingResponse γ)) : List (SourceCard γ) := pages.flatMap (·.sources)

/-- A request for a listing of sources alone, in no source's scope. -/
structure PureSourceListing (params : ContextParams) : Prop where
  nonempty : params.searchTargets ≠ []
  targets : ∀ target ∈ params.searchTargets, target.targetType = .source ∧ target.text = none
  unscoped : truthy params.source = none
  limit : ∀ limit, params.limit = some limit → 1 ≤ limit

/-- The pages show each source in scope once. -/
structure BrowsesOnce (sourceContext : String → Option (SourceContextEntry γ))
    (models : List ModelFile) (params : ContextParams) (pages : List (ListingResponse γ)) : Prop where
  /-- The cards are those of a page that has room for all. -/
  inOrder : ∀ limit, 1 ≤ limit → (cardsOf pages).length ≤ limit →
    cardsOf pages = (page sourceContext models { params with limit := some limit } 0).sources
  once : ((cardsOf pages).map fun card => (card.info.modelPath, card.info.source)).Nodup
  all : ∀ modelPath source,
    (modelPath, source) ∈ (cardsOf pages).map (fun card => (card.info.modelPath, card.info.source)) ↔
      Surfaces models modelPath source ∧ (truthy params.modelPath).all (modelPath.text = ·) = true
  full : ∀ page ∈ pages.dropLast,
    page.sources.length = (resolveRequest params).limit ∧ page.nextOffset.isSome
  last : ∀ page ∈ pages.getLast?, page.nextOffset = none
  totals : ∀ page ∈ pages,
    page.totalAvailable = (cardsOf pages).length ∧ page.returned = page.sources.length

end Listing

/-! ## One page -/

section Page

variable {γ : Type} {sourceContext : String → Option (SourceContextEntry γ)}
  {models : List ModelFile} {params : ContextParams} {entity : Entity}

theorem spend_eq_take (limit : ℕ) (entities : List Entity) :
    spend (fun _ => false) limit entities = entities.take limit := by
  induction entities generalizing limit with
  | nil => simp only [spend, List.take_nil]
  | cons first rest ih =>
    cases limit with
    | zero =>
      simp only [spend, Bool.false_eq_true, if_false]
      rw [ih 0, List.take_zero, List.take_zero]
    | succ left =>
      simp only [spend, Bool.false_eq_true, if_false, List.take_succ_cons, ih left]

theorem searchesOf_eq_nil (targets : List SearchTarget)
    (textless : ∀ target ∈ targets, target.text = none) : searchesOf targets = [] := by
  rw [searchesOf, List.filterMap_eq_nil_iff]
  rintro ⟨target, index⟩ member
  have none := textless target (List.fst_mem_of_mem_zipIdx member)
  dsimp only
  rw [none, Option.map_none, ite_self]

/-- The request that a listing of sources resolves to. -/
theorem PureSourceListing.resolved (pure : PureSourceListing params) :
    (resolveRequest params).pureSourceListing = true ∧ (resolveRequest params).sourceName = none ∧
      (∀ kind, kind ∈ (resolveRequest params).kinds ↔ kind = .source) ∧
      1 ≤ (resolveRequest params).limit := by
  have none := searchesOf_eq_nil params.searchTargets fun target member => (pure.targets target member).2
  refine ⟨?_, pure.unscoped, fun kind => ?_, ?_⟩
  · simp only [resolveRequest, none, List.isEmpty_nil, Bool.true_and, Bool.and_eq_true,
      Bool.not_eq_true', List.isEmpty_eq_false_iff, List.all_eq_true, decide_eq_true_eq]
    exact ⟨pure.nonempty, fun target member => (pure.targets target member).1⟩
  · simp only [resolveRequest, List.mem_flatMap]
    constructor
    · rintro ⟨target, member, selected⟩
      rw [(pure.targets target member).1] at selected
      exact List.mem_singleton.mp selected
    · rintro rfl
      obtain ⟨target, member⟩ := List.exists_mem_of_ne_nil _ pure.nonempty
      exact ⟨target, member, by rw [(pure.targets target member).1]; exact List.mem_cons_self⟩
  · simp only [resolveRequest]
    cases limit : params.limit with
    | some limit' => exact pure.limit limit' limit
    | none =>
      rw [none]
      decide

/-- The sources in the scope of a listing. -/
theorem mem_inScope (pure : PureSourceListing params) {entities : List Entity} :
    entity ∈ inScope entities (resolveRequest params) ↔ entity ∈ entities ∧
      entity.kind = .source ∧ (truthy params.modelPath).all (entity.modelPath.text = ·) = true := by
  obtain ⟨-, unscoped, kinds, -⟩ := pure.resolved
  simp only [inScope, List.mem_filter, unscoped, Option.any_none, Bool.false_or, Bool.and_eq_true,
    decide_eq_true_eq, kinds, matchesScope, Option.all_none, Bool.and_true]
  refine and_congr_right fun _ => and_congr_right fun isSource => ?_
  rw [and_iff_left]
  · rfl
  · simp [isSource]

/-- Sources in scope are on different cards. -/
theorem nodup_rowKey_inScope (pure : PureSourceListing params) (models : List ModelFile) :
    (((inScope (collectEntities models) (resolveRequest params)).map projectEntity).map
      rowKey).Nodup := by
  rw [List.map_map]
  have distinct : (inScope (collectEntities models) (resolveRequest params)).Nodup :=
    (distinct_collectEntities models).of_map.filter _
  refine List.Nodup.map_on (fun a inA b inB same => ?_) distinct
  obtain ⟨memberA, kindA, -⟩ := (mem_inScope pure).mp inA
  obtain ⟨memberB, kindB, -⟩ := (mem_inScope pure).mp inB
  obtain ⟨path, source⟩ := sourceContextKey_inj.mp same
  have name : a.name = b.name := Option.some.inj <| by
    rw [← source_of_mem_collectEntities kindA memberA, ← source_of_mem_collectEntities kindB memberB]
    exact source
  exact (distinct_collectEntities models).eq memberA memberB
    (entityCardKey_inj.mpr ⟨path, kindA.trans kindB.symm, source, name⟩)

theorem isSome_source_inScope (pure : PureSourceListing params) :
    ∀ row ∈ (inScope (collectEntities models) (resolveRequest params)).map projectEntity,
      row.source.isSome := by
  intro row member
  obtain ⟨entity, inScope, rfl⟩ := List.mem_map.mp member
  obtain ⟨member, isSource, -⟩ := (mem_inScope pure).mp inScope
  change entity.source.isSome
  rw [source_of_mem_collectEntities isSource member]
  rfl

/-- The cards of rows on different cards. -/
theorem length_toSourceResults {rows : List ResultEntity} (distinct : (rows.map rowKey).Nodup)
    (sourced : ∀ row ∈ rows, row.source.isSome) (searchTexts : ℕ → Option String)
    (includeCode : Bool) :
    (toSourceResults sourceContext searchTexts includeCode rows).length = rows.length := by
  have keys : (cardsByKey sourceContext searchTexts includeCode rows).map Prod.fst =
      rows.map rowKey := keys_of_nodup distinct sourced
  have lengths := congrArg List.length keys
  rw [List.length_map, List.length_map] at lengths
  rw [toSourceResults, List.length_map, lengths]

variable (sourceContext) in
/-- The cards of sources in scope, in a listing's way. -/
def listedCards (params : ContextParams) (rows : List Entity) : List (SourceCard γ) :=
  toSourceResults sourceContext (fun _ => none) (resolveRequest params).includeCode
    (rows.map projectEntity)

/-- The sources in the scope of a request. -/
def sourcesInScope (models : List ModelFile) (params : ContextParams) : List Entity :=
  inScope (collectEntities models) (resolveRequest params)

theorem length_listedCards (pure : PureSourceListing params) {rows : List Entity}
    (part : rows.Sublist (sourcesInScope models params)) :
    (listedCards sourceContext params rows).length = rows.length := by
  have rowsOf := part.map projectEntity
  rw [listedCards, length_toSourceResults, List.length_map]
  · exact (nodup_rowKey_inScope pure models).sublist (rowsOf.map rowKey)
  · exact fun row member => isSome_source_inScope pure row (rowsOf.subset member)

variable (sourceContext) in
/-- What a page is. -/
theorem page_eq (pure : PureSourceListing params) (models : List ModelFile) (offset : ℕ) :
    page sourceContext models params offset =
      let scope := sourcesInScope models params
      let rows := (scope.drop offset).take (resolveRequest params).limit
      { sources := listedCards sourceContext params rows
        totalAvailable := scope.length
        returned := rows.length
        nextOffset := if offset + rows.length < scope.length then some (offset + rows.length)
          else none } := by
  obtain ⟨isPure, unscoped, -, -⟩ := pure.resolved
  have isPure' : (resolveRequest { params with offset := some offset }).pureSourceListing = true :=
    isPure
  have unscoped' : (resolveRequest { params with offset := some offset }).sourceName = none :=
    unscoped
  have scope : inScope (collectEntities models) (resolveRequest { params with offset := some offset }) =
      sourcesInScope models params := rfl
  have part : (((sourcesInScope models params).drop offset).take (resolveRequest params).limit).Sublist
      (sourcesInScope models params) := (List.take_sublist _ _).trans (List.drop_sublist _ _)
  have size : (listedCards sourceContext params _).length = _ := length_listedCards pure part
  simp only [page, listing, isPure', unscoped', scope, if_true, Option.isSome_none,
    Bool.false_and, Bool.true_and, spend_eq_take, decide_eq_true_eq, Bool.false_eq_true, if_false]
  change ListingResponse.mk (listedCards sourceContext params _) _ _ _ = _
  rw [ListingResponse.mk.injEq]
  refine ⟨rfl, rfl, size, ?_⟩
  exact congrArg (fun count => if offset + count < (sourcesInScope models params).length
    then some (offset + count) else none) size

end Page

/-! ## All pages -/

section Pages

variable {γ : Type} {sourceContext : String → Option (SourceContextEntry γ)}
  {models : List ModelFile} {params : ContextParams}

/-- The cards of sources that are split in two. -/
theorem listedCards_append (pure : PureSourceListing params) {rows later : List Entity}
    (part : (rows ++ later).Sublist (sourcesInScope models params)) :
    listedCards sourceContext params (rows ++ later) =
      listedCards sourceContext params rows ++ listedCards sourceContext params later := by
  have distinct := (nodup_rowKey_inScope pure models).sublist ((part.map projectEntity).map rowKey)
  rw [List.map_append, List.map_append, List.nodup_append] at distinct
  rw [listedCards, List.map_append]
  refine toSourceResults_append fun row member old => ?_
  exact distinct.2.2 _ old _ (List.mem_map_of_mem member) rfl

/-- What following the pages from an offset shows. -/
structure ShowsFrom (sourceContext : String → Option (SourceContextEntry γ))
    (models : List ModelFile) (params : ContextParams) (offset : ℕ)
    (pages : List (ListingResponse γ)) : Prop where
  cards : cardsOf pages =
    listedCards sourceContext params ((sourcesInScope models params).drop offset)
  nonempty : pages ≠ []
  full : ∀ page ∈ pages.dropLast,
    page.sources.length = (resolveRequest params).limit ∧ page.nextOffset.isSome
  last : ∀ page ∈ pages.getLast?, page.nextOffset = none
  totals : ∀ page ∈ pages, page.totalAvailable = (sourcesInScope models params).length ∧
    page.returned = page.sources.length

/-- What one page says of itself. -/
theorem totals_page (pure : PureSourceListing params) (models : List ModelFile) (offset : ℕ) :
    (page sourceContext models params offset).totalAvailable =
        (sourcesInScope models params).length ∧
      (page sourceContext models params offset).returned =
        (page sourceContext models params offset).sources.length := by
  have part : (((sourcesInScope models params).drop offset).take (resolveRequest params).limit).Sublist
      (sourcesInScope models params) := (List.take_sublist _ _).trans (List.drop_sublist _ _)
  rw [page_eq _ pure]
  exact ⟨rfl, (length_listedCards pure part).symm⟩

variable (sourceContext) in
/-- Each page is a step of the listing, and the next one starts where it ends. -/
theorem exists_showsFrom (pure : PureSourceListing params) (models : List ModelFile) (offset : ℕ) :
    ∃ calls pages, pagesFrom (page sourceContext models params) calls offset = some pages ∧
      ShowsFrom sourceContext models params offset pages := by
  induction remaining : (sourcesInScope models params).length - offset
    using Nat.strong_induction_on generalizing offset with
  | _ remaining' ih =>
    subst remaining
    set scope := sourcesInScope models params with isScope
    set limit := (resolveRequest params).limit with isLimit
    have positive : 1 ≤ limit := pure.resolved.2.2.2
    have rowCount : ((scope.drop offset).take limit).length = min limit (scope.length - offset) := by
      rw [List.length_take, List.length_drop]
    have first := page_eq sourceContext pure models offset
    by_cases more : offset + limit < scope.length
    · have count : ((scope.drop offset).take limit).length = limit := by omega
      obtain ⟨calls, pages, follow, shown⟩ := ih (scope.length - (offset + limit)) (by omega)
        (offset + limit) rfl
      have next : (page sourceContext models params offset).nextOffset = some (offset + limit) := by
        rw [first]
        dsimp only
        rw [count, if_pos more]
      refine ⟨calls + 1, page sourceContext models params offset :: pages, ?_, ?_⟩
      · simp only [pagesFrom, next, follow, Option.map_some]
      have part : ((scope.drop offset).take limit ++ scope.drop (offset + limit)).Sublist scope := by
        rw [← List.drop_drop, List.take_append_drop]
        exact List.drop_sublist _ _
      have size : (page sourceContext models params offset).sources.length = limit := by
        rw [first]
        exact (length_listedCards pure ((List.sublist_append_left _ _).trans part)).trans count
      refine ⟨?_, List.cons_ne_nil _ _, ?_, ?_, ?_⟩
      · rw [cardsOf, List.flatMap_cons, ← cardsOf, shown.cards, first]
        rw [← listedCards_append pure part, ← List.drop_drop, List.take_append_drop]
      · rw [List.dropLast_cons_of_ne_nil shown.nonempty]
        refine List.forall_mem_cons.mpr ⟨⟨size, ?_⟩, shown.full⟩
        rw [next]
        rfl
      · rw [List.getLast?_cons_of_ne_nil shown.nonempty]
        exact shown.last
      · exact List.forall_mem_cons.mpr ⟨totals_page pure models offset, shown.totals⟩
    · -- the last page takes what is left
      have whole : (scope.drop offset).take limit = scope.drop offset :=
        List.take_of_length_le (by rw [List.length_drop]; omega)
      have next : (page sourceContext models params offset).nextOffset = none := by
        rw [first]
        dsimp only
        rw [whole, List.length_drop]
        exact if_neg (by rw [← isScope]; omega)
      refine ⟨1, [page sourceContext models params offset], ?_, ?_, List.cons_ne_nil _ _, ?_, ?_, ?_⟩
      · rw [pagesFrom, next]
      · rw [cardsOf, List.flatMap_singleton, first]
        dsimp only
        rw [whole]
      · exact fun page member => absurd member List.not_mem_nil
      · intro page member
        rw [List.getLast?_singleton, Option.mem_some_iff] at member
        rw [← member, next]
      · intro page member
        rw [List.mem_singleton.mp member]
        exact totals_page pure models offset

variable (sourceContext) in
/-- The cards are those of the sources in scope. -/
theorem pairs_listedCards (pure : PureSourceListing params) (models : List ModelFile) :
    ((listedCards sourceContext params (sourcesInScope models params)).map fun card =>
        (card.info.modelPath, some card.info.source)) =
      (sourcesInScope models params).map fun entity => (entity.modelPath, entity.source) := by
  let keyOfPair : Label × Option Label → String := fun pair => sourceContextKey pair.1 pair.2
  have injective : Function.Injective keyOfPair := fun a b same => by
    obtain ⟨path, source⟩ := sourceContextKey_inj.mp same
    exact Prod.ext path source
  apply List.map_injective_iff.mpr injective
  rw [List.map_map, List.map_map]
  change (listedCards sourceContext params _).map SourceCard.key = _
  rw [listedCards, keys_toSourceResults]
  refine (keys_of_nodup (nodup_rowKey_inScope pure models) (isSome_source_inScope pure)).trans ?_
  rw [List.map_map]
  rfl

theorem nodup_pairs_listedCards (pure : PureSourceListing params) (models : List ModelFile) :
    ((listedCards sourceContext params (sourcesInScope models params)).map fun card =>
      (card.info.modelPath, card.info.source)).Nodup := by
  have distinct : ((listedCards sourceContext params (sourcesInScope models params)).map fun card =>
      (card.info.modelPath, some card.info.source)).Nodup := by
    have keys := nodup_rowKey_inScope pure models
    rw [List.map_map] at keys
    rw [pairs_listedCards _ pure models]
    refine List.Nodup.of_map (f := fun pair : Label × Option Label =>
      sourceContextKey pair.1 pair.2) ?_
    rw [List.map_map]
    exact keys
  refine List.Nodup.of_map (f := Prod.map id some) ?_
  rw [List.map_map]
  exact distinct

theorem mem_pairs_listedCards (pure : PureSourceListing params) {modelPath source : Label} :
    (modelPath, source) ∈ ((listedCards sourceContext params (sourcesInScope models params)).map
        fun card => (card.info.modelPath, card.info.source)) ↔
      Surfaces models modelPath source ∧ (truthy params.modelPath).all (modelPath.text = ·) = true := by
  have pairs := pairs_listedCards sourceContext pure models
  have inPairs : (modelPath, source) ∈ ((listedCards sourceContext params
      (sourcesInScope models params)).map fun card => (card.info.modelPath, card.info.source)) ↔
      (modelPath, some source) ∈ ((listedCards sourceContext params
        (sourcesInScope models params)).map fun card =>
          (card.info.modelPath, some card.info.source)) := by
    simp only [List.mem_map, Prod.mk.injEq, Option.some.injEq]
  rw [inPairs, pairs, ← exists_source_iff, List.mem_map]
  constructor
  · rintro ⟨entity, inScope, same⟩
    obtain ⟨rfl, isNamed⟩ := Prod.mk.inj same
    obtain ⟨member, isSource, inPath⟩ := (mem_inScope pure).mp inScope
    have name := source_of_mem_collectEntities isSource member
    exact ⟨⟨entity, member, isSource, rfl, Option.some.inj (name.symm.trans isNamed)⟩, inPath⟩
  · rintro ⟨⟨entity, member, isSource, rfl, rfl⟩, inPath⟩
    refine ⟨entity, (mem_inScope pure).mpr ⟨member, isSource, inPath⟩, ?_⟩
    rw [source_of_mem_collectEntities isSource member]

/-- The listing without a page has the cards that the pages have. -/
theorem sources_page_of_length_le (pure : PureSourceListing params) (models : List ModelFile)
    {limit : ℕ} (positive : 1 ≤ limit) (fits : (sourcesInScope models params).length ≤ limit) :
    (page sourceContext models { params with limit := some limit } 0).sources =
      listedCards sourceContext params (sourcesInScope models params) := by
  have pure' : PureSourceListing { params with limit := some limit } :=
    ⟨pure.nonempty, pure.targets, pure.unscoped, fun limit' same => Option.some.inj same ▸ positive⟩
  have scope : sourcesInScope models { params with limit := some limit } =
      sourcesInScope models params := rfl
  rw [page_eq _ pure']
  dsimp only
  rw [scope, List.drop_zero]
  exact congrArg (listedCards sourceContext params) (List.take_of_length_le fits)

variable (sourceContext) in
/-- Following the pages of a listing ends, and shows each source once. -/
theorem exists_browsesOnce (models : List ModelFile) (params : ContextParams)
    (pure : PureSourceListing params) :
    ∃ calls pages, pagesFrom (page sourceContext models params) calls 0 = some pages ∧
      BrowsesOnce sourceContext models params pages := by
  obtain ⟨calls, pages, follow, shown⟩ :=
    exists_showsFrom sourceContext pure models 0
  have cards := shown.cards
  rw [List.drop_zero] at cards
  have size : (cardsOf pages).length = (sourcesInScope models params).length := by
    rw [cards, length_listedCards pure (List.Sublist.refl _)]
  refine ⟨calls, pages, follow, fun limit positive fits => ?_, ?_, fun modelPath source => ?_,
    shown.full, shown.last, fun page member => ?_⟩
  · rw [cards, sources_page_of_length_le pure models positive (size ▸ fits)]
  · rw [cards]
    exact nodup_pairs_listedCards pure models
  · rw [cards]
    exact mem_pairs_listedCards pure
  · rw [size]
    exact shown.totals page member

/-- A package in which two models surface one source. -/
def twoModels : List ModelFile :=
  [⟨some ⟨"east.malloy", by decide, by decide +kernel⟩,
      some ([⟨⟨"carriers", by decide, by decide +kernel⟩, [], [], []⟩], [])⟩,
    ⟨some ⟨"west.malloy", by decide, by decide +kernel⟩,
      some ([⟨⟨"carriers", by decide, by decide +kernel⟩, [], [], []⟩], [])⟩]

/-- A listing of its sources, one on a page. -/
def oneOnAPage : ContextParams where
  searchTargets := [⟨.source, none⟩]
  modelPath := none
  source := none
  entityName := none
  includeCode := false
  limit := some 1
  offset := none

theorem exists_browsesOnce_twoModels :
    PureSourceListing oneOnAPage ∧
      ∃ calls pages,
        pagesFrom (page (fun _ => (none : Option (SourceContextEntry Unit))) twoModels oneOnAPage)
          calls 0 = some pages ∧
        BrowsesOnce (fun _ => (none : Option (SourceContextEntry Unit))) twoModels oneOnAPage pages := by
  have pure : PureSourceListing oneOnAPage := by
    refine ⟨List.cons_ne_nil _ _, fun target member => ?_, rfl, fun limit same => ?_⟩
    · rw [List.mem_singleton.mp member]
      exact ⟨rfl, rfl⟩
    · exact (Option.some.inj same).le
  exact ⟨pure, exists_browsesOnce _ twoModels oneOnAPage pure⟩

end Pages

end MalloyPublisher.Context
