import MalloyPublisher.Context.Ranking
import Mathlib.Data.List.Perm.Subperm

/-!
# What a target answers among others

Each card has room for a number of entities for each target, so that one target does not take the
room of another. An entity that several targets match counts against one of them, though: the one
that claims it best. Where that one has enough better matches on the card, the entity is left out of
a request with both targets, even if the other target alone has room for it.

## Main definitions

* `AnswersKept` — what a request answers with one target, it answers among others
* `Uncrowded` — what a target alone has room for has room among others

## Main results

* `answersKept_iff` — answers are kept exactly where no target is crowded
* `not_answersKept_elevenDimensions` — a dimension that is left out
-/

namespace MalloyPublisher.Context

open Foundations

/-- The request with one of its targets. -/
def ContextParams.only (params : ContextParams) (target : SearchTarget) : ContextParams :=
  { params with searchTargets := [target] }

/-! ## What requests find -/

section Finds

variable {entities : List Entity} {request : ResolvedRequest} {entity : Entity} {retrieval : Retrieval}
  {search : String → Option (List (Entity × ℚ))} {embeddings : Embeddings} {row : EmbeddedRow}
  {κ : Type} [DecidableEq κ] {hits : List (κ × ℕ × ℚ)}

theorem nodup_scoreTable (hits : List (κ × ℕ × ℚ)) : ((scoreTable hits).map Prod.fst).Nodup := by
  have keys : (scoreTable hits).map Prod.fst = (groupsOf Prod.fst hits).map Prod.fst := by
    rw [scoreTable, List.map_map]
    rfl
  rw [keys]
  exact nodup_groupsOf _ _

theorem mem_scoreTable {k : κ} : k ∈ (scoreTable hits).map Prod.fst ↔ ∃ hit ∈ hits, hit.1 = k := by
  rw [← mem_keys_groupsOf, scoreTable, List.map_map]
  rfl

/-- With one target, a hit has one score. -/
theorem scores_of_mem_scoreTable {index : ℕ} (one : ∀ hit ∈ hits, hit.2.1 = index)
    {entry : κ × List (ℕ × ℚ)} (member : entry ∈ scoreTable hits) :
    ∃ score, entry.2 = [(index, score)] := by
  obtain ⟨group, isGroup, rfl⟩ := List.mem_map.mp member
  obtain ⟨isFilter, nonempty⟩ := mem_groupsOf.mp isGroup
  have ofGroup : ∀ hit ∈ group.2, hit.2.1 = index := by
    rw [isFilter]
    exact fun hit inGroup => one hit (List.mem_filter.mp inGroup).1
  -- a further hit of the target only raises its one score
  have fold : ∀ (hits : List (κ × ℕ × ℚ)), (∀ hit ∈ hits, hit.2.1 = index) → ∀ score : ℚ,
      ∃ score', hits.foldl (fun scores hit => setBest scores hit.2.1 hit.2.2) [(index, score)] =
        [(index, score')] := by
    intro hits ofHits
    induction hits with
    | nil => exact fun score => ⟨score, rfl⟩
    | cons hit rest ih =>
      intro score
      obtain ⟨isIndex, ofRest⟩ := List.forall_mem_cons.mp ofHits
      simpa [setBest, isIndex] using ih ofRest (max score hit.2.2)
  obtain ⟨first, rest, isCons⟩ := List.exists_cons_of_ne_nil nonempty
  rw [isCons] at ofGroup ⊢
  obtain ⟨isIndex, ofRest⟩ := List.forall_mem_cons.mp ofGroup
  simpa [setBest, isIndex] using fold rest ofRest (max 0 first.2.2)

theorem mem_of_mem_targetHits {target : ResolvedSearch} {hit : Entity × ℕ × ℚ}
    (member : hit ∈ targetHits search entities target) :
    hit.1 ∈ entities ∧ hit.2.1 = target.targetIndex := by
  unfold targetHits at member
  dsimp only at member
  by_cases empty : sanitize target.text = ""
  · rw [if_pos empty] at member
    cases member
  · rw [if_neg empty] at member
    obtain ⟨found, inFound, rfl⟩ := List.mem_map.mp member
    simp only [List.mem_filter, Bool.and_eq_true, decide_eq_true_eq] at inFound
    exact ⟨inFound.2.1, rfl⟩

theorem exists_lexical_iff : (∃ matched ∈ lexicalMatches search entities request,
      matched.entity = entity) ↔
    (∃ target ∈ request.searches, ∃ hit ∈ targetHits search entities target, hit.1 = entity) ∧
      matchesScope entity request = true := by
  have inTable : entity ∈ (scoreTable (request.searches.flatMap
      (targetHits search entities))).map Prod.fst ↔
      ∃ target ∈ request.searches, ∃ hit ∈ targetHits search entities target, hit.1 = entity := by
    rw [mem_scoreTable]
    simp only [List.mem_flatMap]
    constructor
    · rintro ⟨hit, ⟨target, isTarget, inHits⟩, same⟩
      exact ⟨target, isTarget, hit, inHits, same⟩
    · rintro ⟨target, isTarget, hit, inHits, same⟩
      exact ⟨hit, ⟨target, isTarget, inHits⟩, same⟩
  rw [← inTable]
  simp only [lexicalMatches, List.mem_map, List.mem_filter]
  constructor
  · rintro ⟨_, ⟨entry, ⟨member, inScope⟩, rfl⟩, rfl⟩
    exact ⟨⟨entry, member, rfl⟩, inScope⟩
  · rintro ⟨⟨entry, member, rfl⟩, inScope⟩
    exact ⟨_, ⟨entry, ⟨member, inScope⟩, rfl⟩, rfl⟩

theorem kind_of_mem_targetWindow {target : ResolvedSearch}
    (member : row ∈ targetWindow embeddings entities request target) :
    row ∈ scopedRows embeddings entities request ∧ row.kind ∈ target.kinds := by
  have scored := (List.mem_insertionSort _).mp (List.take_subset _ _ member)
  simp only [List.mem_filter, Bool.and_eq_true, decide_eq_true_eq] at scored
  exact ⟨scored.1, scored.2.1⟩

/-- The scan finds the rows in the windows of the targets. -/
theorem mem_rows_scan : row ∈ (scan embeddings entities request).map SemanticHit.row ↔
    ∃ target ∈ request.searches, row ∈ targetWindow embeddings entities request target := by
  unfold scan
  rw [List.map_map]
  change row ∈ (scoreTable _).map Prod.fst ↔ _
  rw [mem_scoreTable]
  simp only [List.mem_insertionSort, List.mem_flatMap, List.mem_filter, List.any_eq_true,
    decide_eq_true_eq, List.mem_map]
  constructor
  · rintro ⟨_, ⟨found, ⟨-, target, isTarget, inWindow⟩, claim, -, rfl⟩, rfl⟩
    exact ⟨target, isTarget, inWindow⟩
  · rintro ⟨target, isTarget, inWindow⟩
    obtain ⟨inScope, isKind⟩ := kind_of_mem_targetWindow inWindow
    have claimed : (target.targetIndex, embeddings.similarity target.text row) ∈
        claims embeddings request row :=
      List.mem_map.mpr ⟨target, List.mem_filter.mpr ⟨isTarget, decide_eq_true isKind⟩, rfl⟩
    exact ⟨_, ⟨row, ⟨inScope, target, isTarget, inWindow⟩, _, claimed, rfl⟩, rfl⟩

theorem exists_semantic_iff : (∃ matched ∈ semanticMatches embeddings entities request,
      matched.entity = entity) ↔
    entity ∈ entities ∧ matchesScope entity request = true ∧
      entity.row ∈ (scan embeddings entities request).map SemanticHit.row := by
  simp only [semanticMatches, List.mem_flatMap, List.mem_map, List.mem_filter, Bool.and_eq_true,
    decide_eq_true_eq]
  constructor
  · rintro ⟨_, ⟨hit, isHit, found, ⟨member, same, inScope⟩, rfl⟩, rfl⟩
    exact ⟨member, inScope, hit, isHit, same.symm⟩
  · rintro ⟨member, inScope, hit, isHit, same⟩
    exact ⟨_, ⟨hit, isHit, entity, ⟨member, same.symm, inScope⟩, rfl⟩, rfl⟩

/-- What a request finds are entities of the package, each once. -/
theorem finds_matchesOf (corpus : Corpus) (request : ResolvedRequest) (retrieval : Retrieval) :
    corpus.Finds (matchesOf corpus.entities request retrieval) := by
  cases retrieval with
  | lexical search =>
    constructor
    · refine List.Nodup.sublist ?_ (nodup_scoreTable
        (request.searches.flatMap (targetHits search corpus.entities)))
      rw [matchesOf, lexicalMatches, List.map_map]
      exact List.filter_sublist.map Prod.fst
    · intro matched member
      obtain ⟨⟨target, -, hit, inHits, same⟩, -⟩ :=
        exists_lexical_iff.mp ⟨matched, member, rfl⟩
      exact same ▸ (mem_of_mem_targetHits inHits).1
  | semantic embeddings =>
    constructor
    · have rows : ((scan embeddings corpus.entities request).map SemanticHit.row).Nodup := by
        unfold scan
        rw [List.map_map]
        exact nodup_scoreTable _
      rw [List.Nodup, List.pairwise_map] at rows
      rw [matchesOf, semanticMatches, List.map_flatMap, List.nodup_flatMap]
      -- the entities of one row differ, and those of two rows are of different rows
      refine ⟨fun hit _ => ?_, rows.imp fun {a b} apart => ?_⟩
      · rw [List.map_map]
        exact (corpus.distinct.of_map.filter _).map fun _ _ same => same
      · intro entity inA inB
        simp only [List.mem_map, List.mem_filter, Bool.and_eq_true, decide_eq_true_eq] at inA inB
        obtain ⟨_, ⟨found, ⟨-, ofA, -⟩, rfl⟩, rfl⟩ := inA
        obtain ⟨_, ⟨found', ⟨-, ofB, -⟩, rfl⟩, same⟩ := inB
        obtain rfl : found' = found := same
        exact apart (ofA.symm.trans ofB)
    · exact fun matched member => (exists_semantic_iff.mp ⟨matched, member, rfl⟩).1

end Finds

/-! ## A target alone -/

section Only

variable {params : ContextParams} {target : SearchTarget} {entities : List Entity}
  {retrieval : Retrieval} {matched : Matched}

/-- The one search of a request with one target. -/
theorem searchesOf_singleton (searched : searchesOf [target] ≠ []) : ∃ text,
    target.text = some text ∧ target.targetType.kinds ≠ [] ∧
      searchesOf [target] = [⟨0, text, target.targetType.kinds⟩] := by
  have isSearch : searchesOf [target] = if target.targetType.kinds = [] then []
      else (target.text.map fun text => ⟨0, text, target.targetType.kinds⟩).toList := by
    simp only [searchesOf, List.zipIdx_singleton, List.filterMap_cons, List.filterMap_nil]
    split_ifs
    · rfl
    · cases target.text <;> rfl
  rw [isSearch] at searched ⊢
  split_ifs at searched ⊢ with none
  · exact absurd rfl searched
  · cases isText : target.text with
    | none =>
      rw [isText] at searched
      exact absurd rfl searched
    | some text => exact ⟨text, rfl, none, rfl⟩

/-- Among others, the target has the same search at its place. -/
theorem exists_search (member : target ∈ params.searchTargets) {text : String}
    (isText : target.text = some text) (kinds : target.targetType.kinds ≠ []) :
    ∃ index, ⟨index, text, target.targetType.kinds⟩ ∈ searchesOf params.searchTargets := by
  obtain ⟨index, bound, isTarget⟩ := List.getElem_of_mem member
  refine ⟨index, List.mem_filterMap.mpr ⟨(target, index), ?_, ?_⟩⟩
  · rw [List.mk_mem_zipIdx_iff_getElem?, List.getElem?_eq_getElem bound, isTarget]
  · dsimp only
    rw [if_neg kinds, isText]
    rfl

theorem limit_only (member : target ∈ params.searchTargets) (searched : searchesOf [target] ≠ []) :
    (resolveRequest (params.only target)).limit = (resolveRequest params).limit := by
  obtain ⟨text, isText, kinds, -⟩ := searchesOf_singleton searched
  obtain ⟨index, isSearch⟩ := exists_search member isText kinds
  have alone : (searchesOf (params.only target).searchTargets).isEmpty = false :=
    List.isEmpty_eq_false_iff.mpr searched
  have combined : (searchesOf params.searchTargets).isEmpty = false :=
    List.isEmpty_eq_false_iff.mpr (List.ne_nil_of_mem isSearch)
  simp only [resolveRequest, alone, combined]
  rfl

/-- What a target matches alone, a request with it matches. -/
theorem exists_match_of_only (member : target ∈ params.searchTargets)
    (searched : searchesOf [target] ≠ [])
    (inAlone : matched ∈ matchesOf entities (resolveRequest (params.only target)) retrieval) :
    ∃ other ∈ matchesOf entities (resolveRequest params) retrieval,
      other.entity = matched.entity := by
  obtain ⟨text, isText, kinds, isSearch⟩ := searchesOf_singleton searched
  obtain ⟨index, inSearches⟩ := exists_search member isText kinds
  have searches : (resolveRequest (params.only target)).searches =
      [⟨0, text, target.targetType.kinds⟩] := isSearch
  cases retrieval with
  | lexical search =>
    obtain ⟨⟨search', isSearch', hit, inHits, same⟩, inScope⟩ :=
      exists_lexical_iff.mp ⟨matched, inAlone, rfl⟩
    rw [searches, List.mem_singleton] at isSearch'
    subst isSearch'
    -- the pass asks the index the same
    obtain ⟨hit', inHits', same'⟩ : ∃ hit' ∈ targetHits search entities
        ⟨index, text, target.targetType.kinds⟩, hit'.1 = hit.1 := by
      unfold targetHits at inHits ⊢
      dsimp only at inHits ⊢
      by_cases empty : sanitize text = ""
      · rw [if_pos empty] at inHits
        cases inHits
      · rw [if_neg empty] at inHits ⊢
        obtain ⟨found, inFound, rfl⟩ := List.mem_map.mp inHits
        exact ⟨_, List.mem_map.mpr ⟨found, inFound, rfl⟩, rfl⟩
    exact exists_lexical_iff.mpr
      ⟨⟨_, inSearches, hit', inHits', same'.trans same⟩, inScope⟩
  | semantic embeddings =>
    obtain ⟨inEntities, inScope, inScan⟩ := exists_semantic_iff.mp ⟨matched, inAlone, rfl⟩
    refine exists_semantic_iff.mpr ⟨inEntities, inScope, mem_rows_scan.mpr ⟨_, inSearches, ?_⟩⟩
    obtain ⟨search', isSearch', inWindow⟩ := mem_rows_scan.mp inScan
    rw [searches, List.mem_singleton] at isSearch'
    subst isSearch'
    -- the window has the same rows and the same limit
    unfold targetWindow at inWindow ⊢
    rw [limit_only member searched] at inWindow
    exact inWindow

/-- Alone, a target is the best of all that it matches. -/
theorem bestTarget_only (searched : searchesOf [target] ≠ [])
    (inAlone : matched ∈ matchesOf entities (resolveRequest (params.only target)) retrieval) :
    bestTargetOf matched.targetScores = some 0 := by
  obtain ⟨text, -, -, isSearch⟩ := searchesOf_singleton searched
  have searches : (resolveRequest (params.only target)).searches =
      [⟨0, text, target.targetType.kinds⟩] := isSearch
  suffices one : ∃ score, matched.targetScores = [(0, score)] by
    obtain ⟨score, same⟩ := one
    rw [same]
    rfl
  cases retrieval with
  | lexical search =>
    obtain ⟨entry, inTable, rfl⟩ := List.mem_map.mp inAlone
    refine scores_of_mem_scoreTable (fun hit inHits => ?_) (List.mem_filter.mp inTable).1
    rw [searches, List.flatMap_singleton] at inHits
    exact (mem_of_mem_targetHits inHits).2
  | semantic embeddings =>
    obtain ⟨hit, isHit, inMatches⟩ := List.mem_flatMap.mp inAlone
    obtain ⟨entity, -, rfl⟩ := List.mem_map.mp inMatches
    obtain ⟨entry, inTable, rfl⟩ := List.mem_map.mp isHit
    refine scores_of_mem_scoreTable (fun hit inHits => ?_) inTable
    rw [List.mem_insertionSort, List.mem_flatMap] at inHits
    obtain ⟨row, -, inClaims⟩ := inHits
    obtain ⟨claim, isClaim, rfl⟩ := List.mem_map.mp inClaims
    obtain ⟨target', isTarget, rfl⟩ := List.mem_map.mp isClaim
    rw [searches] at isTarget
    rw [List.mem_singleton.mp (List.mem_filter.mp isTarget).1]

end Only

/-! ## Answers among others -/

/-- What a request matches. -/
def matchedBy (retrieval : Retrieval) (corpus : Corpus) (params : ContextParams) : List Matched :=
  matchesOf corpus.entities (resolveRequest params) retrieval

/-- The entities of a target answer are in the answer to the whole request, which is as long as it
says and lacks what it says. -/
structure AnswersKept {γ : Type} (sourceContext : String → Option (SourceContextEntry γ))
    (retrieval : Retrieval) (corpus : Corpus) (params : ContextParams) : Prop where
  kept : (cardsOfMatches (matchedBy retrieval corpus params)).length ≤ (resolveRequest params).limit →
    ∀ target ∈ params.searchTargets, searchesOf [target] ≠ [] → ∀ entity,
      carries (rankedResponse sourceContext retrieval corpus (params.only target)).sources entity →
        carries (rankedResponse sourceContext retrieval corpus params).sources entity
  capped : ∀ card ∈ (rankedResponse sourceContext retrieval corpus params).sources,
    ∃ shown : List Matched, (∀ matched ∈ shown, matched ∈ matchedBy retrieval corpus params) ∧
      card.entities = shown.map (fun matched => cardEntity (searchTextsByIndex (resolveRequest params))
        (resolveRequest params).includeCode (retrieval.row matched)) ∧
      ∀ target, shown.countP (fun matched => bestTargetOf matched.targetScores = target) ≤
        maxEntitiesPerSourceTarget
  returned : (rankedResponse sourceContext retrieval corpus params).returned =
    (rankedResponse sourceContext retrieval corpus params).sources.length
  total : (rankedResponse sourceContext retrieval corpus params).totalAvailable =
    (cardsOfMatches (matchedBy retrieval corpus params)).length
  dropped : (rankedResponse sourceContext retrieval corpus params).entitiesDropped =
    (matchedBy retrieval corpus params).countP fun matched =>
      shows (rankedResponse sourceContext retrieval corpus params).sources matched.entity &&
        !carries (rankedResponse sourceContext retrieval corpus params).sources matched.entity

/-- The matches on the card of a match. -/
def cardmates (matched other : Matched) : Bool :=
  decide (other.entity.kind ≠ .source) &&
    decide (other.entity.modelPath = matched.entity.modelPath) &&
      decide (other.entity.source = matched.entity.source)

/-- What a target alone matches and has room for is not outranked, among the matches of all targets,
by as many as the cap that are on its card and are best under the same target. -/
def Uncrowded (alone combined : List Matched) : Prop :=
  ∀ matched ∈ alone, matched.entity.kind ≠ .source →
    outranking Matched.score alone (cardmates matched) matched < maxEntitiesPerSourceTarget →
      ∀ other ∈ combined, other.entity = matched.entity →
        outranking Matched.score combined (rivals other) other < maxEntitiesPerSourceTarget

section Kept

variable {retrieval : Retrieval} {corpus : Corpus} {params : ContextParams} {target : SearchTarget}
  {matched : Matched}

/-- Alone, all matches on a card are rivals. -/
theorem hasRoom_only_iff (searched : searchesOf [target] ≠ [])
    (inAlone : matched ∈ matchedBy retrieval corpus (params.only target)) :
    HasRoom (matchedBy retrieval corpus (params.only target)) matched ↔
      (matched.entity.kind ≠ .source → outranking Matched.score
        (matchedBy retrieval corpus (params.only target)) (cardmates matched) matched <
          maxEntitiesPerSourceTarget) := by
  have same : outranking Matched.score (matchedBy retrieval corpus (params.only target))
      (rivals matched) matched = outranking Matched.score
        (matchedBy retrieval corpus (params.only target)) (cardmates matched) matched := by
    refine List.countP_congr fun other inOther => ?_
    have best : bestTargetOf other.targetScores = bestTargetOf matched.targetScores :=
      (bestTarget_only searched inOther).trans (bestTarget_only searched inAlone).symm
    simp [rivals, cardmates, best]
  rw [HasRoom, same]

/-- A target alone matches no more cards. -/
theorem length_cardsOfMatches_only (member : target ∈ params.searchTargets)
    (searched : searchesOf [target] ≠ []) :
    (cardsOfMatches (matchedBy retrieval corpus (params.only target))).length ≤
      (cardsOfMatches (matchedBy retrieval corpus params)).length := by
  refine (List.Nodup.subperm (List.nodup_dedup _) fun pair inPairs => ?_).length_le
  rw [cardsOfMatches, List.mem_dedup, List.mem_map]
  obtain ⟨matched, inAlone, rfl⟩ := List.mem_map.mp (List.mem_dedup.mp inPairs)
  obtain ⟨other, inCombined, same⟩ := exists_match_of_only member searched inAlone
  exact ⟨other, inCombined, by rw [same]⟩

variable {γ : Type}

/-- Answers are kept exactly where no target is crowded. -/
theorem answersKept_iff (sourceContext : String → Option (SourceContextEntry γ))
    (retrieval : Retrieval) (corpus : Corpus) (params : ContextParams) :
    AnswersKept sourceContext retrieval corpus params ↔
      ((cardsOfMatches (matchedBy retrieval corpus params)).length ≤ (resolveRequest params).limit →
        ∀ target ∈ params.searchTargets, searchesOf [target] ≠ [] →
          Uncrowded (matchedBy retrieval corpus (params.only target))
            (matchedBy retrieval corpus params)) := by
  have finds : ∀ params, corpus.Finds (matchedBy retrieval corpus params) :=
    fun params => finds_matchesOf corpus (resolveRequest params) retrieval
  constructor
  · -- alone there are no more cards, so what has room is answered, and must be among others
    intro answers few target member searched matched inAlone nonSource room other inCombined same
    have fewAlone : (cardsOfMatches (matchedBy retrieval corpus (params.only target))).length ≤
        (resolveRequest (params.only target)).limit := by
      rw [limit_only member searched]
      exact (length_cardsOfMatches_only member searched).trans few
    have carried : carries (rankedResponse sourceContext retrieval corpus
        (params.only target)).sources matched.entity = true :=
      (carries_match_iff (finds _) inAlone).mpr ⟨card_mem_answerKeys fewAlone inAlone,
        (hasRoom_only_iff searched inAlone).mpr fun _ => room⟩
    have among := answers.kept few target member searched matched.entity carried
    rw [← same] at among nonSource
    exact ((carries_match_iff (finds params) inCombined).mp among).2 nonSource
  · intro uncrowded
    refine ⟨fun few target member searched entity carried => ?_,
      fun card isCard => exists_entities_eq (finds params) isCard, rfl, length_groups retrieval _,
      entitiesDropped_answerOf (finds params)⟩
    by_cases isSource : entity.kind = .source
    · -- a source spends no room: any match keeps its card
      rw [carries_source _ isSource] at carried ⊢
      obtain ⟨row, inRows, isKey⟩ := exists_of_mem_keptKeys ((shows_iff (finds _)).mp carried)
      obtain ⟨matched, inRanked, rfl⟩ := List.mem_map.mp inRows
      obtain ⟨other, inCombined, same⟩ :=
        exists_match_of_only member searched (mem_ranked.mp inRanked)
      refine (shows_iff (finds params)).mpr ?_
      rw [← isKey, rowKey_row, Matched.card, ← same]
      exact card_mem_answerKeys few inCombined
    · obtain ⟨matched, inAlone, ⟨isKey, kind, name⟩, -, room⟩ :=
        (carries_iff (finds _) isSource).mp carried
      obtain ⟨other, inCombined, same⟩ := exists_match_of_only member searched inAlone
      refine (carries_iff (finds params) isSource).mpr
        ⟨other, inCombined, ?_, card_mem_answerKeys few inCombined, fun nonSource => ?_⟩
      · rw [Matched.card, same]
        exact ⟨isKey, kind, name⟩
      · refine uncrowded few target member searched matched inAlone (kind ▸ isSource) ?_ other
          inCombined same
        exact (hasRoom_only_iff searched inAlone).mp room (kind ▸ isSource)

end Kept

/-! ## A crowded target -/

/-- A dimension of one source, named by a number of letters. -/
def dimensionNumber (number : ℕ) : Entity where
  kind := .dimension
  name := ⟨String.ofList (List.replicate (number + 1) 'd'), by simp [← String.toList_inj], by
    rw [String.toList_ofList]
    exact fun member => absurd (List.eq_of_mem_replicate member) (by decide)⟩
  source := some ⟨"flights", by decide, by decide +kernel⟩
  modelPath := ⟨"flights.malloy", by decide, by decide +kernel⟩
  doc := ""
  embedDoc := ""
  relationship := none
  aliases := []
  code := none
  aliasOf := none
  dataType := none
  joinPath := none

def elevenDimensions : Corpus where
  entities := (List.range 11).map dimensionNumber
  distinct := by decide +kernel
  sourced entity member := by
    obtain ⟨number, -, rfl⟩ := List.mem_map.mp member
    rfl

/-- An index that knows two texts: one that all dimensions match, and one that the first and, much
less, the last of them match. -/
def broadOrNarrow (text : String) : Option (List (Entity × ℚ)) :=
  if text = "broad" then some ((List.range 11).map fun number => (dimensionNumber number, 11 - number))
  else if text = "narrow" then some [(dimensionNumber 0, 100), (dimensionNumber 10, 1)]
  else none

def broadAndNarrow : ContextParams where
  searchTargets := [⟨.dimension, some "broad"⟩, ⟨.dimension, some "narrow"⟩]
  modelPath := none
  source := none
  entityName := none
  includeCode := false
  limit := none
  offset := none

/-- The narrow target alone answers with the last dimension. With the broad one, which claims it
better, it comes behind the ten others. -/
theorem not_answersKept_elevenDimensions :
    ¬AnswersKept (fun _ => (none : Option (SourceContextEntry Unit))) (.lexical broadOrNarrow)
      elevenDimensions broadAndNarrow := by
  intro answers
  have missing := answers.kept (by decide +kernel) ⟨.dimension, some "narrow"⟩ (by simp [broadAndNarrow])
    (by decide +kernel) (dimensionNumber 10) (by decide +kernel)
  revert missing
  decide +kernel

end MalloyPublisher.Context
