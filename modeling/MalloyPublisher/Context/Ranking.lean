import MalloyPublisher.Context.RankedWindow
import MalloyPublisher.Context.Requests
import Mathlib.Data.List.Dedup

/-!
# Ranking

A request with texts ranks what its targets match. The text index is asked once for each target, and
a score counts by the best one of its pass; with embeddings one scan scores all targets at once.
Either way an entity is matched with a score for each target that claims it, and ranks by the best
of them.

## Main definitions

* `Corpus` — the entities of a package
* `matchesOf` — what a request matches
* `rankedResponse` — its answer
* `carries` — whether an answer has an entity

## Main results

* `carries_iff` — an answer has what it has room for
* `exists_entities_eq` — no card has more entities for a target than the cap
* `entitiesDropped_answerOf` — what is reported as dropped is what the cards lack
-/

namespace MalloyPublisher.Context

open Foundations

/-- The entities of a package, which differ by their cards, kinds and names. -/
structure Corpus where
  entities : List Entity
  distinct : (entities.map entityCardKey).Nodup
  sourced : ∀ entity ∈ entities, entity.source.isSome

/-- An entity that is matched: the score that it ranks by, and those of the targets. -/
structure Matched where
  entity : Entity
  score : ℚ
  targetScores : List (ℕ × ℚ)
  deriving DecidableEq

/-! ## Scores -/

/-- Set the score of a target to the best one so far. -/
def setBest (scores : List (ℕ × ℚ)) (index : ℕ) (score : ℚ) : List (ℕ × ℚ) :=
  if index ∈ scores.map Prod.fst then
    scores.map fun entry => if entry.1 = index then (index, max entry.2 score) else entry
  else scores ++ [(index, max 0 score)]

/-- The scores of the targets for each thing that is hit, in the order in which things are hit. -/
def scoreTable {κ : Type} [DecidableEq κ] (hits : List (κ × ℕ × ℚ)) : List (κ × List (ℕ × ℚ)) :=
  (groupsOf Prod.fst hits).map fun group =>
    (group.1, group.2.foldl (fun scores hit => setBest scores hit.2.1 hit.2.2) [])

def topScore : List (ℕ × ℚ) → ℚ
  | [] => 0
  | first :: rest => rest.foldl (fun top entry => max top entry.2) first.2

/-! ## The text index -/

/-- A text without what the index reads as operators. -/
def sanitize (query : String) : String :=
  trimmed (String.ofList (query.toList.map fun c => if c ∈ "~^:*+-\"".toList then ' ' else c))

/-- What the pass of one target hits. The index answers a text with the entities and their scores,
the best one first, or fails. -/
def targetHits (search : String → Option (List (Entity × ℚ))) (entities : List Entity)
    (target : ResolvedSearch) : List (Entity × ℕ × ℚ) :=
  let sanitized := sanitize target.text
  if sanitized = "" then []
  else
    let hits := (search sanitized).getD []
    let top := (hits.head?.map Prod.snd).getD 0
    (hits.filter fun hit => decide (hit.1 ∈ entities) && decide (hit.1.kind ∈ target.kinds)).map
      fun hit => (hit.1, target.targetIndex, if top > 0 then hit.2 / top else 0)

def lexicalMatches (search : String → Option (List (Entity × ℚ))) (entities : List Entity)
    (request : ResolvedRequest) : List Matched :=
  ((scoreTable (request.searches.flatMap (targetHits search entities))).filter fun entry =>
    matchesScope entry.1 request).map fun entry => ⟨entry.1, topScore entry.2, entry.2⟩

/-! ## The scan -/

/-- A row of the vector cache, which has one for all model paths of an entity. -/
structure EmbeddedRow where
  kind : EntityKind
  source : Option Label
  name : Label
  deriving DecidableEq

def Entity.row (entity : Entity) : EmbeddedRow := ⟨entity.kind, entity.source, entity.name⟩

/-- The cached rows, how similar a text is to each (to the best of its facets), and the floor. -/
structure Embeddings where
  rows : List EmbeddedRow
  similarity : String → EmbeddedRow → ℚ
  minSimilarity : ℚ

structure SemanticHit where
  row : EmbeddedRow
  score : ℚ
  targetScores : List (ℕ × ℚ)

section Scan

variable (embeddings : Embeddings) (entities : List Entity) (request : ResolvedRequest)

/-- The rows in scope: those of the source, and of an entity that the rest of the scope admits. -/
def scopedRows : List EmbeddedRow :=
  embeddings.rows.dedup.filter fun row =>
    request.sourceName.all (fun name => row.source.any (·.text = name)) &&
      (request.modelPath.isNone && request.entityName.isNone ||
        entities.any fun entity => matchesScope entity request && decide (entity.row = row))

/-- The window of one target over the rows that it may claim. -/
def targetWindow (target : ResolvedSearch) : List EmbeddedRow :=
  let limit := if request.sourceName.isSome then request.limit else min maxLimit (request.limit * 3)
  let scored := (scopedRows embeddings entities request).filter fun row =>
    decide (row.kind ∈ target.kinds) &&
      decide (embeddings.minSimilarity ≤ embeddings.similarity target.text row)
  (scored.insertionSort fun a b =>
    embeddings.similarity target.text b < embeddings.similarity target.text a ∨
      embeddings.similarity target.text a = embeddings.similarity target.text b ∧
        a.name.text ≤ b.name.text).take limit

/-- The scores of a row under the targets that may claim it. -/
def claims (row : EmbeddedRow) : List (ℕ × ℚ) :=
  (request.searches.filter fun target => row.kind ∈ target.kinds).map fun target =>
    (target.targetIndex, embeddings.similarity target.text row)

/-- The rows in the window of a target, the most similar first, each with all of its scores. -/
def scan : List SemanticHit :=
  let best := fun row => topScore (claims embeddings request row)
  let hits := (scopedRows embeddings entities request).filter fun row =>
    request.searches.any fun target => row ∈ targetWindow embeddings entities request target
  let joined := hits.flatMap fun row => (claims embeddings request row).map fun claim => (row, claim)
  let ordered := joined.insertionSort fun a b =>
    best b.1 < best a.1 ∨ best a.1 = best b.1 ∧
      (a.1.name.text < b.1.name.text ∨ a.1.name.text = b.1.name.text ∧ a.2.1 ≤ b.2.1)
  (scoreTable ordered).map fun entry => ⟨entry.1, best entry.1, entry.2⟩

/-- Each hit stands for the entities of its row, one for a model path, that are in scope. Their
cards differ, so that merging them by their cards keeps each. -/
def semanticMatches : List Matched :=
  (scan embeddings entities request).flatMap fun hit =>
    (entities.filter fun entity => decide (entity.row = hit.row) && matchesScope entity request).map
      fun entity => ⟨entity, roundScore hit.score, hit.targetScores⟩

end Scan

/-! ## Answers -/

/-- How a server retrieves. -/
inductive Retrieval
  | lexical (search : String → Option (List (Entity × ℚ)))
  | semantic (embeddings : Embeddings)

def matchesOf (entities : List Entity) (request : ResolvedRequest) : Retrieval → List Matched
  | .lexical search => lexicalMatches search entities request
  | .semantic embeddings => semanticMatches embeddings entities request

/-- The row of a match. The scores of a text index are not published. -/
def Retrieval.row (retrieval : Retrieval) (matched : Matched) : ResultEntity :=
  let row := { projectEntity matched.entity with bestTarget := bestTargetOf matched.targetScores }
  match retrieval with
  | .lexical _ => row
  | .semantic _ => { row with score := some matched.score, targetScores := matched.targetScores }

/-- The best score first. -/
def ranked (found : List Matched) : List Matched := found.insertionSort fun a b => b.score ≤ a.score

structure RankedResponse (γ : Type) where
  sources : List (SourceCard γ)
  totalAvailable : ℕ
  returned : ℕ
  entitiesDropped : ℕ

section Answer

variable {γ : Type} (sourceContext : String → Option (SourceContextEntry γ)) (retrieval : Retrieval)

/-- The texts of the targets. -/
def searchTextsByIndex (request : ResolvedRequest) (index : ℕ) : Option String :=
  (request.searches.find? (·.targetIndex = index)).map (·.text)

/-- The answer that matches become. -/
def answerOf (request : ResolvedRequest) (found : List Matched) : RankedResponse γ :=
  let finished := finishRanked sourceContext (searchTextsByIndex request) request.includeCode
    ((ranked found).map retrieval.row) request.limit
  { sources := finished.sources
    totalAvailable := finished.totalSources
    returned := finished.sources.length
    entitiesDropped := finished.entitiesDropped }

/-- The answer to a request with a text. -/
def rankedResponse (corpus : Corpus) (params : ContextParams) : RankedResponse γ :=
  let request := resolveRequest params
  answerOf sourceContext retrieval request (matchesOf corpus.entities request retrieval)

end Answer

/-- Whether there is a card for an entity. -/
def shows {γ : Type} (sources : List (SourceCard γ)) (entity : Entity) : Bool :=
  sources.any fun card =>
    decide (card.info.modelPath = entity.modelPath) && decide (some card.info.source = entity.source)

/-- Whether an entity is on its card. A source is the card itself. -/
def carries {γ : Type} (sources : List (SourceCard γ)) (entity : Entity) : Bool :=
  sources.any fun card =>
    decide (card.info.modelPath = entity.modelPath) &&
      decide (some card.info.source = entity.source) &&
        (decide (entity.kind = .source) || card.entities.any fun shown =>
          decide (shown.entityType = entity.kind) && decide (shown.name = entity.name))

/-! ## Room on a card -/

/-- The matches that an entity competes with: on its card, and claimed best by the same target. -/
def rivals (matched other : Matched) : Bool :=
  decide (other.entity.kind ≠ .source) &&
    decide (other.entity.modelPath = matched.entity.modelPath) &&
      decide (other.entity.source = matched.entity.source) &&
        decide (bestTargetOf other.targetScores = bestTargetOf matched.targetScores)

/-- Fewer rivals than the cap outrank a match. -/
def HasRoom (found : List Matched) (matched : Matched) : Prop :=
  matched.entity.kind ≠ .source →
    outranking Matched.score found (rivals matched) matched < maxEntitiesPerSourceTarget

/-- What a request finds in a corpus. -/
structure Corpus.Finds (corpus : Corpus) (found : List Matched) : Prop where
  distinct : (found.map Matched.entity).Nodup
  members : ∀ matched ∈ found, matched.entity ∈ corpus.entities

/-- The cards of matches. -/
def cardsOfMatches (found : List Matched) : List (Label × Option Label) :=
  (found.map fun matched => (matched.entity.modelPath, matched.entity.source)).dedup

/-- The key of the card of a match. -/
def Matched.card (matched : Matched) : String :=
  sourceContextKey matched.entity.modelPath matched.entity.source

section Rows

variable (retrieval : Retrieval) (matched : Matched)

@[simp] theorem row_kind : (retrieval.row matched).kind = matched.entity.kind := by
  cases retrieval <;> rfl

@[simp] theorem row_name : (retrieval.row matched).name = matched.entity.name := by
  cases retrieval <;> rfl

@[simp] theorem row_source : (retrieval.row matched).source = matched.entity.source := by
  cases retrieval <;> rfl

@[simp] theorem row_modelPath : (retrieval.row matched).modelPath = matched.entity.modelPath := by
  cases retrieval <;> rfl

@[simp] theorem row_bestTarget :
    (retrieval.row matched).bestTarget = bestTargetOf matched.targetScores := by
  cases retrieval <;> rfl

@[simp] theorem rowKey_row : rowKey (retrieval.row matched) = matched.card := by
  rw [rowKey, row_modelPath, row_source, Matched.card]

end Rows

section Room

variable {corpus : Corpus} {found : List Matched} {retrieval : Retrieval} {matched other : Matched}
  {limit : ℕ}

/-- Matches of one card, kind and name are one. -/
theorem Corpus.Finds.eq (finds : corpus.Finds found) (member : matched ∈ found)
    (member' : other ∈ found) (card : matched.card = other.card)
    (kind : matched.entity.kind = other.entity.kind) (name : matched.entity.name = other.entity.name) :
    matched = other := by
  obtain ⟨path, source⟩ := sourceContextKey_inj.mp card
  have same : matched.entity = other.entity :=
    List.inj_on_of_nodup_map corpus.distinct (finds.members _ member) (finds.members _ member')
      (entityCardKey_inj.mpr ⟨path, kind, source, name⟩)
  exact List.inj_on_of_nodup_map finds.distinct member member' same

theorem mem_ranked : matched ∈ ranked found ↔ matched ∈ found := List.mem_insertionSort _

theorem Corpus.Finds.nodup_rows (finds : corpus.Finds found) (retrieval : Retrieval) :
    ((ranked found).map retrieval.row).Nodup := by
  have distinct : (ranked found).Nodup :=
    (List.perm_insertionSort _ _).nodup_iff.mpr finds.distinct.of_map
  refine List.Nodup.map_on (fun a inA b inB same => ?_) distinct
  refine finds.eq (mem_ranked.mp inA) (mem_ranked.mp inB) ?_ ?_ ?_
  · rw [← rowKey_row retrieval, same, rowKey_row]
  · rw [← row_kind retrieval, same, row_kind]
  · rw [← row_name retrieval, same, row_name]

theorem Corpus.Finds.sourced (finds : corpus.Finds found) :
    ∀ row ∈ (ranked found).map retrieval.row, row.source.isSome := by
  intro row member
  obtain ⟨matched, inFound, rfl⟩ := List.mem_map.mp member
  rw [row_source]
  exact corpus.sourced _ (finds.members _ (mem_ranked.mp inFound))

/-- Rows spend one budget when one target claims them best. -/
theorem budgetOf_row (nonSource : matched.entity.kind ≠ .source) :
    (decide (rowKey (retrieval.row other) = rowKey (retrieval.row matched)) &&
      decide (budgetOf (retrieval.row other) = budgetOf (retrieval.row matched))) =
        rivals matched other := by
  have injective : ∀ a b : Option ℕ, a.elim (-1 : ℤ) Int.ofNat = b.elim (-1 : ℤ) Int.ofNat ↔ a = b := by
    rintro (_ | a) (_ | b) <;> simp
  by_cases isSource : other.entity.kind = .source
  · simp [rivals, isSource, budgetOf, nonSource]
  · simp [rivals, isSource, budgetOf, nonSource, injective, Matched.card, sourceContextKey_inj,
      Bool.and_assoc]

/-- The row of a match is kept when its card is, and it has room there. -/
theorem row_mem_iff (finds : corpus.Finds found) (member : matched ∈ found) :
    retrieval.row matched ∈ (windowBySource ((ranked found).map retrieval.row) limit).rows ↔
      matched.card ∈ keptKeys ((ranked found).map retrieval.row) limit ∧ HasRoom found matched := by
  have inRows : retrieval.row matched ∈ (ranked found).map retrieval.row :=
    List.mem_map_of_mem (mem_ranked.mpr member)
  rw [mem_windowBySource (finds.nodup_rows retrieval), and_iff_right inRows, rowKey_row]
  refine and_congr_right fun _ => ?_
  rw [HasRoom]
  by_cases isSource : matched.entity.kind = .source
  · simp [budgetOf, isSource]
  · -- the place in the window's rows is the number of rivals that outrank the match
    obtain ⟨target, isTarget⟩ : ∃ target, budgetOf (retrieval.row matched) = some target := by
      simp [budgetOf, isSource]
    have among : (fun other => decide (rowKey (retrieval.row other) = matched.card) &&
        decide (budgetOf (retrieval.row other) = some target)) = rivals matched := by
      funext other
      rw [← isTarget, ← rowKey_row retrieval matched, budgetOf_row isSource]
    have count : ahead ((ranked found).map retrieval.row) (fun other =>
        decide (rowKey other = matched.card) && decide (budgetOf other = some target))
          (retrieval.row matched) = outranking Matched.score found (rivals matched) matched := by
      rw [ahead_map (finds.nodup_rows retrieval) _ (mem_ranked.mpr member), among, ranked,
        ahead_insertionSort Matched.score finds.distinct.of_map (rivals matched) member]
    rw [isTarget]
    constructor
    · intro room _
      rw [← count]
      exact room target rfl
    · rintro room target' same
      obtain rfl := Option.some.inj same
      rw [count]
      exact room isSource

/-! ## What an answer carries -/

variable {γ : Type} {sourceContext : String → Option (SourceContextEntry γ)}
  {request : ResolvedRequest} {entity : Entity}

variable (retrieval) in
/-- The keys of the cards of an answer. -/
def answerKeys (found : List Matched) (limit : ℕ) : List String :=
  keptKeys ((ranked found).map retrieval.row) limit

theorem shows_iff (finds : corpus.Finds found) :
    shows (answerOf sourceContext retrieval request found).sources entity = true ↔
      sourceContextKey entity.modelPath entity.source ∈ answerKeys retrieval found request.limit := by
  have keys : sourceContextKey entity.modelPath entity.source ∈
      (answerOf sourceContext retrieval request found).sources.map SourceCard.key ↔
        sourceContextKey entity.modelPath entity.source ∈ answerKeys retrieval found request.limit :=
    mem_keys_finishRanked finds.sourced
  rw [← keys]
  simp only [shows, List.any_eq_true, Bool.and_eq_true, decide_eq_true_eq, SourceCard.key,
    sourceContextKey_inj, List.mem_map]

/-- An answer carries the matches whose cards are kept and that have room there. -/
theorem carries_iff (finds : corpus.Finds found) (nonSource : entity.kind ≠ .source) :
    carries (answerOf sourceContext retrieval request found).sources entity = true ↔
      ∃ matched ∈ found, (matched.card = sourceContextKey entity.modelPath entity.source ∧
        matched.entity.kind = entity.kind ∧ matched.entity.name = entity.name) ∧
          matched.card ∈ answerKeys retrieval found request.limit ∧ HasRoom found matched := by
  constructor
  · intro carried
    simp only [carries, List.any_eq_true, Bool.and_eq_true, Bool.or_eq_true, decide_eq_true_eq]
      at carried
    obtain ⟨card, isCard, ⟨path, source⟩, isSource | ⟨shown, isShown, kind, name⟩⟩ := carried
    · exact absurd isSource nonSource
    have key : card.key = sourceContextKey entity.modelPath entity.source :=
      sourceContextKey_inj.mpr ⟨path, source⟩
    rw [entities_of_mem_finishRanked finds.sourced isCard] at isShown
    obtain ⟨row, inCard, rfl⟩ := List.mem_map.mp isShown
    simp only [List.mem_filter, Bool.and_eq_true, decide_eq_true_eq] at inCard
    obtain ⟨inWindow, -, isKey⟩ := inCard
    obtain ⟨matched, member, rfl⟩ := List.mem_map.mp (mem_of_mem_windowBySource inWindow).1
    have member := mem_ranked.mp member
    rw [rowKey_row, key] at isKey
    refine ⟨matched, member, ⟨isKey, ?_, ?_⟩, (row_mem_iff finds member).mp inWindow⟩
    · exact (row_kind retrieval matched).symm.trans kind
    · exact (row_name retrieval matched).symm.trans name
  · rintro ⟨matched, member, ⟨isKey, kind, name⟩, kept, room⟩
    have inWindow := (row_mem_iff finds member).mpr ⟨kept, room⟩
    have shown : shows (answerOf sourceContext retrieval request found).sources entity = true :=
      (shows_iff finds).mpr (isKey ▸ kept)
    simp only [shows, List.any_eq_true, Bool.and_eq_true, decide_eq_true_eq] at shown
    obtain ⟨card, isCard, path, source⟩ := shown
    have key : card.key = matched.card :=
      (sourceContextKey_inj.mpr ⟨path, source⟩).trans isKey.symm
    simp only [carries, List.any_eq_true, Bool.and_eq_true, Bool.or_eq_true, decide_eq_true_eq]
    refine ⟨card, isCard, ⟨path, source⟩, .inr ⟨cardEntity (searchTextsByIndex request)
      request.includeCode (retrieval.row matched), ?_, ?_, ?_⟩⟩
    · rw [entities_of_mem_finishRanked finds.sourced isCard]
      refine List.mem_map_of_mem (List.mem_filter.mpr ⟨inWindow, ?_⟩)
      simp [key, kind, nonSource]
    · exact (row_kind retrieval matched).trans kind
    · exact (row_name retrieval matched).trans name

/-- A source is carried as its card. -/
theorem carries_source (sources : List (SourceCard γ)) (isSource : entity.kind = .source) :
    carries sources entity = shows sources entity := by
  simp [carries, shows, isSource]

/-- A match is carried when its card is kept, and it has room there. -/
theorem carries_match_iff (finds : corpus.Finds found) (member : matched ∈ found) :
    carries (answerOf sourceContext retrieval request found).sources matched.entity = true ↔
      matched.card ∈ answerKeys retrieval found request.limit ∧ HasRoom found matched := by
  by_cases isSource : matched.entity.kind = .source
  · rw [carries_source _ isSource, shows_iff finds, ← Matched.card]
    exact (and_iff_left fun nonSource => absurd isSource nonSource).symm
  · rw [carries_iff finds isSource]
    constructor
    · rintro ⟨other, member', ⟨card, kind, name⟩, kept⟩
      rwa [← finds.eq member' member card kind name]
    · exact fun kept => ⟨matched, member, ⟨rfl, rfl, rfl⟩, kept⟩

/-! ## The counts -/

/-- There are as many buckets as cards. -/
theorem length_groups (retrieval : Retrieval) (found : List Matched) :
    (groupsOf rowKey ((ranked found).map retrieval.row)).length = (cardsOfMatches found).length := by
  -- keys and pairs are the same, as no label has the separator
  let keyOfPair : Label × Option Label → String := fun pair => sourceContextKey pair.1 pair.2
  have injective : Function.Injective keyOfPair := fun a b same => by
    obtain ⟨path, source⟩ := sourceContextKey_inj.mp same
    exact Prod.ext path source
  have perm : ((groupsOf rowKey ((ranked found).map retrieval.row)).map Prod.fst).Perm
      ((cardsOfMatches found).map keyOfPair) := by
    refine (List.perm_ext_iff_of_nodup (nodup_groupsOf _ _)
      ((List.nodup_dedup _).map injective)).mpr fun key => ?_
    rw [mem_keys_groupsOf]
    simp only [List.mem_map, List.mem_dedup, exists_exists_and_eq_and, rowKey_row, mem_ranked]
    rfl
  rw [← List.length_map (f := Prod.fst), perm.length_eq, List.length_map]

/-- When there are not more cards than the limit, all are kept. -/
theorem card_mem_answerKeys (few : (cardsOfMatches found).length ≤ limit) (member : matched ∈ found) :
    matched.card ∈ answerKeys retrieval found limit := by
  rw [← rowKey_row retrieval]
  exact mem_keptKeys_of_length_le (length_groups retrieval found ▸ few)
    (List.mem_map_of_mem (mem_ranked.mpr member))

/-- What is reported as dropped is what the cards lack. -/
theorem entitiesDropped_answerOf (finds : corpus.Finds found) :
    (answerOf sourceContext retrieval request found).entitiesDropped = found.countP fun matched =>
      shows (answerOf sourceContext retrieval request found).sources matched.entity &&
        !carries (answerOf sourceContext retrieval request found).sources matched.entity := by
  have perm : (ranked found).Perm found := List.perm_insertionSort _ _
  have dropped : (answerOf sourceContext retrieval request found).entitiesDropped =
      (windowBySource ((ranked found).map retrieval.row) request.limit).entitiesDropped := rfl
  rw [dropped, entitiesDropped_eq (finds.nodup_rows retrieval), List.countP_map, perm.countP_eq]
  refine List.countP_congr fun matched member => ?_
  rw [Bool.and_eq_true, Bool.not_eq_true', ← Bool.not_eq_true, carries_match_iff finds member,
    shows_iff finds, ← Matched.card]
  simp only [Function.comp_apply, rowKey_row, Bool.and_eq_true, decide_eq_true_eq,
    row_mem_iff finds member]
  rfl

/-- The entities of a card are matches, no more than the cap for each target that claims them best.
-/
theorem exists_entities_eq (finds : corpus.Finds found) {card : SourceCard γ}
    (member : card ∈ (answerOf sourceContext retrieval request found).sources) :
    ∃ shown : List Matched, (∀ matched ∈ shown, matched ∈ found) ∧
      card.entities = shown.map (fun matched => cardEntity (searchTextsByIndex request)
        request.includeCode (retrieval.row matched)) ∧
      ∀ target, shown.countP (fun matched => bestTargetOf matched.targetScores = target) ≤
        maxEntitiesPerSourceTarget := by
  set window := (windowBySource ((ranked found).map retrieval.row) request.limit).rows with isWindow
  -- the rows of a window are those of matches
  have ofRows : ∀ rows : List ResultEntity, (∀ row ∈ rows, row ∈ window) →
      ∃ shown : List Matched, (∀ matched ∈ shown, matched ∈ found) ∧
        shown.map retrieval.row = rows := by
    intro rows among
    induction rows with
    | nil => exact ⟨[], fun _ member => absurd member List.not_mem_nil, rfl⟩
    | cons row rows ih =>
      obtain ⟨shown, isFound, isRows⟩ :=
        ih fun other member => among other (List.mem_cons_of_mem _ member)
      obtain ⟨matched, inRanked, isRow⟩ := List.mem_map.mp
        (mem_of_mem_windowBySource (among row List.mem_cons_self)).1
      exact ⟨matched :: shown, List.forall_mem_cons.mpr ⟨mem_ranked.mp inRanked, isFound⟩,
        by rw [List.map_cons, isRow, isRows]⟩
  have entities := entities_of_mem_finishRanked finds.sourced member
  obtain ⟨shown, isFound, isRows⟩ := ofRows (window.filter fun row =>
    decide (row.kind ≠ .source) && decide (rowKey row = card.key))
      fun row member => (List.mem_filter.mp member).1
  refine ⟨shown, isFound, ?_, fun target => ?_⟩
  · rw [entities, ← isWindow, ← isRows, List.map_map]
    rfl
  · have room := countP_windowBySource_le ((ranked found).map retrieval.row) request.limit card.key
      (target.elim (-1) Int.ofNat)
    have rows : (shown.map retrieval.row).countP (fun row => row.bestTarget = target) ≤
        maxEntitiesPerSourceTarget := by
      rw [isRows, List.countP_filter]
      refine le_trans (List.countP_mono_left fun row _ counted => ?_) room
      simp only [Bool.and_eq_true, decide_eq_true_eq] at counted
      simp [counted.1, counted.2, budgetOf]
    rw [List.countP_map] at rows
    refine le_trans (List.countP_mono_left fun matched _ counted => ?_) rows
    simpa using counted

end Room

end MalloyPublisher.Context
