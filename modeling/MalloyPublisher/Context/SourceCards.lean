import MalloyPublisher.Context.Entities
import Mathlib.Data.List.Induction
import Mathlib.Data.List.Sort
import Mathlib.Data.Rat.Floor

/-!
# Source cards

A response is made of cards. A card is a source at one of its model paths, and carries the entities
that were found on it. Cards come in the order in which their sources come first.

Scores are rational here. What governs a source (its givens, gates and filters) is passed through.

## Main definitions

* `ResultEntity` — an entity on its way into the response
* `toSourceResults` — the cards of a list of them

## Main results

* `keys_toSourceResults` — the cards are those of the list's sources, each once
* `toSourceResults_append` — cards of lists without a source in common
-/

namespace MalloyPublisher.Context

structure ResultEntity where
  kind : EntityKind
  name : Label
  source : Option Label
  modelPath : Label
  doc : String
  relationship : Option Relationship
  aliases : List Label
  code : Option String
  score : Option ℚ
  dataType : Option String
  joinPath : Option Label
  /-- The scores of the targets that matched, in the order in which they were set. -/
  targetScores : List (ℕ × ℚ)
  bestTarget : Option ℕ
  deriving DecidableEq

/-- What every path carries from an entity into a result. -/
def projectEntity (entity : Entity) : ResultEntity where
  kind := entity.kind
  name := entity.name
  source := entity.source
  modelPath := entity.modelPath
  doc := entity.doc
  relationship := entity.relationship
  aliases := entity.aliases
  code := entity.code
  score := none
  dataType := entity.dataType
  joinPath := entity.joinPath
  targetScores := []
  bestTarget := none

structure SourceContextJoin where
  name : Label
  relationship : Relationship
  doc : Option String

/-- What a card says of its source. -/
structure SourceContextEntry (γ : Type) where
  doc : String
  joins : List SourceContextJoin
  oneLineSummary : Option String
  governance : γ

structure SourceCardInfo (γ : Type) where
  modelPath : Label
  source : Label
  oneLineSummary : Option String
  docs : Option String
  governance : Option γ
  joins : List SourceContextJoin

structure SourceCardEntity where
  name : Label
  entityType : EntityKind
  entityId : String
  relevance : Option ℚ
  description : Option String
  dataType : Option String
  relationship : Option Relationship
  joinPath : Option Label
  code : Option String
  matchedTargets : List (String × ℚ)
  aliases : List Label

structure SourceCard (γ : Type) where
  info : SourceCardInfo γ
  relevance : Option ℚ
  entities : List SourceCardEntity

/-- Percent-encode what would break an id apart. -/
def encodeIdSegment (segment : String) : String :=
  String.ofList (segment.toList.flatMap fun c =>
    if c = '%' then "%25".toList else if c = ':' then "%3A".toList else [c])

/-- The stable identity of an entity. A container is its own source. -/
def entityId (kind : EntityKind) (source : Option Label) (name : Label) : String :=
  encodeIdSegment kind.text ++ ":" ++ encodeIdSegment (source.getD name).text ++ ":" ++
    encodeIdSegment name.text

/-- `Math.round` to four places. -/
def roundScore (score : ℚ) : ℚ := ⌊score * 10000 + 1 / 2⌋ / 10000

/-- The targets that matched, in the order of the request. -/
def matchedTargetsFor (row : ResultEntity) (searchTexts : ℕ → Option String) :
    List (String × ℚ) :=
  (row.targetScores.insertionSort fun a b => a.1 ≤ b.1).filterMap fun (index, relevance) =>
    (searchTexts index).map fun text => (text, roundScore relevance)

section Cards

variable {γ : Type} (sourceContext : String → Option (SourceContextEntry γ))
  (searchTexts : ℕ → Option String) (includeCode : Bool)

/-- A text that is not empty. -/
def nonemptyText (text : String) : Option String := if text = "" then none else some text

/-- The card of a source without anything found on it. -/
def freshCard (modelPath source : Label) : SourceCard γ :=
  let context := sourceContext (sourceContextKey modelPath (some source))
  { info := {
      modelPath := modelPath
      source := source
      oneLineSummary := context.bind (·.oneLineSummary)
      docs := context.bind fun entry => nonemptyText entry.doc
      governance := context.map (·.governance)
      joins := context.elim [] (·.joins) }
    relevance := none
    entities := [] }

def cardEntity (row : ResultEntity) : SourceCardEntity where
  name := row.name
  entityType := row.kind
  entityId := entityId row.kind row.source row.name
  relevance := row.score
  description := nonemptyText row.doc
  dataType := row.dataType
  relationship := row.relationship
  joinPath := row.joinPath
  code := if includeCode then row.code else none
  matchedTargets := matchedTargetsFor row searchTexts
  aliases := row.aliases

/-- A source matches as its card, and anything else as an entity on it. -/
def addToCard (card : SourceCard γ) (row : ResultEntity) : SourceCard γ :=
  if row.kind = .source then
    { card with
      relevance := row.score.or card.relevance
      info := { card.info with docs := (nonemptyText row.doc).or card.info.docs } }
  else
    { card with
      entities := card.entities ++ [cardEntity searchTexts includeCode row]
      -- A card is as relevant as the best of its entities.
      relevance := match row.score, card.relevance with
        | some score, some relevance => if score > relevance then some score else some relevance
        | some score, none => some score
        | none, relevance => relevance }

/-- Put a row on its card, which is a new one when there is none. -/
def addRow (cards : List (String × SourceCard γ)) (row : ResultEntity) :
    List (String × SourceCard γ) :=
  match row.source with
  | none => cards
  | some source =>
    let key := sourceContextKey row.modelPath (some source)
    let cards := if key ∈ cards.map Prod.fst then cards
      else cards ++ [(key, freshCard sourceContext row.modelPath source)]
    cards.map fun entry =>
      if entry.1 = key then (key, addToCard searchTexts includeCode entry.2 row) else entry

/-- The cards by their keys. -/
def cardsByKey (rows : List ResultEntity) : List (String × SourceCard γ) :=
  rows.foldl (addRow sourceContext searchTexts includeCode) []

/-- Group rows into the cards of their sources. -/
def toSourceResults (rows : List ResultEntity) : List (SourceCard γ) :=
  (cardsByKey sourceContext searchTexts includeCode rows).map Prod.snd

/-! ## Which cards there are -/

variable {sourceContext searchTexts includeCode} {cards other : List (String × SourceCard γ)}
  {rows later : List ResultEntity} {row : ResultEntity} {source : Label}

/-- The key of the card that a row belongs on. -/
def rowKey (row : ResultEntity) : String := sourceContextKey row.modelPath row.source

theorem keys_addRow (isSource : row.source = some source) :
    (addRow sourceContext searchTexts includeCode cards row).map Prod.fst =
      if rowKey row ∈ cards.map Prod.fst then cards.map Prod.fst
      else cards.map Prod.fst ++ [rowKey row] := by
  have keys : ∀ cards : List (String × SourceCard γ), (cards.map fun entry =>
      if entry.1 = rowKey row then (rowKey row, addToCard searchTexts includeCode entry.2 row)
      else entry).map Prod.fst = cards.map Prod.fst := by
    intro cards
    rw [List.map_map]
    refine List.map_congr_left fun entry _ => ?_
    rw [Function.comp_apply]
    split_ifs with same
    · exact same.symm
    · rfl
  have isKey : sourceContextKey row.modelPath (some source) = rowKey row := by
    rw [rowKey, isSource]
  simp only [addRow, isSource, isKey, keys]
  split_ifs with old
  · rfl
  · rw [List.map_append]
    rfl

theorem addRow_of_none (none : row.source = none) :
    addRow sourceContext searchTexts includeCode cards row = cards := by
  simp only [addRow, none]

theorem cardsByKey_append (rows : List ResultEntity) (row : ResultEntity) :
    cardsByKey sourceContext searchTexts includeCode (rows ++ [row]) =
      addRow sourceContext searchTexts includeCode
        (cardsByKey sourceContext searchTexts includeCode rows) row := by
  rw [cardsByKey, List.foldl_append]
  rfl

/-- The cards are those of the rows. -/
theorem mem_keys {key : String} :
    key ∈ (cardsByKey sourceContext searchTexts includeCode rows).map Prod.fst ↔
      ∃ row ∈ rows, row.source.isSome ∧ rowKey row = key := by
  induction rows using List.reverseRecOn with
  | nil => simp [cardsByKey]
  | append_singleton rows row ih =>
    have members : (∃ other ∈ rows ++ [row], other.source.isSome ∧ rowKey other = key) ↔
        (∃ other ∈ rows, other.source.isSome ∧ rowKey other = key) ∨
          row.source.isSome ∧ rowKey row = key := by simp [or_and_right, exists_or]
    rw [cardsByKey_append, members, ← ih]
    cases isSource : row.source with
    | none =>
      rw [addRow_of_none isSource]
      simp
    | some source =>
      rw [keys_addRow isSource]
      split_ifs with old
      · refine ⟨.inl, fun either => either.elim id fun both => ?_⟩
        rw [← both.2]
        exact old
      · rw [List.mem_append, List.mem_singleton, eq_comm]
        simp

/-- Rows of different sources have a card each. -/
theorem keys_of_nodup (distinct : (rows.map rowKey).Nodup)
    (sourced : ∀ row ∈ rows, row.source.isSome) :
    (cardsByKey sourceContext searchTexts includeCode rows).map Prod.fst = rows.map rowKey := by
  induction rows using List.reverseRecOn with
  | nil => rfl
  | append_singleton rows row ih =>
    rw [List.map_append, List.nodup_append] at distinct
    have same := ih distinct.1 fun other member => sourced other (List.mem_append_left _ member)
    obtain ⟨source, isSource⟩ := Option.isSome_iff_exists.mp
      (sourced row (List.mem_append_right _ List.mem_cons_self))
    have new : rowKey row ∉ rows.map rowKey := fun old =>
      distinct.2.2 _ old _ List.mem_cons_self rfl
    rw [cardsByKey_append, keys_addRow isSource, same, if_neg new, List.map_append]
    rfl

/-- A row is put on a card behind those of other sources. -/
theorem addRow_append (apart : rowKey row ∉ cards.map Prod.fst) :
    addRow sourceContext searchTexts includeCode (cards ++ other) row =
      cards ++ addRow sourceContext searchTexts includeCode other row := by
  cases isSource : row.source with
  | none => rw [addRow_of_none isSource, addRow_of_none isSource]
  | some source =>
    have isKey : sourceContextKey row.modelPath (some source) = rowKey row := by
      rw [rowKey, isSource]
    have unchanged : (cards.map fun entry =>
        if entry.1 = rowKey row then (rowKey row, addToCard searchTexts includeCode entry.2 row)
        else entry) = cards := by
      conv_rhs => rw [← List.map_id cards]
      refine List.map_congr_left fun entry member => if_neg fun same => apart ?_
      rw [← same]
      exact List.mem_map_of_mem member
    have members : rowKey row ∈ (cards ++ other).map Prod.fst ↔
        rowKey row ∈ other.map Prod.fst := by
      rw [List.map_append, List.mem_append]
      exact or_iff_right apart
    simp only [addRow, isSource, isKey, members]
    split_ifs with old
    · rw [List.map_append, unchanged]
    · rw [List.append_assoc, List.map_append, unchanged]

theorem cardsByKey_append_of_apart (apart : ∀ row ∈ later, rowKey row ∉ rows.map rowKey) :
    cardsByKey sourceContext searchTexts includeCode (rows ++ later) =
      cardsByKey sourceContext searchTexts includeCode rows ++
        cardsByKey sourceContext searchTexts includeCode later := by
  induction later using List.reverseRecOn with
  | nil => rw [List.append_nil, cardsByKey, cardsByKey, List.foldl_nil, List.append_nil]
  | append_singleton later row ih =>
    rw [← List.append_assoc, cardsByKey_append,
      ih fun other member => apart other (List.mem_append_left _ member), cardsByKey_append,
      addRow_append]
    intro old
    obtain ⟨other, member, -, same⟩ := mem_keys.mp old
    exact apart row (List.mem_append_right _ List.mem_cons_self)
      (List.mem_map.mpr ⟨other, member, same⟩)

/-- Cards of lists without a source in common. -/
theorem toSourceResults_append (apart : ∀ row ∈ later, rowKey row ∉ rows.map rowKey) :
    toSourceResults sourceContext searchTexts includeCode (rows ++ later) =
      toSourceResults sourceContext searchTexts includeCode rows ++
        toSourceResults sourceContext searchTexts includeCode later := by
  rw [toSourceResults, cardsByKey_append_of_apart apart, List.map_append]
  rfl

/-- The key of a card is that of what it is of. -/
def SourceCard.key (card : SourceCard γ) : String :=
  sourceContextKey card.info.modelPath (some card.info.source)

theorem key_addToCard (card : SourceCard γ) (row : ResultEntity) :
    (addToCard searchTexts includeCode card row).key = card.key := by
  unfold addToCard
  split_ifs <;> rfl

theorem key_of_mem {entry : String × SourceCard γ}
    (member : entry ∈ cardsByKey sourceContext searchTexts includeCode rows) :
    entry.2.key = entry.1 := by
  induction rows using List.reverseRecOn generalizing entry with
  | nil => cases member
  | append_singleton rows row ih =>
    rw [cardsByKey_append] at member
    cases isSource : row.source with
    | none =>
      rw [addRow_of_none isSource] at member
      exact ih member
    | some source =>
      simp only [addRow, isSource] at member
      obtain ⟨before, isBefore, rfl⟩ := List.mem_map.mp member
      have keyed : before.2.key = before.1 := by
        split_ifs at isBefore with old
        · exact ih isBefore
        · obtain isBefore | isBefore := List.mem_append.mp isBefore
          · exact ih isBefore
          · rw [List.mem_singleton.mp isBefore]
            rfl
      split_ifs with same
      · rw [key_addToCard, keyed, same]
      · exact keyed

/-- The cards of a response are those of the rows, each once. -/
theorem keys_toSourceResults (rows : List ResultEntity) :
    (toSourceResults sourceContext searchTexts includeCode rows).map SourceCard.key =
      (cardsByKey sourceContext searchTexts includeCode rows).map Prod.fst := by
  rw [toSourceResults, List.map_map]
  exact List.map_congr_left fun entry member => key_of_mem member

/-- What a row adds to the entities of a card. -/
theorem entities_addToCard (card : SourceCard γ) (row : ResultEntity) :
    (addToCard searchTexts includeCode card row).entities = card.entities ++
      if row.kind = .source then [] else [cardEntity searchTexts includeCode row] := by
  unfold addToCard
  split_ifs
  · rw [List.append_nil]
  · rfl

/-- The entities of a card are the rows of its key, without the source's own. -/
theorem entities_of_mem (sourced : ∀ row ∈ rows, row.source.isSome) {entry : String × SourceCard γ}
    (member : entry ∈ cardsByKey sourceContext searchTexts includeCode rows) :
    entry.2.entities = (rows.filter fun row => decide (row.kind ≠ .source) &&
      decide (rowKey row = entry.1)).map (cardEntity searchTexts includeCode) := by
  induction rows using List.reverseRecOn generalizing entry with
  | nil => cases member
  | append_singleton rows row ih =>
    have sourced' : ∀ row ∈ rows, row.source.isSome := fun other inRows =>
      sourced other (List.mem_append_left _ inRows)
    obtain ⟨source, isSource⟩ := Option.isSome_iff_exists.mp
      (sourced row (List.mem_append_right _ List.mem_cons_self))
    have isKey : sourceContextKey row.modelPath (some source) = rowKey row := by
      rw [rowKey, isSource]
    rw [cardsByKey_append] at member
    simp only [addRow, isSource, isKey] at member
    obtain ⟨before, isBefore, rfl⟩ := List.mem_map.mp member
    have entities : before.2.entities = (rows.filter fun row => decide (row.kind ≠ .source) &&
        decide (rowKey row = before.1)).map (cardEntity searchTexts includeCode) := by
      split_ifs at isBefore with old
      · exact ih sourced' isBefore
      · obtain isBefore | isBefore := List.mem_append.mp isBefore
        · exact ih sourced' isBefore
        · -- a card that is new has nothing on it, and no row was on it
          rw [List.mem_singleton.mp isBefore, List.filter_eq_nil_iff.mpr]
          · rfl
          · intro other inRows onCard
            refine old (mem_keys.mpr ⟨other, inRows, sourced' other inRows, ?_⟩)
            simp only [Bool.and_eq_true, decide_eq_true_eq] at onCard
            exact onCard.2
    rw [List.filter_append, List.map_append]
    by_cases same : before.1 = rowKey row
    · rw [if_pos same]
      dsimp only
      rw [entities_addToCard, entities, same]
      congr 1
      by_cases isSource : row.kind = .source <;> simp [isSource]
    · rw [if_neg same, entities, List.filter_cons_of_neg (by simp [Ne.symm same]), List.filter_nil,
        List.map_nil, List.append_nil]

end Cards

end MalloyPublisher.Context
