import MalloyPublisher.Foundations.Text

/-!
# The entities of a package

What retrieval can find is an entity: a source, or something that a source offers. An entity is
identified by its kind, source and name, and its card by the model path beside them. Keys join the
parts with a control character, which no name and no path has.

## Main definitions

* `Label` — a name or a path
* `Entity` — what retrieval can find
* `entityCardKey`, `sourceContextKey` — the keys of an entity's card and of a source's

## Main results

* `entityCardKey_inj` — a card's key tells what it is of
-/

namespace MalloyPublisher.Context

/-- `KEY_SEPARATOR`. -/
def keySeparator : Char := Char.ofNat 0

/-- A name or a path: not empty, and without the control character. -/
structure Label where
  text : String
  nonempty : text ≠ ""
  plain : keySeparator ∉ text.toList
  deriving DecidableEq

inductive EntityKind
  | source
  | view
  | query
  | dimension
  | measure
  | join
  deriving DecidableEq, Repr

/-- The name of a kind. -/
def EntityKind.text : EntityKind → String
  | source => "source"
  | view => "view"
  | query => "query"
  | dimension => "dimension"
  | measure => "measure"
  | join => "join"

inductive Relationship
  | one
  | many
  | cross
  deriving DecidableEq, Repr

/-- A retrievable entity. -/
structure Entity where
  kind : EntityKind
  name : Label
  source : Option Label
  modelPath : Label
  /-- The text of its `#(doc)`, or of its annotations. -/
  doc : String
  /-- The text of its `#(doc)` alone. -/
  embedDoc : String
  relationship : Option Relationship
  /-- The spellings that were folded into it. -/
  aliases : List Label
  code : Option String
  /-- The sibling whose reference is its whole definition. -/
  aliasOf : Option Label
  dataType : Option String
  joinPath : Option Label
  deriving DecidableEq

/-- Parts joined into a key. -/
def keyOf (parts : List String) : String :=
  String.ofList ([keySeparator].intercalate (parts.map String.toList))

/-- A source as a part of a key. -/
def sourceText (source : Option Label) : String := source.elim "" Label.text

def entityCardKey (entity : Entity) : String :=
  keyOf [entity.modelPath.text, entity.kind.text, sourceText entity.source, entity.name.text]

def sourceContextKey (modelPath : Label) (source : Option Label) : String :=
  keyOf [modelPath.text, sourceText source]

/-! ## What a key is of -/

theorem Label.text_injective : Function.Injective Label.text := by
  rintro ⟨a, _, _⟩ ⟨b, _, _⟩ same
  cases same
  rfl

theorem EntityKind.text_injective : Function.Injective EntityKind.text := by
  intro a b same
  cases a <;> cases b <;> first | rfl | exact absurd same (by decide)

theorem sourceText_injective : Function.Injective sourceText := by
  rintro (_ | a) (_ | b) same
  · rfl
  · exact absurd same.symm b.nonempty
  · exact absurd same a.nonempty
  · exact congrArg some (Label.text_injective same)

/-- Plain parts can be read back from their key. -/
theorem keyOf_inj {parts others : List String} (nonempty : parts ≠ []) (nonempty' : others ≠ [])
    (plain : ∀ part ∈ parts, keySeparator ∉ part.toList)
    (plain' : ∀ part ∈ others, keySeparator ∉ part.toList) (same : keyOf parts = keyOf others) :
    parts = others := by
  have split : ∀ parts : List String, parts ≠ [] → (∀ part ∈ parts, keySeparator ∉ part.toList) →
      ([keySeparator].intercalate (parts.map String.toList)).splitOn keySeparator =
        parts.map String.toList := by
    intro parts nonempty plain
    refine List.splitOn_intercalate keySeparator (fun chars member => ?_) (by simpa using nonempty)
    obtain ⟨part, isPart, rfl⟩ := List.mem_map.mp member
    exact plain part isPart
  have chars := congrArg (List.splitOn keySeparator) (String.ofList_injective same)
  rw [split parts nonempty plain, split others nonempty' plain'] at chars
  exact List.map_injective_iff.mpr (fun _ _ => String.toList_inj.mp) chars

theorem plain_sourceText (source : Option Label) : keySeparator ∉ (sourceText source).toList := by
  cases source with
  | none => exact List.not_mem_nil
  | some label => exact label.plain

theorem EntityKind.plain (kind : EntityKind) : keySeparator ∉ kind.text.toList := by
  cases kind <;> decide +kernel

/-- A card's key tells what it is of. -/
theorem entityCardKey_inj {entity other : Entity} : entityCardKey entity = entityCardKey other ↔
    entity.modelPath = other.modelPath ∧ entity.kind = other.kind ∧
      entity.source = other.source ∧ entity.name = other.name := by
  constructor
  · intro same
    have plain : ∀ entity : Entity, ∀ part ∈ [entity.modelPath.text, entity.kind.text,
        sourceText entity.source, entity.name.text], keySeparator ∉ part.toList := by
      intro entity part member
      simp only [List.mem_cons, List.not_mem_nil, or_false] at member
      obtain rfl | rfl | rfl | rfl := member
      · exact entity.modelPath.plain
      · exact entity.kind.plain
      · exact plain_sourceText _
      · exact entity.name.plain
    have parts := keyOf_inj (List.cons_ne_nil _ _) (List.cons_ne_nil _ _) (plain entity)
      (plain other) same
    simp only [List.cons.injEq, and_true] at parts
    exact ⟨Label.text_injective parts.1, EntityKind.text_injective parts.2.1,
      sourceText_injective parts.2.2.1, Label.text_injective parts.2.2.2⟩
  · rintro ⟨path, kind, source, name⟩
    rw [entityCardKey, path, kind, source, name, entityCardKey]

theorem sourceContextKey_inj {path path' : Label} {source source' : Option Label} :
    sourceContextKey path source = sourceContextKey path' source' ↔
      path = path' ∧ source = source' := by
  constructor
  · intro same
    have plain : ∀ (path : Label) (source : Option Label),
        ∀ part ∈ [path.text, sourceText source], keySeparator ∉ part.toList := by
      intro path source part member
      simp only [List.mem_cons, List.not_mem_nil, or_false] at member
      obtain rfl | rfl := member
      · exact path.plain
      · exact plain_sourceText _
    have parts := keyOf_inj (List.cons_ne_nil _ _) (List.cons_ne_nil _ _) (plain path source)
      (plain path' source') same
    simp only [List.cons.injEq, and_true] at parts
    exact ⟨Label.text_injective parts.1, sourceText_injective parts.2⟩
  · rintro ⟨rfl, rfl⟩
    rfl

end MalloyPublisher.Context
