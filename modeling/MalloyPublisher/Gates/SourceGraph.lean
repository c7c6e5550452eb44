import MalloyPublisher.Foundations.Text

/-!
# The compiled source graph a gate is read from

A compiled struct carries its own annotation notes, the chain of notes it inherits, ids
into the model's source registry and, when it is derived by a query, its base and the
composite member that base was resolved to. The gate walks read all of these. They tell
structs apart by identity, and notes too: the compiler copies a base's note objects
onto what is derived from it.

## Main definitions

* `StructDef`, `ModelDef` — the graph, over an arbitrary type of struct identities
* `collectAuthorizeExprs` — the disjunction a list of notes declares
* `resolveDeclaredSource`, `resolveQuerySourceBase`, `resolveCompositeResolvedBase` —
  the three links a walk may follow
-/

namespace MalloyPublisher.Gates

open Foundations

/-- An annotation note. Two notes are the same object when their ids agree. -/
structure AnnotationNote where
  id : ℕ
  text : String
  deriving DecidableEq, Repr

/-- One node of an annotation chain: the notes of the statement form and of the block form. -/
structure AnnotationLevel where
  blockNotes : List AnnotationNote
  notes : List AnnotationNote
  deriving DecidableEq, Repr

/-- An annotation chain: a struct's own level, then the levels it inherits, nearest
first. A struct without annotations has the empty chain. -/
abbrev AnnotationsDef := List AnnotationLevel

/-- What tells a `query_source` from the other sources, and those from the rest. -/
inductive StructType
  | querySource
  | source
  | other
  deriving DecidableEq, Repr

/-- A query's base: a name into the contents, or a struct inlined by reference. -/
inductive StructRef (S : Type*)
  | absent
  | name (key : String)
  | inline (struct : S)
  deriving DecidableEq, Repr

/-- A compiled struct, as far as the walks read it. -/
structure StructDef (S : Type*) where
  type : StructType
  name : String
  as? : Option String := none
  referenceID : Option String := none
  sourceID : Option String := none
  annotations : AnnotationsDef := []
  structRef : StructRef S := .absent
  compositeResolvedSourceDef : Option S := none
  /-- The fields' annotations; absent where the fields cannot be read. -/
  fields : Option (List AnnotationsDef) := some []

/-- An entry of the source registry: a name into the contents, or the definition itself. -/
inductive RegistryEntry (S : Type*)
  | reference (name : String)
  | definition (struct : S)
  deriving DecidableEq, Repr

/-- A compiled model over the struct identities `S`. -/
structure ModelDef (S : Type*) where
  struct : S → StructDef S
  contents : List (String × S)
  sourceRegistry : List (String × RegistryEntry S)

/-- How the compiler routes a note to an application and what payload it hands over. -/
structure NoteRouting where
  routeOf : String → Option String
  payloadOf : String → Option String

/-! ## Notes -/

/-- Both note keys of one level. -/
def ownLevelNotes : AnnotationsDef → List AnnotationNote
  | [] => []
  | level :: _ => level.blockNotes ++ level.notes

/-- The texts of one level's notes. -/
def ownLevelNoteTexts (annote : AnnotationsDef) : List String :=
  (ownLevelNotes annote).map AnnotationNote.text

/-- Every text of a chain, all levels. -/
def annotationTexts (annote : AnnotationsDef) : List String :=
  annote.flatMap fun level => (level.blockNotes ++ level.notes).map AnnotationNote.text

/-- What an annotation chain inherits. -/
def inherits (annote : AnnotationsDef) : AnnotationsDef := annote.tail

section Notes

variable (routing : NoteRouting)

/-- The compiler's route of one note. -/
def noteRoute (text : String) : Option String := routing.routeOf (trimStart text)

/-- The compiler's payload of one note. -/
def notePayload (text : String) : String := (routing.payloadOf (trimStart text)).getD ""

/-- The route of a gate. -/
def AUTHORIZE_ROUTE : String := "authorize"

/-- The payload of a gate note; nothing for any other note. -/
def authorizeNoteContent (text : String) : Option String :=
  if noteRoute routing text = some AUTHORIZE_ROUTE then some (notePayload routing text) else none

/-- Whether some text is a gate note. -/
def containsAuthorizeAnnotationTag (texts : List String) : Bool :=
  texts.any fun text => (authorizeNoteContent routing text).isSome

/-- The expression of a gate note. An empty one is refused. -/
def parseAuthorizeAnnotation ( annotation : String) : Except String (Option String) :=
  match authorizeNoteContent routing annotation with
  | none => .ok none
  | some content =>
    let trimmed := trim content.toList
    if trimmed.isEmpty then .error "authorize annotation has an empty expression body"
    else .ok (some (String.ofList trimmed))

/-- The expressions of a list of notes, in order: one source's disjunction. -/
def collectAuthorizeExprs : List String → Except String (List String)
  | [] => .ok []
  | annotation :: annotations =>
    match parseAuthorizeAnnotation routing annotation with
    | .error reason => .error reason
    | .ok none => collectAuthorizeExprs annotations
    | .ok (some expr) => (collectAuthorizeExprs annotations).map (expr :: ·)

theorem parseAuthorizeAnnotation_eq_none_iff ( annotation : String) :
    parseAuthorizeAnnotation routing annotation = .ok none ↔
      authorizeNoteContent routing annotation = none := by
  unfold parseAuthorizeAnnotation
  cases authorizeNoteContent routing annotation with
  | none => simp
  | some content =>
    simp only [reduceCtorEq, iff_false]
    split_ifs <;> simp

/-- A list of notes declares no disjunction exactly when none of them is a gate note. -/
theorem collectAuthorizeExprs_eq_nil_iff (annotations : List String) :
    collectAuthorizeExprs routing annotations = .ok [] ↔
      containsAuthorizeAnnotationTag routing annotations = false := by
  induction annotations with
  | nil => simp [collectAuthorizeExprs, containsAuthorizeAnnotationTag]
  | cons annotation annotations ih =>
    have head := parseAuthorizeAnnotation_eq_none_iff routing annotation
    simp only [containsAuthorizeAnnotationTag, List.any_cons, Bool.or_eq_false_iff,
      Option.isSome_eq_false_iff, Option.isNone_iff_eq_none, ← head] at ih ⊢
    rw [collectAuthorizeExprs]
    cases parseAuthorizeAnnotation routing annotation with
    | error reason => simp
    | ok found =>
      cases found with
      | none => simp [ih]
      | some expr => cases collectAuthorizeExprs routing annotations <;> simp [Except.map]

/-- Notes that all parse make a disjunction. -/
theorem exists_collectAuthorizeExprs {annotations : List String}
    (parses : ∀ annotation ∈ annotations,
      ∃ expr, parseAuthorizeAnnotation routing annotation = .ok expr) :
    ∃ exprs, collectAuthorizeExprs routing annotations = .ok exprs := by
  induction annotations with
  | nil => exact ⟨[], rfl⟩
  | cons annotation annotations ih =>
    obtain ⟨expr, parsed⟩ := parses annotation List.mem_cons_self
    obtain ⟨exprs, collected⟩ := ih fun other member => parses other (List.mem_cons_of_mem _ member)
    rw [collectAuthorizeExprs, parsed]
    cases expr with
    | none => exact ⟨exprs, collected⟩
    | some expr => exact ⟨expr :: exprs, by rw [collected]; rfl⟩

end Notes

/-! ## Links -/

/-- What the registry says a struct was created from. -/
inductive Declared (S : Type*)
  | resolved (source : S)
  | none
  | unresolvable
  deriving DecidableEq, Repr

section Links

variable {S : Type*} (modelDef : ModelDef S)

/-- The compiler's `isSourceDef`. -/
def isSourceDef (struct : S) : Bool := (modelDef.struct struct).type ≠ .other

/-- The struct under a name of the contents. -/
def lookupContents (key : String) : Option S := modelDef.contents.lookup key

/-- The registry's entry for an id. An absent or empty id has none. -/
def registryEntry (id : Option String) : Option (RegistryEntry S) :=
  id.bind fun id => if id = "" then none else modelDef.sourceRegistry.lookup id

/-- The struct an entry stands for, if it is in the contents. -/
def RegistryEntry.declared : RegistryEntry S → Option S
  | .reference name => lookupContents modelDef name
  | .definition struct => some struct

/-- The loop over a struct's two ids. -/
def followIds [DecidableEq S] (struct : S) : List (Option String) → Bool → Declared S
  | [], sawBrokenEntry => if sawBrokenEntry then .unresolvable else .none
  | id :: ids, sawBrokenEntry =>
    match registryEntry modelDef id with
    | none => followIds struct ids sawBrokenEntry
    | some entry =>
      match entry.declared modelDef with
      | none => followIds struct ids true
      | some declared =>
        -- Its own declaration: nothing to inherit from, and not a failure.
        if declared = struct then followIds struct ids sawBrokenEntry
        else if isSourceDef modelDef declared then .resolved declared
        else followIds struct ids true

/-- The declared source a struct was created from. -/
def resolveDeclaredSource [DecidableEq S] (struct : S) : Declared S :=
  followIds modelDef struct
    [(modelDef.struct struct).referenceID, (modelDef.struct struct).sourceID] false

/-- The source a `query_source` derives from. -/
def resolveQuerySourceBase (struct : S) : Option S :=
  if (modelDef.struct struct).type = .querySource then
    let base := match (modelDef.struct struct).structRef with
      | .absent => none
      | .name key => lookupContents modelDef key
      | .inline struct => some struct
    base.filter (isSourceDef modelDef ·)
  else none

/-- The composite member a `query_source`'s base was resolved to. -/
def resolveCompositeResolvedBase (struct : S) : Option S :=
  if (modelDef.struct struct).type = .querySource then
    (modelDef.struct struct).compositeResolvedSourceDef
  else none

/-- A struct's own notes. -/
def ownNotes (struct : S) : List AnnotationNote := ownLevelNotes (modelDef.struct struct).annotations

end Links

end MalloyPublisher.Gates
