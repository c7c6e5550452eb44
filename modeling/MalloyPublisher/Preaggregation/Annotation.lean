import MalloyPublisher.Foundations.KeyedRecord
import MalloyPublisher.Foundations.Text
import MalloyPublisher.Preaggregation.Classifier
import Mathlib.Data.List.Sort

/-!
# Reading `#@ preaggregate` off a field

Each `#@ preaggregate` line on a measure names a grain, which becomes a rollup, and may name
where its table is created. The lines are read in source order; a line that negates clears what
stands above it. What is read is one entry for each grain, and a later line at a grain takes the
place of an earlier one.

## Main definitions

* `Note`, `AnnotationsDef` — the annotations of a field
* `readPreaggregateLine` — one line
* `readPreaggregateAnnotation` — a field

## Main results

* `declared_iff`, `errors_eq_nil_iff`, `mem_grains` — what is read, from the lines in force
-/

namespace MalloyPublisher.Preaggregation

open Foundations

/-! ## Annotations -/

/-- What the compiler's tag parser makes of a note. -/
structure ReadTag where
  has : String → Bool
  text : List String → Option String

/-- A note, and its `#@` tag, unless parsing it throws. -/
structure Note where
  text : String
  tag : Option ReadTag

/-- The annotations of a compiled field. -/
inductive AnnotationsDef
  | mk (blockNotes notes : List Note) (inherited : Option AnnotationsDef)

/-- The notes of one level. -/
def AnnotationsDef.collect : AnnotationsDef → List Note
  | .mk blockNotes notes _ => blockNotes ++ notes

def AnnotationsDef.inherited : AnnotationsDef → Option AnnotationsDef
  | .mk _ _ inherited => inherited

/-- A field's notes in source order. Of what it inherits one level is read. -/
def orderedNotes (annotations : Option AnnotationsDef) : List Note :=
  let inherited := annotations.bind AnnotationsDef.inherited
  (((inherited.map AnnotationsDef.collect).getD []) ++
    ((annotations.map AnnotationsDef.collect).getD [])).filter fun note => note.text ≠ ""

/-- A character of `\w`. -/
def isWordChar (c : Char) : Bool := c.isAlphanum || c = '_'

/-- `#@\s*-\s*preaggregate\b` at the start of a text. -/
def negatesHere (chars : List Char) : Bool :=
  match chars with
  | '#' :: '@' :: rest =>
    match rest.dropWhile isSpace with
    | '-' :: rest =>
      let word := "preaggregate".toList
      let rest := rest.dropWhile isSpace
      word.isPrefixOf rest && !(rest.drop word.length).head?.any isWordChar
    | _ => false
  | _ => false

/-- The pattern that turns the annotation off, anywhere in a note. -/
def NEGATION (text : String) : Bool := text.toList.tails.any negatesHere

/-! ## One line -/

/-- One grain a measure is declared at. -/
structure PreaggregateGrain where
  dimensions : List String
  text : String
  persistNamespace : Option String
  storage : Option String
deriving DecidableEq

inductive DeclarationErrorKind
  | missing_grain | empty_grain | invalid_namespace | empty_storage | invalid_storage
deriving DecidableEq

structure PreaggregateDeclarationError where
  kind : DeclarationErrorKind
  message : String
deriving DecidableEq

/-- Split a `grain=` value into canonical dimensions. -/
def parseGrainDimensions (grainText : String) : List String :=
  (((splitText ',' grainText).map trimmed).filter (· ≠ "")).eraseDups.insertionSort
    fun a b => sortLE a b

/-- `^[A-Za-z_][A-Za-z0-9_$-]*$` -/
def NAMESPACE_SEGMENT (segment : List Char) : Bool :=
  match segment with
  | [] => false
  | first :: rest =>
    (first.isAlpha || first = '_') &&
      rest.all fun c => c.isAlphanum || c = '_' || c = '$' || c = '-'

def isSpliceableNamespace (path : String) : Bool :=
  (path.toList.splitOn '.').all NAMESPACE_SEGMENT

/-- A key of the annotation, nested under it or beside it. -/
def ReadTag.key (tag : ReadTag) (key : String) : Option String :=
  (tag.text ["preaggregate", key]).or (tag.text [key])

def readNamespace (name : String) (tag : ReadTag) :
    Except PreaggregateDeclarationError (Option String) :=
  match tag.key "namespace" with
  | none => .ok none
  | some text =>
    if isSpliceableNamespace (trimmed text) then .ok (some (trimmed text))
    else .error ⟨.invalid_namespace, "Measure " ++ ticked name ++ " declares \x60#@ " ++
      "preaggregate namespace=\"" ++ trimmed text ++ "\"\x60, which is not a plain namespace. " ++
      "Use letters, digits, underscore, dollar or hyphen per part, dot-separated for a " ++
      "qualified one (\x60analytics\x60, \x60my-project.analytics\x60) — the rollup's own table " ++
      "name is generated and appended, so a namespace needing quotes cannot be joined to it."⟩

def readStorage (name : String) (tag : ReadTag) :
    Except PreaggregateDeclarationError (Option String) :=
  match tag.key "storage" with
  | none => .ok none
  | some text =>
    if trimmed text = "" then
      .error ⟨.empty_storage, "Measure " ++ ticked name ++ " declares \x60#@ preaggregate " ++
        "storage=\"\"\x60 with no destination. Name the storage destination the rollup should be " ++
        "built into, or remove the key to build it alongside its base."⟩
    else if (trimmed text).toList.any fun c => c = '"' || c = '\\' then
      .error ⟨.invalid_storage, "Measure " ++ ticked name ++ " declares \x60#@ preaggregate " ++
        "storage=\x60 naming a destination that contains a quote or backslash. Publisher " ++
        "re-declares the destination on the rollup it synthesizes, and such a name cannot be " ++
        "written there. Rename the destination."⟩
    else .ok (some (trimmed text))

/-- A `#@ preaggregate` line: the grain it declares, or why it is unusable. -/
def readPreaggregateLine (name : String) (tag : ReadTag) :
    Except PreaggregateDeclarationError PreaggregateGrain := do
  let persistNamespace ← readNamespace name tag
  let storage ← readStorage name tag
  match tag.key "grain" with
  | none => .error ⟨.missing_grain, "Measure " ++ ticked name ++ " is annotated \x60#@ " ++
      "preaggregate\x60 without a grain. Add one, as \x60#@ preaggregate grain=\"…\"\x60, naming " ++
      "the dimensions the rollup should be built at."⟩
  | some text =>
    if (parseGrainDimensions text).isEmpty then
      .error ⟨.empty_grain, "Measure " ++ ticked name ++ " declares \x60#@ preaggregate\x60 with " ++
        "an empty grain (\x60grain=\"" ++ text ++ "\"\x60). Name at least one dimension, or " ++
        "remove the annotation."⟩
    else .ok ⟨parseGrainDimensions text, text, persistNamespace, storage⟩

/-! ## A field -/

/-- What `#@ preaggregate` says about one field. -/
structure PreaggregateDeclaration where
  declared : Bool
  grains : List PreaggregateGrain
  errors : List PreaggregateDeclarationError

/-- The key of a grain: its dimensions, joined with NUL. -/
def grainKey (dimensions : List String) : String := "\u0000".intercalate dimensions

/-- What the notes read so far come to. -/
structure NotesRead where
  grains : List (String × PreaggregateGrain) := []
  errors : List PreaggregateDeclarationError := []
  declared : Bool := false

/-- Read one note. -/
def NotesRead.note (name : String) (state : NotesRead) (note : Note) : NotesRead :=
  if NEGATION note.text then {}
  else
    match note.tag with
    | none => state
    | some tag =>
      if tag.has "preaggregate" then
        match readPreaggregateLine name tag with
        | .error error => { state with errors := state.errors ++ [error], declared := true }
        | .ok grain =>
          { state with
            grains := setKey (grainKey grain.dimensions) grain state.grains, declared := true }
      else state

/-- Read `#@ preaggregate` off one field, its grains in the order of `localeCompare`. -/
def readPreaggregateAnnotation (localeLE : String → String → Bool) (name : String)
    (annotations : Option AnnotationsDef) : PreaggregateDeclaration :=
  let state := (orderedNotes annotations).foldl (NotesRead.note name) {}
  { declared := state.declared
    grains := (state.grains.map Prod.snd).insertionSort fun a b =>
      localeLE (grainKey a.dimensions) (grainKey b.dimensions)
    errors := state.errors }

/-! ## The lines in force -/

/-- The notes that no negation follows. -/
def inForce (notes : List Note) : List Note :=
  (notes.reverse.takeWhile fun note => !NEGATION note.text).reverse

/-- The tag of a `#@ preaggregate` line. -/
def Note.line (note : Note) : Option ReadTag := note.tag.filter (·.has "preaggregate")

/-- The `#@ preaggregate` lines that no negation follows. -/
def linesInForce (notes : List Note) : List ReadTag := (inForce notes).filterMap Note.line

def lineGrain (name : String) (tag : ReadTag) : Option PreaggregateGrain :=
  (readPreaggregateLine name tag).toOption

def lineError (name : String) (tag : ReadTag) : Option PreaggregateDeclarationError :=
  match readPreaggregateLine name tag with
  | .error error => some error
  | .ok _ => none

theorem inForce_append_singleton (notes : List Note) (last : Note) :
    inForce (notes ++ [last]) = if NEGATION last.text then [] else inForce notes ++ [last] := by
  unfold inForce
  rw [List.reverse_append, List.reverse_singleton, List.singleton_append, List.takeWhile_cons]
  cases NEGATION last.text <;> simp

theorem linesInForce_append_singleton (notes : List Note) (last : Note) :
    linesInForce (notes ++ [last]) =
      if NEGATION last.text then [] else linesInForce notes ++ last.line.toList := by
  unfold linesInForce
  rw [inForce_append_singleton]
  split_ifs
  · rfl
  · rw [List.filterMap_append]
    cases line : last.line <;> simp [line]

/-- The grains read of a sequence of lines, the later ones over the earlier. -/
def grainsOf (name : String) (lines : List ReadTag) : List (String × PreaggregateGrain) :=
  writeAll [] ((lines.filterMap (lineGrain name)).map fun grain =>
    (grainKey grain.dimensions, grain))

/-- What reading a sequence of notes leaves is a matter of the lines in force. -/
theorem foldl_note (name : String) (notes : List Note) :
    notes.foldl (NotesRead.note name) {} =
      { grains := grainsOf name (linesInForce notes)
        errors := (linesInForce notes).filterMap (lineError name)
        declared := !(linesInForce notes).isEmpty } := by
  induction notes using List.reverseRecOn with
  | nil => rfl
  | append_singleton notes note ih =>
    rw [List.foldl_append, List.foldl_cons, List.foldl_nil, ih, NotesRead.note,
      linesInForce_append_singleton, Note.line]
    split_ifs with negated
    · rfl
    · cases parsed : note.tag with
      | none => simp
      | some tag =>
        by_cases declares : tag.has "preaggregate" = true
        · simp only [declares, if_true, Option.filter_some, Option.toList_some]
          cases read : readPreaggregateLine name tag with
          | error error => simp [read, grainsOf, lineGrain, lineError, Except.toOption]
          | ok grain => simp [read, grainsOf, lineGrain, lineError, Except.toOption, writeAll]
        · simp [declares, Option.filter_some]

/-! ## What is read off a field -/

/-- What the last line in force at a grain declares. -/
def lastGrain (name : String) (lines : List ReadTag) (key : String) : Option PreaggregateGrain :=
  lastWrite ((lines.filterMap (lineGrain name)).map fun grain =>
    (grainKey grain.dimensions, grain)) key

variable {localeLE : String → String → Bool} {name : String}
  {annotations : Option AnnotationsDef}

theorem declared_iff : ( readPreaggregateAnnotation localeLE name annotations).declared = true ↔
    linesInForce (orderedNotes annotations) ≠ [] := by
  simp [ readPreaggregateAnnotation, foldl_note]

/-- A field has no errors when each of its lines is usable. -/
theorem errors_eq_nil_iff :
    ( readPreaggregateAnnotation localeLE name annotations).errors = [] ↔
      ∀ tag ∈ linesInForce (orderedNotes annotations), ∃ grain, lineGrain name tag = some grain := by
  simp only [ readPreaggregateAnnotation, foldl_note, List.filterMap_eq_nil_iff]
  refine forall₂_congr fun tag _ => ?_
  unfold lineError lineGrain
  cases readPreaggregateLine name tag <;> simp [Except.toOption]

/-- A grain is kept under the key of its dimensions. -/
theorem mem_grainsOf {lines : List ReadTag} {entry : String × PreaggregateGrain} :
    entry ∈ grainsOf name lines ↔
      lastGrain name lines entry.1 = some entry.2 ∧ grainKey entry.2.dimensions = entry.1 := by
  have empty : (([] : List (String × PreaggregateGrain)).map Prod.fst).Nodup := List.nodup_nil
  unfold grainsOf
  rw [mem_writeAll empty]
  constructor
  · intro either
    have last := either.resolve_right fun absent => List.not_mem_nil absent.2
    obtain ⟨grain, -, same⟩ := List.mem_map.mp (mem_of_lastWrite last)
    obtain ⟨keys, grains⟩ := Prod.ext_iff.mp same
    exact ⟨last, by rw [← grains, ← keys]⟩
  · intro last
    exact .inl last.1

/-- A field's grains are what the last line at each declares. -/
theorem mem_grains {grain : PreaggregateGrain} :
    grain ∈ ( readPreaggregateAnnotation localeLE name annotations).grains ↔
      lastGrain name (linesInForce (orderedNotes annotations)) (grainKey grain.dimensions) =
        some grain := by
  simp only [ readPreaggregateAnnotation, foldl_note, List.mem_insertionSort, List.mem_map,
    mem_grainsOf]
  constructor
  · rintro ⟨entry, ⟨last, keys⟩, rfl⟩
    rw [keys]
    exact last
  · intro last
    exact ⟨(grainKey grain.dimensions, grain), ⟨last, rfl⟩, rfl⟩

/-- The grains of a field have distinct keys. -/
theorem nodup_grainKeys : (( readPreaggregateAnnotation localeLE name annotations).grains.map
    fun grain => grainKey grain.dimensions).Nodup := by
  have empty : (([] : List (String × PreaggregateGrain)).map Prod.fst).Nodup := List.nodup_nil
  simp only [ readPreaggregateAnnotation, foldl_note]
  refine ((List.perm_insertionSort _ _).map _).nodup_iff.mpr ?_
  have keys : ((grainsOf name (linesInForce (orderedNotes annotations))).map Prod.snd).map
      (fun grain => grainKey grain.dimensions) =
        (grainsOf name (linesInForce (orderedNotes annotations))).map Prod.fst := by
    rw [List.map_map]
    exact List.map_congr_left fun entry member => (mem_grainsOf.mp member).2
  rw [keys]
  exact nodup_writeAll empty

end MalloyPublisher.Preaggregation
