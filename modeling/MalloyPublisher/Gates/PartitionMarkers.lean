import MalloyPublisher.Gates.EntryPointGates

/-!
# Partition markers

A `#(partition)` note names a column and the given it is sliced by, in a grammar of its
own. An entry point's markers are its own, else the nearest ancestor's, else those of the
base its query derives from; an ancestry that cannot be read is refused.

## Main definitions

* `parsePartitionAnnotation`, `collectPartitionPairs` — the grammar of a marker
* `resolveEntryPointPartitions` — the markers of an entry point
* `WellFormed` — field paths and givens, no given twice

## Main results

* `resolveEntryPointPartitions_wellFormed` — what the walk answers is well formed
-/

namespace MalloyPublisher.Gates

open Foundations

/-- Why a marker is refused. -/
inductive PartitionAnnotationRejectionCause
  | emptyBody
  | compoundBoolean
  | inOperator
  | negatedOperator
  | comparisonOperator
  | leftNotFieldPath
  | missingGivenReference
  | malformedBody
  | duplicateGiven
  | ancestryUnresolvable
  deriving DecidableEq, Repr

structure PartitionAnnotationError where
  rejectionCause : PartitionAnnotationRejectionCause
  message : String
  deriving DecidableEq, Repr

/-- A column, and the given it is sliced by. -/
structure PartitionPair where
  column : String
  given : String
  deriving DecidableEq, Repr

/-! ## The grammar -/

/-- A character of an ASCII identifier. -/
def isWordChar (c : Char) : Bool := c.isAlphanum || c = '_'

/-- A whole identifier: a letter or an underscore, then word characters. -/
def isIdent : List Char → Bool
  | [] => false
  | c :: rest => (c.isAlpha || c = '_') && rest.all isWordChar

/-- A column or a dotted join path. -/
def isFieldPath (chars : List Char) : Bool := (chars.splitOn '.').all isIdent

/-- The given a reference names: a dollar sign and an identifier, nothing else. -/
def givenReference : List Char → Option (List Char)
  | '$' :: name => if isIdent name then some name else none
  | _ => none

/-- Whether one of the words stands in the text as a word of its own, in any case. -/
def containsWord (words : List (List Char)) (afterWord : Bool) : List Char → Bool
  | [] => false
  | c :: rest =>
    (!afterWord && words.any fun word =>
      word.isPrefixOf ((c :: rest).map Char.toLower) &&
        !(((c :: rest).drop word.length).head?.any isWordChar)) ||
      containsWord words (isWordChar c) rest

/-- Whether a text stands inside another. -/
def containsText (text : List Char) : List Char → Bool
  | [] => text.isEmpty
  | c :: rest => text.isPrefixOf (c :: rest) || containsText text rest

/-- The route of a marker. -/
def PARTITION_ROUTE : String := "partition"

def rejectionMessage (sourceName body detail : String) : String :=
  "Source \"" ++ sourceName ++ "\" declares `#(partition) " ++ body ++ "`: " ++ detail ++ " " ++
    "#(partition) only accepts `<column> = $GIVEN`, where <column> is a " ++
    "single field or a dotted join path."

def reject (sourceName body : String) (cause : PartitionAnnotationRejectionCause)
    (detail : String) : PartitionAnnotationError :=
  { rejectionCause := cause, message := rejectionMessage sourceName body detail }

/-- What stands before and after the first equals sign. -/
def splitAtEquals (body : List Char) : Option (List Char × List Char) :=
  if '=' ∈ body then some (body.takeWhile (· ≠ '='), (body.dropWhile (· ≠ '=')).tail) else none

section Markers

variable (routing : NoteRouting)

/-- Whether some text is a marker. -/
def containsPartitionAnnotationTag (texts : List String) : Bool :=
  texts.any fun text => decide (noteRoute routing text = some PARTITION_ROUTE)

/-- The pair a note declares; nothing where the note is no marker. -/
def parsePartitionAnnotation (sourceName annotationText : String) :
    Except PartitionAnnotationError (Option PartitionPair) :=
  if noteRoute routing annotationText ≠ some PARTITION_ROUTE then .ok none
  else
    let chars := trim (notePayload routing annotationText).toList
    let body := String.ofList chars
    if chars.isEmpty then
      .error (reject sourceName body .emptyBody "the expression body is empty.")
    else if containsWord ["and".toList, "or".toList, "not".toList] false chars then
      .error (reject sourceName body .compoundBoolean
        ("a compound boolean (`and`/`or`/`not`) is not allowed — declare one " ++
          "`#(partition)` marker per column."))
    else if containsWord ["in".toList] false chars then
      .error (reject sourceName body .inOperator "the `in` operator is not allowed.")
    else if containsText "!=".toList chars then
      .error (reject sourceName body .negatedOperator "`!=` is not allowed.")
    else if chars.any fun c => c = '<' || c = '>' then
      .error (reject sourceName body .comparisonOperator
        "only `=` is allowed, not `<`/`>`/`<=`/`>=`.")
    else
      match splitAtEquals chars with
      | none => .error (reject sourceName body .malformedBody "no `=` was found.")
      | some (before, after) =>
        let left := trim before
        let right := trim after
        if ¬ isFieldPath left then
          .error (reject sourceName body .leftNotFieldPath
            ("`" ++ String.ofList left ++ "` is not a field path — the left side must be a " ++
              "single column or a dotted join path, not an expression."))
        else
          match givenReference right with
          | none =>
            .error (reject sourceName body .missingGivenReference
              ("`" ++ String.ofList right ++ "` is not a given reference — the right side " ++
                "must be `$NAME`."))
          | some given =>
            .ok (some { column := String.ofList left, given := String.ofList given })

/-- The refusal of a second marker for a given. -/
def duplicateGiven (sourceName : String) (prior pair : PartitionPair) : PartitionAnnotationError where
  rejectionCause := .duplicateGiven
  message :=
    "Source \"" ++ sourceName ++ "\" declares `#(partition)` on both `" ++ prior.column ++
      "` and `" ++ pair.column ++ "` for the same given `$" ++ pair.given ++
      "` — a given can back at most one partition column per source."

/-- The loop over the notes, with the pairs collected before. -/
def collectPairsAfter (sourceName : String) (pairs : List PartitionPair) :
    List String → Except PartitionAnnotationError (List PartitionPair)
  | [] => .ok pairs
  | text :: texts =>
    match parsePartitionAnnotation routing sourceName text with
    | .error reason => .error reason
    | .ok none => collectPairsAfter sourceName pairs texts
    | .ok (some pair) =>
      match pairs.find? fun prior => prior.given = pair.given with
      | some prior => .error (duplicateGiven sourceName prior pair)
      | none => collectPairsAfter sourceName (pairs ++ [pair]) texts

/-- The pairs a list of notes declares, in order. -/
def collectPartitionPairs (sourceName : String) (annotationTexts : List String) :
    Except PartitionAnnotationError (List PartitionPair) :=
  collectPairsAfter routing sourceName [] annotationTexts

/-- The refusal of an ancestry that cannot be read. -/
def unresolvableAncestry (label : String) : PartitionAnnotationError where
  rejectionCause := .ancestryUnresolvable
  message :=
    "Could not resolve whether source \"" ++ label ++ "\" carries a `#(partition)` marker: the " ++
      "derivation chain it inherits from could not be read. Denying rather than serving unfiltered."

/-- The loop over an inherited chain, `budget` levels deep. -/
def inheritedPartitionPairs (label : String) :
    ℕ → AnnotationsDef → Except PartitionAnnotationError (List PartitionPair)
  | _, [] => .ok []
  | 0, _ :: _ => .error (unresolvableAncestry label)
  | budget + 1, level :: inherited =>
    match collectPartitionPairs routing label (ownLevelNoteTexts (level :: inherited)) with
    | .ok [] => inheritedPartitionPairs label budget inherited
    | answer => answer

variable {S : Type*} [DecidableEq S] (modelDef : ModelDef S)

/-- What the markers walk answers: pairs and the structs seen, or a refusal. -/
abbrev PartitionsRead (S : Type*) :=
  Except PartitionAnnotationError (List PartitionPair × List S)

/-- A struct's own markers, else those on the levels it inherits. -/
def levelPartitionPairs (struct : S) : Except PartitionAnnotationError (List PartitionPair) :=
  let label := gateLabel modelDef struct
  match collectPartitionPairs routing label
      (ownLevelNoteTexts (modelDef.struct struct).annotations) with
  | .ok [] => inheritedPartitionPairs routing label ANCESTOR_WALK_MAX_DEPTH
      (inherits (modelDef.struct struct).annotations)
  | answer => answer

/-- The markers that apply to `struct` as an entry point, over the structs not seen yet;
nothing where the fuel runs out. -/
def resolveEntryPointPartitions : ℕ → S → List S → Option (PartitionsRead S)
  | 0, _, _ => none
  | fuel + 1, struct, seen =>
    if struct ∈ seen then some (.ok ([], seen))
    else
      match levelPartitionPairs routing modelDef struct with
      | .error reason => some (.error reason)
      | .ok (pair :: pairs) => some (.ok (pair :: pairs, struct :: seen))
      | .ok [] =>
        let declared : Option (PartitionsRead S) := match resolveDeclaredSource modelDef struct with
          | .unresolvable => some (.error (unresolvableAncestry (gateLabel modelDef struct)))
          | .none => some (.ok ([], struct :: seen))
          | .resolved source => resolveEntryPointPartitions fuel source (struct :: seen)
        declared.bind fun
          | .ok ([], middle) =>
            match resolveQuerySourceBase modelDef struct with
            | some queryBase => resolveEntryPointPartitions fuel queryBase middle
            | none => some (.ok ([], middle))
          | answer => some answer

end Markers

/-! ## What the grammar accepts -/

section Accepted

variable {routing : NoteRouting} {sourceName : String} {pairs : List PartitionPair}

theorem givenReference_eq_some {chars name : List Char} (found : givenReference chars = some name) :
    isIdent name = true := by
  unfold givenReference at found
  split at found
  · split_ifs at found with ident
    cases found
    exact ident
  · cases found

/-- Pairs of a field path and a given, in which no given slices two columns. -/
structure WellFormed (pairs : List PartitionPair) : Prop where
  named : ∀ pair ∈ pairs, isFieldPath pair.column.toList = true ∧ isIdent pair.given.toList = true
  once : (pairs.map PartitionPair.given).Nodup

theorem WellFormed.nil : WellFormed [] := ⟨nofun, List.nodup_nil⟩

/-- An accepted marker names a field path and a given. -/
theorem parsePartitionAnnotation_wellFormed {text : String} {pair : PartitionPair}
    (accepted : parsePartitionAnnotation routing sourceName text = .ok (some pair)) :
    isFieldPath pair.column.toList = true ∧ isIdent pair.given.toList = true := by
  unfold parsePartitionAnnotation at accepted
  by_cases other : noteRoute routing text ≠ some PARTITION_ROUTE
  · rw [if_pos other] at accepted
    cases accepted
  rw [if_neg other] at accepted
  simp only at accepted
  split_ifs at accepted
  split at accepted
  · cases accepted
  · split_ifs at accepted with path
    split at accepted
    · cases accepted
    · rename_i given found
      cases accepted
      exact ⟨by simpa using path, by simpa using givenReference_eq_some found⟩

theorem collectPairsAfter_wellFormed {texts : List String} {before : List PartitionPair}
    (wellFormed : WellFormed before)
    (accepted : collectPairsAfter routing sourceName before texts = .ok pairs) :
    WellFormed pairs := by
  induction texts generalizing before with
  | nil =>
    cases accepted
    exact wellFormed
  | cons text texts ih =>
    rw [collectPairsAfter] at accepted
    split at accepted
    · cases accepted
    · exact ih wellFormed accepted
    next pair parsed =>
      split at accepted
      · cases accepted
      next fresh =>
        refine ih ⟨fun other member => ?_, ?_⟩ accepted
        · rcases List.mem_append.mp member with earlier | here
          · exact wellFormed.named other earlier
          · rw [List.mem_singleton.mp here]
            exact parsePartitionAnnotation_wellFormed parsed
        · rw [List.map_append, List.map_singleton]
          refine List.nodup_append.mpr ⟨wellFormed.once, List.nodup_singleton _, ?_⟩
          rintro _ member _ here rfl
          obtain ⟨prior, among, same⟩ := List.mem_map.mp member
          rw [List.mem_singleton] at here
          have distinct := List.find?_eq_none.mp fresh prior among
          exact distinct (by simp [same, here])

theorem inheritedPartitionPairs_wellFormed {budget : ℕ} {levels : AnnotationsDef}
    (accepted : inheritedPartitionPairs routing sourceName budget levels = .ok pairs) :
    WellFormed pairs := by
  induction budget generalizing levels with
  | zero => cases levels <;> cases accepted; exact .nil
  | succ budget ih =>
    cases levels with
    | nil =>
      cases accepted
      exact .nil
    | cons level inherited =>
      rw [inheritedPartitionPairs] at accepted
      split at accepted
      · exact ih accepted
      · exact collectPairsAfter_wellFormed .nil accepted

variable {S : Type*} [DecidableEq S] {modelDef : ModelDef S}

/-- On every source graph, the markers the walk answers for an entry point are well formed. -/
theorem resolveEntryPointPartitions_wellFormed {fuel : ℕ} {struct : S} {seen later : List S}
    (answered : resolveEntryPointPartitions routing modelDef fuel struct seen =
      some (.ok (pairs, later))) : WellFormed pairs := by
  induction fuel generalizing struct seen later with
  | zero => cases answered
  | succ fuel ih =>
    rw [resolveEntryPointPartitions] at answered
    split_ifs at answered with known
    · cases answered
      exact .nil
    · split at answered
      · cases answered
      next pair more level =>
        cases answered
        simp only [levelPartitionPairs] at level
        split at level
        · exact inheritedPartitionPairs_wellFormed level
        · exact collectPairsAfter_wellFormed .nil level
      · obtain ⟨declared, found, rest⟩ := Option.bind_eq_some_iff.mp answered
        split at rest
        · -- Nothing on the way above: the base of the query answers, or nothing does.
          split at rest
          · exact ih rest
          · cases rest
            exact .nil
        · obtain rfl := Option.some.inj rest
          split at found
          · cases found
          · cases found
            exact .nil
          · exact ih found

end Accepted

end MalloyPublisher.Gates
