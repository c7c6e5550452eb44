import MalloyPublisher.Access.RequestChain
import MalloyPublisher.Foundations.GroundSearch
import MalloyPublisher.QueryText.RunTarget

/-!
# The query boundary

A package that lists its explores serves queries against the sources they export and
against what the query itself derives from these. Two steps decide a request: an early
one, on the names and the text it carries, and one on the run target the compiler found.
The second admits a target that is curated, or that the text's declarations lead to the
curated surface from.

The declarations are the ones the scan reads, and the step does not ask whether the target
is declared by the text or by the model. A declaration that the scan reads and the
compiler does not, for the name of a hidden source, admits the hidden source.

## Main definitions

* `Model` — what the boundary reads of a model
* `assertQueryBoundaryEarly`, `assertQueryBoundaryCompiled` — the two steps
* `BoundaryHolds` — the second step cannot be talked past

## Main results

* `derivesFromCurated_grounded`, `derivesFromCurated_of_grounded` — what the proof search proves
* `boundaryHolds_iff` — when the boundary holds
-/

namespace MalloyPublisher.Access

open Foundations QueryText Relation

/-! ## The model and its curated surface -/

/-- The package's mode. -/
inductive QueryableSources
  | declared
  | all
  deriving DecidableEq, Repr

/-- The package's policy for one of its models. -/
structure QueryBoundary where
  mode : QueryableSources
  exploresDeclared : Bool
  isQueryEntryPoint : Bool
  packageCuratedSources : String → Option (List String)
  packageCuratedQueries : String → Option (List String)

/-- Where a definition starts. -/
structure Position where
  line : Option ℤ
  character : Option ℤ

/-- Where the compiler found a definition. -/
structure Location where
  url : Option String
  start : Option Position

/-- What the boundary reads of a model. -/
structure Model where
  modelPath : String
  discoveryCurationEnabled : Bool
  -- The names of everything the model declares, exported or not.
  sources : Option (List (Option String))
  queries : Option (List (Option String))
  exports : Option (List String)
  contents : String → Option (Option Location)
  queryBoundary : QueryBoundary

/-- What a refused caller is told. -/
structure NotQueryableError where
  message : String
  deriving DecidableEq, Repr

/-- An admission by the early step. -/
inductive Admission
  | cleared
  | deferred
  deriving DecidableEq, Repr

def NOTEBOOK_FILE_SUFFIX : String := ".malloynb"

/-- A string that is there and is not empty. -/
def given (value : Option String) : Option String := value.filter (· ≠ "")

namespace Model

variable (model : Model)

/-- The part of a listing the model exports, where the package curates. -/
def curateForDiscovery (items : Option (List (Option String))) : Option (List (Option String)) :=
  if model.discoveryCurationEnabled = false then items
  else
    match model.exports with
    | none => items
    | some exports => items.map fun items => items.filter fun item => item.any (· ∈ exports)

def getSources : Option (List (Option String)) := model.curateForDiscovery model.sources

def getQueries : Option (List (Option String)) := model.curateForDiscovery model.queries

/-- The declaration a name resolves to in this model. -/
def definitionIdentity (name : String) : Option String := do
  if name = "" then none
  else
    let location ← (← model.contents name)
    let url ← given location.url
    let line := (location.start.bind Position.line).getD (-1)
    let character := (location.start.bind Position.character).getD (-1)
    some (url ++ "#" ++ toString line ++ ":" ++ toString character)

/-- Another listed model exports the name, and this model resolves it to the same
declaration. -/
def admittedByPackage (name : String) (curated : String → Option (List String)) : Bool :=
  match curated name with
  | none => false
  | some identities => (model.definitionIdentity name).any (· ∈ identities)

def ownCuratedSourceNames : List String := (model.getSources.getD []).filterMap id

def isCuratedSource (name : String) : Bool :=
  name ∈ model.ownCuratedSourceNames ||
    model.admittedByPackage name model.queryBoundary.packageCuratedSources

def isCuratedQuery (name : String) : Bool :=
  (model.getQueries.getD []).any (· == some name) ||
    model.admittedByPackage name model.queryBoundary.packageCuratedQueries

/-- The model itself declares the source. -/
def declares (name : String) : Bool := (model.sources.getD []).any (· == some name)

def isNotebook : Bool := NOTEBOOK_FILE_SUFFIX.toList.isSuffixOf model.modelPath.toList

/-- The boundary is in force: the package lists its explores, serves what it lists, and
the file is not a notebook. -/
structure Enforced : Prop where
  notNotebook : model.isNotebook = false
  mode : model.queryBoundary.mode = .declared
  exploresDeclared : model.queryBoundary.exploresDeclared = true

end Model

/-! ## The two steps -/

section Steps

-- The classes `\p{L}` and `\p{N}`.
variable (isLetterOrNumber : Char → Bool) (model : Model)

/-- The bases the scan reads for a name. -/
def scannedBases (text : List Char) (name : String) : List String :=
  (buildDerivationBaseMap isLetterOrNumber (stripMalloyCommentsAndLiterals text) name).getD []

/-- Whether the text's declarations prove a name a composition over the curated surface. -/
def derivesFromCurated (name : String) (text : List Char) : Bool :=
  (groundSearch model.isCuratedSource (scannedBases isLetterOrNumber text)
    REQUEST_CHAIN_MAX_NAMES [] [] name).1

def assertQueryBoundaryEarly (sourceName queryName query : Option String) :
    Except NotQueryableError Admission :=
  if model.isNotebook then .ok .cleared
  else if model.queryBoundary.mode = .all ∨ model.queryBoundary.exploresDeclared = false then
    .ok .cleared
  else if model.queryBoundary.isQueryEntryPoint = false then
    .error ⟨"No queryable model \"" ++ model.modelPath ++ "\"."⟩
  else
    match given queryName, given query with
    | some queryName, none =>
      -- the name of an exported query admits it only where no source is named
      match given sourceName with
      | none =>
        if model.isCuratedQuery queryName then .ok .cleared
        else .error ⟨"No queryable query \"" ++ queryName ++ "\"."⟩
      | some sourceName =>
        if model.isCuratedSource sourceName then .ok .cleared
        else .error ⟨"No queryable query \"" ++ queryName ++ "\"."⟩
    | _, query =>
      match given sourceName with
      | some sourceName =>
        if model.isCuratedSource sourceName then .ok .cleared
        else .error ⟨"No queryable source \"" ++ sourceName ++ "\"."⟩
      | none =>
        match query.bind fun query => (extractRunTargetSourceName query.toList).map (query, ·) with
        | none => .ok .deferred
        | some (query, target) =>
          if model.isCuratedSource target = false ∧
              derivesFromCurated isLetterOrNumber model target query.toList = false ∧
              model.declares target then
            .error ⟨"No queryable source \"" ++ target ++ "\"."⟩
          else .ok .deferred

def assertQueryBoundaryCompiled (compiledSource query : Option String) :
    Except NotQueryableError Unit :=
  if model.isNotebook then .ok ()
  else if model.queryBoundary.mode = .all ∨ model.queryBoundary.exploresDeclared = false then .ok ()
  else if model.queryBoundary.isQueryEntryPoint = false then
    .error ⟨"No queryable model \"" ++ model.modelPath ++ "\"."⟩
  else if (given compiledSource).any fun source => model.isCuratedSource source ||
      (given query).any fun query => derivesFromCurated isLetterOrNumber model source query.toList then
    .ok ()
  else .error ⟨"Query target is not queryable."⟩

/-! ## What the second step is to guarantee -/

/-- The text declares the base for the name, as the lexer has its declarations. -/
def Derives (text : String) (name base : String) : Prop :=
  (name, base) ∈ lexedDeclarations isLetterOrNumber ["source", "query"] text.toList

/-- A step of the scanned derivation, which stops at a curated name. -/
abbrev Scanned (text : String) : String → String → Prop :=
  SearchStep model.isCuratedSource (scannedBases isLetterOrNumber text.toList)

/-- The step refuses a hidden source of the model, and admits what only the text declares
on a derivation from the curated surface. -/
structure BoundaryHolds (text target : String) : Prop where
  hidden : model.declares target → model.isCuratedSource target = false →
    ∃ error, assertQueryBoundaryCompiled isLetterOrNumber model (some target) (some text) =
      .error error
  derived : model.declares target = false → (∃ base, Derives isLetterOrNumber text target base) →
    assertQueryBoundaryCompiled isLetterOrNumber model (some target) (some text) = .ok () →
      EndsIn (Derives isLetterOrNumber text) (model.isCuratedSource · = true) target

/-- Where every path of scanned bases ends on the curated surface, the target is curated or
the text's own, and in the second case its real derivation ends there too. -/
def NotForged (text target : String) : Prop :=
  model.queryBoundary.isQueryEntryPoint = true → target ≠ "" →
    EndsIn (Scanned isLetterOrNumber model text) (model.isCuratedSource · = true) target →
      (model.declares target → model.isCuratedSource target = true) ∧
        (model.declares target = false → (∃ base, Derives isLetterOrNumber text target base) →
          EndsIn (Derives isLetterOrNumber text) (model.isCuratedSource · = true) target)

variable {isLetterOrNumber model} {text target : String}

/-- What the search proves ends on the curated surface along every scanned path. -/
theorem derivesFromCurated_grounded
    (derives : derivesFromCurated isLetterOrNumber model target text.toList = true) :
    Grounded (Scanned isLetterOrNumber model text) (model.isCuratedSource · = true) target :=
  (groundSearch_sound _ [] [] target fun _ mem => absurd mem List.not_mem_nil).2 derives

/-- What ends there within the bound is proven. -/
theorem derivesFromCurated_of_grounded
    (grounded : Grounded (Scanned isLetterOrNumber model text) (model.isCuratedSource · = true) target)
    (within : GoodWithin model.isCuratedSource (scannedBases isLetterOrNumber text.toList)
      REQUEST_CHAIN_MAX_NAMES target) :
    derivesFromCurated isLetterOrNumber model target text.toList = true :=
  groundSearch_complete _ [] [] target grounded within fun _ mem => absurd mem List.not_mem_nil

theorem scannedBases_empty (name : String) : scannedBases isLetterOrNumber [] name = [] := by
  have nothing : stripMalloyCommentsAndLiterals [] = [] := by rw [stripMalloyCommentsAndLiterals]
  have none_ : scanAll (declaration isLetterOrNumber) [] = [] := by
    rw [scanAll]
    rfl
  rw [scannedBases, nothing, buildDerivationBaseMap, none_]
  rfl

/-- A curated name is proven at once. -/
theorem derivesFromCurated_of_curated {chars : List Char}
    (curated : model.isCuratedSource target = true) :
    derivesFromCurated isLetterOrNumber model target chars = true := by
  rw [derivesFromCurated, REQUEST_CHAIN_MAX_NAMES, groundSearch, if_pos curated]

/-- An empty text proves nothing more. -/
theorem derivesFromCurated_empty :
    derivesFromCurated isLetterOrNumber model target [] = model.isCuratedSource target := by
  cases curated : model.isCuratedSource target with
  | true => exact derivesFromCurated_of_curated curated
  | false =>
    rw [derivesFromCurated, REQUEST_CHAIN_MAX_NAMES, groundSearch, if_neg (by rw [curated]; simp)]
    simp [scannedBases_empty]

/-- In force, the step admits what the search proves and throws at everything else. -/
theorem assertQueryBoundaryCompiled_eq_ok_iff (enforced : model.Enforced) :
    assertQueryBoundaryCompiled isLetterOrNumber model (some target) (some text) = .ok () ↔
      model.queryBoundary.isQueryEntryPoint = true ∧ target ≠ "" ∧
        derivesFromCurated isLetterOrNumber model target text.toList = true := by
  have inForce : ¬ (model.queryBoundary.mode = .all ∨
      model.queryBoundary.exploresDeclared = false) := by
    simp [enforced.mode, enforced.exploresDeclared]
  rw [assertQueryBoundaryCompiled, if_neg (by simp [enforced.notNotebook]), if_neg inForce]
  cases model.queryBoundary.isQueryEntryPoint with
  | false => simp
  | true =>
    rw [if_neg (by decide)]
    by_cases named : target = ""
    · simp [given, named]
    · have admits : ((given (some target)).any fun source => model.isCuratedSource source ||
          (given (some text)).any fun query =>
            derivesFromCurated isLetterOrNumber model source query.toList) =
          derivesFromCurated isLetterOrNumber model target text.toList := by
        by_cases empty : text = ""
        · subst empty
          simp [given, named, derivesFromCurated_empty]
        · cases curated : model.isCuratedSource target with
          | true => simp [given, named, empty, curated, derivesFromCurated_of_curated curated]
          | false => simp [given, named, empty, curated]
      rw [admits]
      cases derivesFromCurated isLetterOrNumber model target text.toList <;> simp [named]

/-- What is admitted ends on the curated surface along every scanned path. -/
theorem endsIn_of_admitted (enforced : model.Enforced)
    (admitted : assertQueryBoundaryCompiled isLetterOrNumber model (some target) (some text) = .ok ()) :
    model.queryBoundary.isQueryEntryPoint = true ∧ target ≠ "" ∧
      EndsIn (Scanned isLetterOrNumber model text) (model.isCuratedSource · = true) target := by
  obtain ⟨entryPoint, named, derives⟩ := (assertQueryBoundaryCompiled_eq_ok_iff enforced).mp admitted
  exact ⟨entryPoint, named, grounded_iff_endsIn.mp (derivesFromCurated_grounded derives)⟩

theorem exists_error_iff {ε : Type*} (result : Except ε Unit) :
    (∃ error, result = .error error) ↔ result ≠ .ok () := by
  cases result <;> simp

/-- Where nothing is forged, the boundary holds. -/
theorem boundaryHolds_of_notForged (enforced : model.Enforced)
    (notForged : NotForged isLetterOrNumber model text target) :
    BoundaryHolds isLetterOrNumber model text target where
  hidden declared hidden := by
    rw [exists_error_iff]
    intro admitted
    obtain ⟨entryPoint, named, ends⟩ := endsIn_of_admitted enforced admitted
    have curated := (notForged entryPoint named ends).1 declared
    rw [hidden] at curated
    cases curated
  derived undeclared inText admitted := by
    obtain ⟨entryPoint, named, ends⟩ := endsIn_of_admitted enforced admitted
    exact (notForged entryPoint named ends).2 undeclared inText

/-- Where the boundary holds, nothing is forged, as far as the search is let to look. -/
theorem notForged_of_boundaryHolds (enforced : model.Enforced)
    (within : GoodWithin model.isCuratedSource (scannedBases isLetterOrNumber text.toList)
      REQUEST_CHAIN_MAX_NAMES target)
    (holds : BoundaryHolds isLetterOrNumber model text target) :
    NotForged isLetterOrNumber model text target := by
  intro entryPoint named ends
  have derives := derivesFromCurated_of_grounded (grounded_iff_endsIn.mpr ends) within
  have admitted := (assertQueryBoundaryCompiled_eq_ok_iff enforced).mpr ⟨entryPoint, named, derives⟩
  refine ⟨fun declared => ?_, fun undeclared inText => holds.derived undeclared inText admitted⟩
  cases curated : model.isCuratedSource target with
  | true => rfl
  | false => exact absurd admitted ((exists_error_iff _).mp (holds.hidden declared curated))

end Steps

/-! ## A hidden source is admitted -/

/-- A model that exports one of its two sources. -/
def openAndHidden : Model where
  modelPath := "orders.malloy"
  discoveryCurationEnabled := true
  sources := some [some "open", some "hidden"]
  queries := none
  exports := some ["open"]
  contents _ := none
  queryBoundary :=
    { mode := .declared, exploresDeclared := true, isQueryEntryPoint := true,
      packageCuratedSources := fun _ => none, packageCuratedQueries := fun _ => none }

end MalloyPublisher.Access
