import MalloyPublisher.Dashboard.MalloyText
import MalloyPublisher.Foundations.Lines

/-!
# Reading a dashboard file

A dashboard file is read into a document: imports and sources from what the parser reports,
everything else from the text, with the tags above a declaration as the annotation parser has
them. A file that cannot be represented is refused.

The two parsers, and how the runtime prints numbers and orders names, are parameters.

## Main definitions

* `Host` — what the builder takes from outside
* `blockAbove` — the comment-and-tag block above a declaration
* `readDashboardDocument` — the document of a file
-/

namespace MalloyPublisher.Dashboard

open Foundations

/-- A symbol of the parser's tree: an import with its named items, a source with the line it
is declared at, or something the builder does not look at. -/
inductive Symbol where
  | import_ (path : Text) (items : List Text)
  | explore (name : Text) (line : ℕ)
  | other
  deriving DecidableEq

/-- What the builder takes from outside: `Malloy.parse`, `parseAnnotation` and the reads of a
tag it makes, a number as a template literal prints it, and `localeCompare` as an order. -/
structure Host (N T : Type) where
  parse : Text → Except String (List Symbol)
  parseAnnotation : List Text → Option T
  text : T → Text → Option Text
  numeric : T → Text → Option N
  tag : T → Text → Option T
  has : T → Text → Bool
  isTrue : T → Text → Bool
  textArray : T → Text → Option (List Text)
  keys : T → List Text
  print : N → Text
  localeLe : Text → Text → Bool

/-- Why a file could not be opened, and at which line. -/
structure ReadFailure where
  reason : String
  line : Option ℕ := none
  deriving DecidableEq

/-! ## Blocks -/

/-- A `#`-prefixed line of a block, and where it is. -/
structure TagLine where
  line : ℕ
  text : Text
  deriving DecidableEq

/-- A `#`/`//` block above a declaration, and where it starts. -/
structure Block where
  start : ℕ
  tags : List TagLine

/-- A line that a block goes on over: a tag or a comment, and not a blank line. -/
def inBlock (line : Text) : Bool :=
  "#".toList.isPrefixOf (trim line) || "//".toList.isPrefixOf (trim line)

/-- An object tag: `##` is a model annotation and never belongs to a declaration. -/
def isTag (line : Text) : Bool :=
  "#".toList.isPrefixOf (trim line) && !"##".toList.isPrefixOf (trim line)

/-- Where the block above a line starts. -/
def blockStart (lines : List Text) : ℕ → ℕ
  | 0 => 0
  | line + 1 => if inBlock (lines[line]?.getD []) then blockStart lines line else line + 1

/-- The comment-and-tag block immediately above a line. -/
def blockAbove (lines : List Text) (declLine : ℕ) : Block where
  start := blockStart lines declLine
  tags := (List.range' (blockStart lines declLine) (declLine - blockStart lines declLine)).filterMap
    fun line =>
      let text := lines[line]?.getD []
      if isTag text then some ⟨line, trim text⟩ else none

/-- Just the text of a block's tags, which is what the annotation parser takes. -/
def tagText (tags : List TagLine) : List Text := tags.map TagLine.text

/-! ## Declarations -/

/-- The model-level `##` lines: the description's paragraphs, and the others. -/
def modelLines (lines : List Text) : Option Text × List Text :=
  let doc := lines.filterMap fun line =>
    if "##\"".toList.isPrefixOf (trim line) then some (trim ((trim line).drop 3)) else none
  let artifact := lines.filterMap fun line =>
    if "##".toList.isPrefixOf (trim line) && !"##\"".toList.isPrefixOf (trim line) &&
        !"##!".toList.isPrefixOf (trim line) then some (trim line) else none
  (if doc = [] then none else some (['\n'].intercalate doc), artifact)

/-- `[A-Za-z0-9_.]` -/
def isPathChar (c : Char) : Bool := isWordChar c || c = '.'

/-- `<keyword>:\s*<name>\s+is\s+([A-Za-z_][A-Za-z0-9_.]*)`: the path, and what follows. -/
def readBase (keyword : Keyword) (name text : Text) : Option (Text × Text) := do
  let text ← readWord name (skipSpace (← readWord keyword.text text))
  readIdent isPathChar (← readSpace (← readWord "is".toList (← readSpace text)))

/-- What a source extends. -/
def sourceBase (text name : Text) : Option Text :=
  text.tails.findSome? fun tail => (readBase .source name tail).map Prod.fst

/-- What a view is declared from. -/
inductive ViewBody where
  | reference (base : Text) (refinement : Option Text)
  | inline
  deriving DecidableEq

/-- `\+\s*\{`, and what follows. -/
def readPlusBrace (text : Text) : Option Text := do
  readWord "\x7b".toList (skipSpace (← readWord "+".toList text))

/-- `(\+\s*\{[\s\S]*\})?`: up to the last closing brace, if there is one. -/
def refinementAt (text : Text) : Option Text :=
  (readPlusBrace text).bind fun inner =>
    if '}' ∈ inner then
      some ((text.reverse.dropWhile (· ≠ '}')).reverse)
    else none

/-- A reference to a base view, refined or not, or a query of its own. -/
def viewBody (text name : Text) : Option ViewBody :=
  let reference := text.tails.findSome? fun tail =>
    (readBase .view name tail).map fun read =>
      ViewBody.reference read.1 ((refinementAt (skipSpace read.2)).map trim)
  reference <|>
    if text.tails.any fun tail =>
        (do
          let text ← readWord name (skipSpace (← readWord Keyword.view.text tail))
          readWord "\x7b".toList (skipSpace (← readWord "is".toList (← readSpace text)))).isSome
    then some .inline else none

/-- `(~|>=|<=|!=|=|>|<)`, and what follows. -/
def readOperator (text : Text) : Option (Text × Text) :=
  ["~", ">=", "<=", "!=", "=", ">", "<"].findSome? fun op =>
    (readWord op.toList text).map fun rest => (op.toList, rest)

/-- `where:\s*(<path>)\s*(<operator>)\s*\$(IDENT)`: one binding, and what follows. -/
def readBinding (text : Text) : Option (TileFilter × Text) := do
  let (field, text) ← readIdent isPathChar (skipSpace (← readWord "where:".toList text))
  let (op, text) ← readOperator (skipSpace text)
  let (given, text) ← readIdent isWordChar (← readWord "$".toList (skipSpace text))
  some ({ field, given, op := if op = "~".toList then none else some op }, text)

theorem length_readIdent {more : Char → Bool} {text name rest : Text}
    (reads : readIdent more text = some (name, rest)) : rest.length ≤ text.length := by
  unfold readIdent at reads
  split at reads
  · rw [Option.some_inj, Prod.mk.injEq] at reads
    rw [← reads.2]
    exact (List.dropWhile_sublist _).length_le
  · cases reads

theorem length_readOperator {text op rest : Text} (reads : readOperator text = some (op, rest)) :
    rest.length ≤ text.length := by
  obtain ⟨word, -, reads⟩ := List.exists_of_findSome?_eq_some reads
  obtain ⟨after, found, same⟩ := Option.map_eq_some_iff.mp reads
  exact (Prod.mk.inj same).2 ▸ length_readWord found

/-- A binding is never empty. -/
theorem length_readBinding {text rest : Text} {binding : TileFilter}
    (reads : readBinding text = some (binding, rest)) : rest.length < text.length := by
  simp only [readBinding, Option.bind_eq_bind, Option.bind_eq_some_iff, Prod.exists,
    Option.some_inj, Prod.mk.injEq] at reads
  obtain ⟨afterWhere, whereRead, field, afterField, fieldRead, op, afterOp, opRead, afterDollar,
    dollarRead, given, afterGiven, givenRead, -, rfl⟩ := reads
  have taken := congrArg List.length (readWord_eq_some_iff.mp whereRead)
  have field := length_readIdent fieldRead
  have op := length_readOperator opRead
  have dollar := length_readWord dollarRead
  have given := length_readIdent givenRead
  have := length_skipSpace afterWhere
  have := length_skipSpace afterField
  have := length_skipSpace afterOp
  have word : "where:".toList.length = 6 := rfl
  rw [List.length_append, word] at taken
  omega

/-- `BINDING_CLAUSE` -/
def bindingClause : Pattern Char TileFilter := ⟨readBinding, length_readBinding⟩

/-- The bindings of a refinement. -/
def filtersOf (refinement : Option Text) : Option (List TileFilter) :=
  refinement.bind fun text =>
    if scanAll bindingClause text = [] then none else some (scanAll bindingClause text)

/-! ## Tiles -/

/-- `"([^"]+)"`: one quoted entry, and what follows. -/
def readQuoted (text : Text) : Option (Text × Text) :=
  match text with
  | '"' :: rest =>
    match rest.dropWhile (· ≠ '"') with
    | _ :: after =>
      if rest.takeWhile (· ≠ '"') = [] then none else some (rest.takeWhile (· ≠ '"'), after)
    | [] => none
  | _ => none

theorem length_readQuoted {text entry rest : Text} (reads : readQuoted text = some (entry, rest)) :
    rest.length < text.length := by
  unfold readQuoted at reads
  split at reads
  next after =>
    split at reads
    next c later found =>
      split at reads
      · cases reads
      · have shorter := (List.dropWhile_sublist (· ≠ '"') (l := after)).length_le
        rw [Option.some_inj, Prod.mk.injEq] at reads
        rw [found, List.length_cons, reads.2] at shorter
        rw [List.length_cons]
        omega
    next => cases reads
  next => cases reads

/-- `/"([^"]+)"/g` -/
def quotedEntry : Pattern Char Text := ⟨readQuoted, length_readQuoted⟩

/-- `tiles\s*=\s*\[`, and what follows. -/
def readTilesKey (text : Text) : Option Text := do
  let text ← readWord "=".toList (skipSpace (← readWord "tiles".toList text))
  readWord "[".toList (skipSpace text)

/-- The `tiles=[…]` entries, in order, as written. -/
def tileEntries (artifactLine : Text) : List Text :=
  match artifactLine.tails.findSome? readTilesKey with
  | some list =>
    if ']' ∈ list then scanAll quotedEntry (list.takeWhile (· ≠ ']')) else []
  | none => []

variable {N T : Type} (host : Host N T)

/-- A tag's text where it says something. -/
def labelled (tag : Option T) (key : String) : Option Text :=
  (tag.bind (host.text · key.toList)).filter (· ≠ [])

def flagged (tag : Option T) (key : String) : Option Bool :=
  if tag.any (host.has · key.toList) then some true else none

/-- The tile over a view of a source. One that is not declared in the file is inherited. -/
def readTileOf (lines : List Text) (viewsBySource : List (Text × List (Text × DeclarationAt)))
    (source view : Text) : Except ReadFailure (DashboardTile N) :=
  match (viewsBySource.lookup source).bind (·.lookup view) with
  | none => .ok { name := view, source, declaration := .inherited }
  | some { line, .. } =>
    match viewBody (lines[line]?.getD []) view with
    | none =>
      .error { reason := "Could not read what view `" ++ String.ofList view ++
                 "` is declared from."
               line := some (line + 1) }
    | some body =>
      let tag := host.parseAnnotation (tagText (blockAbove lines line).tags)
      .ok {
        name := view
        source
        declaration := match body with
          | .reference base _ => .reference base
          | .inline => .inline
        filters := match body with
          | .reference _ refinement => filtersOf refinement
          | .inline => none
        label := labelled host tag "label"
        subtitle := labelled host tag "subtitle"
        colspan := tag.bind (host.numeric · "colspan".toList)
        lineBreak := flagged host tag "break"
        borderless := flagged host tag "borderless" }

/-- The tile of a `tiles=[…]` entry. -/
def readTile (lines : List Text) (viewsBySource : List (Text × List (Text × DeclarationAt)))
    (entry : Text) : Except ReadFailure (DashboardTile N) :=
  match tileSteps entry with
  | none => .error { reason := "The tile `" ++ String.ofList entry ++
      "` is not a `source -> view` expression, which is the only form the builder can lay out." }
  | some steps => readTileOf host lines viewsBySource steps.source steps.view

/-! ## Givens -/

/-- `^([A-Z_][A-Z0-9_]*)\s*::\s*(\S+)\s+is\s+(.+)$`: name, type and default. -/
def readGiven (declaration : Text) : Option (Text × Text × Text) := do
  let (name, text) ← readGivenName declaration
  let type := (skipSpace text).takeWhile (!isSpace ·)
  let text ← readSpace (← readWord "is".toList (← readSpace ((skipSpace text).dropWhile (!isSpace ·))))
  if type = [] ∨ text = [] ∨ text.any endsLine then none else some (name, type, trim text)

/-- The control contract off a given's tags. -/
def readControlTags (tag : Option T) (given : LocalGiven N) : LocalGiven N :=
  match tag with
  | none => given
  | some tag =>
    let suggest := host.tag tag "suggest".toList
    { given with
      label := host.text tag "label".toList
      description := host.text tag "description".toList
      control := host.text tag "control".toList
      suggest := suggest.bind fun suggest =>
        ((host.text suggest "dimension".toList).filter (· ≠ [])).map fun dimension =>
          { source := host.text suggest "source".toList
            query := host.text suggest "query".toList
            dimension }
      rangeMin := host.numeric tag "range_min".toList
      rangeMax := host.numeric tag "range_max".toList }

/-- The givens a file declares, with their control contracts. -/
def localGivens (lines : List Text) : Option (List (LocalGiven N)) :=
  let givens := (givenDeclarations lines).filterMap fun declared =>
    (readGiven declared.2.declaration).map fun (name, type, default) =>
      readControlTags host
        (host.parseAnnotation (tagText (blockAbove lines declared.2.line).tags))
        { name, type, default }
  if givens = [] then none else some givens

/-! ## The file -/

/-- What the symbols of a file have come to. -/
structure SymbolsRead where
  imports : List DashboardImport := []
  sources : List DashboardSource := []
  drills : List DashboardDrill := []
  viewsBySource : List (Text × List (Text × DeclarationAt)) := []

/-- The drill on a dimension, if its tags have one. -/
def readDrill (lines : List Text) (source : Text) (dimension : Text × DeclarationAt) :
    Option DashboardDrill :=
  let tag := host.parseAnnotation (tagText (blockAbove lines dimension.2.line).tags)
  (tag.bind (host.tag · "drill".toList)).map fun drill =>
    { source
      name := dimension.1
      expression := dimension.2.rest
      destinations := ((host.textArray drill "to".toList).getD
        [(host.text drill "to".toList).getD []]).filter (· ≠ [])
      given := (host.text drill "given".toList).filter (· ≠ []) }

/-- One symbol of the file: an import, or a source with what is declared under it. -/
def readSymbol (lines : List Text) (read : SymbolsRead) :
    Symbol → Except ReadFailure SymbolsRead
  | .import_ path items =>
    let import_ : DashboardImport := if items = [] then .all path else .names items path
    .ok { read with imports := read.imports ++ [import_] }
  | .explore name line =>
    match sourceBase (lines[line]?.getD []) name with
    | none =>
      .error { reason := "Could not read what source `" ++ String.ofList name ++ "` extends."
               line := some (line + 1) }
    | some base =>
      let dimensions := declarationsUnder lines name .dimension
      let declared := dimensions.map fun dimension => ⟨dimension.1, dimension.2.rest⟩
      let source : DashboardSource :=
        { name, base, dimensions := if dimensions = [] then none else some declared }
      .ok { read with
        sources := read.sources ++ [source]
        drills := read.drills ++ dimensions.filterMap (readDrill host lines name)
        viewsBySource := setKey name (declarationsUnder lines name .view) read.viewsBySource }
  | .other => .ok read

/-- The text of an artifact line as an object tag. -/
def asObjectTag (artifactLine : Text) : Text := "# ".toList ++ skipSpace (artifactLine.drop 2)

/-- The starting values of an artifact tag's `givens { … }`. -/
def readStartingGivens (artifactTag : Option T) : Option (List (Text × Text)) :=
  let values := (artifactTag.bind (host.tag · "givens".toList)).elim [] fun givens =>
    (host.keys givens).foldl (fun values key =>
      match host.text givens key with
      | some value => setKey key value values
      | none => values) []
  if values = [] then none else some values

/-- The document of the lines of a file, with what was read of its symbols and its tiles. -/
def documentOf (lines : List Text) (artifactLine : Text) (read : SymbolsRead)
    (tiles : List (DashboardTile N)) : DashboardDocument N :=
  let tag := host.parseAnnotation [asObjectTag artifactLine]
  let artifactTag := tag.bind (host.tag · "artifact".toList)
  { title := (artifactTag.bind (host.text · "title".toList)).getD []
    description := (modelLines lines).1
    columns := (tag.bind (host.tag · "dashboard".toList)).bind (host.numeric · "columns".toList)
    autorun := artifactTag.bind fun tag =>
      if host.has tag "autorun".toList then some (host.isTrue tag "autorun".toList) else none
    imports := read.imports
    sources := read.sources
    localGivens := localGivens host lines
    startingGivens := readStartingGivens host artifactTag
    drills := if read.drills = [] then none else some read.drills
    tiles }

/-- The document of a dashboard file, or why it cannot be opened. -/
def readDashboardDocument (sourceText : Text) : Except ReadFailure (DashboardDocument N) :=
  let lines := linesOf sourceText
  match host.parse sourceText with
  | .error error => .error { reason := "This file is not valid Malloy: " ++ error }
  | .ok symbols =>
    match (modelLines lines).2.find? namesArtifact with
    | none => .error { reason := "No `## artifact \x7b … \x7d` tag, so this file is not a " ++
        "composite dashboard." }
    | some artifactLine =>
      if tileEntries artifactLine = [] then
        .error { reason :=
          "The `## artifact` tag names no tiles, so there is nothing to lay out." }
      else do
        let read ← symbols.foldlM (readSymbol host lines) {}
        let tiles ← (tileEntries artifactLine).mapM (readTile host lines read.viewsBySource)
        .ok (documentOf host lines artifactLine read tiles)

end MalloyPublisher.Dashboard
