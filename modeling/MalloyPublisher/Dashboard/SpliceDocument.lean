import MalloyPublisher.Dashboard.ReadDocument
import MalloyPublisher.Foundations.CheckedFold

/-!
# Writing a change back into a dashboard file

A change to a document is written by patching the file. Seven planners look at the file as it
stands and plan edits of ranges that start and end where lines do; the edits are applied last
first, the result is read back, and it is refused unless it reads as the document asked for.

Positions are counted in lines here: an edit goes from before one line to before another, and
starts at the offset of the first.

## Main definitions

* `planOrder`, …, `planTilePresentation` — the planners
* `plannedEdits` — the edits all of them plan
* `spliceDashboardDocument` — the text of the changed file, or why it was not written

## Main results

* `exists_readDashboardDocument_eq_ok` — a written text reads as the document that was asked for
-/

namespace MalloyPublisher.Dashboard

open Foundations

/-- A replacement of lines. -/
abbrev LineEdit := CellEdit Char

/-! ## Patterns -/

/-- The first match of a pattern that sees the character before it: what stands before it, the
match, and what follows. -/
def firstMatch (read : Option Char → Text → Option Text) (before : Text) :
    Text → Option (Text × Text × Text)
  | [] => (read before.getLast? []).map fun after => (before, [], after)
  | c :: rest =>
    match read before.getLast? (c :: rest) with
    | some after => some (before, (c :: rest).take ((c :: rest).length - after.length), after)
    | none => firstMatch read (before ++ [c]) rest

/-- A replacement text with its `$` patterns expanded, as `String.prototype.replace` does. -/
def expand (matched before after : Text) : Text → Text
  | [] => []
  | '$' :: '$' :: rest => '$' :: expand matched before after rest
  | '$' :: '&' :: rest => matched ++ expand matched before after rest
  | '$' :: '\x60' :: rest => before ++ expand matched before after rest
  | '$' :: '\x27' :: rest => after ++ expand matched before after rest
  | c :: rest => c :: expand matched before after rest

/-- `text.replace(pattern, replacement)` for a pattern without captures. -/
def replaceFirst (read : Option Char → Text → Option Text) (replacement text : Text) : Text :=
  match firstMatch read [] text with
  | some (before, matched, after) => before ++ expand matched before after replacement ++ after
  | none => text

/-- `String.prototype.trimEnd` -/
def trimEnd (text : Text) : Text := (text.reverse.dropWhile isSpace).reverse

/-- `\{[^}]*\}`, and what follows. -/
def readBraces (text : Text) : Option Text := do
  let inner ← readWord "\x7b".toList text
  if '}' ∈ inner then some ((inner.dropWhile (· ≠ '}')).drop 1) else none

/-- `\s{2,}`, and what follows. -/
def readSpaces (text : Text) : Option (Unit × Text) :=
  match text with
  | c :: d :: rest => if isSpace c && isSpace d then some ((), skipSpace rest) else none
  | _ => none

/-- `\s*,\s*,\s*`, and what follows. -/
def readCommas (text : Text) : Option (Unit × Text) := do
  let text ← readWord ",".toList (skipSpace (← readWord ",".toList (skipSpace text)))
  some ((), skipSpace text)

theorem length_readSpaces {text rest : Text} {read : Unit}
    (reads : readSpaces text = some (read, rest)) : rest.length < text.length := by
  unfold readSpaces at reads
  split at reads
  next c d after =>
    split at reads
    · have := length_skipSpace after
      rw [Option.some_inj, Prod.mk.injEq] at reads
      rw [← reads.2, List.length_cons, List.length_cons]
      omega
    · cases reads
  next => cases reads

theorem length_readCommas {text rest : Text} {read : Unit}
    (reads : readCommas text = some (read, rest)) : rest.length < text.length := by
  simp only [readCommas, Option.bind_eq_bind, Option.bind_eq_some_iff, Option.some_inj,
    Prod.mk.injEq] at reads
  obtain ⟨first, firstRead, second, secondRead, -, rfl⟩ := reads
  have taken := congrArg List.length (readWord_eq_some_iff.mp firstRead)
  have more := length_readWord secondRead
  have := length_skipSpace text
  have := length_skipSpace first
  have := length_skipSpace second
  have word : ",".toList.length = 1 := rfl
  rw [List.length_append, word] at taken
  omega

def doubleSpace : Pattern Char Unit := ⟨readSpaces, length_readSpaces⟩

def doubleComma : Pattern Char Unit := ⟨readCommas, length_readCommas⟩

/-! ## Lines -/

/-- Depth and whether a brace was opened, after the braces of a line. -/
def countBraces (state : ℤ × Bool) (line : Text) : ℤ × Bool :=
  line.foldl (fun state c =>
    if c = '{' then (state.1 + 1, true) else if c = '}' then (state.1 - 1, state.2) else state) state

def declarationEndFrom (line : ℕ) (state : ℤ × Bool) : ℕ → List Text → ℕ
  | at_, [] => at_ - 1
  | at_, text :: rest =>
    let state := countBraces state text
    if state.2 && state.1 ≤ 0 then at_
    else if !state.2 && at_ = line then at_
    else declarationEndFrom line state (at_ + 1) rest

/-- The last line of the declaration on a line: that line, or where its braces close. -/
def declarationEnd (lines : List Text) (line : ℕ) : ℕ :=
  declarationEndFrom line (0, false) line (lines.drop line)

/-- `\b<keyword>:\s*<name>\s+is\b` somewhere in a line. -/
def mentions (keyword : Keyword) (name line : Text) : Bool :=
  (firstMatch (fun previous text =>
    if previous.any isWordChar then none
    else do readIs (← readWord name (skipSpace (← readWord keyword.text text)))) [] line).isSome

/-- The line where a source declares a view. -/
def viewDeclarationLine (lines : List Text) (sourceName viewName : Text) : Option ℕ :=
  (lines.findIdx? (mentions .source sourceName)).bind fun sourceLine =>
    (List.range' sourceLine (declarationEnd lines sourceLine + 1 - sourceLine)).find? fun line =>
      mentions .view viewName (lines[line]?.getD [])

/-! ## Tags -/

/-- A tag string value, with the characters the tag parser unescapes escaped. -/
def quoted (text : Text) : Text :=
  '"' :: text.flatMap (fun c => if c = '\\' ∨ c = '"' then ['\\', c] else [c]) ++ ['"']

/-- `^#\s*([a-z_]+)`: which property a tag line carries. -/
def tagKey (text : Text) : Option Text :=
  (readWord "#".toList text).bind fun text =>
    let key := (skipSpace text).takeWhile fun c => c.isLower || c = '_'
    if key = [] then none else some key

/-- The tag keys of a tile that the document models. -/
def modelledTagKeys : List Text :=
  ["colspan", "break", "borderless", "label", "subtitle"].map String.toList

/-- The tag keys of a given that the document models. -/
def modelledGivenTagKeys : List Text :=
  ["label", "description", "control", "suggest", "range_min", "range_max"].map String.toList

variable {N T : Type} (host : Host N T)

/-- The tags a tile's presentation implies, in the order they are written. -/
def tagsFor (tile : DashboardTile N) : List Text :=
  (tile.colspan.map fun colspan => "# colspan=".toList ++ host.print colspan).toList ++
  (if tile.lineBreak = some true then ["# break".toList] else []) ++
  (if tile.borderless = some true then ["# borderless".toList] else []) ++
  (tile.label.map fun label => "# label=".toList ++ quoted label).toList ++
  (tile.subtitle.map fun subtitle => "# subtitle=".toList ++ quoted subtitle).toList

/-- A given's tag line, composed from its control contract. -/
def givenTagLine (given : LocalGiven N) : Option Text :=
  let parts : List Text :=
    (given.label.map fun label => "label=".toList ++ quoted label).toList ++
    (given.description.map fun text => "description=".toList ++ quoted text).toList ++
    (given.control.map fun control => "control=".toList ++ control).toList ++
    (given.suggest.map fun suggest =>
      let by_ := (suggest.source.map ("source=".toList ++ ·)) <|>
        suggest.query.map ("query=".toList ++ ·)
      "suggest \x7b ".toList ++ by_.elim [] (· ++ " ".toList) ++ "dimension=".toList ++
        suggest.dimension ++ " \x7d".toList).toList ++
    (given.rangeMin.map fun bound => "range_min=".toList ++ host.print bound).toList ++
    (given.rangeMax.map fun bound => "range_max=".toList ++ host.print bound).toList
  if parts = [] then none else some ("# ".toList ++ " ".toList.intercalate parts)

/-- The one-line spelling of a given that the builder writes. -/
def givenDeclaration (given : LocalGiven N) : Text :=
  "given: ".toList ++ given.name ++ " :: ".toList ++ given.type ++ " is ".toList ++ given.default

/-- `# drill { to=… given=… }` -/
def drillTagLine (drill : DashboardDrill) : Text :=
  let destinations := match drill.destinations with
    | [only] => only
    | all => "[".toList ++ ", ".toList.intercalate (all.map fun d => '"' :: d ++ ['"']) ++ "]".toList
  "# drill \x7b to=".toList ++ destinations ++
    drill.given.elim [] (fun given => if given = [] then [] else " given=".toList ++ given) ++
    " \x7d".toList

/-! ## The change -/

/-- Tiles of one document that another does not have. -/
def tilesWithout (document other : DashboardDocument N) : List (DashboardTile N) :=
  document.tiles.filter (tileKey · ∉ other.tiles.map tileKey)

/-- Sources that are to be added. -/
def newSources (current next : DashboardDocument N) : List DashboardSource :=
  next.sources.filter (·.name ∉ current.sources.map DashboardSource.name)

variable [DecidableEq N]

/-- Whether the tile list changes, in its members or in their order. -/
def reordered (current next : DashboardDocument N) : Bool :=
  current.tiles.map tileKey ≠ next.tiles.map tileKey

/-- Whether a change is one that the builder may write at all. -/
def checkShape (current next : DashboardDocument N) : Except String Unit := do
  let added := tilesWithout next current
  for tile in added do
    match tile.declaration with
    | .reference _ => pure ()
    | .inline => throw ("A new tile names a view of a source; `" ++ String.ofList tile.name ++
        "` is an inline query, which the builder cannot write.")
    | .inherited => throw ("A new tile names a view of a source; `" ++ String.ofList tile.name ++
        "` is not declared here, which the builder cannot write.")
  for source in current.sources do
    match next.sources.find? (·.name = source.name) with
    | some still =>
      if still.base ≠ source.base then
        throw ("The source `" ++ String.ofList source.name ++ "` cannot be changed or removed here.")
    | none =>
      throw ("The source `" ++ String.ofList source.name ++ "` cannot be changed or removed here.")
  let importedByName := (current.imports.flatMap fun
    | .all _ => []
    | .names names _ => names) ++ current.sources.map DashboardSource.base
  for source in newSources current next do
    if !added.any (·.source = source.name) then
      throw ("A new source `" ++ String.ofList source.name ++ "` needs a tile on it.")
    if source.base ∉ importedByName then
      throw ("`" ++ String.ofList source.base ++ "` is not imported by name in this file, so a " ++
        "tile cannot be put on it. The builder does not add imports: import \x7b " ++
        String.ofList source.base ++ " \x7d from the model first.")
  if current.imports ≠ next.imports then
    throw "The dashboard's imports cannot be changed here."

/-- What a planner reads: the lines of the file, of which `count` have text or a line break,
and the two documents. -/
structure SpliceContext (N : Type) where
  source : Text
  current : DashboardDocument N
  next : DashboardDocument N

namespace SpliceContext

variable (ctx : SpliceContext N)

def lines : List Text := linesOf ctx.source

/-- How many lines have text or a line break. The end of the text stands behind them. -/
def count : ℕ := (rows ctx.source).length

def line (at_ : ℕ) : Text := ctx.lines[at_]?.getD []

/-- The replacement of a whole line, its line break included. -/
def wholeLine (at_ : ℕ) (text : Text) : LineEdit := ⟨at_, min (at_ + 1) ctx.count, text⟩

/-- An insertion before a line. -/
def insertAt (at_ : ℕ) (text : Text) : LineEdit := ⟨at_, at_, text⟩

/-- The place behind a line. -/
def behind (at_ : ℕ) : ℕ := min (at_ + 1) ctx.count

def indentOf (at_ : ℕ) : Text := (ctx.line at_).takeWhile isSpace

end SpliceContext

/-- One concern of the writer: the edits planned before, and its own behind them. -/
abbrev Planner (N : Type) := SpliceContext N → List LineEdit → Except String (List LineEdit)

/-! ## Order and settings -/

/-- `tiles\s*=\s*\[[\s\S]*?\]`, and what follows. -/
def readTilesList (_previous : Option Char) (text : Text) : Option Text := do
  let list ← readTilesKey text
  if ']' ∈ list then some ((list.dropWhile (· ≠ ']')).drop 1) else none

/-- The written spelling of each `source->view`. -/
def writtenEntries (line : Text) : List (Text × Text) :=
  (scanAll quotedEntry line).foldl (fun byKey entry =>
    match (splitArrow entry).map trim with
    | [source, view] => setKey (source ++ "->".toList ++ view) entry byKey
    | _ => byKey) []

/-- A reorder is one rewritten array on the `## artifact` line, each entry as it was written. -/
def planOrder : Planner N := fun ctx edits =>
  if reordered ctx.current ctx.next then
    match artifactLine ctx.lines with
    | none => .error "Could not find the `## artifact` tag to reorder."
    | some artifactAt =>
      let byKey := writtenEntries (ctx.line artifactAt)
      let nextEntries := ctx.next.tiles.map fun tile =>
        byKey.lookup (tile.source ++ "->".toList ++ tile.name) <|>
          if tileKey tile ∉ ctx.current.tiles.map tileKey then
            some (tile.source ++ " -> ".toList ++ tile.name)
          else none
      if nextEntries.any Option.isNone then
        .error "A tile in the new order is not one the `## artifact` tag names."
      else
        let list := "tiles=[".toList ++ ", ".toList.intercalate
          ((nextEntries.filterMap id).map fun entry => '"' :: entry ++ ['"']) ++ "]".toList
        let rewritten := replaceFirst readTilesList list (ctx.line artifactAt)
        .ok (if rewritten = ctx.line artifactAt then edits
          else edits ++ [ctx.wholeLine artifactAt (rewritten ++ ['\n'])])
  else .ok edits

/-- What stands in braces before the brace that closes them, and that brace with the rest. -/
def toClosingBrace : ℕ → Text → Option (Text × Text)
  | _, [] => none
  | depth, '{' :: rest => (toClosingBrace (depth + 1) rest).map fun read => ('{' :: read.1, read.2)
  | 0, '}' :: rest => some ([], '}' :: rest)
  | depth + 1, '}' :: rest => (toClosingBrace depth rest).map fun read => ('}' :: read.1, read.2)
  | depth, c :: rest => (toClosingBrace depth rest).map fun read => (c :: read.1, read.2)

/-- The `## artifact` line split at the braces of its tag. -/
def artifactBraces (line : Text) : Option (Text × Text × Text) :=
  let head := line.take ((line.tails.findIdx? "artifact".toList.isPrefixOf).getD 0)
  let tag := line.drop head.length
  if '{' ∈ tag then
    (toClosingBrace 0 ((tag.dropWhile (· ≠ '{')).drop 1)).map fun read =>
      (head ++ tag.takeWhile (· ≠ '{') ++ ['{'], read.1, read.2)
  else none

/-- `"(?:[^"\\]|\\.)*"`, behind the opening quote: what follows the closing one. -/
def readQuotedValue : Text → Option Text
  | [] => none
  | '"' :: rest => some rest
  | ['\\'] => none
  | '\\' :: c :: rest => if endsLine c then none else readQuotedValue rest
  | _ :: rest => readQuotedValue rest

/-- `\s*\b<key>=(?:"(?:[^"\\]|\\.)*"|[^\s}]+)`, and what follows. -/
def readProperty (key : Text) (previous : Option Char) (text : Text) : Option Text := do
  let behind := if text.head?.any isSpace then none else previous
  let value ← readWord (key ++ ['=']) (skipSpace text)
  let bare := value.dropWhile fun c => !isSpace c && c ≠ '}'
  if behind.any isWordChar then none
  else
    ((readWord ['"'] value).bind readQuotedValue) <|>
      if bare.length < value.length then some bare else none

/-- `setProperty` on the inside of the artifact tag's braces. -/
def setProperty (key : Text) (value : Option Text) (inner : Text) : Text :=
  match value with
  | none => replaceFirst (readProperty key) [] inner
  | some value =>
    if (firstMatch (readProperty key) [] inner).isSome then
      replaceFirst (readProperty key) (' ' :: key ++ '=' :: value) inner
    else trimEnd inner ++ ' ' :: key ++ '=' :: value ++ [' ']

/-- `\s*\bgivens\s*\{[^}]*\}`, and what follows. -/
def readGivensProperty (previous : Option Char) (text : Text) : Option Text :=
  if !text.head?.any isSpace && previous.any isWordChar then none
  else (readWord "givens".toList (skipSpace text)).bind (readBraces ∘ skipSpace)

/-- `\s*dashboard\s*\{[^}]*\}`, and what follows. -/
def readDashboardProperty (_previous : Option Char) (text : Text) : Option Text :=
  (readWord "dashboard".toList (skipSpace text)).bind (readBraces ∘ skipSpace)

/-- The inside of the artifact tag's braces with the page's settings in it. -/
def settingsInner (current next : DashboardDocument N) (inner : Text) : Text :=
  let titled :=
    if current.title = next.title then inner
    else setProperty "title".toList (if next.title = [] then none else some (quoted next.title)) inner
  let run :=
    if current.autorun = next.autorun then titled
    else setProperty "autorun".toList (next.autorun.map fun run => (toString run).toList) titled
  let started :=
    if current.startingGivens.map sortedByKey = next.startingGivens.map sortedByKey then run
    else
      let without := replaceFirst readGivensProperty [] run
      let entries := next.startingGivens.getD []
      if entries = [] then without
      else trimEnd without ++ " givens \x7b ".toList ++
        " ".toList.intercalate (entries.map fun entry => entry.1 ++ '=' :: quoted entry.2) ++
        " \x7d".toList
  replaceAll doubleSpace [' '] started

/-- The artifact line with the page's settings in it. -/
def settingsLine (current next : DashboardDocument N) (line : Text) : Option Text :=
  (artifactBraces line).map fun (open_, inner, close) =>
    let inner := settingsInner current next inner
    let line := open_ ++ (if inner.head? = some ' ' then inner else ' ' :: inner) ++
      (if inner.getLast? = some ' ' then [] else [' ']) ++ close
    if current.columns = next.columns then line
    else
      let line := replaceFirst readDashboardProperty [] line
      next.columns.elim line fun columns =>
        trimEnd line ++ " dashboard \x7b columns=".toList ++ host.print columns ++ " \x7d".toList

/-- Whether a line is a paragraph of the description. -/
def isDescription (line : Text) : Bool := "##\"".toList.isPrefixOf (trim line)

/-- A description as `##"` lines. -/
def descriptionText (description : Text) : Text :=
  ['\n'].intercalate ((linesOf description).map fun paragraph =>
    if trim paragraph = [] then "##\"".toList else "##\" ".toList ++ trim paragraph) ++ ['\n']

/-- The edits of the page's description. -/
def planDescription (ctx : SpliceContext N) (edits : List LineEdit) : List LineEdit :=
  if ctx.current.description = ctx.next.description then edits
  else
    let docLines := (List.range ctx.lines.length).filter fun at_ => isDescription (ctx.line at_)
    match docLines.head?, docLines.getLast?, ctx.next.description, artifactLine ctx.lines with
    | some first, some last, description, _ =>
      edits ++ [⟨first, ctx.behind last, description.elim [] descriptionText⟩]
    | _, _, some description, some artifactAt =>
      edits ++ [SpliceContext.insertAt artifactAt (descriptionText description)]
    | _, _, _, _ => edits

/-- The page's settings are properties on the `## artifact` line; what the reorder wrote to
that line is patched further. The description is the run of `##"` lines, or goes above it. -/
def planSettings : Planner N := fun ctx edits =>
  let current := ctx.current
  let next := ctx.next
  if current.title ≠ next.title ∨ current.autorun ≠ next.autorun ∨ current.columns ≠ next.columns ∨
      current.startingGivens.map sortedByKey ≠ next.startingGivens.map sortedByKey then
    match artifactLine ctx.lines with
    | none => .error "Could not find the `## artifact` tag to change the page's settings."
    | some artifactAt =>
      let place := ctx.wholeLine artifactAt []
      let isPlace := fun edit : LineEdit => edit.first = place.first ∧ edit.past = place.past
      let already := edits.find? isPlace
      let line := already.elim (ctx.line artifactAt) fun edit =>
        if edit.text.getLast? = some '\n' then edit.text.dropLast else edit.text
      match settingsLine host current next line with
      | none => .error "Could not read the `## artifact \x7b … \x7d` tag."
      | some line =>
        let rewritten := line ++ ['\n']
        .ok (planDescription ctx (match edits.findIdx? isPlace with
          | some known => edits.set known { place with text := rewritten }
          | none => edits ++ [{ place with text := rewritten }]))
  else .ok (planDescription ctx edits)

/-! ## Givens -/

/-- Givens by name. -/
def byName (givens : Option (List (LocalGiven N))) : List (Text × LocalGiven N) :=
  (givens.getD []).foldl (fun named given => setKey given.name given named) []

/-- Edits of the givens, and the lines they remove. -/
structure GivenEdits where
  edits : List LineEdit
  removedLines : List ℕ

/-- Remove a line. -/
def GivenEdits.remove (planned : GivenEdits) (ctx : SpliceContext N) (line : ℕ) : GivenEdits where
  edits := planned.edits ++ [ctx.wholeLine line []]
  removedLines := line :: planned.removedLines

/-- Whether the blank line under a removed given goes with it: the given is set off by blank
lines, and no given of its block stays behind it. -/
def blankGoes (ctx : SpliceContext N) (declared : List (Text × GivenAt)) (at_ : GivenAt)
    (tags : List TagLine) (planned : GivenEdits) : Bool :=
  let above := at_.blockHeader.getD ((tags.map TagLine.line).foldl min at_.line)
  let belowIsBlank := (ctx.lines[at_.line + 1]?).any (trim · = [])
  let aboveIsBlank := above = 0 || trim (ctx.line (above - 1)) = []
  let lastInBlock := at_.blockHeader = none || !declared.any fun other =>
    other.2.blockHeader = at_.blockHeader && at_.line < other.2.line &&
      (byName ctx.next.localGivens).any (·.1 = other.1)
  belowIsBlank && aboveIsBlank && lastInBlock && at_.line + 1 ∉ planned.removedLines

/-- A given that is taken out: its declaration and all its tags. -/
def planRemovedGiven (ctx : SpliceContext N) (declared : List (Text × GivenAt)) (at_ : GivenAt)
    (planned : GivenEdits) : GivenEdits :=
  let tags := (blockAbove ctx.lines at_.line).tags
  let gone := (tags.foldl (fun planned tag => planned.remove ctx tag.line) planned).remove ctx at_.line
  if blankGoes ctx declared at_ tags gone then gone.remove ctx (at_.line + 1) else gone

/-- A given that is retagged or redeclared: the tags the document models are rewritten. -/
def planChangedGiven (ctx : SpliceContext N) (at_ : GivenAt) (was want : LocalGiven N)
    (planned : GivenEdits) : GivenEdits :=
  let owned := (blockAbove ctx.lines at_.line).tags.filter fun tag =>
    (tagKey tag.text).any (· ∈ modelledGivenTagKeys)
  let gone := owned.foldl (fun planned tag => planned.remove ctx tag.line) planned
  let indent := ctx.indentOf at_.line
  let declaration :=
    if want.type = was.type ∧ want.default = was.default then trim (ctx.line at_.line)
    else if at_.blockHeader = none then givenDeclaration want
    else want.name ++ " :: ".toList ++ want.type ++ " is ".toList ++ want.default
  let tagLine := (givenTagLine host want).elim [] fun tags => indent ++ tags ++ ['\n']
  { gone with edits := gone.edits ++
      [ctx.wholeLine at_.line (tagLine ++ indent ++ declaration ++ ['\n'])] }

/-- One given of the file, as it is to be. -/
def planGiven (ctx : SpliceContext N) (declared : List (Text × GivenAt)) (planned : GivenEdits)
    (was : Text × LocalGiven N) : Except String GivenEdits :=
  let want := (byName ctx.next.localGivens).lookup was.1
  if want = some was.2 then .ok planned
  else
    match declared.lookup was.1 with
    | none =>
      .error ("Could not find where the given `" ++ String.ofList was.1 ++ "` is declared.")
    | some at_ =>
      match want with
      | none => .ok (planRemovedGiven ctx declared at_ planned)
      | some want => .ok (planChangedGiven host ctx at_ was.2 want planned)

/-- A block whose every declaration went loses its `given:` header too. -/
def planBlockHeader (ctx : SpliceContext N) (declared : List (Text × GivenAt))
    (planned : GivenEdits) (at_ : Text × GivenAt) : GivenEdits :=
  match at_.2.blockHeader with
  | none => planned
  | some header =>
    if (byName ctx.next.localGivens).any (·.1 = at_.1) then planned
    else if declared.any fun other => other.2.blockHeader = some header &&
        other.2.line ∉ planned.removedLines then planned
    else if header ∈ planned.removedLines then planned
    else planned.remove ctx header

/-- `^}\s*from\s` -/
def endsImport (text : Text) : Bool :=
  ((readWord "\x7d".toList text).bind fun text => readWord "from".toList (skipSpace text)).any fun text =>
    text.head?.any isSpace

/-- The line on which the last import ends. -/
def lastImport (lines : List Text) : Option ℕ :=
  lines.zipIdx.foldl (fun found place =>
    if "import ".toList.isPrefixOf (trim place.1) then some place.2
    else if found.isSome && endsImport (trim place.1) then some place.2
    else found) none

/-- The givens that are new: behind the last given, or behind the imports. -/
def planAddedGivens (ctx : SpliceContext N) (declared : List (Text × GivenAt)) : List LineEdit :=
  let before := byName ctx.current.localGivens
  let added := ((byName ctx.next.localGivens).filter fun given =>
    !before.any (·.1 = given.1)).map Prod.snd
  if added = [] then []
  else
    let lastGiven := (declared.map fun at_ => at_.2.line).max?
    let anchor := (lastGiven <|> lastImport ctx.lines).getD 0
    let block := ['\n'].intercalate (added.map fun given =>
      (givenTagLine host given).elim [] (· ++ ['\n']) ++ givenDeclaration given ++ ['\n'])
    let hasSwitch := ctx.lines.any fun line => "##! experimental.givens".toList.isPrefixOf (trim line)
    SpliceContext.insertAt (ctx.behind anchor) ('\n' :: block) ::
      if hasSwitch then [] else [SpliceContext.insertAt 0 "##! experimental.givens\n".toList]

/-- The dashboard's own givens, added, removed or retagged by name. -/
def planGivens : Planner N := fun ctx edits => do
  let declared := givenDeclarations ctx.lines
  let planned ← (byName ctx.current.localGivens).foldlM (planGiven host ctx declared) ⟨edits, []⟩
  let planned := declared.foldl (planBlockHeader ctx declared) planned
  .ok (planned.edits ++ planAddedGivens host ctx declared)

/-! ## Drills -/

/-- Drills by dimension. -/
def byDimension (drills : Option (List DashboardDrill)) : List (Text × DashboardDrill) :=
  (drills.getD []).foldl (fun named drill => setKey (drillKey drill) drill named) []

/-- `^#\s*drill\b` -/
def isDrillTag (text : Text) : Bool :=
  ((readWord "#".toList text).bind fun text => readWord "drill".toList (skipSpace text)).any wordEnds

/-- One drill: its tag is added above the dimension, rewritten, or taken off. -/
def planDrill (ctx : SpliceContext N) (edits : List LineEdit) (key : Text) :
    Except String (List LineEdit) :=
  let was := (byDimension ctx.current.drills).lookup key
  let want := (byDimension ctx.next.drills).lookup key
  match want <|> was with
  | none => .ok edits
  | some drill =>
    if was = want then .ok edits
    else if want.any (·.destinations = []) then
      .error ("The drill on `" ++ String.ofList key ++ "` names no destination.")
    else
      match (declarationsUnder ctx.lines drill.source .dimension).lookup drill.name with
      | none =>
        .error ("`" ++ String.ofList drill.name ++ "` is not a dimension `" ++
          String.ofList drill.source ++
          "` declares in this file, so a drill cannot be put on it here.")
      | some at_ =>
        let existing := (blockAbove ctx.lines at_.line).tags.find? (isDrillTag ·.text)
        let written := want.map fun want => ctx.indentOf at_.line ++ drillTagLine want ++ ['\n']
        match existing, written with
        | none, none => .ok edits
        | some existing, none => .ok (edits ++ [ctx.wholeLine existing.line []])
        | some existing, some written => .ok (edits ++ [ctx.wholeLine existing.line written])
        | none, some written => .ok (edits ++ [SpliceContext.insertAt at_.line written])

/-- A drill is one tag on a dimension that the file declares. -/
def planDrills : Planner N := fun ctx edits =>
  let before := (byDimension ctx.current.drills).map Prod.fst
  let after := (byDimension ctx.next.drills).map Prod.fst
  (before ++ after.filter (· ∉ before)).foldlM (planDrill ctx) edits

/-! ## Tiles removed and added -/

/-- What goes with the declaration on a line: its tags, the lines up to its end, and a blank
line below that would meet another. -/
def removalEdits (ctx : SpliceContext N) (declLine : ℕ) : List LineEdit :=
  let endLine := declarationEnd ctx.lines declLine
  let tags := (blockAbove ctx.lines declLine).tags
  let first := (tags.map TagLine.line).foldl min declLine
  let before := if first = 0 then [] else trim (ctx.line (first - 1))
  let blankGoes := (ctx.lines[endLine + 1]?).any (trim · = []) &&
    (before = [] || before.getLast? = some '{')
  tags.map (fun tag => ctx.wholeLine tag.line []) ++ [⟨declLine, ctx.behind endLine, []⟩] ++
    if blankGoes then [ctx.wholeLine (endLine + 1) []] else []

/-- A removed tile: the declaration that the file has first under its name. -/
def planRemovedTile (ctx : SpliceContext N) (edits : List LineEdit) (tile : DashboardTile N) :
    Except String (List LineEdit) :=
  if tile.declaration = .inherited then .ok edits
  else
    match declarationLine ctx.lines .view tile.name with
    | none =>
      .error ("Could not find where `" ++ String.ofList tile.name ++ "` is declared.")
    | some declLine => .ok (edits ++ removalEdits ctx declLine)

def planRemovedTiles : Planner N := fun ctx edits =>
  (tilesWithout ctx.current ctx.next).foldlM (planRemovedTile ctx) edits

/-- `where: <field> <op> $<given>` -/
def bindingText (filter : TileFilter) : Text :=
  "where: ".toList ++ filter.field ++ ' ' :: filter.op.getD "~".toList ++ " $".toList ++ filter.given

/-- The declaration of an added tile, with its tags. -/
def declarationOf (tile : DashboardTile N) (indent : Text) : Text :=
  let base := match tile.declaration with
    | .reference base => base
    | _ => tile.name
  let bindings := ", ".toList.intercalate ((tile.filters.getD []).map bindingText)
  ['\n'].intercalate ((tagsFor host tile).map (indent ++ ·) ++
    [indent ++ "view: ".toList ++ tile.name ++ " is ".toList ++ base ++
      if bindings = [] then [] else " + \x7b ".toList ++ bindings ++ " \x7d".toList])

/-- The indent that the extension on a line uses for its views. -/
def viewIndent (ctx : SpliceContext N) (opened closed : ℕ) : Text :=
  ((List.range' (opened + 1) (closed - (opened + 1))).findSome? fun at_ =>
    let indent := ctx.indentOf at_
    if indent ≠ [] ∧ "view:".toList.isPrefixOf (skipSpace (ctx.line at_)) then some indent
    else none).getD "  ".toList

/-- Behind which line the page's own declarations begin: the last import or given. -/
def lastPreamble (lines : List Text) : Option ℕ :=
  lines.zipIdx.foldl (fun found place =>
    let text := trim place.1
    if (readWord "import".toList text).any (·.head?.any isSpace) ∨
        "given:".toList.isPrefixOf text ∨ endsImport text ∨
        ((text.takeWhile isGivenStart) ≠ [] ∧
          (readWord "::".toList (skipSpace (text.dropWhile isGivenStart))).isSome) then some place.2
    else found) none

/-- Added tiles by the source they are put on. -/
def byExtension (tiles : List (DashboardTile N)) : List (Text × List (DashboardTile N)) :=
  tiles.foldl (fun grouped tile =>
    setKey tile.source ((grouped.lookup tile.source).getD [] ++ [tile]) grouped) []

/-- The tiles added on one source: before the closing brace of its extension, or in a new
extension behind the last one. -/
def planExtension (ctx : SpliceContext N) (planned : List LineEdit × Option ℕ)
    (extension : Text × List (DashboardTile N)) : Except String (List LineEdit × Option ℕ) :=
  let (sourceName, tiles) := extension
  let (edits, lastExtensionEnd) := planned
  if sourceName ∈ ctx.current.sources.map DashboardSource.name then
    match declarationLine ctx.lines .source sourceName with
    | none =>
      .error ("Could not find where the source `" ++ String.ofList sourceName ++ "` is declared.")
    | some opened =>
      let closed := declarationEnd ctx.lines opened
      let indent := viewIndent ctx opened closed
      let precededByBlank := closed = 0 ∨ trim (ctx.line (closed - 1)) = []
      let text := (if precededByBlank then [] else ['\n']) ++
        "\n\n".toList.intercalate (tiles.map fun tile => declarationOf host tile indent) ++ ['\n']
      .ok (edits ++ [SpliceContext.insertAt closed text], lastExtensionEnd)
  else
    match (newSources ctx.current ctx.next).find? (·.name = sourceName) with
    | none => .error ("The tile's source `" ++ String.ofList sourceName ++ "` is not declared.")
    | some source =>
      let block := "\nsource: ".toList ++ source.name ++ " is ".toList ++ source.base ++
        " extend \x7b\n".toList ++
        "\n\n".toList.intercalate (tiles.map fun tile => declarationOf host tile "  ".toList) ++
        "\n\x7d\n".toList
      let anchor := lastExtensionEnd <|> lastPreamble ctx.lines
      let place := anchor.elim ctx.count ctx.behind
      let separator :=
        if place = ctx.count ∧ ctx.source.getLast? ≠ some '\n' then ['\n'] else []
      .ok (edits ++ [SpliceContext.insertAt place (separator ++ block)], anchor)

def planAddedTiles : Planner N := fun ctx edits =>
  let ends := ctx.current.sources.filterMap fun source =>
    (declarationLine ctx.lines .source source.name).map (declarationEnd ctx.lines)
  ((byExtension (tilesWithout ctx.next ctx.current)).foldlM (planExtension host ctx)
    (edits, ends.max?)).map Prod.fst

/-! ## Presentation -/

/-- `/\+\s*\{([\s\S]*)\}\s*$/` at the front of a text: what stands in the braces. -/
def refinementOf (text : Text) : Option Text :=
  (readPlusBrace text).bind fun inner =>
    if (trimEnd inner).getLast? = some '}' then some (trimEnd inner).dropLast else none

/-- What stands in the refinement that ends a line. -/
def existingRefinement (line : Text) : Text := (line.tails.findSome? refinementOf).getD []

/-- A line without the refinement that ends it. -/
def withoutRefinement (line : Text) : Text :=
  match line.tails.find? fun tail => (refinementOf (skipSpace tail)).isSome with
  | some tail => line.take (line.length - tail.length)
  | none => line

/-- `[\s,;]` -/
def isSeparator (c : Char) : Bool := isSpace c || c = ',' || c = ';'

/-- What a refinement says besides its bindings. -/
def keptClauses (existing : Text) : Text :=
  let cleared := replaceAll doubleComma ", ".toList (replaceAll bindingClause [] existing)
  ((cleared.dropWhile isSeparator).reverse.dropWhile isSeparator).reverse

/-- The declaration of a tile with its bindings in place of those it has. -/
def rewrittenDeclaration (line : Text) (filters : Option (List TileFilter)) : Text :=
  let kept := keptClauses (existingRefinement line)
  let clauses := (if kept = [] then [] else [kept]) ++ (filters.getD []).map bindingText
  if clauses = [] then withoutRefinement line
  else withoutRefinement line ++ " + \x7b ".toList ++ ", ".toList.intercalate clauses ++ " \x7d".toList

/-- The tag that is wanted under a key. Of two under one key it is the last. -/
def wantedByKey (wanted : List Text) (key : Text) : Option Text :=
  wanted.reverse.find? fun text => (tagKey text).getD text = key

/-- The edit of a tag line that stands above a changed tile. -/
def planTag (ctx : SpliceContext N) (indent : Text) (wanted : List Text) (tag : TagLine) :
    Option LineEdit :=
  (tagKey tag.text).bind fun key =>
    if key ∉ modelledTagKeys then none
    else
      match wantedByKey wanted key with
      | none => some (ctx.wholeLine tag.line [])
      | some want =>
        if want = tag.text then none
        else some (ctx.wholeLine tag.line (indent ++ want ++ ['\n']))

/-- The wanted tags that no line above a tile carries. -/
def addedTags (wanted : List Text) (tags : List TagLine) : List Text :=
  let seen := tags.filterMap fun tag => (tagKey tag.text).filter fun key =>
    key ∈ modelledTagKeys && (wantedByKey wanted key).isSome
  wanted.filter fun text => (tagKey text).getD text ∉ seen

/-- The edits of a changed tile that is declared on a line: its tags in place, new ones right
above the declaration, and the declaration where its bindings change. -/
def planTileAt (ctx : SpliceContext N) (declLine : ℕ) (tile : DashboardTile N) : List LineEdit :=
  let tags := (blockAbove ctx.lines declLine).tags
  let indent := ctx.indentOf declLine
  let wanted := tagsFor host tile
  let added := addedTags wanted tags
  let rewritten := rewrittenDeclaration (ctx.line declLine) tile.filters
  tags.filterMap (planTag ctx indent wanted) ++
    (if added = [] then []
      else [SpliceContext.insertAt declLine (added.flatMap fun text => indent ++ text ++ ['\n'])]) ++
    if rewritten = ctx.line declLine then []
    else [ctx.wholeLine declLine (rewritten ++ ['\n'])]

/-- One tile of the document asked for, if it is there already and looks different. -/
def planTile (ctx : SpliceContext N) (edits : List LineEdit) (tile : DashboardTile N) :
    Except String (List LineEdit) :=
  match ctx.current.tiles.reverse.find? (tileKey · = tileKey tile) with
  | none => .ok edits
  | some was =>
    if was = tile then .ok edits
    else if tile.declaration = .inherited then
      .error ("`" ++ String.ofList tile.source ++ " -> " ++ String.ofList tile.name ++
        "` is declared on its source, not in this dashboard, so its presentation cannot be " ++
        "changed here.")
    else
      match viewDeclarationLine ctx.lines tile.source tile.name with
      | none =>
        .error ("Could not find where `" ++ String.ofList tile.name ++ "` is declared inside `" ++
          String.ofList tile.source ++ "`.")
      | some declLine => .ok (edits ++ planTileAt host ctx declLine tile)

def planTilePresentation : Planner N := fun ctx edits =>
  ctx.next.tiles.foldlM (planTile host ctx) edits

/-! ## The change as a whole -/

/-- The edits that a change comes to. -/
def plannedEdits (ctx : SpliceContext N) : Except String (List LineEdit) :=
  [planOrder, planSettings host, planGivens host, planDrills, planRemovedTiles,
    planAddedTiles host, planTilePresentation host].foldlM (fun edits plan => plan ctx edits) []

/-- A document as the writer compares it: drills as a set, and an empty collection as none. -/
def comparable (document : DashboardDocument N) : DashboardDocument N :=
  DashboardDocument.canonical { document with
    tiles := document.tiles.map fun tile => { tile with filters := tile.filters.filter (· ≠ []) }
    drills := (document.drills.filter (· ≠ [])).map fun drills =>
      drills.insertionSort fun a b => host.localeLe (drillKey a) (drillKey b)
    localGivens := document.localGivens.filter (· ≠ []) }

def notProduced : String :=
  "The edit did not produce the dashboard that was asked for, so it was not written. Your " ++
    "changes are still here."

/-- The text of a file with a change written into it, or why it was not written. -/
def spliceDashboardDocument (sourceText : Text) (next : DashboardDocument N) :
    Except String Text := do
  let current ← (readDashboardDocument host sourceText).mapError fun failure =>
    "Cannot edit a file that will not open: " ++ failure.reason
  checkShape current next
  let edits ← plannedEdits host { source := sourceText, current, next }
  if edits = [] then
    if comparable host current = comparable host next then .ok sourceText else .error notProduced
  else
    let spliced := applyEdits sourceText (edits.map (CellEdit.edit (rows sourceText)))
    let after ← (readDashboardDocument host spliced).mapError fun failure =>
      "The edit produced a file that cannot be read back: " ++ failure.reason
    if comparable host after = comparable host next then .ok spliced else .error notProduced

section Written

variable {host} {sourceText text : Text} {next : DashboardDocument N}

/-- What a change writes: the text as it is, when nothing is planned, or with the edits applied. -/
theorem spliceDashboardDocument_eq_ok
    (written : spliceDashboardDocument host sourceText next = .ok text) :
    ∃ current edits, readDashboardDocument host sourceText = .ok current ∧
      plannedEdits host { source := sourceText, current, next } = .ok edits ∧
      text = applyEdits sourceText (edits.map (CellEdit.edit (rows sourceText))) ∧
      ∃ after, readDashboardDocument host text = .ok after ∧
        comparable host after = comparable host next := by
  obtain ⟨current, opened, written⟩ := exists_of_bind_ok written
  obtain ⟨_, -, written⟩ := exists_of_bind_ok written
  obtain ⟨edits, planned, written⟩ := exists_of_bind_ok written
  refine ⟨current, edits, ok_of_mapError opened, planned, ?_⟩
  split at written
  case isTrue none =>
    -- No edits: the text stays, and is what was opened.
    subst none
    split at written
    case isFalse => cases written
    case isTrue same =>
      obtain rfl := Except.ok.inj written
      exact ⟨rfl, current, ok_of_mapError opened, same⟩
  case isFalse some =>
    obtain ⟨after, reread, written⟩ := exists_of_bind_ok written
    split at written
    case isFalse => cases written
    case isTrue same =>
      obtain rfl := Except.ok.inj written
      exact ⟨rfl, after, ok_of_mapError reread, same⟩

/-- A written text reads as the document that was asked for. -/
theorem exists_readDashboardDocument_eq_ok
    (written : spliceDashboardDocument host sourceText next = .ok text) :
    ∃ after, readDashboardDocument host text = .ok after ∧
      comparable host after = comparable host next := by
  obtain ⟨_, _, _, _, _, reads⟩ := spliceDashboardDocument_eq_ok written
  exact reads

end Written

end MalloyPublisher.Dashboard
