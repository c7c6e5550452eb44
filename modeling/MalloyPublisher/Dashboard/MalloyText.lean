import MalloyPublisher.Dashboard.Document
import MalloyPublisher.Foundations.KeyedRecord
import MalloyPublisher.Foundations.Scanning

/-!
# The textual reading of a dashboard file

Where the declarations of a dashboard file are, and how a tile expression splits. The reader
and the writer share this reading: a `<keyword>: <name> is` line under a `source: <name> is`
line declares the name for the source, up to the next top-level declaration.

## Main definitions

* `declarationsUnder`, `declarationLine` — the declarations of a source, and the first of a file
* `artifactLine`, `givenDeclarations` — the `## artifact` tag and the given declarations
* `tileSteps` — the source and the view of a tile expression
-/

namespace MalloyPublisher.Dashboard

open Foundations

/-! ## Patterns -/

/-- `[A-Za-z_]` -/
def isIdentStart (c : Char) : Bool := c.isAlpha || c = '_'

/-- `[A-Za-z0-9_]`, the characters between which there is no word boundary. -/
def isWordChar (c : Char) : Bool := c.isAlphanum || c = '_'

/-- The characters that `.` does not match. -/
def endsLine (c : Char) : Bool := c.toNat ∈ [0xA, 0xD, 0x2028, 0x2029]

/-- `[A-Za-z_][A-Za-z0-9_]*`, with further characters allowed behind the first. -/
def readIdent (more : Char → Bool) (text : Text) : Option (Text × Text) :=
  if text.head?.any isIdentStart then some (text.takeWhile more, text.dropWhile more) else none

/-- No word goes on at the front of a text. -/
def wordEnds (text : Text) : Bool := !text.head?.any isWordChar

/-- `\s+is\b` -/
def readIs (text : Text) : Option Text := do
  let text ← readWord "is".toList (← readSpace text)
  if wordEnds text then some text else none

/-- Whether a text has a word somewhere in it. -/
def includes (text word : Text) : Bool := text.tails.any word.isPrefixOf

/-! ## Declarations -/

/-- What a line can declare, as far as the builder reads it. -/
inductive Keyword where
  | view
  | dimension
  | source
  deriving DecidableEq

def Keyword.text : Keyword → Text
  | .view => "view:".toList
  | .dimension => "dimension:".toList
  | .source => "source:".toList

/-- `^\s*<keyword>:\s*(IDENT)\s+is\b`: the name, and what follows. -/
def readDeclared (keyword : Keyword) (line : Text) : Option (Text × Text) := do
  let (name, text) ← readIdent isWordChar (skipSpace (← readWord keyword.text (skipSpace line)))
  some (name, ← readIs text)

/-- The same with `\s*(.*)$` behind it: the name, and the rest without white space around. -/
def readDeclaration (keyword : Keyword) (line : Text) : Option (Text × Text) := do
  let (name, text) ← readDeclared keyword line
  if (skipSpace text).any endsLine then none else some (name, trim text)

/-- `^\s*<keyword>:\s*<name>\s+is\b`, for a name in which no character means anything to a
pattern. -/
def declares (keyword : Keyword) (name line : Text) : Bool :=
  (do readIs (← readWord name (skipSpace (← readWord keyword.text (skipSpace line))))).isSome

/-- A line that ends the body of a source: a top-level declaration or a `##` line. -/
def endsSource (line : Text) : Bool :=
  ["query", "run", "import", "given"].any
    (fun word => (readWord word.toList (skipSpace line)).any wordEnds) ||
    "##".toList.isPrefixOf line

/-- A one-line declaration: its line, and everything after `is`. -/
structure DeclarationAt where
  line : ℕ
  rest : Text
  deriving DecidableEq

/-- What the reading of a source's declarations has come to. -/
structure SourceScan where
  current : Option Text
  found : List (Text × DeclarationAt)

/-- One line of the file, read for the declarations of a source. -/
def scanLine (owner : Text) (keyword : Keyword) (scan : SourceScan) (place : Text × ℕ) :
    SourceScan :=
  match readDeclared .source place.1 with
  | some (source, _) => { scan with current := some source }
  | none =>
    let current := if endsSource place.1 then none else scan.current
    if current = some owner then
      match readDeclaration keyword place.1 with
      | some (name, rest) => { current, found := setKey name ⟨place.2, rest⟩ scan.found }
      | none => { scan with current }
    else { scan with current }

/-- The declarations under `source: <owner>`, by name. -/
def declarationsUnder (lines : List Text) (owner : Text) (keyword : Keyword) :
    List (Text × DeclarationAt) :=
  (lines.zipIdx.foldl (scanLine owner keyword) ⟨none, []⟩).found

/-- The first line that declares a name. -/
def declarationLine (lines : List Text) (keyword : Keyword) (name : Text) : Option ℕ :=
  lines.findIdx? (declares keyword name)

/-- `line.includes("artifact")` -/
def namesArtifact (line : Text) : Bool := includes line "artifact".toList

/-- The line carrying the model-level `## artifact` tag. -/
def artifactLine (lines : List Text) : Option ℕ :=
  lines.findIdx? fun line => "##".toList.isPrefixOf (skipSpace line) && namesArtifact line

/-! ## Givens -/

/-- A `given:` declaration: its line, the block header when it is in a block, and
`NAME :: type is default` as written. -/
structure GivenAt where
  line : ℕ
  blockHeader : Option ℕ
  declaration : Text
  deriving DecidableEq

/-- `[A-Z_]` -/
def isGivenStart (c : Char) : Bool := c.isUpper || c = '_'

/-- `[A-Z0-9_]` -/
def isGivenChar (c : Char) : Bool := c.isUpper || c.isDigit || c = '_'

/-- `^([A-Z_][A-Z0-9_]*)\s*::`, and what follows. -/
def readGivenName (declaration : Text) : Option (Text × Text) :=
  if declaration.head?.any isGivenStart then do
    let text ← readWord "::".toList (skipSpace (declaration.dropWhile isGivenChar))
    some (declaration.takeWhile isGivenChar, text)
  else none

def addGiven (found : List (Text × GivenAt)) (line : ℕ) (declaration : Text)
    (blockHeader : Option ℕ) : List (Text × GivenAt) :=
  match readGivenName (trim declaration) with
  | some (name, _) => setKey name ⟨line, blockHeader, trim declaration⟩ found
  | none => found

/-- A line that a block of givens does not go on behind. -/
def endsGivenBlock (inner : Text) : Bool :=
  inner = [] ||
    ["source", "query", "import", "run", "given", "##"].any fun word => word.toList.isPrefixOf inner

/-- The givens of a block, from the line under its header on. -/
def addGivenBlock (header : ℕ) (found : List (Text × GivenAt)) :
    List (Text × ℕ) → List (Text × GivenAt)
  | [] => found
  | (line, at_) :: rest =>
    if endsGivenBlock (trim line) then found
    else addGivenBlock header (addGiven found at_ (trim line) (some header)) rest

def addGivens (found : List (Text × GivenAt)) : List (Text × ℕ) → List (Text × GivenAt)
  | [] => found
  | (line, at_) :: rest =>
    if trim line = "given:".toList then addGivens (addGivenBlock at_ found rest) rest
    else if "given:".toList.isPrefixOf (trim line) then
      addGivens (addGiven found at_ ((trim line).drop 6) none) rest
    else addGivens found rest

/-- Every `given:` declaration, by name, on a line of its own or in a block. -/
def givenDeclarations (lines : List Text) : List (Text × GivenAt) := addGivens [] lines.zipIdx

/-! ## Tile expressions -/

/-- The steps of a tile expression. -/
structure TileSteps where
  source : Text
  view : Text
  refinement : Option Text

/-- `String.prototype.split("->")` -/
def splitArrow : Text → List Text
  | [] => [[]]
  | '-' :: '>' :: rest => [] :: splitArrow rest
  | c :: rest => (splitArrow rest).modifyHead (c :: ·)

/-- `source -> view`, optionally refined. -/
def tileSteps (expression : Text) : Option TileSteps :=
  match (splitArrow expression).map trim with
  | [source, last] =>
    if '+' ∈ last then
      some { source, view := trim (last.takeWhile (· ≠ '+'))
             refinement := some (trim (last.dropWhile (· ≠ '+'))) }
    else some { source, view := last, refinement := none }
  | _ => none

end MalloyPublisher.Dashboard
