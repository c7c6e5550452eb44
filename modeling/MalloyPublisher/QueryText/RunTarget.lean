import MalloyPublisher.QueryText.Declarations

/-!
# The run target and the aliases of a caller's text

The early gate and the filter walk read a text with two narrower patterns: the first
`run:` statement, and `source:` declarations of ASCII names with nothing between the name
and `is` or between `is` and the base.

## Main definitions

* `extractRunTargetSourceName` — the target the text seems to run against
* `buildSourceAliasMap` — the last base the text seems to declare for each name
-/

namespace MalloyPublisher.QueryText

open Foundations

/-- The class `\w`, which is ASCII only. -/
def isWordChar (c : Char) : Bool := c.isAlphanum || c == '_'

/-- ``run\s*:\s*(?:`([^`]+)`|(\w+))`` -/
def readRun (text : List Char) : Option (String × List Char) := do
  readName isWordChar (← readStatement ["run"] text)

theorem length_readRun {text rest : List Char} {name : String}
    (reads : readRun text = some (name, rest)) : rest.length < text.length := by
  simp only [readRun, Option.bind_eq_bind, Option.bind_eq_some_iff] at reads
  obtain ⟨afterColon, statement, named⟩ := reads
  have := length_readStatement statement
  have := length_readName named
  omega

/-- The `run:` statements. -/
def runStatement : Pattern Char String := ⟨readRun, length_readRun⟩

/-- Where `^` matches after a character. -/
def isLineTerminator (c : Char) : Bool := c.toNat ∈ [0xA, 0xD, 0x2028, 0x2029]

/-- ``\s*(?:`([^`]+)`|(\w+))\s*->`` -/
def readArrow (text : List Char) : Option String := do
  let (name, afterName) ← readName isWordChar (skipSpace text)
  let _ ← readWord ['-', '>'] (skipSpace afterName)
  some name

/-- The first line that starts with a name and an arrow. -/
def arrowTarget : Bool → List Char → Option String
  | _, [] => none
  | lineStart, c :: rest =>
    (if lineStart then readArrow (c :: rest) else none) <|> arrowTarget (isLineTerminator c) rest

/-- The source the text seems to run against. -/
def extractRunTargetSourceName (query : List Char) : Option String :=
  scanFirst runStatement query <|> arrowTarget true query

/-- ``source\s*:\s*(?:`([^`]+)`|(\w+))\s+is\s+(?:`([^`]+)`|(\w+))`` -/
def readAlias (text : List Char) : Option (Edge × List Char) := do
  let (name, afterName) ← readName isWordChar (← readStatement ["source"] text)
  let afterIs ← readWord ['i', 's'] (← readSpace afterName)
  let (base, rest) ← readName isWordChar (← readSpace afterIs)
  some ((name, base), rest)

theorem length_readAlias {text rest : List Char} {edge : Edge}
    (reads : readAlias text = some (edge, rest)) : rest.length < text.length := by
  simp only [readAlias, Option.bind_eq_bind, Option.bind_eq_some_iff, Option.some_inj, Prod.exists,
    Prod.mk.injEq] at reads
  obtain ⟨afterColon, statement, name, afterName, named, beforeIs, space, afterIs, is, beforeBase,
    space', base, end_, based, _, rfl⟩ := reads
  have := length_readStatement statement
  have := length_readName named
  have := length_readSpace space
  have := length_readWord is
  have := length_readSpace space'
  have := length_readName based
  omega

/-- The `source:` declarations the filter walk reads. -/
def sourceAlias : Pattern Char Edge := ⟨readAlias, length_readAlias⟩

/-- The aliases of a text as entries, the newest first: a later declaration of a name
replaces an earlier one. -/
def buildSourceAliasMap (query : List Char) : List Edge := (scanAll sourceAlias query).reverse

end MalloyPublisher.QueryText
