import Mathlib.Data.List.Sort

/-!
# Lines of a text

A text splits at its line breaks into lines. Kept with the breaks that end them, the lines
are the rows of the text, and the text is its rows one after another. Where the text ends
with a line break there is one more line than there are rows: the empty one behind it.

## Main definitions

* `linesOf`, `rows` — the lines of a text, and the same with their line breaks
* `applyEdits`, `CellEdit` — replacements of ranges of a text, and of its rows
-/

namespace MalloyPublisher.Foundations

/-- The lines of a text. -/
def linesOf (text : List Char) : List (List Char) := text.splitOn '\n'

/-- The rows of a text: its lines, each with the line break that ends it. -/
def rows : List Char → List (List Char)
  | [] => []
  | c :: rest =>
    if c = '\n' then [c] :: rows rest
    else
      match rows rest with
      | [] => [[c]]
      | row :: more => (c :: row) :: more

/-! ## Edits of ranges -/

section Edits

variable {α : Type*}

/-- A replacement of the range of a text between two offsets. -/
structure Edit (α : Type*) where
  start : ℕ
  stop : ℕ
  text : List α
  deriving DecidableEq

/-- Apply edits one after another, those that start last first. -/
def applyEdits (source : List α) (edits : List (Edit α)) : List α :=
  (edits.insertionSort fun a b => b.start ≤ a.start).foldl
    (fun out edit => out.take edit.start ++ edit.text ++ out.drop edit.stop) source

/-! ## Cells -/

/-- The offset at which a cell starts. -/
def offset (cells : List (List α)) (cell : ℕ) : ℕ := (cells.take cell).flatten.length

/-- A replacement of the cells from one up to another. -/
structure CellEdit (α : Type*) where
  first : ℕ
  past : ℕ
  text : List α
  deriving DecidableEq

/-- The edit of the text that an edit of its cells is. -/
def CellEdit.edit (cells : List (List α)) (edit : CellEdit α) : Edit α where
  start := offset cells edit.first
  stop := offset cells edit.past
  text := edit.text

end Edits

end MalloyPublisher.Foundations
