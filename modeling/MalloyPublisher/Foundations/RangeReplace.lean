/-
# Replacing a half-open range of a table

A table is a list of rows, each with an optional mark in a linear order. Range
replacement deletes the target rows whose mark lies in `[start, stop)` and
inserts the source rows of the same range.

Two tables agree below a bound when, mark by mark, they hold the same rows below
it. Replacement extends agreement from `start` to `stop`, repeating it is
harmless, and changing the source at or above the bound cannot break it.
-/

import Mathlib.Data.List.Perm.Basic
import Mathlib.Order.Lattice

namespace MalloyPublisher.Foundations

variable {Row W : Type*} [LinearOrder W] (mark : Row → Option W)

/-- The rows carrying the mark `w`, in table order. -/
def rowsAt (w : W) (rows : List Row) : List Row :=
  rows.filter fun row => mark row = some w

/-- Whether a row is marked within `[start, stop)`. An unmarked row is in no
range, as an SQL comparison with `NULL` is never true. -/
def inRange (start stop : W) (row : Row) : Bool :=
  match mark row with
  | some w => start ≤ w && w < stop
  | none => false

/-- Delete the range from the target, then insert the source rows of the range. -/
def replaceRange (start stop : W) (target source : List Row) : List Row :=
  target.filter (fun row => !inRange mark start stop row) ++
    source.filter (inRange mark start stop)

/-- Mark by mark, the two tables hold the same rows below the bound: none lost,
none duplicated. -/
def AgreeBelow (bound : W) (target source : List Row) : Prop :=
  ∀ w < bound, (rowsAt mark w target).Perm (rowsAt mark w source)

@[simp] theorem rowsAt_append (w : W) (left right : List Row) :
    rowsAt mark w (left ++ right) = rowsAt mark w left ++ rowsAt mark w right :=
  List.filter_append ..

theorem inRange_of_mark {start stop w : W} {row : Row} (marked : mark row = some w) :
    inRange mark start stop row = decide (start ≤ w ∧ w < stop) := by
  simp [inRange, marked]

/-- Filtering by the range keeps every row of a mark inside it. -/
theorem rowsAt_filter_inRange {start stop w : W} (inside : start ≤ w ∧ w < stop)
    (rows : List Row) :
    rowsAt mark w (rows.filter (inRange mark start stop)) = rowsAt mark w rows := by
  rw [rowsAt, rowsAt, List.filter_filter]
  apply List.filter_congr
  intro row _
  by_cases marked : mark row = some w
  · simp [marked, inRange_of_mark mark marked, inside]
  · simp [marked]

/-- Filtering by the range drops every row of a mark outside it. -/
theorem rowsAt_filter_inRange_of_not {start stop w : W} (outside : ¬ (start ≤ w ∧ w < stop))
    (rows : List Row) :
    rowsAt mark w (rows.filter (inRange mark start stop)) = [] := by
  rw [rowsAt, List.filter_filter, List.filter_eq_nil_iff]
  intro row _
  by_cases marked : mark row = some w
  · simp [inRange_of_mark mark marked, outside]
  · simp [marked]

/-- Deleting the range keeps every row of a mark outside it. -/
theorem rowsAt_filter_not_inRange {start stop w : W} (outside : ¬ (start ≤ w ∧ w < stop))
    (rows : List Row) :
    rowsAt mark w (rows.filter fun row => !inRange mark start stop row) =
      rowsAt mark w rows := by
  rw [rowsAt, rowsAt, List.filter_filter]
  apply List.filter_congr
  intro row _
  by_cases marked : mark row = some w
  · simp [marked, inRange_of_mark mark marked, outside]
  · simp [marked]

/-- Deleting the range drops every row of a mark inside it. -/
theorem rowsAt_filter_not_inRange_of_mem {start stop w : W} (inside : start ≤ w ∧ w < stop)
    (rows : List Row) :
    rowsAt mark w (rows.filter fun row => !inRange mark start stop row) = [] := by
  rw [rowsAt, List.filter_filter, List.filter_eq_nil_iff]
  intro row _
  by_cases marked : mark row = some w
  · simp [inRange_of_mark mark marked, inside]
  · simp [marked]

/-- After a replacement, a mark inside the range has exactly the source's rows. -/
theorem rowsAt_replaceRange_of_mem {start stop w : W} (inside : start ≤ w ∧ w < stop)
    (target source : List Row) :
    rowsAt mark w (replaceRange mark start stop target source) = rowsAt mark w source := by
  rw [replaceRange, rowsAt_append, rowsAt_filter_not_inRange_of_mem mark inside,
    rowsAt_filter_inRange mark inside, List.nil_append]

/-- A replacement leaves every mark outside its range alone. -/
theorem rowsAt_replaceRange_of_notMem {start stop w : W} (outside : ¬ (start ≤ w ∧ w < stop))
    (target source : List Row) :
    rowsAt mark w (replaceRange mark start stop target source) = rowsAt mark w target := by
  rw [replaceRange, rowsAt_append, rowsAt_filter_not_inRange mark outside,
    rowsAt_filter_inRange_of_not mark outside, List.append_nil]

namespace AgreeBelow

variable {mark} {bound start stop : W} {target source changed : List Row}

theorem refl (bound : W) (rows : List Row) : AgreeBelow mark bound rows rows :=
  fun _ _ => .refl _

theorem trans {middle : List Row} (left : AgreeBelow mark bound target middle)
    (right : AgreeBelow mark bound middle source) : AgreeBelow mark bound target source :=
  fun w below => (left w below).trans (right w below)

/-- Replacing `[start, stop)` carries agreement from `start` up to `stop`. -/
theorem replaceRange (agree : AgreeBelow mark start target source) :
    AgreeBelow mark stop (replaceRange mark start stop target source) source := by
  intro w below
  by_cases reached : start ≤ w
  · rw [rowsAt_replaceRange_of_mem mark ⟨reached, below⟩]
  · rw [rowsAt_replaceRange_of_notMem mark fun inside => reached inside.1]
    exact agree w (not_le.mp reached)

/-- Replacing a range that starts at the bound keeps agreement below the bound,
which is what makes a lost advance of the bound a repeat and not a corruption. -/
theorem replaceRange_below (agree : AgreeBelow mark start target source) :
    AgreeBelow mark start (Foundations.replaceRange mark start stop target source) source := by
  intro w below
  rw [rowsAt_replaceRange_of_notMem mark fun inside => (not_le.mpr below) inside.1]
  exact agree w below

end AgreeBelow

end MalloyPublisher.Foundations
