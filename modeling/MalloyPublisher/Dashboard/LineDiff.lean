import MalloyPublisher.Dashboard.Document
import MalloyPublisher.Foundations.CommonSubsequence
import MalloyPublisher.Foundations.Lines

/-!
# The diff before a save

Before a save that moves lines, its author is shown what it does to the file. The diff walks both
texts from their first lines, with the table of longest common subsequences to say which side a line
is left out of. Stretches that are far from any change are folded.

The entries of the table do not pass the number of lines, so that the array of 32-bit words is one
of numbers here.

## Main definitions

* `lineDiff`, `foldUnchanged` — the diff, and what is shown of it
* `IsDiff` — the lines of both texts, as many as possible of them shared
* `Folds` — the lines near a change, with what is left out counted

## Main results

* `isDiff_lineDiff` — the diff is exact and minimal
* `folds_foldUnchanged` — what is folded is what is far from any change
* `diff_shown` — both, for what an author is shown
-/

namespace MalloyPublisher.Dashboard

open Foundations

/-! ## The diff -/

inductive DiffLine where
  | same (text : Text)
  | add (text : Text)
  | del (text : Text)
  deriving DecidableEq

/-- The lines of a side past which everything counts as changed. -/
def LIMIT : ℕ := 4000

/-- The walk from line `i` of one text and line `j` of the other, whose lines from there on are the
lists. -/
def walk (lcs : ℕ → ℕ → ℕ) (i j : ℕ) : List Text → List Text → List DiffLine
  | [], bs => bs.map .add
  | a :: as, [] => .del a :: as.map .del
  | a :: as, b :: bs =>
    if a = b then .same a :: walk lcs (i + 1) (j + 1) as bs
    else if lcs (i + 1) j ≥ lcs i (j + 1) then .del a :: walk lcs (i + 1) j as (b :: bs)
    else .add b :: walk lcs i (j + 1) (a :: as) bs
termination_by as bs => as.length + bs.length

def lineDiff (before after : Text) : List DiffLine :=
  let a := linesOf before
  let b := linesOf after
  if LIMIT < a.length ∨ LIMIT < b.length then a.map .del ++ b.map .add
  else walk (lcsEntry (lcsTable b a)) 0 0 a b

inductive DiffHunkLine where
  | line (line : DiffLine)
  | fold (count : ℕ)
  deriving DecidableEq

def DiffLine.isSame : DiffLine → Bool
  | .same _ => true
  | _ => false

/-- `keep[k] = true` for the lines around a change. -/
def keepAround (context length index : ℕ) (keep : List Bool) : List Bool :=
  let first := max 0 (index - context)
  let last := min (length - 1) (index + context)
  (List.range' first (last + 1 - first)).foldl (fun keep k => keep.set k true) keep

/-- The lines that are kept. -/
def keepOf (lines : List DiffLine) (context : ℕ) : List Bool :=
  lines.zipIdx.foldl
    (fun keep entry => if entry.1.isSame then keep else keepAround context lines.length entry.2 keep)
    (List.replicate lines.length false)

def foldsOf (folded : ℕ) : List DiffHunkLine := if 0 < folded then [.fold folded] else []

/-- One line of the diff, behind what is shown and the lines that are folded before it. -/
def showLine (keep : ℕ → Bool) (state : List DiffHunkLine × ℕ) (line : DiffLine) (index : ℕ) :
    List DiffHunkLine × ℕ :=
  if keep index then (state.1 ++ foldsOf state.2 ++ [.line line], 0) else (state.1, state.2 + 1)

def foldUnchanged (lines : List DiffLine) (context : ℕ) : List DiffHunkLine :=
  let keep := keepOf lines context
  let (out, folded) := lines.zipIdx.foldl
    (fun state entry => showLine (fun index => keep.getD index false) state entry.1 entry.2) ([], 0)
  out ++ foldsOf folded

/-! ## What it is for -/

def DiffLine.before? : DiffLine → Option Text
  | .same text => some text
  | .del text => some text
  | .add _ => none

def DiffLine.after? : DiffLine → Option Text
  | .same text => some text
  | .add text => some text
  | .del _ => none

/-- A diff holds the lines of both texts; those it shares are as many as a longest common
subsequence has, if neither text passes the limit. -/
structure IsDiff (before after : List Text) (diff : List DiffLine) : Prop where
  ofBefore : diff.filterMap DiffLine.before? = before
  ofAfter : diff.filterMap DiffLine.after? = after
  minimal : before.length ≤ LIMIT → after.length ≤ LIMIT →
    IsLongestCommon before after (diff.countP DiffLine.isSame)

/-- A line is near a change. -/
def nearChange (lines : List DiffLine) (context index : ℕ) : Bool :=
  lines.zipIdx.any fun entry =>
    !entry.1.isSame && (decide (entry.2 ≤ index + context) && decide (index ≤ entry.2 + context))

/-- The lines that are shown from a place on, each at its place in the diff. -/
def shownAt : ℕ → List DiffHunkLine → List (DiffLine × ℕ)
  | _, [] => []
  | place, .line line :: hunks => (line, place) :: shownAt (place + 1) hunks
  | place, .fold count :: hunks => shownAt (place + count) hunks

/-- The lines that are shown or counted. -/
def extent : List DiffHunkLine → ℕ
  | [] => 0
  | .line _ :: hunks => extent hunks + 1
  | .fold count :: hunks => extent hunks + count

/-- The lines near a change are shown in order, each at its place, and every other line is counted.
-/
structure Folds (lines : List DiffLine) (context : ℕ) (hunks : List DiffHunkLine) : Prop where
  shown : shownAt 0 hunks = lines.zipIdx.filter fun entry => nearChange lines context entry.2
  counted : extent hunks = lines.length

/-! ## The walk -/

section Walk

variable {a b : Text} {as bs : List Text} {lcs : ℕ → ℕ → ℕ} {i j : ℕ}

theorem before_walk (lcs : ℕ → ℕ → ℕ) (i j : ℕ) (as bs : List Text) :
    (walk lcs i j as bs).filterMap DiffLine.before? = as := by
  induction i, j, as, bs using walk.induct lcs with
  | case1 i j bs =>
    rw [walk, List.filterMap_map]
    exact List.filterMap_eq_nil_iff.mpr fun line _ => rfl
  | case2 i j a as =>
    rw [walk]
    refine congrArg (List.cons a) ?_
    rw [List.filterMap_map]
    exact List.filterMap_some
  | case3 i j as b bs ih =>
    rw [walk, if_pos rfl]
    exact congrArg (List.cons b) ih
  | case4 i j a as b bs differ left ih =>
    rw [walk, if_neg differ, if_pos left]
    exact congrArg (List.cons a) ih
  | case5 i j a as b bs differ right ih =>
    rw [walk, if_neg differ, if_neg right]
    exact ih

theorem after_walk (lcs : ℕ → ℕ → ℕ) (i j : ℕ) (as bs : List Text) :
    (walk lcs i j as bs).filterMap DiffLine.after? = bs := by
  induction i, j, as, bs using walk.induct lcs with
  | case1 i j bs =>
    rw [walk, List.filterMap_map]
    exact List.filterMap_some
  | case2 i j a as =>
    rw [walk, List.filterMap_cons_none rfl, List.filterMap_map]
    exact List.filterMap_eq_nil_iff.mpr fun line _ => rfl
  | case3 i j as b bs ih =>
    rw [walk, if_pos rfl]
    exact congrArg (List.cons b) ih
  | case4 i j a as b bs differ left ih =>
    rw [walk, if_neg differ, if_pos left]
    exact ih
  | case5 i j a as b bs differ right ih =>
    rw [walk, if_neg differ, if_neg right]
    exact congrArg (List.cons b) ih

/-- The table holds the lengths for the lists from their places on. -/
def Tabulates (lcs : ℕ → ℕ → ℕ) (i j : ℕ) (as bs : List Text) : Prop :=
  ∀ row ≤ as.length, ∀ column ≤ bs.length,
    lcs (i + row) (j + column) = suffixLcs (as.drop row) (bs.drop column)

theorem Tabulates.left (table : Tabulates lcs i j (a :: as) bs) : Tabulates lcs (i + 1) j as bs := by
  intro row inRows column inColumns
  have entry := table (row + 1) (Nat.succ_le_succ inRows) column inColumns
  rwa [List.drop_succ_cons, Nat.add_comm row, ← Nat.add_assoc] at entry

theorem Tabulates.right (table : Tabulates lcs i j as (b :: bs)) : Tabulates lcs i (j + 1) as bs := by
  intro row inRows column inColumns
  have entry := table row inRows (column + 1) (Nat.succ_le_succ inColumns)
  rwa [List.drop_succ_cons, Nat.add_comm column, ← Nat.add_assoc] at entry

theorem Tabulates.here (table : Tabulates lcs i j as bs) : lcs i j = suffixLcs as bs :=
  table 0 (Nat.zero_le _) 0 (Nat.zero_le _)

/-- The walk shares as many lines as the table promises. -/
theorem same_walk (lcs : ℕ → ℕ → ℕ) (i j : ℕ) (as bs : List Text) (table : Tabulates lcs i j as bs) :
    (walk lcs i j as bs).countP DiffLine.isSame = suffixLcs as bs := by
  induction i, j, as, bs using walk.induct lcs with
  | case1 i j bs =>
    rw [walk, suffixLcs, List.countP_map]
    exact List.countP_eq_zero.mpr fun line _ => Bool.false_ne_true
  | case2 i j a as =>
    rw [walk, suffixLcs, List.countP_cons_of_neg Bool.false_ne_true, List.countP_map]
    exact List.countP_eq_zero.mpr fun line _ => Bool.false_ne_true
  | case3 i j as b bs ih =>
    rw [walk, if_pos rfl, List.countP_cons_of_pos rfl, ih table.left.right, suffixLcs, if_pos rfl]
  | case4 i j a as b bs differ left ih =>
    have order : suffixLcs (a :: as) bs ≤ suffixLcs as (b :: bs) := by
      rw [← table.left.here, ← table.right.here]
      exact left
    rw [walk, if_neg differ, if_pos left, List.countP_cons_of_neg Bool.false_ne_true, ih table.left,
      suffixLcs, if_neg differ, max_eq_left order]
  | case5 i j a as b bs differ right ih =>
    have order : suffixLcs as (b :: bs) ≤ suffixLcs (a :: as) bs := by
      rw [← table.left.here, ← table.right.here]
      exact (not_le.mp right).le
    rw [walk, if_neg differ, if_neg right, List.countP_cons_of_neg Bool.false_ne_true, ih table.right,
      suffixLcs, if_neg differ, max_eq_right order]

/-- The diff is exact and minimal. -/
theorem isDiff_lineDiff (before after : Text) :
    IsDiff (linesOf before) (linesOf after) (lineDiff before after) := by
  unfold lineDiff
  dsimp only
  split_ifs with long
  · refine ⟨?_, ?_, fun short short' => absurd long (by omega)⟩
    · rw [List.filterMap_append, List.filterMap_map, List.filterMap_map]
      have none : (linesOf after).filterMap (DiffLine.before? ∘ .add) = [] :=
        List.filterMap_eq_nil_iff.mpr fun line _ => rfl
      rw [none, List.append_nil]
      exact List.filterMap_some
    · rw [List.filterMap_append, List.filterMap_map, List.filterMap_map]
      have none : (linesOf before).filterMap (DiffLine.after? ∘ .del) = [] :=
        List.filterMap_eq_nil_iff.mpr fun line _ => rfl
      rw [none, List.nil_append]
      exact List.filterMap_some
  · refine ⟨before_walk _ 0 0 _ _, after_walk _ 0 0 _ _, fun _ _ => ?_⟩
    rw [same_walk]
    · exact isLongestCommon_suffixLcs _ _
    · intro row inRows column inColumns
      rw [Nat.zero_add, Nat.zero_add]
      exact entry_lcsTable _ _ inRows inColumns

end Walk

/-! ## What is kept -/

section Keep

variable {context length : ℕ}

/-- Marks that are set stay, and no other is. -/
theorem getD_foldl_set (places : List ℕ) (keep : List Bool) {k : ℕ} (inside : k < keep.length) :
    (places.foldl (fun keep place => keep.set place true) keep).getD k false =
      (keep.getD k false || decide (k ∈ places)) := by
  induction places generalizing keep with
  | nil => simp
  | cons place places ih =>
    rw [List.foldl_cons, ih (keep.set place true) (by rwa [List.length_set])]
    by_cases here : place = k
    · subst here
      simp [List.getD_eq_getElem?_getD, inside]
    · have other : ¬k = place := fun same => here same.symm
      simp [List.getD_eq_getElem?_getD, List.getElem?_set_ne here, other]

theorem length_keepAround (index : ℕ) (keep : List Bool) :
    (keepAround context length index keep).length = keep.length := by
  have kept : ∀ (places : List ℕ) (keep : List Bool),
      (places.foldl (fun keep place => keep.set place true) keep).length = keep.length := by
    intro places
    induction places with
    | nil => exact fun keep => rfl
    | cons place places ih =>
      intro keep
      rw [List.foldl_cons, ih, List.length_set]
  exact kept _ keep

/-- The lines around a change are marked. -/
theorem getD_keepAround {index k : ℕ} {keep : List Bool} (isLength : keep.length = length)
    (inside : k < length) : (keepAround context length index keep).getD k false =
      (keep.getD k false || (decide (index ≤ k + context) && decide (k ≤ index + context))) := by
  rw [keepAround, getD_foldl_set _ _ (by omega)]
  congr 1
  rw [← Bool.decide_and, decide_eq_decide, List.mem_range'_1]
  omega

/-- A line is kept when it is near a change. -/
theorem getD_keepOf (lines : List DiffLine) {k : ℕ} (inside : k < lines.length) :
    (keepOf lines context).getD k false = nearChange lines context k := by
  have run : ∀ (entries : List (DiffLine × ℕ)) (keep : List Bool), keep.length = lines.length →
      (entries.foldl (fun keep entry =>
          if entry.1.isSame then keep else keepAround context lines.length entry.2 keep) keep).getD k
        false = (keep.getD k false || entries.any fun entry =>
          !entry.1.isSame && (decide (entry.2 ≤ k + context) && decide (k ≤ entry.2 + context))) := by
    intro entries
    induction entries with
    | nil => simp
    | cons entry entries ih =>
      intro keep isLength
      rw [List.foldl_cons, List.any_cons]
      by_cases same : entry.1.isSame
      · rw [if_pos same, ih keep isLength, same]
        simp
      · rw [if_neg same, ih _ (by rw [length_keepAround, isLength]), getD_keepAround isLength inside]
        simp [same, Bool.or_assoc]
  rw [keepOf, run _ _ List.length_replicate, nearChange]
  simp [inside]

end Keep

/-! ## What is shown -/

section Fold

variable {keep : ℕ → Bool} {hunks more : List DiffHunkLine}

theorem shownAt_append (place : ℕ) (hunks more : List DiffHunkLine) :
    shownAt place (hunks ++ more) = shownAt place hunks ++ shownAt (place + extent hunks) more := by
  induction hunks generalizing place with
  | nil => rfl
  | cons hunk hunks ih =>
    cases hunk with
    | line line =>
      rw [List.cons_append, shownAt, ih, shownAt, extent, Nat.add_assoc, Nat.add_comm 1]
      rfl
    | fold count =>
      rw [List.cons_append, shownAt, ih, shownAt, extent, Nat.add_assoc, Nat.add_comm count]

theorem extent_append (hunks more : List DiffHunkLine) :
    extent (hunks ++ more) = extent hunks + extent more := by
  induction hunks with
  | nil => exact (Nat.zero_add _).symm
  | cons hunk hunks ih =>
    cases hunk with
    | line line => rw [List.cons_append, extent, ih, extent, Nat.add_right_comm]
    | fold count => rw [List.cons_append, extent, ih, extent, Nat.add_right_comm]

theorem shownAt_foldsOf (place folded : ℕ) : shownAt place (foldsOf folded) = [] := by
  unfold foldsOf
  split_ifs with some
  · rfl
  · rfl

theorem extent_foldsOf (folded : ℕ) : extent (foldsOf folded) = folded := by
  unfold foldsOf
  split_ifs with some
  · exact Nat.zero_add folded
  · exact (Nat.eq_zero_of_not_pos some).symm

/-- What is shown behind some lines: those of them that are kept, with the last ones not yet
counted. -/
structure ShownSoFar (keep : ℕ → Bool) (done : List DiffLine) (state : List DiffHunkLine × ℕ) :
    Prop where
  shown : shownAt 0 state.1 = done.zipIdx.filter fun entry => keep entry.2
  counted : extent state.1 + state.2 = done.length

theorem ShownSoFar.step {done : List DiffLine} {state : List DiffHunkLine × ℕ}
    (soFar : ShownSoFar keep done state) (line : DiffLine) :
    ShownSoFar keep (done ++ [line]) (showLine keep state line done.length) := by
  have counted := soFar.counted
  have entries : (done ++ [line]).zipIdx = done.zipIdx ++ [(line, done.length)] := by
    rw [List.zipIdx_append, Nat.zero_add]
    rfl
  unfold showLine
  split_ifs with isKept
  · have place : extent (state.1 ++ foldsOf state.2) = done.length := by
      rw [extent_append, extent_foldsOf, counted]
    constructor
    · rw [shownAt_append, shownAt_append, shownAt_foldsOf, List.append_nil, soFar.shown, place,
        Nat.zero_add, entries, List.filter_append, List.filter_singleton, isKept]
      rfl
    · rw [extent_append, place, List.length_append]
      rfl
  · constructor
    · rw [soFar.shown, entries, List.filter_append, List.filter_singleton, Bool.not_eq_true _ |>.mp isKept]
      exact (List.append_nil _).symm
    · rw [List.length_append, List.length_singleton]
      exact congrArg Nat.succ counted

theorem ShownSoFar.run (later : List DiffLine) : ∀ (done : List DiffLine)
    (state : List DiffHunkLine × ℕ), ShownSoFar keep done state → ShownSoFar keep (done ++ later)
      ((later.zipIdx done.length).foldl (fun state entry => showLine keep state entry.1 entry.2) state) := by
  induction later with
  | nil =>
    intro done state soFar
    rw [List.append_nil]
    exact soFar
  | cons line later ih =>
    intro done state soFar
    have next := ih (done ++ [line]) _ (soFar.step line)
    rwa [List.append_assoc, List.singleton_append, List.length_append, List.length_singleton] at next

/-- What is folded is what is far from any change. -/
theorem folds_foldUnchanged (lines : List DiffLine) (context : ℕ) :
    Folds lines context (foldUnchanged lines context) := by
  have start : ShownSoFar (fun index => (keepOf lines context).getD index false) [] ([], 0) := ⟨rfl, rfl⟩
  have soFar := start.run lines
  rw [List.nil_append] at soFar
  constructor
  · rw [foldUnchanged]
    dsimp only
    rw [shownAt_append, shownAt_foldsOf, List.append_nil]
    refine soFar.shown.trans (List.filter_congr ?_)
    intro entry member
    obtain ⟨-, inside, -⟩ := List.mem_zipIdx member
    exact getD_keepOf lines (by omega)
  · rw [foldUnchanged]
    dsimp only
    rw [extent_append, extent_foldsOf]
    exact soFar.counted

end Fold

/-- What an author is shown: the diff is exact and minimal, and what is folded of it is what is far
from any change, whatever is kept around one. -/
theorem diff_shown (before after : Text) :
    IsDiff (linesOf before) (linesOf after) (lineDiff before after) ∧
      ∀ context, Folds (lineDiff before after) context (foldUnchanged (lineDiff before after) context) :=
  ⟨isDiff_lineDiff before after, folds_foldUnchanged _⟩

end MalloyPublisher.Dashboard
