import Mathlib.Data.List.Basic
import Mathlib.Data.Nat.Basic
import Mathlib.Order.Basic

/-!
# Longest common subsequences

The table of a comparison holds, for every suffix of one list and every suffix of another, the
length of a longest common subsequence of the two. A row is computed from the one below it, from the
end of the list to its front.

## Main definitions

* `lcsTable` — the rows for the suffixes of a list
* `IsLongestCommon` — a length that common subsequences reach and do not pass
* `suffixLcs` — the length for two lists, by recursion on both

## Main results

* `isLongestCommon_suffixLcs` — the recursion is right
* `entry_lcsTable` — an entry of the table is the length for two suffixes
-/

namespace MalloyPublisher.Foundations

variable {α : Type*} [DecidableEq α]

/-- The row of `a` over `b`, given the row below it. -/
def lcsRow (a : α) : List α → List ℕ → List ℕ
  | [], _ => [0]
  | b :: bs, below =>
    let row := lcsRow a bs below.tail
    (if a = b then below.tail.headD 0 + 1 else max (below.headD 0) (row.headD 0)) :: row

/-- The rows for the suffixes of a list, the last one of which is all zero. -/
def lcsTable (bs : List α) : List α → List (List ℕ)
  | [] => [List.replicate (bs.length + 1) 0]
  | a :: as => lcsRow a bs ((lcsTable bs as).headD []) :: lcsTable bs as

/-- An entry of the table. -/
def lcsEntry (table : List (List ℕ)) (i j : ℕ) : ℕ := (table.getD i []).getD j 0

omit [DecidableEq α] in
/-- Common subsequences of two lists reach a length and do not pass it. -/
structure IsLongestCommon (as bs : List α) (length : ℕ) : Prop where
  reached : ∃ common : List α, common.Sublist as ∧ common.Sublist bs ∧ common.length = length
  bound : ∀ common : List α, common.Sublist as → common.Sublist bs → common.length ≤ length

/-- The length for two lists. -/
def suffixLcs : List α → List α → ℕ
  | [], _ => 0
  | _ :: _, [] => 0
  | a :: as, b :: bs =>
    if a = b then suffixLcs as bs + 1 else max (suffixLcs as (b :: bs)) (suffixLcs (a :: as) bs)
termination_by as bs => as.length + bs.length

variable {a b : α} {as bs : List α}

theorem suffixLcs_nil_right (as : List α) : suffixLcs as ([] : List α) = 0 := by
  cases as with
  | nil => rw [suffixLcs]
  | cons a as => rw [suffixLcs]

/-! ## The recursion -/

section Bounds

variable {n m : ℕ}

omit [DecidableEq α] in
theorem isLongestCommon_nil_left (bs : List α) : IsLongestCommon [] bs 0 where
  reached := ⟨[], List.nil_sublist _, List.nil_sublist _, rfl⟩
  bound := by
    intro common left _
    exact (congrArg List.length (List.sublist_nil.mp left)).le

omit [DecidableEq α] in
theorem isLongestCommon_nil_right (as : List α) : IsLongestCommon as [] 0 where
  reached := ⟨[], List.nil_sublist _, List.nil_sublist _, rfl⟩
  bound := by
    intro common _ right
    exact (congrArg List.length (List.sublist_nil.mp right)).le

omit [DecidableEq α] in
/-- What is left of a subsequence without its first item is one of the list without its own. -/
theorem sublist_tail {common : List α} (sub : common.Sublist (a :: as)) : common.tail.Sublist as := by
  cases common with
  | nil => exact List.nil_sublist _
  | cons first common =>
    rw [List.tail_cons]
    rcases List.sublist_cons_iff.mp sub with skips | ⟨rest, same, isRest⟩
    · exact (List.sublist_cons_self first common).trans skips
    · rw [(List.cons.inj same).2]
      exact isRest

omit [DecidableEq α] in
/-- An item at the front of both is taken. -/
theorem IsLongestCommon.cons (longest : IsLongestCommon as bs n) :
    IsLongestCommon (a :: as) (a :: bs) (n + 1) where
  reached := by
    obtain ⟨common, left, right, rfl⟩ := longest.reached
    exact ⟨a :: common, left.cons_cons a, right.cons_cons a, rfl⟩
  bound := by
    intro common left right
    have rest := longest.bound common.tail (sublist_tail left) (sublist_tail right)
    rw [List.length_tail] at rest
    omega

omit [DecidableEq α] in
/-- Where the first items differ, one of them is left out. -/
theorem IsLongestCommon.max (differ : a ≠ b) (left : IsLongestCommon as (b :: bs) n)
    (right : IsLongestCommon (a :: as) bs m) :
    IsLongestCommon (a :: as) (b :: bs) (Nat.max n m) where
  reached := by
    rcases Nat.le_total n m with le | ge
    · obtain ⟨common, inLeft, inRight, rfl⟩ := right.reached
      exact ⟨common, inLeft, inRight.cons b, (Nat.max_eq_right le).symm⟩
    · obtain ⟨common, inLeft, inRight, rfl⟩ := left.reached
      exact ⟨common, inLeft.cons a, inRight, (Nat.max_eq_left ge).symm⟩
  bound := by
    intro common inLeft inRight
    rcases List.sublist_cons_iff.mp inLeft with skips | ⟨rest, rfl, -⟩
    · exact Nat.le_trans (left.bound common skips inRight) (Nat.le_max_left n m)
    · rcases List.sublist_cons_iff.mp inRight with skips | ⟨rest', same, -⟩
      · exact Nat.le_trans (right.bound _ inLeft skips) (Nat.le_max_right n m)
      · exact absurd (List.cons.inj same).1 differ

end Bounds

theorem isLongestCommon_suffixLcs (as bs : List α) : IsLongestCommon as bs (suffixLcs as bs) := by
  induction as, bs using suffixLcs.induct with
  | case1 bs =>
    rw [suffixLcs]
    exact isLongestCommon_nil_left bs
  | case2 a as =>
    rw [suffixLcs]
    exact isLongestCommon_nil_right _
  | case3 a as bs ih =>
    rw [suffixLcs, if_pos rfl]
    exact ih.cons
  | case4 a as b bs differ ihLeft ihRight =>
    rw [suffixLcs, if_neg differ]
    exact ihLeft.max differ ihRight

/-! ## The table -/

/-- The lengths for a list and the suffixes of another. -/
def suffixRow (as : List α) : List α → List ℕ
  | [] => [suffixLcs as []]
  | b :: bs => suffixLcs as (b :: bs) :: suffixRow as bs

theorem headD_suffixRow (as bs : List α) : (suffixRow as bs).headD 0 = suffixLcs as bs := by
  cases bs with
  | nil => rfl
  | cons b bs => rfl

theorem getD_suffixRow (as bs : List α) {j : ℕ} (inside : j ≤ bs.length) :
    (suffixRow as bs).getD j 0 = suffixLcs as (bs.drop j) := by
  induction bs generalizing j with
  | nil =>
    rw [Nat.le_zero.mp inside]
    rfl
  | cons b bs ih =>
    cases j with
    | zero => rfl
    | succ j =>
      rw [suffixRow, List.getD_cons_succ, List.drop_succ_cons]
      exact ih (Nat.le_of_succ_le_succ inside)

theorem suffixRow_nil (bs : List α) : suffixRow [] bs = List.replicate (bs.length + 1) 0 := by
  induction bs with
  | nil => rw [suffixRow, suffixLcs, List.length_nil, List.replicate_one]
  | cons b bs ih =>
    rw [suffixRow, suffixLcs, ih, List.length_cons]
    exact List.replicate_succ.symm

/-- A row is right if the one below it is. -/
theorem lcsRow_eq (a : α) (as bs : List α) : lcsRow a bs (suffixRow as bs) = suffixRow (a :: as) bs := by
  induction bs with
  | nil => rw [lcsRow, suffixRow, suffixLcs_nil_right]
  | cons b bs ih =>
    rw [lcsRow, suffixRow, List.tail_cons, List.headD_cons, ih, headD_suffixRow, headD_suffixRow,
      suffixRow, suffixLcs]

theorem headD_lcsTable (as bs : List α) : (lcsTable bs as).headD [] = suffixRow as bs := by
  induction as with
  | nil => exact (suffixRow_nil bs).symm
  | cons a as ih =>
    rw [lcsTable, List.headD_cons, ih, lcsRow_eq]

theorem getD_lcsTable (as bs : List α) {i : ℕ} (inside : i ≤ as.length) :
    (lcsTable bs as).getD i [] = suffixRow (as.drop i) bs := by
  induction as generalizing i with
  | nil =>
    rw [Nat.le_zero.mp inside, List.drop_zero, suffixRow_nil]
    rfl
  | cons a as ih =>
    cases i with
    | zero =>
      rw [List.drop_zero, ← headD_lcsTable]
      rfl
    | succ i =>
      rw [lcsTable, List.getD_cons_succ, List.drop_succ_cons]
      exact ih (Nat.le_of_succ_le_succ inside)

/-- An entry of the table is the length for two suffixes. -/
theorem entry_lcsTable (as bs : List α) {i j : ℕ} (row : i ≤ as.length) (column : j ≤ bs.length) :
    lcsEntry (lcsTable bs as) i j = suffixLcs (as.drop i) (bs.drop j) := by
  rw [lcsEntry, getD_lcsTable as bs row, getD_suffixRow _ bs column]

end MalloyPublisher.Foundations
