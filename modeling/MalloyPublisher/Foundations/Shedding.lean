import Mathlib.Data.List.Basic

/-!
# Giving up entries until what is left fits

A bag of keyed values is over some budget. Its entries are given up one by one in a fixed
order, until what is left is within the budget or the order has no key left. What is given up is
then a first part of the order, each entry while what was left was still over the budget.

## Main definitions

* `without` — a bag less the entries of some keys
* `shedWhile` — the loop

## Main results

* `shedWhile_order`, `shedWhile_left` — a first part of the order is given up
* `shedWhile_fits` — what is left fits, or the whole order is given up
-/

namespace MalloyPublisher.Foundations

variable {κ ν ρ : Type*} [DecidableEq κ]

/-- A bag less the entries of some keys. -/
def without (keys : List κ) (bag : List (κ × ν)) : List (κ × ν) :=
  bag.filter fun entry => entry.1 ∉ keys

/-- What became of a bag: the keys given up, each with the reason it was, the keys of the order
that were not, and the entries left. -/
structure Shedding (κ ν ρ : Type*) where
  shed : List (κ × ρ)
  spared : List κ
  left : List (κ × ν)

/-- Give up entries in the order of their keys while what is left is over the budget. -/
def shedWhile (tooLarge : List (κ × ν) → Bool) (reason : List (κ × ν) → ρ) :
    List κ → List (κ × ν) → Shedding κ ν ρ
  | [], bag => ⟨[], [], bag⟩
  | key :: order, bag =>
    if tooLarge bag then
      let later := shedWhile tooLarge reason order (bag.filter fun entry => entry.1 ≠ key)
      ⟨(key, reason bag) :: later.shed, later.spared, later.left⟩
    else ⟨[], key :: order, bag⟩

@[simp] theorem without_nil (bag : List (κ × ν)) : without [] bag = bag := by
  simp [without]

theorem without_cons (key : κ) (keys : List κ) (bag : List (κ × ν)) :
    without (key :: keys) bag = without keys (bag.filter fun entry => entry.1 ≠ key) := by
  unfold without
  rw [List.filter_filter]
  apply List.filter_congr
  intro entry _
  simp [Bool.and_comm]

theorem without_append (first second : List κ) (bag : List (κ × ν)) :
    without (first ++ second) bag = without second (without first bag) := by
  unfold without
  rw [List.filter_filter]
  apply List.filter_congr
  intro entry _
  simp [Bool.and_comm]

theorem mem_without {keys : List κ} {bag : List (κ × ν)} {entry : κ × ν} :
    entry ∈ without keys bag ↔ entry ∈ bag ∧ entry.1 ∉ keys := by
  simp [without]

theorem without_sublist (keys : List κ) (bag : List (κ × ν)) :
    (without keys bag).Sublist bag :=
  List.filter_sublist

/-- Where an entry stands after a first part it cannot be of, the split is in the second part. -/
theorem split_past {α : Type*} {first second before after : List α} {entry : α}
    (split : first ++ second = before ++ entry :: after) (absent : entry ∉ first) :
    ∃ earlier, before = first ++ earlier ∧ second = earlier ++ entry :: after := by
  rcases List.append_eq_append_iff.mp split with ⟨earlier, past, rest⟩ | ⟨later, inside, rest⟩
  · exact ⟨earlier, past, rest⟩
  · cases later with
    | nil => exact ⟨[], by simpa using inside.symm, rest.symm⟩
    | cons other later =>
      obtain ⟨rfl, -⟩ := List.cons_eq_cons.mp rest
      exact absurd (inside ▸ List.mem_append_right _ (List.mem_cons_self ..)) absent

section Loop

variable (tooLarge : List (κ × ν) → Bool) (reason : List (κ × ν) → ρ)

/-- The keys given up come first in the order, the others after them. -/
theorem shedWhile_order (order : List κ) (bag : List (κ × ν)) :
    (shedWhile tooLarge reason order bag).shed.map Prod.fst ++
      (shedWhile tooLarge reason order bag).spared = order := by
  induction order generalizing bag with
  | nil => rfl
  | cons key order ih =>
    rw [shedWhile]
    split_ifs with heavy
    · simp [ih]
    · rfl

/-- What is left is the bag less the keys given up. -/
theorem shedWhile_left (order : List κ) (bag : List (κ × ν)) :
    (shedWhile tooLarge reason order bag).left =
      without ((shedWhile tooLarge reason order bag).shed.map Prod.fst) bag := by
  induction order generalizing bag with
  | nil => simp [shedWhile]
  | cons key order ih =>
    rw [shedWhile]
    split_ifs with heavy
    · rw [List.map_cons, without_cons]
      exact ih _
    · simp

/-- The loop ends with what is within the budget, or with the order at its end. -/
theorem shedWhile_fits (order : List κ) (bag : List (κ × ν)) :
    tooLarge (shedWhile tooLarge reason order bag).left = false ∨
      (shedWhile tooLarge reason order bag).spared = [] := by
  induction order generalizing bag with
  | nil => exact .inr rfl
  | cons key order ih =>
    rw [shedWhile]
    split_ifs with heavy
    · exact ih _
    · exact .inl (eq_false_of_ne_true heavy)

/-- A bag within the budget is left as it is. -/
theorem shedWhile_of_fits {order : List κ} {bag : List (κ × ν)} (fits : tooLarge bag = false) :
    shedWhile tooLarge reason order bag = ⟨[], order, bag⟩ := by
  cases order with
  | nil => rfl
  | cons key order => simp [shedWhile, fits]

/-- The reasons given are reasons of the loop. -/
theorem shedWhile_reason (good : ρ → Prop) (known : ∀ bag, good (reason bag)) (order : List κ)
    (bag : List (κ × ν)) :
    ∀ given ∈ (shedWhile tooLarge reason order bag).shed, good given.2 := by
  induction order generalizing bag with
  | nil => exact fun given member => absurd member (List.not_mem_nil)
  | cons key order ih =>
    rw [shedWhile]
    split_ifs with heavy
    · exact List.forall_mem_cons.mpr ⟨known bag, ih _⟩
    · exact fun given member => absurd member (List.not_mem_nil)

end Loop

end MalloyPublisher.Foundations
