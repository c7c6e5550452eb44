/-
# Derivations that end well

A derivation graph is a relation: a step leads from a name to one of its bases.
A name is grounded when every maximal path from it is finite and ends in a good
name. A cycle grounds nothing, however good the names around it are.
-/

import Mathlib.Order.Preorder.Finite

namespace MalloyPublisher.Foundations

open Relation

variable {N : Type*} {next : N → N → Prop} {good : N → Prop} {start node : N}

/-- A name no step leads on from. -/
def DeadEnd (next : N → N → Prop) (node : N) : Prop := ∀ other, ¬ next node other

/-- Every maximal path from `start` is finite and ends in a good name. -/
def EndsIn (next : N → N → Prop) (good : N → Prop) (start : N) : Prop :=
  (¬ ∃ path : ℕ → N, path 0 = start ∧ ∀ i, next (path i) (path (i + 1))) ∧
    ∀ node, ReflTransGen next start node → DeadEnd next node → good node

/-- `EndsIn` as an induction over the steps. -/
inductive Grounded (next : N → N → Prop) (good : N → Prop) : N → Prop
  | intro {node : N} (leaf : DeadEnd next node → good node)
      (steps : ∀ other, next node other → Grounded next good other) : Grounded next good node

theorem Grounded.acc (grounded : Grounded next good node) : Acc (flip next) node := by
  induction grounded with
  | intro leaf steps ih => exact .intro _ ih

theorem Grounded.step (grounded : Grounded next good start) (step : next start node) :
    Grounded next good node := by
  cases grounded with
  | intro leaf steps => exact steps node step

theorem Grounded.reach (grounded : Grounded next good start)
    (reach : ReflTransGen next start node) : Grounded next good node := by
  induction reach with
  | refl => exact grounded
  | tail _ step ih => exact ih.step step

/-- Where every name has at most one base, one path that ends well is all of them. -/
theorem Grounded.of_unique
    (unique : ∀ node first second, next node first → next node second → first = second)
    (reach : ReflTransGen next start node) (deadEnd : DeadEnd next node) (ends : good node) :
    Grounded next good start := by
  induction reach using ReflTransGen.head_induction_on with
  | refl => exact .intro (fun _ => ends) fun other step => absurd step (deadEnd other)
  | @head first second step _ ih =>
    refine .intro (fun stuck => absurd step (stuck second)) fun other step' => ?_
    rw [unique first other second step' step]
    exact ih

/-- Infinite paths are what stands between a name and accessibility. -/
theorem acc_iff_no_path :
    Acc (flip next) start ↔ ¬ ∃ path : ℕ → N, path 0 = start ∧ ∀ i, next (path i) (path (i + 1)) := by
  rw [← not_iff_not, not_not, not_acc_iff_exists_descending_chain]
  rfl

theorem grounded_iff_endsIn : Grounded next good start ↔ EndsIn next good start := by
  constructor
  · intro grounded
    refine ⟨acc_iff_no_path.mp grounded.acc, fun node reach deadEnd => ?_⟩
    cases grounded.reach reach with
    | intro leaf steps => exact leaf deadEnd
  · rintro ⟨noPath, ends⟩
    have acc := acc_iff_no_path.mpr noPath
    induction acc with
    | intro node _ ih =>
      refine .intro (ends node .refl) fun other step => ih other step ?_ fun last reach =>
        ends last (.head step reach)
      rintro ⟨path, rfl, follows⟩
      refine noPath ⟨fun | 0 => node | i + 1 => path i, rfl, fun i => ?_⟩
      cases i with
      | zero => exact step
      | succ i => exact follows i

/-- No cycle is reachable from a grounded name. -/
theorem Grounded.no_cycle (grounded : Grounded next good start)
    (reach : ReflTransGen next start node) : ¬ TransGen next node node := by
  intro cycle
  have acc : Acc (TransGen (flip next)) node := (grounded.reach reach).acc.transGen
  have back : TransGen (flip next) node node := transGen_swap.mp cycle
  induction acc with
  | intro node _ ih => exact ih node back (reach.trans cycle.to_reflTransGen) cycle back

/-- Over finitely many names, an infinite path runs into a cycle. -/
theorem exists_cycle_of_path {names : List N}
    (finite : ∀ node, ReflTransGen next start node → node ∈ names) {path : ℕ → N}
    (starts : path 0 = start) (follows : ∀ i, next (path i) (path (i + 1))) :
    ∃ node, ReflTransGen next start node ∧ TransGen next node node := by
  have reaches : ∀ i, ReflTransGen next start (path i) := by
    intro i
    induction i with
    | zero => rw [starts]
    | succ i ih => exact ih.tail (follows i)
  have forward : ∀ i k, TransGen next (path i) (path (i + k + 1)) := by
    intro i k
    induction k with
    | zero => exact .single (follows i)
    | succ k ih => exact ih.tail (follows (i + k + 1))
  obtain ⟨i, j, before, same⟩ := Set.Finite.exists_lt_map_eq_of_forall_mem
    (fun i => finite (path i) (reaches i)) names.finite_toSet
  obtain ⟨k, rfl⟩ := Nat.exists_eq_add_of_lt before
  refine ⟨path i, reaches i, ?_⟩
  nth_rewrite 2 [same]
  exact forward i k

/-- Over finitely many names, ending well is having good dead ends and no cycle. -/
theorem endsIn_iff_of_finite {names : List N}
    (finite : ∀ node, ReflTransGen next start node → node ∈ names) :
    EndsIn next good start ↔
      (∀ node, ReflTransGen next start node → ¬ TransGen next node node) ∧
        ∀ node, ReflTransGen next start node → DeadEnd next node → good node := by
  constructor
  · intro ends
    exact ⟨fun node reach => (grounded_iff_endsIn.mpr ends).no_cycle reach, ends.2⟩
  · rintro ⟨noCycle, ends⟩
    refine ⟨?_, ends⟩
    rintro ⟨path, starts, follows⟩
    obtain ⟨node, reach, cycle⟩ := exists_cycle_of_path finite starts follows
    exact noCycle node reach cycle

end MalloyPublisher.Foundations
