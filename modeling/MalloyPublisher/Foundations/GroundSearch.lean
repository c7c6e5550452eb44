import MalloyPublisher.Foundations.Derivation

/-!
# Proving that a derivation ends well

A depth-first search tries to prove a name by proving all its bases. A name in progress
proves nothing, so a cycle fails, and so does a branch with too many names in progress.
Only proven names are remembered: that a name failed may be the verdict of the names in
progress around it.

## Main definitions

* `everyFrom` — a conjunction that stops at the first failure, its memo threaded through
* `groundSearch` — the search
* `GoodWithin` — every path comes to a good name within so many names

## Main results

* `groundSearch_sound` — a name that is proven is grounded
* `groundSearch_complete` — a name grounded within the bound is proven
-/

namespace MalloyPublisher.Foundations

open Relation

variable {N M : Type*}

/-- Ask `f` of each name in turn, with the memo of the ones before, until one fails. -/
def everyFrom (f : M → N → Bool × M) : List N → M → Bool × M
  | [], memo => (true, memo)
  | node :: rest, memo =>
    match f memo node with
    | (true, memo) => everyFrom f rest memo
    | (false, memo) => (false, memo)

theorem everyFrom_sound {f : M → N → Bool × M} {keeps : M → Prop} {holds : N → Prop}
    (sound : ∀ memo node, keeps memo →
      keeps (f memo node).2 ∧ ((f memo node).1 = true → holds node))
    (nodes : List N) (memo : M) (kept : keeps memo) :
    keeps (everyFrom f nodes memo).2 ∧
      ((everyFrom f nodes memo).1 = true → ∀ node ∈ nodes, holds node) := by
  induction nodes generalizing memo with
  | nil => exact ⟨kept, fun _ _ mem => absurd mem List.not_mem_nil⟩
  | cons node rest ih =>
    obtain ⟨kept', held⟩ := sound memo node kept
    rw [everyFrom]
    cases answer : f memo node with
    | mk ok memo' =>
      rw [answer] at kept' held
      cases ok with
      | false => exact ⟨kept', fun h => by cases h⟩
      | true =>
        obtain ⟨kept'', rest'⟩ := ih memo' kept'
        exact ⟨kept'', fun h => List.forall_mem_cons.mpr ⟨held rfl, rest' h⟩⟩

theorem everyFrom_complete {f : M → N → Bool × M} (nodes : List N)
    (all : ∀ node ∈ nodes, ∀ memo, (f memo node).1 = true) (memo : M) :
    (everyFrom f nodes memo).1 = true := by
  induction nodes generalizing memo with
  | nil => rfl
  | cons node rest ih =>
    have first := all node (.head rest) memo
    rw [everyFrom]
    cases answer : f memo node with
    | mk ok memo' =>
      rw [answer] at first
      subst first
      exact ih (fun other mem => all other (.tail node mem)) memo'

section Search

variable [DecidableEq N] (good : N → Bool) (bases : N → List N)

/-- The search for a proof of `current`, with room for so many more names in progress. -/
def groundSearch : ℕ → List N → List N → N → Bool × List N
  | room, inProgress, proven, current =>
    if good current then (true, proven)
    else if current ∈ proven then (true, proven)
    else if current ∈ inProgress then (false, proven)
    else
      match room with
      | 0 => (false, proven)
      | room + 1 =>
        if bases current = [] then (false, proven)
        else
          match everyFrom (groundSearch room (current :: inProgress)) (bases current) proven with
          | (true, proven) => (true, current :: proven)
          | (false, proven) => (false, proven)

/-- A step to a base, from a name that is not good itself. -/
def SearchStep (name base : N) : Prop := good name = false ∧ base ∈ bases name

/-- Every path comes to a good name within so many names that are not. -/
def GoodWithin : ℕ → N → Prop
  | 0, name => good name = true
  | room + 1, name => good name = true ∨ ∀ base ∈ bases name, GoodWithin room base

variable {good bases}

omit [DecidableEq N] in
theorem grounded_of_good {name : N} (isGood : good name = true) :
    Grounded (SearchStep good bases) (good · = true) name :=
  .intro (fun _ => isGood) fun _ step => absurd (isGood.symm.trans step.1) Bool.true_eq_false.mp

theorem groundSearch_sound (room : ℕ) (inProgress proven : List N) (current : N)
    (known : ∀ name ∈ proven, Grounded (SearchStep good bases) (good · = true) name) :
    (∀ name ∈ (groundSearch good bases room inProgress proven current).2,
        Grounded (SearchStep good bases) (good · = true) name) ∧
      ((groundSearch good bases room inProgress proven current).1 = true →
        Grounded (SearchStep good bases) (good · = true) current) := by
  induction room generalizing inProgress proven current with
  | zero =>
    rw [groundSearch]
    split_ifs with isGood isProven
    · exact ⟨known, fun _ => grounded_of_good isGood⟩
    · exact ⟨known, fun _ => known current isProven⟩
    · exact ⟨known, fun h => by cases h⟩
    · exact ⟨known, fun h => by cases h⟩
  | succ room ih =>
    rw [groundSearch]
    split_ifs with isGood isProven open_ noBases
    · exact ⟨known, fun _ => grounded_of_good isGood⟩
    · exact ⟨known, fun _ => known current isProven⟩
    · exact ⟨known, fun h => by cases h⟩
    · exact ⟨known, fun h => by cases h⟩
    · have all := everyFrom_sound (fun memo node kept => ih (current :: inProgress) memo node kept)
        (bases current) proven known
      cases answer : everyFrom (groundSearch good bases room (current :: inProgress))
          (bases current) proven with
      | mk ok proven' =>
        rw [answer] at all
        cases ok with
        | false => exact ⟨all.1, fun h => by cases h⟩
        | true =>
          -- a dead end would have no base
          have grounded : Grounded (SearchStep good bases) (good · = true) current := by
            refine .intro (fun stuck => ?_) fun base step => all.2 rfl base step.2
            obtain ⟨base, rest, shape⟩ := List.exists_cons_of_ne_nil noBases
            have mem : base ∈ bases current := shape ▸ .head rest
            exact absurd ⟨Bool.eq_false_iff.mpr isGood, mem⟩ (stuck base)
          exact ⟨List.forall_mem_cons.mpr ⟨grounded, all.1⟩, fun _ => grounded⟩

theorem groundSearch_complete (room : ℕ) (inProgress proven : List N) (current : N)
    (grounded : Grounded (SearchStep good bases) (good · = true) current)
    (within : GoodWithin good bases room current)
    (behind : ∀ name ∈ inProgress, TransGen (SearchStep good bases) name current) :
    (groundSearch good bases room inProgress proven current).1 = true := by
  induction room generalizing inProgress proven current with
  | zero => rw [groundSearch, if_pos (show good current = true from within)]
  | succ room ih =>
    rw [groundSearch]
    split_ifs with isGood isProven open_ noBases
    · rfl
    · rfl
    · exact absurd (behind current open_) (grounded.no_cycle .refl)
    · have stuck : DeadEnd (SearchStep good bases) current := fun base step => by
        have mem : base ∈ bases current := step.2
        rw [noBases] at mem
        exact List.not_mem_nil mem
      cases grounded with
      | intro leaf _ => exact absurd (leaf stuck) isGood
    · have all : (everyFrom (groundSearch good bases room (current :: inProgress))
          (bases current) proven).1 = true := by
        refine everyFrom_complete _ (fun base mem memo => ?_) _
        have step : SearchStep good bases current base := ⟨Bool.eq_false_iff.mpr isGood, mem⟩
        refine ih _ _ _ (grounded.step step) (within.resolve_left isGood base mem) ?_
        exact List.forall_mem_cons.mpr ⟨.single step, fun name opened => (behind name opened).tail step⟩
      cases answer : everyFrom (groundSearch good bases room (current :: inProgress))
          (bases current) proven with
      | mk ok proven' =>
        rw [answer] at all
        subst all
        rfl

end Search

end MalloyPublisher.Foundations
