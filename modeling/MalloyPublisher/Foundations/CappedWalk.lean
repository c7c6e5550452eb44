import Mathlib.Data.List.Basic

/-!
# A depth-first walk with a cap on its depth

A walk goes over values, some of which are nodes. It enters each node once, stops at the first that
it is looking for, collects what the others emit and gives up where it goes deeper than its cap.

A walk that does none of stopping and giving up has entered all that is reachable, and none of it
is farther from the root than the cap.

## Main definitions

* `Walker` — what is looked for, what is collected, and where a walk goes next
* `Walker.walk` — the walk
* `IsBelow` — the nodes below a value
* `IsBelowWithin` — those at most so many steps below it

## Main results

* `Walker.walk_passed` — what a walk that passes has entered and collected
-/

namespace MalloyPublisher.Foundations

variable {V S E : Type*}

/-- How a walk ends. -/
inductive WalkEnd (α : Type*)
  | tooDeep
  | hit
  | passed (result : α)
  deriving DecidableEq, Repr

/-- The nodes at most so many steps below a value. -/
inductive IsBelowWithin (node? : V → Option S) (next : S → List V) : ℕ → V → S → Prop
  | here {steps : ℕ} {value : V} {node : S} (isNode : node? value = some node) :
      IsBelowWithin node? next steps value node
  | beyond {steps : ℕ} {value child : V} {node target : S} (isNode : node? value = some node)
      (isChild : child ∈ next node) (further : IsBelowWithin node? next steps child target) :
      IsBelowWithin node? next (steps + 1) value target

/-- The nodes below a value. -/
inductive IsBelow (node? : V → Option S) (next : S → List V) : V → S → Prop
  | here {value : V} {node : S} (isNode : node? value = some node) : IsBelow node? next value node
  | beyond {value child : V} {node target : S} (isNode : node? value = some node)
      (isChild : child ∈ next node) (further : IsBelow node? next child target) :
      IsBelow node? next value target

theorem IsBelowWithin.isBelow {node? : V → Option S} {next : S → List V} {steps : ℕ} {value : V}
    {node : S} (within : IsBelowWithin node? next steps value node) :
    IsBelow node? next value node := by
  induction within with
  | here isNode => exact .here isNode
  | beyond isNode isChild _ ih => exact .beyond isNode isChild ih

theorem IsBelowWithin.mono {node? : V → Option S} {next : S → List V} {steps more : ℕ} {value : V}
    {node : S} (within : IsBelowWithin node? next steps value node) (le : steps ≤ more) :
    IsBelowWithin node? next more value node := by
  induction within generalizing more with
  | here isNode => exact .here isNode
  | @beyond steps _ _ _ _ isNode isChild _ ih =>
    obtain ⟨more, rfl⟩ : ∃ less, more = less + 1 := ⟨more - 1, by omega⟩
    exact .beyond isNode isChild (ih (by omega))

structure Walker (V S E : Type*) where
  node? : V → Option S
  hit : S → Bool
  emit : S → List E
  next : S → List V

namespace Walker

/-- Walk from one value after the other, what was entered and collected carried along. -/
def walkAll (walk : V → List S × List E → WalkEnd (List S × List E)) :
    List V → List S × List E → WalkEnd (List S × List E)
  | [], so_far => .passed so_far
  | value :: values, so_far =>
    match walk value so_far with
    | .tooDeep => .tooDeep
    | .hit => .hit
    | .passed so_far => walkAll walk values so_far

/-- Walk from a value, so many levels deep. -/
def walk [DecidableEq S] (walker : Walker V S E) :
    ℕ → V → List S × List E → WalkEnd (List S × List E)
  | 0, _, _ => .tooDeep
  | levels + 1, value, (entered, collected) =>
    match walker.node? value with
    | none => .passed (entered, collected)
    | some node =>
      if node ∈ entered then .passed (entered, collected)
      else if walker.hit node then .hit
      else
        walkAll (walker.walk levels) (walker.next node)
          (node :: entered, collected ++ walker.emit node)

variable {walker : Walker V S E}

/-- What a walk from `values`, so many levels deep, has done to what was entered and collected. -/
structure Passed (walker : Walker V S E) (levels : ℕ) (values : List V)
    (before after : List S × List E) : Prop where
  keeps : ∀ node ∈ before.1, node ∈ after.1
  started : ∀ value ∈ values, ∀ node, walker.node? value = some node → node ∈ after.1
  clear : ∀ node ∈ after.1, node ∉ before.1 → walker.hit node = false
  closed : ∀ node ∈ after.1, node ∉ before.1 → ∀ value ∈ walker.next node, ∀ child,
    walker.node? value = some child → child ∈ after.1
  within : ∀ node ∈ after.1, node ∉ before.1 →
    ∃ value ∈ values, ∃ steps < levels, IsBelowWithin walker.node? walker.next steps value node
  emitted : ∀ node ∈ after.1, node ∉ before.1 → ∀ e ∈ walker.emit node, e ∈ after.2
  collected : ∀ e ∈ before.2, e ∈ after.2
  source : ∀ e ∈ after.2, e ∈ before.2 ∨
    ∃ node ∈ after.1, node ∉ before.1 ∧ e ∈ walker.emit node

namespace Passed

variable {levels : ℕ} {before middle after : List S × List E}

theorem nil (before : List S × List E) : Passed walker levels [] before before where
  keeps _ member := member
  started _ member := absurd member List.not_mem_nil
  clear _ member fresh := absurd member fresh
  closed _ member fresh := absurd member fresh
  within _ member fresh := absurd member fresh
  emitted _ member fresh := absurd member fresh
  collected _ member := member
  source _ member := .inl member

/-- A value that is no node, or one that was entered before. -/
theorem same {value : V} (before : List S × List E)
    (known : ∀ node, walker.node? value = some node → node ∈ before.1) :
    Passed walker levels [value] before before :=
  { (nil before : Passed walker levels [] before before) with
    started := fun _ member => List.mem_singleton.mp member ▸ known
    within := fun _ member fresh => absurd member fresh }

/-- Two walks one after the other. -/
theorem cons {value : V} {values : List V} (first : Passed walker levels [value] before middle)
    (second : Passed walker levels values middle after) :
    Passed walker levels (value :: values) before after where
  keeps node member := second.keeps node (first.keeps node member)
  started other member node isNode := by
    obtain rfl | member := List.mem_cons.mp member
    · exact second.keeps node (first.started other (List.mem_singleton_self _) node isNode)
    · exact second.started other member node isNode
  clear node member fresh := by
    by_cases early : node ∈ middle.1
    · exact first.clear node early fresh
    · exact second.clear node member early
  closed node member fresh other isChild child isNode := by
    by_cases early : node ∈ middle.1
    · exact second.keeps child (first.closed node early fresh other isChild child isNode)
    · exact second.closed node member early other isChild child isNode
  within node member fresh := by
    by_cases early : node ∈ middle.1
    · obtain ⟨start, isStart, reached⟩ := first.within node early fresh
      exact ⟨start, List.mem_singleton.mp isStart ▸ List.mem_cons_self, reached⟩
    · obtain ⟨start, isStart, reached⟩ := second.within node member early
      exact ⟨start, List.mem_cons_of_mem _ isStart, reached⟩
  emitted node member fresh e emits := by
    by_cases early : node ∈ middle.1
    · exact second.collected e (first.emitted node early fresh e emits)
    · exact second.emitted node member early e emits
  collected e member := second.collected e (first.collected e member)
  source e member := by
    obtain member | ⟨node, entered, fresh, emits⟩ := second.source e member
    · obtain member | ⟨node, entered, fresh, emits⟩ := first.source e member
      · exact .inl member
      · exact .inr ⟨node, second.keeps node entered, fresh, emits⟩
    · exact .inr ⟨node, entered, fun known => fresh (first.keeps node known), emits⟩

/-- A node's own entry, and the walk over what is next to it. -/
theorem enter {value : V} {node : S} {entered : List S} {collected : List E}
    (isNode : walker.node? value = some node) (miss : walker.hit node = false)
    (fresh : node ∉ entered)
    (below : Passed walker levels (walker.next node)
      (node :: entered, collected ++ walker.emit node) after) :
    Passed walker (levels + 1) [value] (entered, collected) after where
  keeps other member := below.keeps other (List.mem_cons_of_mem _ member)
  started other member start isStart := by
    rw [List.mem_singleton.mp member, isNode] at isStart
    exact Option.some.inj isStart ▸ below.keeps node List.mem_cons_self
  clear other member unknown := by
    by_cases itself : other = node
    · exact itself ▸ miss
    · exact below.clear other member (by simp [itself, unknown])
  closed other member unknown := by
    by_cases itself : other = node
    · exact itself ▸ below.started
    · exact below.closed other member (by simp [itself, unknown])
  within other member unknown := by
    refine ⟨value, List.mem_singleton_self _, ?_⟩
    by_cases itself : other = node
    · exact ⟨0, Nat.succ_pos _, .here (itself ▸ isNode)⟩
    · obtain ⟨child, isChild, steps, fewer, reached⟩ :=
        below.within other member (by simp [itself, unknown])
      exact ⟨steps + 1, Nat.succ_lt_succ fewer, .beyond isNode isChild reached⟩
  emitted other member unknown e emits := by
    by_cases itself : other = node
    · exact below.collected e (List.mem_append_right _ (itself ▸ emits))
    · exact below.emitted other member (by simp [itself, unknown]) e emits
  collected e member := below.collected e (List.mem_append_left _ member)
  source e member := by
    obtain member | ⟨other, entered, unknown, emits⟩ := below.source e member
    · obtain member | emits := List.mem_append.mp member
      · exact .inl member
      · exact .inr ⟨node, below.keeps node List.mem_cons_self, fresh, emits⟩
    · exact .inr ⟨other, entered, fun known => unknown (List.mem_cons_of_mem _ known), emits⟩

end Passed

theorem walkAll_passed {levels : ℕ} {walk : V → List S × List E → WalkEnd (List S × List E)}
    (each : ∀ value before after, walk value before = .passed after →
      Passed walker levels [value] before after)
    {values : List V} {before after : List S × List E}
    (passed : walkAll walk values before = .passed after) :
    Passed walker levels values before after := by
  induction values generalizing before with
  | nil => exact WalkEnd.passed.inj passed ▸ .nil before
  | cons value values ih =>
    rw [walkAll] at passed
    cases first : walk value before with
    | tooDeep => simp [first] at passed
    | hit => simp [first] at passed
    | passed middle =>
      exact (each value before middle first).cons (ih (by simpa [first] using passed))

variable [DecidableEq S]

theorem passed_of_walk {levels : ℕ} {value : V} {before after : List S × List E}
    (passed : walker.walk levels value before = .passed after) :
    Passed walker levels [value] before after := by
  induction levels generalizing value before after with
  | zero => cases passed
  | succ levels ih =>
    obtain ⟨entered, collected⟩ := before
    rw [walk] at passed
    cases isNode : walker.node? value with
    | none =>
      simp only [isNode] at passed
      exact WalkEnd.passed.inj passed ▸ .same _ (by simp [isNode])
    | some node =>
      simp only [isNode] at passed
      split_ifs at passed with known hit
      · exact WalkEnd.passed.inj passed ▸ .same _ fun other isOther =>
          Option.some.inj (isNode.symm.trans isOther) ▸ known
      · exact .enter isNode (eq_false_of_ne_true hit) known
          (walkAll_passed (fun _ _ _ below => ih below) passed)

/-- A walk that passes has entered what is reachable: none of it is what it looks for, none of it
is deeper than its levels, and what it collected is what all of it emits. -/
theorem walk_passed {levels : ℕ} {root : V} {entered : List S} {collected : List E}
    (passed : walker.walk (levels + 1) root ([], []) = .passed (entered, collected)) :
    (∀ node, IsBelow walker.node? walker.next root node →
      walker.hit node = false ∧ IsBelowWithin walker.node? walker.next levels root node) ∧
    ∀ e, e ∈ collected ↔
      ∃ node, IsBelow walker.node? walker.next root node ∧ e ∈ walker.emit node := by
  have done := passed_of_walk passed
  have reaches : ∀ node ∈ entered, IsBelowWithin walker.node? walker.next levels root node := by
    intro node member
    obtain ⟨value, isRoot, steps, fewer, reached⟩ := done.within node member List.not_mem_nil
    obtain rfl := List.mem_singleton.mp isRoot
    exact reached.mono (Nat.le_of_lt_succ fewer)
  have covers : ∀ value node, IsBelow walker.node? walker.next value node →
      (∀ start, walker.node? value = some start → start ∈ entered) → node ∈ entered := by
    intro value node reached
    induction reached with
    | here isNode => exact fun started => started _ isNode
    | beyond isNode isChild _ ih =>
      intro started
      exact ih fun start isStart =>
        done.closed _ (started _ isNode) List.not_mem_nil _ isChild start isStart
  have all : ∀ node, IsBelow walker.node? walker.next root node → node ∈ entered :=
    fun node reached => covers root node reached (done.started root (List.mem_singleton_self _))
  refine ⟨fun node reached => ⟨done.clear node (all node reached) List.not_mem_nil,
    reaches node (all node reached)⟩, fun e => ⟨fun member => ?_, ?_⟩⟩
  · obtain member | ⟨node, member, -, emits⟩ := done.source e member
    · cases member
    · exact ⟨node, (reaches node member).isBelow, emits⟩
  · rintro ⟨node, reached, emits⟩
    exact done.emitted node (all node reached) List.not_mem_nil e emits

/-- A walk that looks for nothing does not stop. -/
theorem walk_ne_hit (miss : ∀ node, walker.hit node = false) (levels : ℕ) (value : V)
    (before : List S × List E) : walker.walk levels value before ≠ .hit := by
  induction levels generalizing value before with
  | zero => nofun
  | succ levels ih =>
    obtain ⟨entered, collected⟩ := before
    have all : ∀ values before, walkAll (walker.walk levels) values before ≠ .hit := by
      intro values
      induction values with
      | nil => nofun
      | cons value values rest =>
        intro before
        rw [walkAll]
        cases first : walker.walk levels value before with
        | tooDeep => nofun
        | hit => exact absurd first (ih value before)
        | passed middle => exact rest middle
    rw [walk]
    cases walker.node? value with
    | none => nofun
    | some node =>
      simp only [miss, Bool.false_eq_true, if_false]
      split_ifs with known
      · nofun
      · exact all _ _

end Walker

end MalloyPublisher.Foundations
