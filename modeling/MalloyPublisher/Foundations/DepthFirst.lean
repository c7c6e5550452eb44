/-
# A depth-first walk that visits each node once

A node is visited with a context that depends on how the walk came to it. It emits
something in that context and names its children, each with the context they are
visited in. The visited nodes are carried from one child to the next, so a node that
is reached twice is visited in the context of the first arrival alone.

On a finite graph the walk ends. It visits exactly the reachable nodes, and what it
emits is what each of them emits in some context it can be arrived at in.
-/

import Mathlib.Data.Fintype.Card

namespace MalloyPublisher.Foundations

open Relation

variable {S C E : Type*}

/-- Walk from one start after the other, the nodes seen carried along. -/
def walkAll (walk : S × C → List S → Option (List E × List S)) :
    List (S × C) → List S → Option (List E × List S)
  | [], seen => some ([], seen)
  | start :: starts, seen =>
    (walk start seen).bind fun (first, middle) =>
      (walkAll walk starts middle).map fun (more, later) => (first ++ more, later)

/-- Walk from a node in a context, over the nodes not seen yet. Answers what was
emitted and the nodes seen, or nothing where the fuel runs out. -/
def depthFirst [DecidableEq S] (emit : S → C → List E) (children : S → C → List (S × C)) :
    ℕ → S × C → List S → Option (List E × List S)
  | 0, _, _ => none
  | fuel + 1, (node, context), seen =>
    if node ∈ seen then some ([], seen)
    else
      (walkAll (depthFirst emit children fuel) (children node context) (node :: seen)).map
        fun (more, later) => (emit node context ++ more, later)

/-- A child's arrival. -/
def ChildOf (children : S → C → List (S × C)) (arrival child : S × C) : Prop :=
  child ∈ children arrival.1 arrival.2

/-- The arrivals the walk may make: nodes with the contexts they are reached in. -/
def Arrives (children : S → C → List (S × C)) : S × C → S × C → Prop :=
  ReflTransGen (ChildOf children)

/-- What a walk from `starts` over the nodes outside `seen` has done. -/
structure Walked (emit : S → C → List E) (children : S → C → List (S × C))
    (starts : List (S × C)) (seen : List S) (emitted : List E) (seen' : List S) : Prop where
  mono : ∀ node ∈ seen, node ∈ seen'
  started : ∀ start ∈ starts, start.1 ∈ seen'
  visited : ∀ node ∈ seen', node ∉ seen → ∃ start ∈ starts, ∃ context,
    Arrives children start (node, context) ∧ (∀ e ∈ emit node context, e ∈ emitted) ∧
      ∀ child ∈ children node context, child.1 ∈ seen'
  source : ∀ e ∈ emitted, ∃ start ∈ starts, ∃ node context,
    Arrives children start (node, context) ∧ e ∈ emit node context

variable {emit : S → C → List E} {children : S → C → List (S × C)}

theorem Walked.nil (seen : List S) : Walked emit children [] seen [] seen where
  mono _ member := member
  started _ member := absurd member List.not_mem_nil
  visited _ member fresh := absurd member fresh
  source _ member := absurd member List.not_mem_nil

/-- Two walks one after the other. -/
theorem Walked.append {starts starts' : List (S × C)} {seen middle later : List S}
    {emitted emitted' : List E} (first : Walked emit children starts seen emitted middle)
    (second : Walked emit children starts' middle emitted' later) :
    Walked emit children (starts ++ starts') seen (emitted ++ emitted') later where
  mono node member := second.mono node (first.mono node member)
  started start member := by
    rcases List.mem_append.mp member with member | member
    · exact second.mono _ (first.started start member)
    · exact second.started start member
  visited node member fresh := by
    by_cases early : node ∈ middle
    · obtain ⟨start, among, context, arrives, emits, closed⟩ := first.visited node early fresh
      exact ⟨start, List.mem_append_left _ among, context, arrives,
        fun e member => List.mem_append_left _ (emits e member),
        fun child member => second.mono _ (closed child member)⟩
    · obtain ⟨start, among, context, arrives, emits, closed⟩ := second.visited node member early
      exact ⟨start, List.mem_append_right _ among, context, arrives,
        fun e member => List.mem_append_right _ (emits e member), closed⟩
  source e member := by
    rcases List.mem_append.mp member with member | member
    · obtain ⟨start, among, rest⟩ := first.source e member
      exact ⟨start, List.mem_append_left _ among, rest⟩
    · obtain ⟨start, among, rest⟩ := second.source e member
      exact ⟨start, List.mem_append_right _ among, rest⟩

/-- A node's own visit, and the walk over its children. -/
theorem Walked.visit {node : S} {context : C} {seen later : List S} {emitted : List E}
    (walked : Walked emit children (children node context) (node :: seen) emitted later) :
    Walked emit children [(node, context)] seen (emit node context ++ emitted) later where
  mono other member := walked.mono other (List.mem_cons_of_mem _ member)
  started start member := by
    rw [List.mem_singleton.mp member]
    exact walked.mono node List.mem_cons_self
  visited other member fresh := by
    rcases eq_or_ne other node with rfl | apart
    · exact ⟨_, List.mem_singleton_self _, context, .refl,
        fun e among => List.mem_append_left _ among, fun child among => walked.started child among⟩
    · obtain ⟨child, among, reached, arrives, emits, closed⟩ := walked.visited other member
        fun known => (List.mem_cons.mp known).elim apart fresh
      exact ⟨_, List.mem_singleton_self _, reached, .head among arrives,
        fun e member => List.mem_append_right _ (emits e member), closed⟩
  source e member := by
    rcases List.mem_append.mp member with own | member
    · exact ⟨_, List.mem_singleton_self _, node, context, .refl, own⟩
    · obtain ⟨child, among, other, reached, arrives, emits⟩ := walked.source e member
      exact ⟨_, List.mem_singleton_self _, other, reached, .head among arrives, emits⟩

theorem walkAll_walked {walk : S × C → List S → Option (List E × List S)}
    (each : ∀ start seen emitted later, walk start seen = some (emitted, later) →
      Walked emit children [start] seen emitted later)
    {starts : List (S × C)} {seen later : List S} {emitted : List E}
    (answered : walkAll walk starts seen = some (emitted, later)) :
    Walked emit children starts seen emitted later := by
  induction starts generalizing seen emitted later with
  | nil =>
    obtain ⟨rfl, rfl⟩ := Prod.mk.inj (Option.some.inj answered)
    exact .nil _
  | cons start starts ih =>
    obtain ⟨⟨first, middle⟩, walked, rest⟩ := Option.bind_eq_some_iff.mp answered
    obtain ⟨⟨more, last⟩, others, same⟩ := Option.map_eq_some_iff.mp rest
    obtain ⟨rfl, rfl⟩ := Prod.mk.inj same
    exact (each _ _ _ _ walked).append (ih others)

variable [DecidableEq S]

theorem depthFirst_walked {fuel : ℕ} {start : S × C} {seen later : List S} {emitted : List E}
    (answered : depthFirst emit children fuel start seen = some (emitted, later)) :
    Walked emit children [start] seen emitted later := by
  induction fuel generalizing start seen emitted later with
  | zero => cases answered
  | succ fuel ih =>
    obtain ⟨node, context⟩ := start
    rw [depthFirst] at answered
    split_ifs at answered with known
    · obtain ⟨rfl, rfl⟩ := Prod.mk.inj (Option.some.inj answered)
      exact ⟨fun _ member => member, fun start member => List.mem_singleton.mp member ▸ known,
        fun _ member fresh => absurd member fresh, fun _ member => absurd member List.not_mem_nil⟩
    · obtain ⟨⟨more, last⟩, walked, same⟩ := Option.map_eq_some_iff.mp answered
      obtain ⟨rfl, rfl⟩ := Prod.mk.inj same
      exact (walkAll_walked (fun _ _ _ _ answered => ih answered) walked).visit

/-- The nodes a walk has still to see. -/
def unseen [Fintype S] (seen : List S) : ℕ := (Finset.univ.filter (· ∉ seen)).card

theorem unseen_cons_lt [Fintype S] {node : S} {seen : List S} (fresh : node ∉ seen) :
    unseen (node :: seen) < unseen seen := by
  refine Finset.card_lt_card ⟨fun other member => ?_, fun back => ?_⟩
  · simp only [Finset.mem_filter, Finset.mem_univ, true_and, List.mem_cons, not_or] at member ⊢
    exact member.2
  · have member := back (Finset.mem_filter.mpr ⟨Finset.mem_univ node, fresh⟩)
    simp at member

theorem unseen_le [Fintype S] {seen later : List S} (mono : ∀ node ∈ seen, node ∈ later) :
    unseen later ≤ unseen seen := by
  refine Finset.card_le_card fun node member => ?_
  simp only [Finset.mem_filter, Finset.mem_univ, true_and] at member ⊢
  exact fun known => member (mono node known)

theorem walkAll_isSome [Fintype S] {walk : S × C → List S → Option (List E × List S)} {bound : ℕ}
    (each : ∀ start seen, unseen seen ≤ bound → ∃ emitted later,
      walk start seen = some (emitted, later) ∧ ∀ node ∈ seen, node ∈ later)
    {starts : List (S × C)} {seen : List S} (within : unseen seen ≤ bound) :
    (walkAll walk starts seen).isSome := by
  induction starts generalizing seen with
  | nil => rfl
  | cons start starts ih =>
    obtain ⟨first, middle, answered, mono⟩ := each start seen within
    rw [walkAll, answered, Option.bind_some, Option.isSome_map]
    exact ih ((unseen_le mono).trans within)

/-- The walk of a finite graph ends: more fuel than nodes to see is enough. -/
theorem depthFirst_isSome [Fintype S] {fuel : ℕ} (start : S × C) {seen : List S}
    (enough : unseen seen < fuel) : (depthFirst emit children fuel start seen).isSome := by
  induction fuel generalizing start seen with
  | zero => omega
  | succ fuel ih =>
    obtain ⟨node, context⟩ := start
    rw [depthFirst]
    split_ifs with known
    · rfl
    · rw [Option.isSome_map]
      have fewer := unseen_cons_lt known
      have reserve : unseen seen - 1 < fuel := by omega
      refine walkAll_isSome (fun start seen within => ?_) (Nat.le_sub_one_of_lt fewer)
      obtain ⟨⟨emitted, later⟩, answered⟩ :=
        Option.isSome_iff_exists.mp (ih start (lt_of_le_of_lt within reserve))
      exact ⟨emitted, later, answered, (depthFirst_walked answered).mono⟩

/-- A walk of a finite graph from all its starts. -/
theorem exists_walked [Fintype S] (emit : S → C → List E) (children : S → C → List (S × C))
    (starts : List (S × C)) {fuel : ℕ} (enough : Fintype.card S < fuel) : ∃ emitted later,
      walkAll (depthFirst emit children fuel) starts [] = some (emitted, later) ∧
        Walked emit children starts [] emitted later := by
  have ends : (walkAll (depthFirst emit children fuel) starts []).isSome := by
    refine walkAll_isSome (fun start seen within => ?_) (Finset.card_le_univ _)
    obtain ⟨⟨emitted, later⟩, answered⟩ :=
      Option.isSome_iff_exists.mp (depthFirst_isSome start (within.trans_lt enough))
    exact ⟨emitted, later, answered, (depthFirst_walked answered).mono⟩
  obtain ⟨⟨emitted, later⟩, answered⟩ := Option.isSome_iff_exists.mp ends
  exact ⟨emitted, later, answered, walkAll_walked (fun _ _ _ _ => depthFirst_walked) answered⟩

omit [DecidableEq S]

/-- The ways to a node agree on what lies below it. -/
def WaysAgree (children : S → C → List (S × C)) (starts : List (S × C)) : Prop :=
  ∀ start ∈ starts, ∀ start' ∈ starts, ∀ node context context',
    Arrives children start (node, context) → Arrives children start' (node, context') →
      children node context = children node context'

/-- Where the ways to each node agree, a walk visits all it can arrive at. -/
theorem Walked.visits {starts : List (S × C)} {emitted : List E} {later : List S}
    (walked : Walked emit children starts [] emitted later) (agree : WaysAgree children starts)
    {start arrival : S × C} (among : start ∈ starts) (arrives : Arrives children start arrival) :
    ∃ start ∈ starts, ∃ context, Arrives children start (arrival.1, context) ∧
      ∀ e ∈ emit arrival.1 context, e ∈ emitted := by
  have seen : arrival.1 ∈ later := by
    induction arrives with
    | refl => exact walked.started start among
    | @tail middle child reached childOf ih =>
      obtain ⟨start', among', context', arrives', -, closed⟩ :=
        walked.visited _ ih List.not_mem_nil
      have same := agree start among start' among' middle.1 middle.2 context' reached arrives'
      exact closed child (same ▸ childOf)
  obtain ⟨start', among', context', arrives', all, -⟩ := walked.visited _ seen List.not_mem_nil
  exact ⟨start', among', context', arrives', all⟩

/-- A walk that carries nothing emits what its arrivals do. -/
theorem Walked.mem_iff {emit : S → Unit → List E} {children : S → Unit → List (S × Unit)}
    {starts : List (S × Unit)} {emitted : List E} {later : List S} {e : E}
    (walked : Walked emit children starts [] emitted later) :
    e ∈ emitted ↔ ∃ start ∈ starts, ∃ node context,
      Arrives children start (node, context) ∧ e ∈ emit node context := by
  refine ⟨walked.source e, ?_⟩
  rintro ⟨start, among, node, context, arrives, emits⟩
  obtain ⟨_, _, _, _, all⟩ :=
    walked.visits (fun _ _ _ _ _ _ _ _ _ => rfl) among arrives
  exact all e emits

end MalloyPublisher.Foundations
