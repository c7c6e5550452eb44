import Mathlib.Data.List.Basic
import Mathlib.Logic.Relation

/-!
# Following links

Each node may link to one other. A walk follows the links and stops where there is none, or where
the next node has been seen. Where no node leads back to itself, a walk ends at a node without a
link, and nodes are connected when their walks end at one.

## Main definitions

* `Links` — nodes, and the link of each
* `Links.walk` — the walk, with the nodes it has seen
* `Links.Acyclic` — no node leads back to itself

## Main results

* `Links.reaches_walk` — a walk ends where its start leads
* `Links.next_walk` — without cycles, it ends at a node without a link
* `Links.connected_iff` — without cycles, nodes are connected when their walks end at one
-/

namespace MalloyPublisher.Foundations

/-- Nodes, each with a link to one of them or none. -/
structure Links (α : Type*) where
  nodes : List α
  next : α → Option α
  closed : ∀ node target, next node = some target → target ∈ nodes

namespace Links

variable {α : Type*} (links : Links α)

/-- A node links to another. -/
def Step (node target : α) : Prop := links.next node = some target

/-- A node leads to another. -/
abbrev Reaches : α → α → Prop := Relation.ReflTransGen links.Step

/-- Nodes that links lead between, in either direction. -/
abbrev Connected : α → α → Prop := Relation.EqvGen links.Step

def Acyclic : Prop := ∀ node, ¬Relation.TransGen links.Step node node

section Walk

variable [DecidableEq α]

/-- The walk from a node, with what it has seen. -/
def walk (seen : List α) (node : α) : α :=
  match _link : links.next node with
  | none => node
  | some next => if _known : next ∈ seen then node else walk (next :: seen) next
termination_by (links.nodes.filter fun node => node ∉ seen).length
decreasing_by
  have shorter : links.nodes.filter (fun node => node ∉ next :: seen) =
      (links.nodes.filter fun node => node ∉ seen).filter fun node => node ≠ next := by
    rw [List.filter_filter]
    exact List.filter_congr fun node _ => by simp
  rw [shorter, List.length_filter_lt_length_iff_exists]
  exact ⟨next, List.mem_filter.mpr ⟨links.closed node next _link, by simpa using _known⟩, by simp⟩

variable {links} {seen : List α} {node target : α}

theorem walk_of_none (link : links.next node = none) : links.walk seen node = node := by
  rw [walk]
  split
  · rfl
  · next next found => cases link.symm.trans found

theorem walk_of_some (link : links.next node = some target) : links.walk seen node =
    if target ∈ seen then node else links.walk (target :: seen) target := by
  rw [walk]
  split
  · next none => cases none.symm.trans link
  · next next found =>
    obtain rfl := Option.some.inj (found.symm.trans link)
    rfl

/-- What holds of a walk's end, by the ways the walk can go on. -/
theorem walk_induction (links : Links α) {motive : List α → α → α → Prop}
    (ends : ∀ seen node, links.next node = none → motive seen node node)
    (returns : ∀ seen node target, links.next node = some target → target ∈ seen →
      motive seen node node)
    (steps : ∀ seen node target, links.next node = some target → target ∉ seen →
      motive (target :: seen) target (links.walk (target :: seen) target) →
      motive seen node (links.walk (target :: seen) target)) (seen : List α) (node : α) :
    motive seen node (links.walk seen node) := by
  induction seen, node using Links.walk.induct links with
  | case1 seen node link =>
    rw [walk_of_none link]
    exact ends seen node link
  | case2 seen node target link known =>
    rw [walk_of_some link, if_pos known]
    exact returns seen node target link known
  | case3 seen node target link known ih =>
    rw [walk_of_some link, if_neg known]
    exact steps seen node target link known ih

/-- A walk ends where its start leads. -/
theorem reaches_walk (links : Links α) (seen : List α) (node : α) :
    links.Reaches node (links.walk seen node) := by
  induction seen, node using walk_induction links with
  | ends => exact .refl
  | returns => exact .refl
  | steps seen node target link _ ih => exact .head link ih

/-- A walk that goes on does not end where it has been. -/
theorem walk_not_mem (links : Links α) (seen : List α) (node : α) :
    links.walk seen node = node ∨ links.walk seen node ∉ seen := by
  induction seen, node using walk_induction links with
  | ends => exact .inl rfl
  | returns => exact .inl rfl
  | steps seen node target _ known ih =>
    obtain same | fresh := ih
    · rw [same]
      exact .inr known
    · exact .inr fun member => fresh (.tail _ member)

/-- Without cycles, a walk ends at a node without a link. -/
theorem next_walk (acyclic : links.Acyclic) (node : α) :
    links.next (links.walk [node] node) = none := by
  have general : ∀ seen node, (∀ other ∈ seen, links.Reaches other node) →
      links.next (links.walk seen node) = none := by
    intro seen node
    induction seen, node using walk_induction links with
    | ends seen node link => exact fun _ => link
    | returns seen node target link known =>
      exact fun lead => (acyclic node (.head' (show links.Step node target from link)
        (lead target known))).elim
    | steps seen node target link _ ih =>
      refine fun lead => ih fun other member => ?_
      obtain rfl | member := List.mem_cons.mp member
      · exact .refl
      · exact (lead other member).tail link
  exact general [node] node fun other member => List.mem_singleton.mp member ▸ .refl

end Walk

variable {links} {node target other : α}

theorem Step.eq (step : links.Step node target) (step' : links.Step node other) : target = other :=
  Option.some.inj (step.symm.trans step')

/-- What leads back to itself leads to nothing that does not. -/
theorem Reaches.cycle (reaches : links.Reaches node target)
    (cycle : Relation.TransGen links.Step node node) :
    Relation.TransGen links.Step target target := by
  induction reaches with
  | refl => exact cycle
  | tail _ step ih =>
    obtain ⟨next, step', back⟩ := Relation.TransGen.head'_iff.mp ih
    obtain rfl := step.eq step'
    exact .tail' back step

/-- A node leads to one node without a link. -/
theorem eq_of_next_eq_none (reaches : links.Reaches node target) (ends : links.next target = none)
    (reaches' : links.Reaches node other) (ends' : links.next other = none) : target = other := by
  have still : ∀ {a b}, links.next a = none → links.Reaches a b → a = b := by
    intro a b none onward
    obtain same | ⟨next, step, _⟩ := onward.cases_head
    · exact same
    · cases none.symm.trans step
  have unique : Relator.RightUnique links.Step := fun _ _ _ => Step.eq
  obtain onward | onward := reaches.total_of_right_unique unique reaches'
  · exact still ends onward
  · exact (still ends' onward).symm

theorem Reaches.connected (reaches : links.Reaches node target) : links.Connected node target := by
  induction reaches with
  | refl => exact .refl _
  | tail _ step ih => exact .trans _ _ _ ih (.rel _ _ step)

/-- Without cycles, nodes are connected when their walks end at one. -/
theorem connected_iff [DecidableEq α] (acyclic : links.Acyclic) :
    links.Connected node target ↔ links.walk [node] node = links.walk [target] target := by
  constructor
  · intro connected
    induction connected with
    | rel node target step =>
      exact eq_of_next_eq_none (reaches_walk _ _ _) (next_walk acyclic node)
        (.head step (reaches_walk _ _ _)) (next_walk acyclic target)
    | refl => rfl
    | symm _ _ _ ih => exact ih.symm
    | trans _ _ _ _ _ ih ih' => exact ih.trans ih'
  · intro same
    have forth := Reaches.connected (reaches_walk links [node] node)
    have back := Reaches.connected (reaches_walk links [target] target)
    exact .trans _ _ _ (same ▸ forth) (.symm _ _ back)

end Links

end MalloyPublisher.Foundations
