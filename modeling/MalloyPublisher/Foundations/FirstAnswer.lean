import MalloyPublisher.Foundations.DepthFirst

/-!
# A depth-first search that stops at its first answer

A node answers, or it is passed over. The search visits nodes in the order of the
depth-first walk and ends at the first that answers. So it ends where the walk does, and
what it finds is the first answer among the nodes the walk visits.
-/

namespace MalloyPublisher.Foundations

open Relation

variable {S A : Type*}

/-- How a search ends: with an answer, or with all the nodes it could see. -/
inductive SearchEnd (A S : Type*)
  | answered (answer : A)
  | exhausted (seen : List S)
  deriving DecidableEq, Repr

/-- Search from one start after the other, up to the first answer. -/
def searchAll (search : S → List S → Option (SearchEnd A S)) :
    List S → List S → Option (SearchEnd A S)
  | [], seen => some (.exhausted seen)
  | start :: starts, seen =>
    (search start seen).bind fun
      | .answered answer => some (.answered answer)
      | .exhausted middle => searchAll search starts middle

/-- Search from a node over the nodes not seen yet; nothing where the fuel runs out. -/
def depthSearch [DecidableEq S] (verdict : S → Option A) (next : S → List S) :
    ℕ → S → List S → Option (SearchEnd A S)
  | 0, _, _ => none
  | fuel + 1, node, seen =>
    if node ∈ seen then some (.exhausted seen)
    else
      match verdict node with
      | some answer => some (.answered answer)
      | none => searchAll (depthSearch verdict next fuel) (next node) (node :: seen)

/-- The nodes next to a node, for a walk without contexts. -/
def withoutContext (next : S → List S) (node : S) (_ : Unit) : List (S × Unit) :=
  (next node).map (·, ())

/-- The walk that only notes which node it visits. -/
def visits [DecidableEq S] (next : S → List S) (fuel : ℕ) (start : S) (seen : List S) :
    Option (List S × List S) :=
  depthFirst (fun node _ => [node]) (withoutContext next) fuel (start, ()) seen

/-- Where a search ends that makes the visits of a walk. -/
def SearchEnd.ofVisits (verdict : S → Option A) (order later : List S) : SearchEnd A S :=
  match order.findSome? verdict with
  | some answer => .answered answer
  | none => .exhausted later

variable {verdict : S → Option A} {next : S → List S}

theorem searchAll_singleton (search : S → List S → Option (SearchEnd A S)) (start : S)
    (seen : List S) : searchAll search [start] seen = search start seen := by
  rw [searchAll]
  rcases search start seen with _ | (answer | middle) <;> rfl

theorem searchAll_eq {search : S → List S → Option (SearchEnd A S)}
    {walk : S × Unit → List S → Option (List S × List S)}
    (each : ∀ start seen order later, walk (start, ()) seen = some (order, later) →
      search start seen = some (.ofVisits verdict order later))
    {starts seen order later : List S}
    (walked : walkAll walk (starts.map (·, ())) seen = some (order, later)) :
    searchAll search starts seen = some (.ofVisits verdict order later) := by
  induction starts generalizing seen order later with
  | nil =>
    obtain ⟨rfl, rfl⟩ := Prod.mk.inj (Option.some.inj walked)
    rfl
  | cons start starts ih =>
    obtain ⟨⟨first, middle⟩, here, rest⟩ := Option.bind_eq_some_iff.mp walked
    obtain ⟨⟨more, last⟩, others, same⟩ := Option.map_eq_some_iff.mp rest
    obtain ⟨rfl, rfl⟩ := Prod.mk.inj same
    rw [searchAll, each _ _ _ _ here, Option.bind_some, SearchEnd.ofVisits, SearchEnd.ofVisits,
      List.findSome?_append]
    cases first.findSome? verdict with
    | some answer => rfl
    | none => exact ih others

variable [DecidableEq S]

/-- The search answers as the first of the walk's visits that does. -/
theorem depthSearch_eq {fuel : ℕ} {start : S} {seen order later : List S}
    (walked : visits next fuel start seen = some (order, later)) :
    depthSearch verdict next fuel start seen = some (.ofVisits verdict order later) := by
  induction fuel generalizing start seen order later with
  | zero => cases walked
  | succ fuel ih =>
    rw [visits, depthFirst] at walked
    rw [depthSearch]
    split_ifs at walked ⊢ with known
    · obtain ⟨rfl, rfl⟩ := Prod.mk.inj (Option.some.inj walked)
      rfl
    · obtain ⟨⟨more, last⟩, others, same⟩ := Option.map_eq_some_iff.mp walked
      obtain ⟨rfl, rfl⟩ := Prod.mk.inj same
      have rest := searchAll_eq (fun _ _ _ _ here => ih here) others
      rw [SearchEnd.ofVisits, List.singleton_append, List.findSome?_cons]
      cases verdict start with
      | some answer => rfl
      | none => exact rest

/-- On a finite graph the visits are those of the nodes the start leads to. -/
theorem exists_visits [Fintype S] (next : S → List S) (start : S) {fuel : ℕ}
    (enough : Fintype.card S < fuel) :
    ∃ order later, visits next fuel start [] = some (order, later) ∧
      ∀ node, node ∈ order ↔ ReflTransGen (fun node other => other ∈ next node) start node := by
  have total : unseen ([] : List S) < fuel := (Finset.card_le_univ _).trans_lt enough
  have ends : (visits next fuel start []).isSome := depthFirst_isSome (start, ()) total
  obtain ⟨⟨order, later⟩, answered⟩ := Option.isSome_iff_exists.mp ends
  have walked := depthFirst_walked answered
  refine ⟨order, later, answered, fun node => walked.mem_iff.trans ⟨?_, fun reached => ?_⟩⟩
  · rintro ⟨_, here, other, context, arrives, emitted⟩
    rw [List.mem_singleton.mp emitted]
    rw [List.mem_singleton.mp here] at arrives
    refine arrives.lift Prod.fst fun _ _ childOf => ?_
    obtain ⟨other, step, rfl⟩ := List.mem_map.mp childOf
    exact step
  · have arrives : Arrives (withoutContext next) (start, ()) (node, ()) :=
      reached.lift (·, ()) fun _ _ step => List.mem_map_of_mem step
    exact ⟨_, List.mem_cons_self, node, (), arrives, List.mem_singleton_self node⟩

end MalloyPublisher.Foundations
