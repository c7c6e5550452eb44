import MalloyPublisher.Foundations.DepthFirst

/-!
# A sweep that marks nodes when it discovers them

Nodes are taken from a queue, and every new neighbour is marked, reported and queued at
once. On a finite graph the queue runs dry, and by then the nodes it started with and
those it reported are closed under the graph's steps.
-/

namespace MalloyPublisher.Foundations

variable {S : Type*} [DecidableEq S]

/-- The candidates not seen yet, each once. -/
def discover : List S → List S → List S
  | [], _ => []
  | next :: more, seen =>
    if next ∈ seen then discover more seen else next :: discover more (next :: seen)

theorem mem_discover_append {candidates seen : List S} {node : S} (member : node ∈ candidates) :
    node ∈ discover candidates seen ++ seen := by
  induction candidates generalizing seen with
  | nil => cases member
  | cons next more ih =>
    rw [discover]
    split_ifs with known
    · rcases List.mem_cons.mp member with rfl | member
      · exact List.mem_append_right _ known
      · exact ih member
    · rcases List.mem_cons.mp member with rfl | member
      · exact List.mem_cons_self
      · have later := @ih (next :: seen) member
        simp only [List.mem_append, List.mem_cons] at later ⊢
        tauto

/-- Each discovery leaves one node less to see. -/
theorem unseen_discover_add_le [Fintype S] (candidates seen : List S) :
    unseen (discover candidates seen ++ seen) + (discover candidates seen).length ≤
      unseen seen := by
  induction candidates generalizing seen with
  | nil => exact le_rfl
  | cons next more ih =>
    rw [discover]
    split_ifs with known
    · exact ih seen
    · have fewer := unseen_cons_lt known
      have rest := ih (next :: seen)
      have same : unseen (next :: discover more (next :: seen) ++ seen) ≤
          unseen (discover more (next :: seen) ++ next :: seen) := by
        refine unseen_le fun node member => ?_
        simp only [List.cons_append, List.mem_append, List.mem_cons] at member ⊢
        tauto
      rw [List.length_cons]
      omega

/-- Take the queue's nodes in turn. Answers the nodes discovered on the way. -/
def sweep [Fintype S] (next : S → List S) (pending seen : List S) : List S :=
  match pending with
  | [] => []
  | node :: rest =>
    discover (next node) seen ++
      sweep next (rest ++ discover (next node) seen) (discover (next node) seen ++ seen)
termination_by pending.length + unseen seen
decreasing_by
  have fewer := unseen_discover_add_le (next node) seen
  simp only [List.length_append, List.length_cons]
  omega

theorem sweep_closed_of_pending [Fintype S] {next : S → List S} {pending seen : List S}
    (queued : ∀ node ∈ seen, node ∈ pending ∨ ∀ other ∈ next node, other ∈ seen) :
    ∀ node ∈ seen ++ sweep next pending seen, ∀ other ∈ next node,
      other ∈ seen ++ sweep next pending seen := by
  fun_induction sweep with
  | case1 seen =>
    intro node member other step
    rw [List.append_nil] at member ⊢
    exact (queued node member).resolve_left List.not_mem_nil other step
  | case2 seen node rest ih =>
    have inner := ih fun other member => ?_
    · intro source member target step
      have there := inner source ?_ target step
      · simp only [List.mem_append] at there ⊢
        tauto
      · simp only [List.mem_append] at member ⊢
        tauto
    · rcases List.mem_append.mp member with new | old
      · exact .inl (List.mem_append_right _ new)
      · rcases queued other old with here | closed
        · rcases List.mem_cons.mp here with rfl | later
          · exact .inr fun target step => mem_discover_append step
          · exact .inl (List.mem_append_left _ later)
        · exact .inr fun target step => List.mem_append_right _ (closed target step)

/-- The roots of a sweep and what it discovers are closed under the graph's steps. -/
theorem sweep_closed [Fintype S] (next : S → List S) (roots : List S) :
    ∀ node ∈ roots ++ sweep next roots roots, ∀ other ∈ next node,
      other ∈ roots ++ sweep next roots roots :=
  sweep_closed_of_pending fun _ member => .inl member

end MalloyPublisher.Foundations
