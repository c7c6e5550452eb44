/-
# A bounded worklist

Names are taken from a queue and visited once each. A visit refuses, or names what
to visit next; a queue that runs dry accepts. At most `limit` names are visited.

The walk accepts exactly when at most `limit` names can be reached and no reachable
name refuses.
-/

import Mathlib.Data.List.Nodup
import Mathlib.Data.List.Perm.Subperm

namespace MalloyPublisher.Foundations

open Relation

/-- What visiting a name finds: a reason to stop, or the names to visit next. -/
inductive Visit (N E : Type*)
  | refuse (reason : E)
  | expand (next : List N)

variable {N E : Type*}

section Walk

variable [DecidableEq N] (visit : N → Visit N E) (overflow : N → E) (limit : ℕ)

/-- Walk the queue. Answers the verdict and the names visited. -/
def worklist (seen pending : List N) : Except E Unit × List N :=
  match pending with
  | [] => (.ok (), seen)
  | name :: rest =>
    if name ∈ seen then worklist seen rest
    else if limit ≤ seen.length then (.error (overflow name), seen)
    else
      match visit name with
      | .refuse reason => (.error reason, name :: seen)
      | .expand next => worklist (name :: seen) (rest ++ next)
termination_by (limit - seen.length, pending.length)
decreasing_by
  · exact .right _ (by simp)
  · exact .left _ _ (by simp only [List.length_cons]; omega)

/-- No more names are visited than the limit allows. -/
theorem length_worklist_le {seen pending : List N} (within : seen.length ≤ limit) :
    (worklist visit overflow limit seen pending).2.length ≤ limit := by
  fun_induction worklist with
  | case1 seen => exact within
  | case2 seen name rest known ih => exact ih within
  | case3 seen name rest fresh full => exact within
  | case4 seen name rest fresh room reason found =>
    simp only [List.length_cons]
    omega
  | case5 seen name rest fresh room next found ih =>
    apply ih
    simp only [List.length_cons]
    omega

/-- An accepting walk's names contain what it started with, and every name it added
was expanded within them. -/
theorem worklist_closed {seen pending : List N}
    (accepted : (worklist visit overflow limit seen pending).1 = .ok ()) :
    (∀ name ∈ seen ++ pending, name ∈ (worklist visit overflow limit seen pending).2) ∧
      ∀ name ∈ (worklist visit overflow limit seen pending).2, name ∈ seen ∨
        ∃ next, visit name = .expand next ∧
          ∀ other ∈ next, other ∈ (worklist visit overflow limit seen pending).2 := by
  fun_induction worklist with
  | case1 seen => exact ⟨fun name member => by simpa using member, fun name member => .inl member⟩
  | case2 seen name rest known ih =>
    obtain ⟨kept, closed⟩ := ih accepted
    refine ⟨fun other member => kept other ?_, closed⟩
    simp only [List.mem_append, List.mem_cons] at member ⊢
    rcases member with member | rfl | member
    · exact .inl member
    · exact .inl known
    · exact .inr member
  | case3 seen name rest fresh full => cases accepted
  | case4 seen name rest fresh room reason found => cases accepted
  | case5 seen name rest fresh room next found ih =>
    obtain ⟨kept, closed⟩ := ih accepted
    refine ⟨fun other member => kept other ?_, fun other member => ?_⟩
    · simp only [List.mem_append, List.mem_cons] at member ⊢
      rcases member with member | rfl | member
      · exact .inl (.inr member)
      · exact .inl (.inl rfl)
      · exact .inr (.inl member)
    · rcases closed other member with visited | expanded
      · rcases List.mem_cons.mp visited with rfl | before
        · refine .inr ⟨next, found, fun base among => kept base ?_⟩
          simp [among]
        · exact .inl before
      · exact .inr expanded

/-- A walk inside a set of at most `limit` names, none of which refuses, accepts. -/
theorem worklist_accepts {inside : N → Prop} {names : List N}
    (few : names.length ≤ limit) (listed : ∀ name, inside name → name ∈ names)
    (closed : ∀ name, inside name →
      ∃ next, visit name = .expand next ∧ ∀ other ∈ next, inside other)
    {seen pending : List N} (once : seen.Nodup) (visited : ∀ name ∈ seen, inside name)
    (queued : ∀ name ∈ pending, inside name) :
    (worklist visit overflow limit seen pending).1 = .ok () := by
  fun_induction worklist with
  | case1 seen => rfl
  | case2 seen name rest known ih =>
    exact ih once visited fun other member => queued other (List.mem_cons_of_mem _ member)
  | case3 seen name rest fresh full =>
    -- One more distinct name than the limit cannot fit into the listed names.
    have fits : (name :: seen).length ≤ names.length := by
      refine ((List.nodup_cons.mpr ⟨fresh, once⟩).subperm fun other member => ?_).length_le
      rcases List.mem_cons.mp member with rfl | member
      · exact listed _ (queued _ List.mem_cons_self)
      · exact listed _ (visited _ member)
    simp only [List.length_cons] at fits
    omega
  | case4 seen name rest fresh room reason found =>
    obtain ⟨next, expands, -⟩ := closed name (queued name List.mem_cons_self)
    rw [found] at expands
    cases expands
  | case5 seen name rest fresh room next found ih =>
    obtain ⟨expanded, expands, within⟩ := closed name (queued name List.mem_cons_self)
    rw [found] at expands
    cases expands
    refine ih (List.nodup_cons.mpr ⟨fresh, once⟩) (fun other member => ?_) fun other member => ?_
    · rcases List.mem_cons.mp member with rfl | member
      · exact queued _ List.mem_cons_self
      · exact visited _ member
    · rcases List.mem_append.mp member with member | member
      · exact queued _ (List.mem_cons_of_mem _ member)
      · exact within _ member

end Walk

/-- A visit of `name` leads on to `other`. -/
def Expands (visit : N → Visit N E) (name other : N) : Prop :=
  ∃ next, visit name = .expand next ∧ other ∈ next

/-- The walk accepts exactly when few enough names are reachable and none refuses. -/
theorem worklist_accepts_iff [DecidableEq N] (visit : N → Visit N E) (overflow : N → E)
    (limit : ℕ) (start : N) :
    (worklist visit overflow limit [] [start]).1 = .ok () ↔
      (∃ names : List N, names.length ≤ limit ∧
        ∀ name, ReflTransGen (Expands visit) start name → name ∈ names) ∧
      ∀ name, ReflTransGen (Expands visit) start name → ∃ next, visit name = .expand next := by
  constructor
  · intro accepted
    obtain ⟨kept, closed⟩ := worklist_closed visit overflow limit accepted
    have expanded : ∀ name ∈ (worklist visit overflow limit [] [start]).2, ∃ next,
        visit name = .expand next ∧
          ∀ other ∈ next, other ∈ (worklist visit overflow limit [] [start]).2 :=
      fun name member => (closed name member).resolve_left (List.not_mem_nil)
    have inside : ∀ name, ReflTransGen (Expands visit) start name →
        name ∈ (worklist visit overflow limit [] [start]).2 := by
      intro name reach
      induction reach with
      | refl => exact kept start (by simp)
      | tail _ step ih =>
        obtain ⟨next, found, among⟩ := step
        obtain ⟨all, expands, within⟩ := expanded _ ih
        cases found.symm.trans expands
        exact within _ among
    refine ⟨⟨_, length_worklist_le visit overflow limit (Nat.zero_le _), inside⟩, ?_⟩
    intro name reach
    obtain ⟨next, found, -⟩ := expanded name (inside name reach)
    exact ⟨next, found⟩
  · rintro ⟨⟨names, few, listed⟩, expands⟩
    refine worklist_accepts visit overflow limit few listed (fun name reach => ?_) List.nodup_nil
      (fun _ none => absurd none List.not_mem_nil) fun name queued => ?_
    · obtain ⟨next, found⟩ := expands name reach
      exact ⟨next, found, fun other among => reach.tail ⟨next, found, among⟩⟩
    · rw [List.mem_singleton.mp queued]

end MalloyPublisher.Foundations
