/-
# Memoising up to a deadline

A computation over time answers a value and, optionally, a deadline up to which
that value is claimed to be good. A memo keeps the last answer and recomputes once
its deadline is reached.

Over instants that never go back, the memo cannot be told apart from computing
afresh when every answer really is good until its deadline. The converse direction
is here too: an answer that is kept too long is found in the memo's answers.
-/

import Mathlib.Order.WithBot
import Mathlib.Data.List.Basic

namespace MalloyPublisher.Foundations

variable {T α : Type*} [LinearOrder T]

/-- A kept answer, and the instant from which it is no longer used. -/
structure Memo (T α : Type*) where
  value : α
  validUntil : WithTop T

/-- The deadline of an answer; one that has none is never reached. -/
def deadline (stated : Option T) : WithTop T :=
  match stated with
  | some instant => instant
  | none => ⊤

/-- The memo of an answer computed at `now`. -/
def memoOf (compute : T → α × Option T) (now : T) : Memo T α where
  value := (compute now).1
  validUntil := deadline (compute now).2

/-- Answer from the memo while it is valid, else compute and keep the answer. -/
def consult (compute : T → α × Option T) (memo : Option (Memo T α)) (now : T) :
    α × Option (Memo T α) :=
  match memo with
  | some kept =>
    if now < kept.validUntil then (kept.value, some kept)
    else ((compute now).1, some (memoOf compute now))
  | none => ((compute now).1, some (memoOf compute now))

/-- The answers to a sequence of instants, the memo carried along. -/
def consultAll (compute : T → α × Option T) : Option (Memo T α) → List T → List (T × α)
  | _, [] => []
  | memo, now :: later =>
    (now, (consult compute memo now).1) :: consultAll compute (consult compute memo now).2 later

variable {compute : T → α × Option T} {memo : Option (Memo T α)} {now later : T}

theorem consult_of_lt {kept : Memo T α} (valid : now < kept.validUntil) :
    consult compute (some kept) now = (kept.value, some kept) := by
  simp [consult, valid]

theorem consult_of_le {kept : Memo T α} (expired : kept.validUntil ≤ now) :
    consult compute (some kept) now = ((compute now).1, some (memoOf compute now)) := by
  simp [consult, not_lt.mpr expired]

/-- A consult leaves the memo it found, still valid, or the one of this instant. -/
theorem consult_memo (compute : T → α × Option T) (memo : Option (Memo T α)) (now : T) :
    (∃ kept, memo = some kept ∧ now < kept.validUntil ∧
        consult compute memo now = (kept.value, some kept)) ∨
      consult compute memo now = ((compute now).1, some (memoOf compute now)) := by
  cases memo with
  | none => exact .inr rfl
  | some kept =>
    rcases lt_or_ge (now : WithTop T) kept.validUntil with valid | expired
    · exact .inl ⟨kept, rfl, valid, consult_of_lt valid⟩
    · exact .inr (consult_of_le expired)

/-- Among these instants, every answer is good until its deadline. -/
def GoodUntilDeadline (compute : T → α × Option T) (instants : List T) : Prop :=
  ∀ now ∈ instants, ∀ later ∈ instants, now ≤ later →
    later < deadline (compute now).2 → (compute later).1 = (compute now).1

/-- The memo, if there is one, is right at each of these instants at which it is valid. -/
def MemoAgrees (compute : T → α × Option T) (memo : Option (Memo T α)) (instants : List T) :
    Prop :=
  ∀ kept, memo = some kept → ∀ now ∈ instants, now < kept.validUntil →
    kept.value = (compute now).1

/-- A run whose answers are good until their deadlines answers as computing afresh. -/
theorem consultAll_eq_map {instants : List T} (clock : instants.Pairwise (· ≤ ·))
    (good : GoodUntilDeadline compute instants) (agrees : MemoAgrees compute memo instants) :
    consultAll compute memo instants = instants.map fun now => (now, (compute now).1) := by
  induction instants generalizing memo with
  | nil => rfl
  | cons now rest ih =>
    obtain ⟨earliest, clock⟩ := List.pairwise_cons.mp clock
    have goodRest : GoodUntilDeadline compute rest := fun now member later after =>
      good now (List.mem_cons_of_mem _ member) later (List.mem_cons_of_mem _ after)
    rw [consultAll, List.map_cons]
    rcases consult_memo compute memo now with ⟨kept, rfl, valid, consulted⟩ | consulted
    · have same := agrees kept rfl now List.mem_cons_self valid
      rw [consulted, ih clock goodRest, same]
      rintro _ ⟨⟩ later member
      exact agrees kept rfl later (List.mem_cons_of_mem _ member)
    · rw [consulted, ih clock goodRest]
      rintro _ ⟨⟩ later member valid
      exact (good now List.mem_cons_self later (List.mem_cons_of_mem _ member)
        (earliest later member) valid).symm

/-- Once the memo of `now` is in place, it answers every instant before its deadline. -/
theorem mem_consultAll_of_memoOf {instants : List T} (clock : instants.Pairwise (· ≤ ·))
    (member : later ∈ instants) (valid : later < deadline (compute now).2) :
    (later, (compute now).1) ∈ consultAll compute (some (memoOf compute now)) instants := by
  induction instants with
  | nil => cases member
  | cons next rest ih =>
    obtain ⟨earliest, clock⟩ := List.pairwise_cons.mp clock
    have reached : next ≤ later := by
      rcases List.mem_cons.mp member with rfl | member
      · exact le_rfl
      · exact earliest later member
    have consulted : consult compute (some (memoOf compute now)) next =
        ((compute now).1, some (memoOf compute now)) :=
      consult_of_lt (lt_of_le_of_lt (WithTop.coe_le_coe.mpr reached) valid)
    rw [consultAll, consulted]
    rcases List.mem_cons.mp member with rfl | member
    · exact List.mem_cons_self
    · exact List.mem_cons_of_mem _ (ih clock member)

/-- When every earlier answer's deadline is at most `now`, the run computes at `now`
and answers with it until its deadline. -/
theorem mem_consultAll_of_deadline {instants : List T} (clock : instants.Pairwise (· ≤ ·))
    (queried : now ∈ instants) (member : later ∈ instants) (after : now < later)
    (expires : ∀ earlier ∈ instants, earlier < now → deadline (compute earlier).2 ≤ now)
    (valid : later < deadline (compute now).2)
    (started : ∀ kept, memo = some kept → kept.validUntil ≤ now ∨ kept = memoOf compute now) :
    (later, (compute now).1) ∈ consultAll compute memo instants := by
  induction instants generalizing memo with
  | nil => cases member
  | cons next rest ih =>
    obtain ⟨earliest, clock⟩ := List.pairwise_cons.mp clock
    rw [consultAll]
    rcases eq_or_ne next now with rfl | other
    · have place : (consult compute memo next).2 = some (memoOf compute next) := by
        rcases consult_memo compute memo next with ⟨kept, rfl, fresh, consulted⟩ | consulted
        · rcases started kept rfl with expired | rfl
          · exact absurd fresh (not_lt.mpr expired)
          · rw [consulted]
        · rw [consulted]
      have member := (List.mem_cons.mp member).resolve_left after.ne'
      rw [place]
      exact List.mem_cons_of_mem _ (mem_consultAll_of_memoOf clock member valid)
    · have queried := (List.mem_cons.mp queried).resolve_left other.symm
      have before : next < now := lt_of_le_of_ne (earliest now queried) other
      have member := (List.mem_cons.mp member).resolve_left (before.trans after).ne'
      refine List.mem_cons_of_mem _ (ih clock queried member (fun earlier among =>
        expires earlier (List.mem_cons_of_mem _ among)) ?_)
      intro kept found
      rcases consult_memo compute memo next with ⟨old, rfl, -, consulted⟩ | consulted
      · rw [consulted] at found
        cases found
        exact started _ rfl
      · rw [consulted] at found
        cases found
        exact .inl (expires next List.mem_cons_self before)

end MalloyPublisher.Foundations
