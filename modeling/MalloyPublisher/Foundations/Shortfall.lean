import Mathlib.Algebra.BigOperators.Group.List.Basic
import Mathlib.Tactic.Ring

/-!
# Listings that fall short

A listing that may leave entries out, and may give an entry a longer name but never a shorter one,
is a rearrangement of what it should be only where it does neither. The number of entries and the
total of their sizes tell.

## Main definitions

* `weight` — the total size of a listing
* `Shortfall` — a listing that falls short of another unless they agree

## Main results

* `Shortfall.append`, `Shortfall.trans` — listings that fall short compose
* `Shortfall.agree_of_perm` — a rearrangement does not fall short
-/

namespace MalloyPublisher.Foundations

variable {α : Type*} {size : α → ℕ} {agree agree' : Prop} {listed listed' expected expected' : List α}

/-- The total size of what is listed. -/
def weight (size : α → ℕ) (listed : List α) : ℕ := (listed.map size).sum

theorem weight_append (size : α → ℕ) (listed others : List α) :
    weight size (listed ++ others) = weight size listed + weight size others := by
  rw [weight, List.map_append, List.sum_append]
  rfl

/-- A listing is shorter than it should be, or as long and heavier, or nothing is wrong with it. -/
structure Shortfall (size : α → ℕ) (agree : Prop) (listed expected : List α) : Prop where
  length_le : listed.length ≤ expected.length
  weight_le : listed.length = expected.length → weight size expected ≤ weight size listed
  agree_of : listed.length = expected.length → weight size listed = weight size expected → agree

namespace Shortfall

theorem refl (holds : agree) : Shortfall size agree listed listed where
  length_le := le_refl _
  weight_le _ := le_refl _
  agree_of _ _ := holds

theorem mono (short : Shortfall size agree listed expected) (imp : agree → agree') :
    Shortfall size agree' listed expected where
  length_le := short.length_le
  weight_le := short.weight_le
  agree_of sameLength sameWeight := imp (short.agree_of sameLength sameWeight)

/-- Nothing is listed. -/
theorem nil (holds : expected = [] → agree) : Shortfall size agree [] expected where
  length_le := Nat.zero_le _
  weight_le sameLength := by
    rw [List.length_eq_zero_iff.mp sameLength.symm]
  agree_of sameLength _ := holds (List.length_eq_zero_iff.mp sameLength.symm)

/-- One entry is listed under another name, which is no shorter. -/
theorem single {entry other : α} (le : size other ≤ size entry)
    (holds : size entry = size other → agree) : Shortfall size agree [entry] [other] where
  length_le := le_refl _
  weight_le _ := by simpa [weight] using le
  agree_of _ sameWeight := holds (by simpa [weight] using sameWeight)

theorem append (short : Shortfall size agree listed expected)
    (short' : Shortfall size agree' listed' expected') :
    Shortfall size (agree ∧ agree') (listed ++ listed') (expected ++ expected') := by
  have both : (listed ++ listed').length = (expected ++ expected').length →
      listed.length = expected.length ∧ listed'.length = expected'.length := by
    intro sameLength
    have le := short.length_le
    have le' := short'.length_le
    simp only [List.length_append] at sameLength
    omega
  constructor
  · simp only [List.length_append]
    exact Nat.add_le_add short.length_le short'.length_le
  · intro sameLength
    obtain ⟨same, same'⟩ := both sameLength
    rw [weight_append, weight_append]
    exact Nat.add_le_add (short.weight_le same) (short'.weight_le same')
  · intro sameLength sameWeight
    obtain ⟨same, same'⟩ := both sameLength
    have le := short.weight_le same
    have le' := short'.weight_le same'
    rw [weight_append, weight_append] at sameWeight
    exact ⟨short.agree_of same (by omega), short'.agree_of same' (by omega)⟩

theorem trans {middle : List α} (short : Shortfall size agree listed middle)
    (short' : Shortfall size agree' middle expected) :
    Shortfall size (agree ∧ agree') listed expected := by
  have between : listed.length = expected.length →
      listed.length = middle.length ∧ middle.length = expected.length := by
    have le := short.length_le
    have le' := short'.length_le
    omega
  constructor
  · exact short.length_le.trans short'.length_le
  · intro sameLength
    obtain ⟨same, same'⟩ := between sameLength
    exact (short'.weight_le same').trans (short.weight_le same)
  · intro sameLength sameWeight
    obtain ⟨same, same'⟩ := between sameLength
    have le := short.weight_le same
    have le' := short'.weight_le same'
    exact ⟨short.agree_of same (by omega), short'.agree_of same' (by omega)⟩

theorem agree_of_perm (short : Shortfall size agree listed expected)
    (perm : listed.Perm expected) : agree :=
  short.agree_of perm.length_eq (perm.map size).sum_eq

end Shortfall

end MalloyPublisher.Foundations
