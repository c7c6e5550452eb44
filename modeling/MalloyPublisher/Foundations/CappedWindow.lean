import Mathlib.Data.List.Sort

/-!
# Windows with a cap for each class

A list is cut so that each class of its items keeps no more than a cap, the first ones. Items
without a class are kept. What is kept is said by how many of a class stand before an item, and in a
list that was sorted by a score, by how many outrank it.

## Main definitions

* `capped` — the items that there is room for, and how many there was none for
* `ahead` — how many of some items stand before an item
* `outranking` — how many of them come before it by their scores, or stand before it at the same one

## Main results

* `mem_capped_iff` — an item is kept when fewer than the cap of its class stand before it
* `ahead_insertionSort` — before an item of a sorted list stand those that outrank it
-/

namespace MalloyPublisher.Foundations

variable {α β γ : Type*} [DecidableEq β]

/-- The items that there is room for beside what is taken, and how many there was none for. -/
def capped (classOf : α → Option β) (cap : ℕ) : (β → ℕ) → List α → List α × ℕ
  | _, [] => ([], 0)
  | taken, item :: rest =>
    match classOf item with
    | none =>
      let later := capped classOf cap taken rest
      (item :: later.1, later.2)
    | some c =>
      if cap ≤ taken c then
        let later := capped classOf cap taken rest
        (later.1, later.2 + 1)
      else
        let later := capped classOf cap (Function.update taken c (taken c + 1)) rest
        (item :: later.1, later.2)

section Capped

variable {classOf : α → Option β} {cap : ℕ} {taken : β → ℕ} {items : List α} {item : α}

theorem capped_sublist (classOf : α → Option β) (cap : ℕ) (taken : β → ℕ) (items : List α) :
    (capped classOf cap taken items).1.Sublist items := by
  induction items generalizing taken with
  | nil => exact List.Sublist.slnil
  | cons item rest ih =>
    unfold capped
    split
    · exact (ih taken).cons_cons item
    · split_ifs
      · exact (ih taken).cons item
      · exact (ih _).cons_cons item

/-- An item is kept, or counted as dropped. -/
theorem length_capped (classOf : α → Option β) (cap : ℕ) (taken : β → ℕ) (items : List α) :
    (capped classOf cap taken items).1.length + (capped classOf cap taken items).2 =
      items.length := by
  induction items generalizing taken with
  | nil => rfl
  | cons item rest ih =>
    unfold capped
    split
    · have := ih taken
      simp only [List.length_cons]
      omega
    · split_ifs
      · have := ih taken
        simp only [List.length_cons]
        omega
      · have := ih (Function.update taken ‹β› (taken ‹β› + 1))
        simp only [List.length_cons]
        omega

/-- No class has more than the cap. -/
theorem countP_capped_le (classOf : α → Option β) (cap : ℕ) (taken : β → ℕ) (items : List α) (c : β)
    (room : taken c ≤ cap) :
    taken c + (capped classOf cap taken items).1.countP (fun item => classOf item = some c) ≤
      cap := by
  induction items generalizing taken with
  | nil => simpa only [capped, List.countP_nil, Nat.add_zero] using room
  | cons item rest ih =>
    unfold capped
    split
    · next free =>
      rw [List.countP_cons_of_neg (by simp [free])]
      exact ih taken room
    · next c' isClass =>
      split_ifs with full
      · exact ih taken room
      · by_cases same : c' = c
        · subst same
          have room' : Function.update taken c' (taken c' + 1) c' ≤ cap := by
            rw [Function.update_self]
            omega
          have later := ih _ room'
          rw [Function.update_self] at later
          rw [List.countP_cons_of_pos (by simp [isClass])]
          omega
        · have room' : Function.update taken c' (taken c' + 1) c ≤ cap := by
            rwa [Function.update_of_ne (Ne.symm same)]
          have later := ih _ room'
          rw [Function.update_of_ne (Ne.symm same)] at later
          rw [List.countP_cons_of_neg (by simp [isClass, same])]
          exact later

end Capped

/-! ## What stands before an item -/

section Ahead

variable [DecidableEq α] {items : List α} {item a b : α}

/-- How many of some items stand before an item. -/
def ahead (items : List α) (among : α → Bool) (item : α) : ℕ :=
  items.countP fun other => among other && decide (items.idxOf other < items.idxOf item)

theorem ahead_cons_self (among : α → Bool) : ahead (item :: items) among item = 0 := by
  rw [ahead, List.countP_eq_zero]
  intro other _
  rw [List.idxOf_cons_self]
  simp

theorem ahead_cons_of_ne {first : α} (new : first ∉ items) (other : first ≠ item)
    (among : α → Bool) :
    ahead (first :: items) among item = (if among first then 1 else 0) + ahead items among item := by
  have index : ∀ a : α, first ≠ a → (first :: items).idxOf a = items.idxOf a + 1 :=
    fun a ne => List.idxOf_cons_ne items ne
  rw [ahead, List.countP_cons, List.idxOf_cons_self, index item other, Nat.add_comm]
  congr 1
  · simp
  · refine List.countP_congr fun a member => ?_
    rw [index a (ne_of_mem_of_not_mem member new).symm]
    simp

/-- An item is kept when fewer than the cap of its class stand before it. -/
theorem mem_capped_iff {classOf : α → Option β} {cap : ℕ} {taken : β → ℕ} (distinct : items.Nodup) :
    item ∈ (capped classOf cap taken items).1 ↔ item ∈ items ∧ ∀ c, classOf item = some c →
      taken c + ahead items (fun other => classOf other = some c) item < cap := by
  induction items generalizing taken with
  | nil => simp [capped]
  | cons first rest ih =>
    obtain ⟨new, distinct⟩ := List.nodup_cons.mp distinct
    by_cases same : first = item
    · -- nothing stands before the first item
      subst same
      have absent : ∀ taken, first ∉ (capped classOf cap taken rest).1 := fun taken member =>
        new ((capped_sublist classOf cap taken rest).subset member)
      simp only [ahead_cons_self, List.mem_cons_self, true_and, Nat.add_zero]
      unfold capped
      split
      · next free => simp [free]
      · next c isClass =>
        split_ifs with full
        · simp [absent, isClass, full]
        · simpa [isClass] using not_le.mp full
    · have tail : item ∈ first :: rest ↔ item ∈ rest := by simp [Ne.symm same]
      simp only [ahead_cons_of_ne new same, tail]
      unfold capped
      split
      · next free =>
        rw [List.mem_cons, or_iff_right (Ne.symm same), ih distinct]
        simp [free]
      · next c isClass =>
        split_ifs with full
        · -- its class has no room, before it and behind it
          rw [ih distinct]
          refine and_congr_right fun _ => forall_congr' fun c' => imp_congr_right fun isClass' => ?_
          by_cases alike : c = c'
          · subst alike
            constructor <;> intro room <;> omega
          · simp [isClass, alike]
        · rw [List.mem_cons, or_iff_right (Ne.symm same), ih distinct]
          refine and_congr_right fun _ => forall_congr' fun c' => imp_congr_right fun isClass' => ?_
          by_cases alike : c = c'
          · subst alike
            simp [isClass, Nat.add_assoc]
          · simp [isClass, alike, Function.update_of_ne (Ne.symm alike)]

/-- Standing before is being in a sublist with. -/
theorem pair_sublist_iff (distinct : items.Nodup) (member : b ∈ items) :
    [a, b].Sublist items ↔ items.idxOf a < items.idxOf b := by
  induction items with
  | nil => cases member
  | cons first rest ih =>
    obtain ⟨new, distinct⟩ := List.nodup_cons.mp distinct
    by_cases same : first = b
    · subst same
      rw [List.idxOf_cons_self]
      refine iff_of_false (fun pair => new ?_) (Nat.not_lt_zero _)
      cases pair with
      | cons _ pair => exact pair.subset (List.mem_cons_of_mem _ List.mem_cons_self)
      | cons_cons _ pair => exact List.singleton_sublist.mp pair
    · have inRest : b ∈ rest := by simpa [Ne.symm same] using member
      rw [List.idxOf_cons_ne rest same]
      by_cases first_a : first = a
      · subst first_a
        rw [List.idxOf_cons_self]
        exact iff_of_true ((List.singleton_sublist.mpr inRest).cons_cons _) (Nat.succ_pos _)
      · rw [List.idxOf_cons_ne rest first_a, Nat.succ_lt_succ_iff, ← ih distinct inRest]
        refine ⟨fun pair => ?_, fun pair => pair.cons _⟩
        cases pair with
        | cons _ pair => exact pair
        | cons_cons _ pair => exact absurd rfl first_a

/-- What stands before an item in a part of a list. -/
theorem ahead_filter (distinct : items.Nodup) (keep among : α → Bool) (member : item ∈ items)
    (kept : keep item = true) :
    ahead (items.filter keep) among item = ahead items (fun other => keep other && among other) item := by
  rw [ahead, ahead, List.countP_filter]
  refine List.countP_congr fun other inItems => ?_
  have isPart : keep other = true →
      ((items.filter keep).idxOf other < (items.filter keep).idxOf item ↔
        items.idxOf other < items.idxOf item) := by
    intro keeps
    rw [← pair_sublist_iff (distinct.filter _) (List.mem_filter.mpr ⟨member, kept⟩),
      ← pair_sublist_iff distinct member]
    refine ⟨fun pair => pair.trans List.filter_sublist, fun pair => ?_⟩
    simpa [keeps, kept] using pair.filter keep
  cases keeps : keep other with
  | false => simp
  | true => simp [isPart keeps]

/-- What stands before the image of an item. -/
theorem ahead_map {α' : Type*} [DecidableEq α'] {f : α → α'} (distinct : (items.map f).Nodup)
    (among : α' → Bool) (member : item ∈ items) :
    ahead (items.map f) among (f item) = ahead items (fun other => among (f other)) item := by
  induction items with
  | nil => cases member
  | cons first rest ih =>
    rw [List.map_cons, List.nodup_cons] at distinct
    obtain ⟨new, distinct⟩ := distinct
    by_cases same : first = item
    · subst same
      rw [List.map_cons, ahead_cons_self, ahead_cons_self]
    · have inRest : item ∈ rest := by simpa [Ne.symm same] using member
      have apart : f first ≠ f item := fun equal => new (equal ▸ List.mem_map_of_mem inRest)
      rw [List.map_cons, ahead_cons_of_ne new apart,
        ahead_cons_of_ne (fun old => new (List.mem_map_of_mem old)) same, ih distinct inRest]

/-! ## Sorted by a score -/

variable {σ : Type*} [LinearOrder σ]

/-- How many of some items have a higher score than an item, or the same one and stand before it. -/
def outranking (score : α → σ) (items : List α) (among : α → Bool) (item : α) : ℕ :=
  items.countP fun other => among other && decide (score item < score other ∨
    score other = score item ∧ items.idxOf other < items.idxOf item)

/-- Before an item of a sorted list stand those that outrank it. -/
theorem ahead_insertionSort (score : α → σ) (distinct : items.Nodup) (among : α → Bool)
    (member : item ∈ items) :
    ahead (items.insertionSort fun a b => score b ≤ score a) among item =
      outranking score items among item := by
  set sorted := items.insertionSort fun a b => score b ≤ score a with isSorted
  have perm : sorted.Perm items := List.perm_insertionSort _ _
  have distinct' : sorted.Nodup := perm.nodup_iff.mpr distinct
  have decreasing : sorted.Pairwise fun a b => score b ≤ score a := by
    have : Std.Total fun a b : α => score b ≤ score a := ⟨fun a b => le_total _ _⟩
    have : IsTrans α fun a b => score b ≤ score a := ⟨fun a b c ab bc => bc.trans ab⟩
    exact List.pairwise_insertionSort _ items
  -- of two items, one stands before the other
  have first : ∀ {a b : α}, a ∈ items → b ∈ items → (score b < score a ∨
      score a = score b ∧ items.idxOf a < items.idxOf b) → sorted.idxOf a < sorted.idxOf b := by
    intro a b inA inB outranks
    obtain higher | ⟨equal, earlier⟩ := outranks
    · by_contra later
      have ne : a ≠ b := fun same => (same ▸ higher).false
      have other : sorted.idxOf b < sorted.idxOf a := by
        refine lt_of_le_of_ne (not_lt.mp later) fun same => ne ?_
        exact ((List.idxOf_inj (perm.mem_iff.mpr inB)).mp same).symm
      have pair := (pair_sublist_iff distinct' (perm.mem_iff.mpr inA)).mpr other
      have order := (decreasing.sublist pair)
      rw [List.pairwise_pair] at order
      exact absurd order (not_le.mpr higher)
    · have pair := (pair_sublist_iff distinct inB).mpr earlier
      refine (pair_sublist_iff distinct' (perm.mem_iff.mpr inB)).mp ?_
      exact List.pair_sublist_insertionSort equal.ge pair
  rw [ahead, outranking, perm.countP_eq]
  refine List.countP_congr fun other inItems => ?_
  rw [Bool.and_eq_true, Bool.and_eq_true, decide_eq_true_eq, decide_eq_true_eq]
  refine and_congr_right fun _ => ⟨fun before => ?_, first inItems member⟩
  by_contra none
  push Not at none
  obtain ⟨low, same⟩ := none
  have ne : other ≠ item := fun equal => (equal ▸ before).false
  refine absurd (first member inItems ?_) before.not_gt
  obtain lower | equal := low.lt_or_eq
  · exact .inl lower
  · refine .inr ⟨equal.symm, lt_of_le_of_ne (same equal) fun index => ne ?_⟩
    exact ((List.idxOf_inj member).mp index).symm

end Ahead

end MalloyPublisher.Foundations
