import Mathlib.Data.List.Forall2

/-!
# Folds that can fail

A fold whose step can fail ends with the first failure. Where it ends well, every step did,
and what a step keeps the fold keeps.
-/

namespace MalloyPublisher.Foundations

variable {σ α ε : Type*} {step : σ → α → Except ε σ} {items : List α} {start ended : σ}

/-- What the step of one item brings about and every step keeps holds after a fold over it. -/
theorem foldl_of_mem {step : σ → α → σ} {holds : σ → Prop} {item : α} (member : item ∈ items)
    (brings : ∀ state, holds (step state item))
    (keeps : ∀ state other, holds state → holds (step state other)) :
    holds (items.foldl step start) := by
  obtain ⟨before, after, rfl⟩ := List.append_of_mem member
  rw [List.foldl_append, List.foldl_cons]
  exact List.foldlRecOn after step (brings _) fun state held other _ => keeps state other held

/-- A sequence that ends well has parts that do. -/
theorem exists_of_bind_ok {β : Type*} {first : Except ε α} {next : α → Except ε β} {result : β}
    (ends : first.bind next = .ok result) :
    ∃ value, first = .ok value ∧ next value = .ok result := by
  cases first with
  | error reason => cases ends
  | ok value => exact ⟨value, rfl, ends⟩

theorem ok_of_mapError {ε' : Type*} {attempt : Except ε α} {reword : ε → ε'} {value : α}
    (ends : attempt.mapError reword = .ok value) : attempt = .ok value := by
  cases attempt <;> cases ends
  rfl

/-- A step that ends well leads on to a fold that does. -/
theorem foldlM_cons_ok {first : α} {rest : List α}
    (folded : (first :: rest).foldlM step start = .ok ended) :
    ∃ next, step start first = .ok next ∧ rest.foldlM step next = .ok ended := by
  rw [List.foldlM_cons] at folded
  exact exists_of_bind_ok folded

/-- Reading a list reads each of its items. -/
theorem map_eq_of_mapM {β : Type*} {read : α → Except ε β} {results : List β}
    (reads : items.mapM read = .ok results) : items.map read = results.map .ok := by
  induction items generalizing results with
  | nil =>
    cases reads
    rfl
  | cons item items ih =>
    rw [List.mapM_cons] at reads
    obtain ⟨here, first, reads⟩ := exists_of_bind_ok reads
    obtain ⟨more, rest, reads⟩ := exists_of_bind_ok reads
    obtain rfl := Except.ok.inj reads
    rw [List.map_cons, first, ih rest, List.map_cons]

/-! ## Folds that change nothing -/

theorem foldl_eq_self {step : σ → α → σ} (keeps : ∀ item ∈ items, step start item = start) :
    items.foldl step start = start :=
  List.foldlRecOn (motive := (· = start)) items step rfl fun _ same item member =>
    same ▸ keeps item member

theorem foldlM_eq_ok (keeps : ∀ item ∈ items, step start item = .ok start) :
    items.foldlM step start = .ok start := by
  induction items with
  | nil => rfl
  | cons item items ih =>
    rw [List.foldlM_cons, keeps item List.mem_cons_self]
    exact ih fun other member => keeps other (List.mem_cons_of_mem _ member)

/-- A loop that only checks. -/
theorem forIn_eq_ok_iff {body : α → PUnit → Except ε (ForInStep PUnit)}
    (checks : ∀ item ∈ items,
      body item ⟨⟩ = .ok (.yield ⟨⟩) ∨ ∃ failure, body item ⟨⟩ = .error failure) :
    forIn items PUnit.unit body = .ok ⟨⟩ ↔ ∀ item ∈ items, body item ⟨⟩ = .ok (.yield ⟨⟩) := by
  induction items with
  | nil => simp [pure, Except.pure]
  | cons item items ih =>
    have rest := ih fun other member => checks other (List.mem_cons_of_mem _ member)
    rw [List.forIn_cons, List.forall_mem_cons, ← rest]
    rcases checks item List.mem_cons_self with passes | ⟨failure, fails⟩
    · simp [passes, bind, Except.bind]
    · simp [fails, bind, Except.bind]

/-- What a step keeps, a fold that ends well keeps. -/
theorem foldlM_ok_induction {kept : σ → Prop} (first : kept start)
    (keeps : ∀ state item next, item ∈ items → kept state → step state item = .ok next → kept next)
    (folded : items.foldlM step start = .ok ended) : kept ended := by
  induction items generalizing start with
  | nil =>
    cases folded
    exact first
  | cons item items ih =>
    obtain ⟨next, stepped, folded⟩ := foldlM_cons_ok folded
    exact ih (keeps start item next (List.mem_cons_self ..) first stepped)
      (fun state other later member => keeps state other later (List.mem_cons_of_mem _ member)) folded

/-- What holds of a computation that can fail, by how it ends. -/
def Ends (returned : σ → Prop) (thrown : ε → Prop) : Except ε σ → Prop
  | .ok ended => returned ended
  | .error reason => thrown reason

/-- Where every step keeps something or fails for a reason, the fold does. -/
theorem foldlM_ends {kept : σ → Prop} {thrown : ε → Prop} (first : kept start)
    (steps : ∀ state, ∀ item ∈ items, kept state → Ends kept thrown (step state item)) :
    Ends kept thrown (items.foldlM step start) := by
  induction items generalizing start with
  | nil => exact first
  | cons item rest ih =>
    have here := steps start item (List.mem_cons_self ..) first
    rw [List.foldlM_cons]
    cases stepped : step start item with
    | error reason =>
      rw [stepped] at here
      exact here
    | ok next =>
      rw [stepped] at here
      exact ih here fun state later member => steps state later (List.mem_cons_of_mem _ member)

/-- What holds of each item and the items before it, in a history with one more item. -/
theorem forall_split_concat {history : List α} {last : α} {holds : List α → α → Prop} :
    (∀ before item after, history ++ [last] = before ++ item :: after → holds before item) ↔
      (∀ before item after, history = before ++ item :: after → holds before item) ∧
        holds history last := by
  constructor
  · intro every
    refine ⟨fun before item after split => ?_, every history last [] rfl⟩
    exact every before item (after ++ [last]) (by rw [split, List.append_assoc, List.cons_append])
  · rintro ⟨earlier, here⟩ before item after split
    rcases List.eq_nil_or_concat after with rfl | ⟨after, final, rfl⟩
    · obtain ⟨rfl, same⟩ := List.append_inj' split rfl
      obtain rfl := List.singleton_inj.mp same
      exact here
    · rw [List.concat_eq_append, ← List.cons_append, ← List.append_assoc] at split
      obtain ⟨rfl, -⟩ := List.append_inj' split rfl
      exact earlier before item after rfl

end MalloyPublisher.Foundations
