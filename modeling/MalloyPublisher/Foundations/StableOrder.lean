import MalloyPublisher.Foundations.KeyedRecord
import Mathlib.Data.List.Find
import Mathlib.Data.List.Sort

/-!
# What a stable sort leaves to the order of its input

A sort by a total preorder is decided by its input's members, except for members that tie: those
keep the order in which they come up. Two inputs with the same members are sorted alike when
their ties come up alike.

## Main definitions

* `Leads` — one member comes up before another

## Main results

* `leads_insertionSort` — members that tie keep their order
* `insertionSort_eq_of_leads` — when two inputs are sorted alike
-/

namespace MalloyPublisher.Foundations

variable {α β : Type*} [DecidableEq α] {l l' : List α} {x y : α}

/-- Whether a value is one of two. -/
def isEither (x y z : α) : Bool := z = x || z = y

theorem isEither_comm : isEither x y = isEither y x := by
  funext z
  exact Bool.or_comm _ _

/-- `x` comes up in a list, and no later than `y`. -/
def Leads (l : List α) (x y : α) : Prop := l.find? (isEither x y) = some x

instance (l : List α) (x y : α) : Decidable (Leads l x y) :=
  inferInstanceAs (Decidable (_ = _))

theorem Leads.mem (leads : Leads l x y) : x ∈ l := List.mem_of_find?_eq_some leads

/-- Of two values one leads, if either comes up. -/
theorem leads_or_leads (member : x ∈ l) : Leads l x y ∨ Leads l y x := by
  unfold Leads
  rw [isEither_comm (x := y)]
  cases found : l.find? (isEither x y) with
  | none =>
    have absent := List.find?_eq_none.mp found x member
    simp [isEither] at absent
  | some z =>
    have either := List.find?_some found
    simp only [isEither, Bool.or_eq_true, decide_eq_true_eq] at either
    rcases either with rfl | rfl
    · exact .inl rfl
    · exact .inr rfl

theorem Leads.antisymm (first : Leads l x y) (second : Leads l y x) : x = y := by
  unfold Leads at first second
  rw [isEither_comm, first] at second
  exact Option.some.inj second

/-- What leads at the front leads. -/
theorem Leads.append (leads : Leads l x y) : Leads (l ++ l') x y := by
  unfold Leads at leads ⊢
  rw [List.find?_append, leads, Option.some_or]

/-- What leads a sequence of blocks leads one of them. -/
theorem exists_leads_of_flatMap {blocks : List β} {f : β → List α}
    (leads : Leads (blocks.flatMap f) x y) : ∃ block ∈ blocks, Leads (f block) x y := by
  unfold Leads at leads
  rw [List.find?_flatMap] at leads
  exact List.exists_of_findSome?_eq_some leads

/-- Keys lead as the values they are the keys of. -/
theorem leads_map [DecidableEq β] {f : α → β} (ofX : ∀ z ∈ l, f z = f x → z = x)
    (ofY : ∀ z ∈ l, f z = f y → z = y) : Leads (l.map f) (f x) (f y) ↔ Leads l x y := by
  have same : l.find? (isEither (f x) (f y) ∘ f) = l.find? (isEither x y) := by
    refine List.find?_congr fun z member => ?_
    have isX : f z = f x ↔ z = x := ⟨ofX z member, congrArg f⟩
    have isY : f z = f y ↔ z = y := ⟨ofY z member, congrArg f⟩
    simp only [Function.comp_apply, isEither, isX, isY]
  unfold Leads
  rw [List.find?_map, same, Option.map_eq_some_iff]
  constructor
  · rintro ⟨z, found, equal⟩
    rw [found, ofX z (List.mem_of_find?_eq_some found) equal]
  · intro found
    exact ⟨x, found, rfl⟩

theorem find?_eraseDups (p : α → Bool) : l.eraseDups.find? p = l.find? p := by
  induction l using List.reverseRecOn with
  | nil => rfl
  | append_singleton l last ih =>
    rw [eraseDups_append_singleton, List.find?_append]
    split_ifs with known
    · rw [ih]
      cases found : l.find? p with
      | some z => rfl
      | none =>
        have fails := List.find?_eq_none.mp found last known
        rw [List.find?_cons_of_neg fails, List.find?_nil, Option.or_none]
    · rw [List.find?_append, ih]

theorem leads_eraseDups : Leads l.eraseDups x y ↔ Leads l x y := by
  unfold Leads
  rw [find?_eraseDups]

/-- In a list without repetitions, what stands before leads. -/
theorem leads_of_sublist (distinct : l.Nodup) (before : [x, y].Sublist l) : Leads l x y := by
  induction l with
  | nil => cases before
  | cons first rest ih =>
    obtain ⟨fresh, distinct⟩ := List.nodup_cons.mp distinct
    cases before with
    | cons _ before =>
      have apartX : first ≠ x := fun same => fresh (same ▸ before.subset (by simp))
      have apartY : first ≠ y := fun same => fresh (same ▸ before.subset (by simp))
      unfold Leads
      rw [List.find?_cons_of_neg (by simp [isEither, apartX, apartY])]
      exact ih distinct before
    | cons_cons _ before => simp [Leads, isEither]

/-! ## What the order does not change -/

/-- What has a key is found in any order, when keys are distinct. -/
theorem find?_perm {values values' : List β} {key : β → α} (perm : values.Perm values')
    (distinct : (values.map key).Nodup) (x : α) :
    values'.find? (fun value => key value = x) = values.find? fun value => key value = x := by
  have distinct' : (values'.map key).Nodup := (perm.map key).nodup_iff.mp distinct
  rw [← List.head?_filter, ← List.head?_filter]
  cases found : values.filter fun value => key value = x with
  | nil =>
    have none := (perm.filter fun value => decide (key value = x)).symm
    rw [found] at none
    rw [none.eq_nil]
  | cons value rest =>
    have kept : value ∈ values.filter fun value => key value = x := by
      rw [found]
      exact List.mem_cons_self
    obtain ⟨member, has⟩ := List.mem_filter.mp kept
    rw [decide_eq_true_eq] at has
    rw [filter_eq_singleton distinct' (perm.mem_iff.mp member) (decide_eq_true has)
      fun other _ same => (of_decide_eq_true same).trans has.symm]
    rfl

/-- Where all that is found is one value, it is found in any order. -/
theorem findSome?_perm {ι : Type*} {values values' : List β} {f : β → Option ι}
    (perm : values.Perm values')
    (one : ∀ value ∈ values, ∀ found, f value = some found → values.findSome? f = some found) :
    values'.findSome? f = values.findSome? f := by
  cases first : values'.findSome? f with
  | none =>
    refine (List.findSome?_eq_none_iff.mpr fun value member => ?_).symm
    exact List.findSome?_eq_none_iff.mp first value (perm.mem_iff.mp member)
  | some found =>
    obtain ⟨value, member, has⟩ := List.exists_of_findSome?_eq_some first
    exact (one value (perm.mem_iff.mpr member) found has).symm

/-! ## Sorting -/

section Find

variable {r : β → β → Prop} [DecidableRel r] {values : List β} {p : β → Bool}

theorem find?_orderedInsert {a : β}
    (ties : ∀ b ∈ values, p a = true → p b = true → r a b) :
    (values.orderedInsert r a).find? p = (a :: values).find? p := by
  induction values with
  | nil => rfl
  | cons b values ih =>
    rw [List.orderedInsert_cons]
    split_ifs with less
    · rfl
    · have rest := ih fun c member => ties c (List.mem_cons_of_mem _ member)
      rw [List.find?_cons, rest]
      cases isB : p b with
      | false => simp [isB, List.find?_cons]
      | true =>
        -- `a` would stand before `b` if it were looked for.
        have notA : p a = false :=
          eq_false_of_ne_true fun isA => less (ties b List.mem_cons_self isA isB)
        simp [notA, isB]

/-- When what is looked for ties, the first of it is the first of it in the sorted list. -/
theorem find?_insertionSort
    (ties : ∀ a ∈ values, ∀ b ∈ values, p a = true → p b = true → r a b) :
    (values.insertionSort r).find? p = values.find? p := by
  induction values with
  | nil => rfl
  | cons a values ih =>
    have later : ∀ b ∈ values, ∀ c ∈ values, p b = true → p c = true → r b c :=
      fun b inside c member =>
        ties b (List.mem_cons_of_mem _ inside) c (List.mem_cons_of_mem _ member)
    have first : ∀ b ∈ values.insertionSort r, p a = true → p b = true → r a b :=
      fun b inside => ties a List.mem_cons_self b
        (List.mem_cons_of_mem _ ((List.mem_insertionSort r).mp inside))
    rw [List.insertionSort_cons, find?_orderedInsert first, List.find?_cons, List.find?_cons,
      ih later]

/-- Keys whose values tie lead as they do before sorting. -/
theorem leads_map_insertionSort {f : β → α}
    (ties : ∀ a ∈ values, ∀ b ∈ values, (f a = x ∨ f a = y) → (f b = x ∨ f b = y) → r a b) :
    Leads ((values.insertionSort r).map f) x y ↔ Leads (values.map f) x y := by
  unfold Leads
  rw [List.find?_map, List.find?_map, find?_insertionSort]
  intro a inside b member isA isB
  simp only [Function.comp_apply, isEither, Bool.or_eq_true, decide_eq_true_eq] at isA isB
  exact ties a inside b member isA isB

end Find

variable {r : α → α → Prop} [DecidableRel r]

/-- Members that tie keep their order. -/
theorem leads_insertionSort [Std.Refl r] (less : r x y) (greater : r y x) :
    Leads (l.insertionSort r) x y ↔ Leads l x y := by
  have ties : ∀ a ∈ l, ∀ b ∈ l, (id a = x ∨ id a = y) → (id b = x ∨ id b = y) → r a b := by
    rintro a - b - (rfl | rfl) (rfl | rfl)
    · exact refl_of r _
    · exact less
    · exact greater
    · exact refl_of r _
  simpa only [List.map_id] using leads_map_insertionSort ties

/-- Two inputs with the same members are sorted alike when their ties come up alike. -/
theorem insertionSort_eq_of_leads [Std.Total r] [IsTrans α r] (perm : l.Perm l')
    (distinct : l.Nodup) (alike : ∀ a ∈ l, ∀ b ∈ l, r a b → r b a → Leads l a b → Leads l' a b) :
    l.insertionSort r = l'.insertionSort r := by
  -- Both are sorted by the order that settles ties as the first input does.
  have sorted : ∀ input : List α, input.Perm l →
      (∀ a b, r a b → r b a → Leads input a b → Leads l a b) →
        (input.insertionSort r).Pairwise fun a b => r a b ∧ (r b a → Leads l a b) := by
    intro input same settles
    have once : (input.insertionSort r).Nodup :=
      (((List.perm_insertionSort r input).trans same).nodup_iff).mpr distinct
    have ordered : ∀ {a b}, [a, b].Sublist (input.insertionSort r) → r a b :=
      List.pairwise_iff_forall_sublist.mp (List.pairwise_insertionSort r input)
    refine List.pairwise_iff_forall_sublist.mpr fun {a b} before => ⟨ordered before, ?_⟩
    intro greater
    exact settles a b (ordered before) greater
      ((leads_insertionSort (ordered before) greater).mp (leads_of_sublist once before))
  refine List.Perm.eq_of_pairwise ?_ (sorted l (List.Perm.refl l) fun _ _ _ _ leads => leads)
    (sorted l' perm.symm ?_)
    (((List.perm_insertionSort r l).trans perm).trans (List.perm_insertionSort r l').symm)
  · intro a b _ _ first second
    exact (first.2 second.1).antisymm (second.2 first.1)
  · intro a b less greater leads
    have member : a ∈ l := perm.mem_iff.mpr leads.mem
    rcases leads_or_leads (y := b) member with same | other
    · exact same
    · have back := alike b other.mem a member greater less other
      rw [leads.antisymm back] at other ⊢
      exact other

end MalloyPublisher.Foundations
