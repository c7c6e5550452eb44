import Mathlib.Algebra.BigOperators.Group.List.Basic
import Mathlib.Tactic.Linarith

/-!
# Rows that flow

Slots are laid out one after another in rows of a given width. A slot begins a row if it asks for
one, or if it does not fit beside what the row holds. What is left of a row at its end can be filled
with a slot of exactly that width; this moves none of the slots, and each row is then full.

## Main definitions

* `flow` — the row and the column of each slot
* `fill` — the slots with a filler at the end of each row that is short
* `rowWidth` — what the slots of a row take

## Main results

* `flow_fill` — the slots are where they are without the fillers
* `rowWidth_fill` — each row of the filled slots is full
-/

namespace MalloyPublisher.Foundations

/-- What is laid out: a width, and whether a row begins with it. -/
structure Slot (N : Type*) where
  span : N
  starts : Bool

/-- Where a slot is laid. -/
structure Place (N : Type*) where
  row : ℕ
  column : N

variable {N : Type*} [CommRing N]

/-! ## Rows -/

/-- What the slots of a row take. -/
def rowWidth (row : ℕ) (places : List (Place N)) (slots : List (Slot N)) : N :=
  (((places.zip slots).filter fun laid => laid.1.row = row).map fun laid => laid.2.span).sum

section Rows

variable {place : Place N} {places : List (Place N)} {slot : Slot N} {slots : List (Slot N)}
  {columns used : N} {row : ℕ}

theorem rowWidth_cons_same (column : N) :
    rowWidth row (⟨row, column⟩ :: places) (slot :: slots) = slot.span + rowWidth row places slots := by
  simp [rowWidth]

theorem rowWidth_cons_other (other : place.row ≠ row) :
    rowWidth row (place :: places) (slot :: slots) = rowWidth row places slots := by
  simp [rowWidth, other]

/-- The rows from one on, whose start holds `used` already: they are full, and no slot is laid
before them. -/
structure FullFrom (columns : N) (row : ℕ) (used : N) (places : List (Place N))
    (slots : List (Slot N)) : Prop where
  first : used + rowWidth row places slots = columns
  later : ∀ place ∈ places, row < place.row → rowWidth place.row places slots = columns
  behind : ∀ place ∈ places, row ≤ place.row

theorem FullFrom.own (full : FullFrom columns row (used + slot.span) places slots) :
    FullFrom columns row used (⟨row, used⟩ :: places) (slot :: slots) where
  first := by
    rw [rowWidth_cons_same, ← add_assoc]
    exact full.first
  later := by
    intro place member after
    rcases List.mem_cons.mp member with rfl | member
    · exact absurd after (lt_irrefl _)
    · rw [rowWidth_cons_other after.ne]
      exact full.later place member after
  behind := by
    rw [List.forall_mem_cons]
    exact ⟨le_rfl, full.behind⟩

theorem FullFrom.next (full : FullFrom columns (row + 1) slot.span places slots) :
    FullFrom columns row columns (⟨row + 1, 0⟩ :: places) (slot :: slots) where
  first := by
    have none : rowWidth row places slots = 0 := by
      unfold rowWidth
      have empty : ((places.zip slots).filter fun laid => laid.1.row = row) = [] := by
        rw [List.filter_eq_nil_iff]
        intro laid member
        have after := full.behind laid.1 (List.of_mem_zip member).1
        simp only [decide_eq_true_eq]
        omega
      rw [empty, List.map_nil, List.sum_nil]
    rw [rowWidth_cons_other (Nat.succ_ne_self row), none, add_zero]
  later := by
    intro place member after
    rcases List.mem_cons.mp member with rfl | member
    · rw [rowWidth_cons_same]
      exact full.first
    · by_cases same : place.row = row + 1
      · rw [same, rowWidth_cons_same]
        exact full.first
      · rw [rowWidth_cons_other (Ne.symm same)]
        exact full.later place member (by omega)
  behind := by
    rw [List.forall_mem_cons]
    exact ⟨Nat.le_succ row, fun place member => (Nat.le_succ row).trans (full.behind place member)⟩

theorem fullFrom_nil : FullFrom columns row columns [] [] where
  first := by simp [rowWidth]
  later := fun _ member => by cases member
  behind := fun _ member => by cases member

end Rows

/-! ## The flow -/

variable [LinearOrder N]

/-- A slot begins a row beside what the row holds. -/
def Slot.StartsRow (slot : Slot N) (columns used : N) : Prop :=
  slot.starts = true ∨ columns < used + slot.span

instance (slot : Slot N) (columns used : N) : Decidable (slot.StartsRow columns used) :=
  inferInstanceAs (Decidable (_ ∨ _))

/-- Where slots are laid after what a row holds. -/
def flowAfter (columns : N) (row : ℕ) (used : N) : List (Slot N) → List (Place N)
  | [] => []
  | slot :: slots =>
    if slot.StartsRow columns used then
      ⟨row + 1, 0⟩ :: flowAfter columns (row + 1) slot.span slots
    else ⟨row, used⟩ :: flowAfter columns row (used + slot.span) slots

/-- Where slots are laid. The first one is at the start of the first row. -/
def flow (columns : N) : List (Slot N) → List (Place N)
  | [] => []
  | slot :: slots => ⟨0, 0⟩ :: flowAfter columns 0 slot.span slots

/-- What is left of a row, if it is short. -/
def filler (columns used : N) : List (Slot N × Bool) :=
  if used < columns then [(⟨columns - used, false⟩, false)] else []

/-- Slots after what a row holds, with a filler at the end of each short row; each slot with whether
it is one of the given ones. -/
def fillAfter (columns used : N) : List (Slot N) → List (Slot N × Bool)
  | [] => filler columns used
  | slot :: slots =>
    if slot.StartsRow columns used then
      filler columns used ++ (slot, true) :: fillAfter columns slot.span slots
    else (slot, true) :: fillAfter columns (used + slot.span) slots

def fill (columns : N) : List (Slot N) → List (Slot N × Bool)
  | [] => []
  | slot :: slots => (slot, true) :: fillAfter columns slot.span slots

/-- Where the given slots are among the filled ones. -/
def ownPlaces (places : List (Place N)) (filled : List (Slot N × Bool)) : List (Place N) :=
  ((places.zip filled).filter fun laid => laid.2.2).map Prod.fst

/-- A slot that a row can hold. -/
def Slot.Fits (columns : N) (slot : Slot N) : Prop := 0 < slot.span ∧ slot.span ≤ columns

variable {columns used : N} {row : ℕ} {slots : List (Slot N)}

section Places

variable {place : Place N} {places : List (Place N)} {slot : Slot N} {own : Bool}
  {filled : List (Slot N × Bool)}

omit [CommRing N] [LinearOrder N] in
@[simp] theorem ownPlaces_own :
    ownPlaces (place :: places) ((slot, true) :: filled) = place :: ownPlaces places filled := rfl

omit [CommRing N] [LinearOrder N] in
@[simp] theorem ownPlaces_filler :
    ownPlaces (place :: places) ((slot, false) :: filled) = ownPlaces places filled := rfl

end Places

section Filled

variable [IsStrictOrderedRing N]

/-- A full row is followed by the next one. -/
theorem startsRow_of_full {slot : Slot N} (fits : slot.Fits columns) : slot.StartsRow columns columns :=
  .inr (lt_add_of_pos_right columns fits.1)

omit [IsStrictOrderedRing N] in
/-- Laid out after what a row holds, with a filler where the row ends. -/
theorem flowAfter_filler (rest : List (Slot N)) :
    flowAfter columns row used (⟨columns - used, false⟩ :: rest) =
      ⟨row, used⟩ :: flowAfter columns row columns rest := by
  have beside : ¬Slot.StartsRow (⟨columns - used, false⟩ : Slot N) columns used := by
    rintro (starts | tooWide)
    · cases starts
    · simp at tooWide
  rw [flowAfter, if_neg beside, add_sub_cancel]

/-- A row that ends is full or is filled, and what follows is laid out behind it. -/
theorem flowAfter_filler_append {slot : Slot N} (fits : slot.Fits columns)
    (starts : slot.StartsRow columns used) (filled : List (Slot N × Bool)) :
    flowAfter columns row used ((filler columns used ++ (slot, true) :: filled).map Prod.fst) =
      (if used < columns then [⟨row, used⟩] else []) ++
        ⟨row + 1, 0⟩ :: flowAfter columns (row + 1) slot.span (filled.map Prod.fst) := by
  unfold filler
  split_ifs with short
  · rw [List.singleton_append, List.map_cons, flowAfter_filler, List.map_cons, flowAfter,
      if_pos (startsRow_of_full fits), List.singleton_append]
  · rw [List.nil_append, List.nil_append, List.map_cons, flowAfter, if_pos starts]

theorem ownPlaces_flowAfter (fit : ∀ slot ∈ slots, slot.Fits columns) (bound : used ≤ columns) :
    ownPlaces (flowAfter columns row used ((fillAfter columns used slots).map Prod.fst))
      (fillAfter columns used slots) = flowAfter columns row used slots := by
  induction slots generalizing row used with
  | nil =>
    unfold fillAfter filler
    split_ifs with short
    · rw [List.map_singleton, flowAfter_filler]
      rfl
    · rfl
  | cons slot slots ih =>
    obtain ⟨fits, fit⟩ := List.forall_mem_cons.mp fit
    rw [fillAfter, flowAfter]
    split_ifs with starts
    · rw [flowAfter_filler_append fits starts]
      unfold filler
      split_ifs with short
      · rw [List.singleton_append, List.singleton_append, ownPlaces_filler, ownPlaces_own,
          ih fit fits.2]
      · rw [List.nil_append, List.nil_append, ownPlaces_own, ih fit fits.2]
    · have beside : used + slot.span ≤ columns := not_lt.mp fun wide => starts (.inr wide)
      rw [List.map_cons, flowAfter, if_neg starts, ownPlaces_own, ih fit beside]

/-- The slots are where they are without the fillers. -/
theorem flow_fill (fit : ∀ slot ∈ slots, slot.Fits columns) :
    ownPlaces (flow columns ((fill columns slots).map Prod.fst)) (fill columns slots) =
      flow columns slots := by
  cases slots with
  | nil => rfl
  | cons slot slots =>
    obtain ⟨fits, fit⟩ := List.forall_mem_cons.mp fit
    rw [fill, List.map_cons, flow, ownPlaces_own, ownPlaces_flowAfter fit fits.2, flow]

omit [IsStrictOrderedRing N] in
theorem fullFrom_filler (bound : used ≤ columns) {filled : List (Slot N)}
    {places : List (Place N)} (full : FullFrom columns row columns places filled) :
    FullFrom columns row used ((if used < columns then [⟨row, used⟩] else []) ++ places)
      ((filler columns used).map Prod.fst ++ filled) := by
  unfold filler
  split_ifs with short
  · refine FullFrom.own ?_
    rw [add_sub_cancel]
    exact full
  · have isFull : used = columns := le_antisymm bound (not_lt.mp short)
    rw [isFull]
    exact full

theorem fullFrom_flowAfter (fit : ∀ slot ∈ slots, slot.Fits columns) (bound : used ≤ columns) :
    FullFrom columns row used
      (flowAfter columns row used ((fillAfter columns used slots).map Prod.fst))
      ((fillAfter columns used slots).map Prod.fst) := by
  induction slots generalizing row used with
  | nil =>
    have places : flowAfter columns row used ((filler columns used).map Prod.fst) =
        (if used < columns then [⟨row, used⟩] else []) ++ [] := by
      unfold filler
      split_ifs with short
      · exact flowAfter_filler []
      · rfl
    rw [fillAfter, places, ← List.append_nil (List.map _ _)]
    exact fullFrom_filler bound fullFrom_nil
  | cons slot slots ih =>
    obtain ⟨fits, fit⟩ := List.forall_mem_cons.mp fit
    rw [fillAfter]
    split_ifs with starts
    · rw [flowAfter_filler_append fits starts, List.map_append, List.map_cons]
      exact fullFrom_filler bound (ih fit fits.2).next
    · have beside : used + slot.span ≤ columns := not_lt.mp fun wide => starts (.inr wide)
      rw [List.map_cons, flowAfter, if_neg starts]
      exact (ih fit beside).own

/-- Each row of the filled slots is full. -/
theorem rowWidth_fill (fit : ∀ slot ∈ slots, slot.Fits columns) :
    ∀ place ∈ flow columns ((fill columns slots).map Prod.fst),
      rowWidth place.row (flow columns ((fill columns slots).map Prod.fst))
        ((fill columns slots).map Prod.fst) = columns := by
  cases slots with
  | nil =>
    intro place member
    cases member
  | cons slot slots =>
    obtain ⟨fits, fit⟩ := List.forall_mem_cons.mp fit
    have rest : FullFrom columns 0 slot.span _ _ := fullFrom_flowAfter fit fits.2
    rw [← zero_add slot.span] at rest
    have full : FullFrom columns 0 0 _ _ := rest.own
    rw [zero_add] at full
    rw [fill, List.map_cons, flow]
    intro place member
    rcases Nat.eq_zero_or_pos place.row with isFirst | later
    · rw [isFirst]
      have first := full.first
      rwa [zero_add] at first
    · exact full.later place member later

end Filled

end MalloyPublisher.Foundations
