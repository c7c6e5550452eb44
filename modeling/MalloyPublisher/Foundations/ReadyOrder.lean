import Mathlib.Data.List.Nodup
import Mathlib.Data.Nat.Basic

/-!
# Emission in order of readiness

Items carry a key. An item is emitted once it is ready, given the keys emitted before, and
each key is emitted once. Passes are made over the items while they emit something; where
a pass emits nothing, the rest follows as it stands. Whatever readiness is, what is emitted
are items, one for each key.
-/

namespace MalloyPublisher.Foundations

variable {α K : Type*}

/-- Where an emission stands. -/
structure Emission (α K : Type*) where
  ordered : List α
  emitted : List K
  remaining : List K
  progressed : Bool

section Emit

variable [DecidableEq K] (key : α → K) (ready : α → List K → Bool)

/-- Emit an item that is ready and whose key is due. -/
def emitReady (state : Emission α K) (item : α) : Emission α K :=
  if key item ∈ state.remaining ∧ ready item state.emitted = true then
    { ordered := state.ordered ++ [item], emitted := key item :: state.emitted,
      remaining := state.remaining.filter (· ≠ key item), progressed := true }
  else state

/-- One pass over the items. -/
def emitPass (items : List α) (state : Emission α K) : Emission α K :=
  items.foldl (emitReady key ready) { state with progressed := false }

variable {key ready} {items : List α} {state : Emission α K}

variable (key ready state) in
theorem emitReady_remaining_length (item : α) :
    (emitReady key ready state item).remaining.length ≤ state.remaining.length ∧
      ((emitReady key ready state item).progressed = true → state.progressed = true ∨
        (emitReady key ready state item).remaining.length < state.remaining.length) := by
  unfold emitReady
  split_ifs with due
  · have shorter : (state.remaining.filter (· ≠ key item)).length < state.remaining.length :=
      List.length_filter_lt_length_iff_exists.mpr ⟨key item, due.1, by simp⟩
    exact ⟨Nat.le_of_lt shorter, fun _ => .inr shorter⟩
  · exact ⟨le_rfl, .inl⟩

theorem foldl_emitReady_remaining_length :
    (items.foldl (emitReady key ready) state).remaining.length ≤ state.remaining.length ∧
      ((items.foldl (emitReady key ready) state).progressed = true → state.progressed = true ∨
        (items.foldl (emitReady key ready) state).remaining.length < state.remaining.length) := by
  induction items generalizing state with
  | nil => exact ⟨le_rfl, .inl⟩
  | cons item items ih =>
    obtain ⟨shorter, progress⟩ := emitReady_remaining_length key ready state item
    obtain ⟨shorter', progress'⟩ := @ih (emitReady key ready state item)
    refine ⟨Nat.le_trans shorter' shorter, fun progressed => ?_⟩
    rcases progress' progressed with earlier | later
    · exact (progress earlier).imp_right (Nat.lt_of_le_of_lt shorter')
    · exact .inr (Nat.lt_of_lt_of_le later shorter)

/-- A pass that emits something leaves fewer keys. -/
theorem emitPass_remaining_length (progressed : (emitPass key ready items state).progressed = true) :
    (emitPass key ready items state).remaining.length < state.remaining.length :=
  (foldl_emitReady_remaining_length.2 progressed).resolve_left Bool.false_ne_true

variable (key ready) (items)

/-- The passes; what is never ready follows as it stands. -/
def emitAll (state : Emission α K) : List α :=
  if state.remaining = [] then state.ordered
  else if _progressed : (emitPass key ready items state).progressed = true then
    emitAll (emitPass key ready items state)
  else (emitPass key (fun _ _ => true) items (emitPass key ready items state)).ordered
termination_by state.remaining.length
decreasing_by exact emitPass_remaining_length ‹_›

/-- The items in order of readiness, one for each key. -/
def readyOrder : List α :=
  emitAll key ready items
    { ordered := [], emitted := [], remaining := (items.map key).eraseDups, progressed := false }

end Emit

/-! ## What is emitted -/

section Emitted

variable [DecidableEq K] {key : α → K} {ready : α → List K → Bool}
variable {items : List α} {state : Emission α K}

/-- Items have been emitted, one for each key that does not remain. -/
structure Emits (key : α → K) (items : List α) (state : Emission α K) : Prop where
  source : ∀ item ∈ state.ordered, item ∈ items
  once : (state.ordered.map key).Nodup
  apart : ∀ item ∈ state.ordered, key item ∉ state.remaining
  covers : ∀ item ∈ items, key item ∈ state.remaining ∨ key item ∈ state.ordered.map key

theorem Emits.emitReady (emits : Emits key items state) {item : α} (member : item ∈ items) :
    Emits key items (emitReady key ready state item) := by
  unfold Foundations.emitReady
  split_ifs with due
  swap
  · exact emits
  have fresh : key item ∉ state.ordered.map key := by
    intro known
    obtain ⟨other, ordered, same⟩ := List.mem_map.mp known
    exact emits.apart other ordered (same ▸ due.1)
  refine ⟨fun other ordered => ?_, ?_, fun other ordered remains => ?_, fun other among => ?_⟩
  · rcases List.mem_append.mp ordered with ordered | here
    · exact emits.source other ordered
    · rw [List.mem_singleton.mp here]
      exact member
  · rw [List.map_append, List.map_singleton]
    rw [← List.concat_eq_append]
    exact emits.once.concat fresh
  · obtain ⟨remains, apart⟩ := List.mem_filter.mp remains
    rcases List.mem_append.mp ordered with ordered | here
    · exact emits.apart other ordered remains
    · rw [List.mem_singleton.mp here] at apart
      simp at apart
  · rw [List.map_append, List.map_singleton]
    by_cases same : key other = key item
    · exact .inr (List.mem_append_right _ (by simp [same]))
    · refine (emits.covers other among).imp (fun remains => ?_) (List.mem_append_left _)
      exact List.mem_filter.mpr ⟨remains, by simpa using same⟩

theorem Emits.emitPass (emits : Emits key items state) :
    Emits key items (emitPass key ready items state) := by
  have kept (some : List α) (among : ∀ item ∈ some, item ∈ items) {state : Emission α K}
      (emits : Emits key items state) :
      Emits key items (some.foldl (Foundations.emitReady key ready) state) := by
    induction some generalizing state with
    | nil => exact emits
    | cons item some ih =>
      exact ih (fun other member => among other (List.mem_cons_of_mem _ member))
        (emits.emitReady (among item List.mem_cons_self))
  exact kept items (fun _ => id) ⟨emits.source, emits.once, emits.apart, emits.covers⟩

/-- A pass for which every item is ready leaves no key. -/
theorem emitPass_covers (emits : Emits key items state) :
    ∀ item ∈ items,
      key item ∈ (emitPass key (fun _ _ => true) items state).ordered.map key := by
  have gone (some : List α) (state : Emission α K) {item : α}
      (absent : item ∈ some ∨ key item ∉ state.remaining) :
      key item ∉ (some.foldl (emitReady key fun _ _ => true) state).remaining := by
    induction some generalizing state with
    | nil => exact absent.resolve_left List.not_mem_nil
    | cons first some ih =>
      apply ih
      by_cases later : item ∈ some
      · exact .inl later
      right
      unfold emitReady
      rcases absent with here | absent
      · rw [(List.mem_cons.mp here).resolve_right later]
        split_ifs with due
        · simp
        · exact fun remains => due ⟨remains, rfl⟩
      · split_ifs with due
        · exact fun remains => absent (List.mem_filter.mp remains).1
        · exact absent
  intro item member
  exact (emits.emitPass.covers item member).resolve_left (gone items _ (.inl member))

theorem emitAll_spec (emits : Emits key items state) :
    (∀ item ∈ emitAll key ready items state, item ∈ items) ∧
      ((emitAll key ready items state).map key).Nodup ∧
      ∀ item ∈ items, key item ∈ (emitAll key ready items state).map key := by
  induction left : state.remaining.length using Nat.strongRecOn generalizing state with
  | ind left ih =>
  rw [emitAll]
  split_ifs with done progressed
  · refine ⟨emits.source, emits.once, fun item member => ?_⟩
    exact (emits.covers item member).resolve_left (by simp [done])
  · exact ih _ (by subst left; exact emitPass_remaining_length progressed) emits.emitPass rfl
  · exact ⟨emits.emitPass.emitPass.source, emits.emitPass.emitPass.once,
      emitPass_covers emits.emitPass⟩

/-- What is emitted are items, one for each key. -/
theorem readyOrder_spec :
    (∀ item ∈ readyOrder key ready items, item ∈ items) ∧
      ((readyOrder key ready items).map key).Nodup ∧
      ∀ item ∈ items, key item ∈ (readyOrder key ready items).map key := by
  apply emitAll_spec
  refine ⟨fun _ member => absurd member List.not_mem_nil, List.nodup_nil,
    fun _ member => absurd member List.not_mem_nil, fun item member => .inl ?_⟩
  exact List.mem_eraseDups.mpr (List.mem_map_of_mem member)

theorem mem_of_mem_readyOrder {item : α} (ordered : item ∈ readyOrder key ready items) :
    item ∈ items :=
  readyOrder_spec.1 item ordered

/-- Each item's key is emitted, with it or with another item of that key. -/
theorem exists_mem_readyOrder {item : α} (member : item ∈ items) :
    ∃ other ∈ readyOrder key ready items, key other = key item :=
  List.mem_map.mp (readyOrder_spec.2.2 item member)

theorem eq_of_mem_readyOrder {item other : α} (ordered : item ∈ readyOrder key ready items)
    (ordered' : other ∈ readyOrder key ready items) (same : key item = key other) : item = other :=
  List.inj_on_of_nodup_map readyOrder_spec.2.1 ordered ordered' same

end Emitted

end MalloyPublisher.Foundations
