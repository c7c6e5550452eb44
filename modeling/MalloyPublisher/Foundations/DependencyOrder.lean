import MalloyPublisher.Foundations.ReadyOrder
import Mathlib.Data.Set.Finite.Basic

/-!
# Emission in order of dependencies

An item is ready once the keys that it depends on have been emitted. The passes then emit, each
behind what it depends on, the items from which no cycle is reached; the others are never ready, and
follow.

## Main definitions

* `DependsBackward` — each item stands behind what it depends on
* `CycleFree` — no cycle is reached from a key

## Main results

* `exists_readyOrder_eq_append` — the items that reach no cycle come first, each behind what it
  depends on
* `readyOrder_eq_self` — items that depend backward stay as they are
-/

namespace MalloyPublisher.Foundations

open Relation

variable {α K : Type*}

/-- Each item stands behind the keys that it depends on. -/
def DependsBackward (key : α → K) (deps : K → List K) (items : List α) : Prop :=
  ∀ before item after, items = before ++ item :: after → ∀ d ∈ deps (key item), d ∈ before.map key

/-- No cycle is reached from a key, which then is on none itself. -/
def CycleFree (deps : K → List K) (k : K) : Prop :=
  ∀ c, TransGen (fun a b => b ∈ deps a) k c → ¬ TransGen (fun a b => b ∈ deps a) c c

section Backward

variable {key : α → K} {deps : K → List K} {items before after : List α} {item : α} {k d : K}

/-- Of two items of a list, the one in front stands before the other. -/
theorem mem_of_pair_sublist {first : α} (once : (before ++ item :: after).Nodup)
    (pair : [first, item].Sublist (before ++ item :: after)) : first ∈ before := by
  have new : item ∉ after := (List.nodup_cons.mp (List.nodup_append.mp once).2.1).1
  obtain ⟨left, right, same, inBefore, inAfter⟩ := List.sublist_append_iff.mp pair
  cases left with
  | nil =>
    obtain rfl : [first, item] = right := same
    cases inAfter with
    | cons _ pair => exact absurd (pair.subset (by simp)) new
    | cons_cons _ pair => exact absurd (List.singleton_sublist.mp pair) new
  | cons head left =>
    obtain ⟨rfl, -⟩ := List.cons.inj same
    exact inBefore.subset List.mem_cons_self

theorem dependsBackward_nil : DependsBackward key deps [] := fun before item after same =>
  absurd (congrArg List.length same) (by simp)

theorem DependsBackward.append_singleton (backward : DependsBackward key deps items)
    (behind : ∀ d ∈ deps (key item), d ∈ items.map key) :
    DependsBackward key deps (items ++ [item]) := by
  intro before other after same d isDep
  obtain rfl | ⟨after', last, rfl⟩ := after.eq_nil_or_concat
  · -- the item itself is the one that is split off
    obtain ⟨rfl, tail⟩ := List.append_inj' same rfl
    obtain rfl := (List.cons.inj tail).1
    exact behind d isDep
  · rw [List.concat_eq_append, ← List.cons_append, ← List.append_assoc] at same
    exact backward before other after' (List.append_inj' same rfl).1 d isDep

theorem DependsBackward.left (backward : DependsBackward key deps (before ++ after)) :
    DependsBackward key deps before := fun first item rest same =>
  backward first item (rest ++ after) (by rw [same, List.append_assoc, List.cons_append])

theorem CycleFree.of_deps (free : ∀ d ∈ deps k, CycleFree deps d) : CycleFree deps k := by
  intro c path cycle
  obtain ⟨d, isDep, path⟩ := TransGen.head'_iff.mp path
  obtain rfl | path := reflTransGen_iff_eq_or_transGen.mp path
  · exact free _ isDep _ cycle cycle
  · exact free d isDep c path cycle

theorem CycleFree.dep (free : CycleFree deps k) (isDep : d ∈ deps k) : CycleFree deps d :=
  fun c path => free c (path.head isDep)

/-- What depends backward reaches no cycle. -/
theorem DependsBackward.cycleFree (backward : DependsBackward key deps items) (member : item ∈ items) :
    CycleFree deps (key item) := by
  induction items using List.reverseRecOn generalizing item with
  | nil => cases member
  | append_singleton items last ih =>
    obtain member | member := List.mem_append.mp member
    · exact ih backward.left member
    · rw [List.mem_singleton.mp member]
      refine CycleFree.of_deps fun d isDep => ?_
      obtain ⟨other, inItems, rfl⟩ := List.mem_map.mp (backward items last [] rfl d isDep)
      exact ih backward.left inItems

end Backward

/-! ## The passes -/

section Passes

variable [DecidableEq K] {key : α → K} {deps : K → List K} {items : List α}
  {state : Emission α K} {item : α}

variable (key deps) in
/-- An item is ready once what it depends on has been emitted. -/
def depsEmitted (item : α) (emitted : List K) : Bool := (deps (key item)).all (· ∈ emitted)

/-- What has been emitted depends backward. -/
structure Follows (key : α → K) (deps : K → List K) (state : Emission α K) : Prop where
  backward : DependsBackward key deps state.ordered
  emitted : ∀ k, k ∈ state.emitted ↔ k ∈ state.ordered.map key

theorem Follows.emitReady (follows : Follows key deps state) (item : α) :
    Follows key deps (emitReady key (depsEmitted key deps) state item) := by
  unfold Foundations.emitReady
  split_ifs with due
  swap
  · exact follows
  constructor
  · refine follows.backward.append_singleton fun d isDep => ?_
    have ready := List.all_eq_true.mp due.2 d isDep
    exact (follows.emitted d).mp (of_decide_eq_true ready)
  · intro k
    simp only [List.mem_cons, List.map_append, List.mem_append, follows.emitted, List.map_cons,
      List.map_nil, List.not_mem_nil, or_false]
    exact or_comm

theorem Follows.emitPass (follows : Follows key deps state) (items : List α) :
    Follows key deps (emitPass key (depsEmitted key deps) items state) := by
  have kept (some : List α) {state : Emission α K} (follows : Follows key deps state) :
      Follows key deps (some.foldl (Foundations.emitReady key (depsEmitted key deps)) state) := by
    induction some generalizing state with
    | nil => exact follows
    | cons item some ih => exact ih (follows.emitReady item)
  exact kept items ⟨follows.backward, follows.emitted⟩

variable {ready : α → List K → Bool}

/-- Once something is emitted, the pass has progressed. -/
theorem progressed_foldl (items : List α) (progressed : state.progressed = true) :
    (items.foldl (emitReady key ready) state).progressed = true := by
  induction items generalizing state with
  | nil => exact progressed
  | cons item rest ih =>
    refine ih ?_
    unfold emitReady
    split_ifs
    · rfl
    · exact progressed

/-- A pass that emits nothing found no item due and ready. -/
theorem foldl_of_not_progressed (items : List α)
    (stuck : (items.foldl (emitReady key ready) state).progressed ≠ true) :
    items.foldl (emitReady key ready) state = state ∧
      ∀ item ∈ items, key item ∈ state.remaining → ready item state.emitted ≠ true := by
  induction items generalizing state with
  | nil => exact ⟨rfl, fun item member => absurd member List.not_mem_nil⟩
  | cons first rest ih =>
    rw [List.foldl_cons] at stuck ⊢
    by_cases due : key first ∈ state.remaining ∧ ready first state.emitted = true
    · refine absurd (progressed_foldl rest ?_) stuck
      rw [emitReady, if_pos due]
    · have same : emitReady key ready state first = state := if_neg due
      rw [same] at stuck ⊢
      obtain ⟨unchanged, none⟩ := ih stuck
      exact ⟨unchanged, List.forall_mem_cons.mpr ⟨fun remains isReady => due ⟨remains, isReady⟩, none⟩⟩

/-- An emission only grows. -/
theorem exists_foldl_ordered (key : α → K) (ready : α → List K → Bool) (items : List α)
    (state : Emission α K) :
    ∃ more, (items.foldl (emitReady key ready) state).ordered = state.ordered ++ more ∧
      ∀ item ∈ more, key item ∈ state.remaining := by
  induction items generalizing state with
  | nil => exact ⟨[], (List.append_nil _).symm, fun item member => absurd member List.not_mem_nil⟩
  | cons first rest ih =>
    obtain ⟨more, ordered, remained⟩ := ih (emitReady key ready state first)
    rw [List.foldl_cons, ordered]
    unfold emitReady at remained ⊢
    split_ifs at remained ⊢ with due
    · refine ⟨first :: more, by simp, List.forall_mem_cons.mpr ⟨due.1, fun item member => ?_⟩⟩
      exact (List.mem_filter.mp (remained item member)).1
    · exact ⟨more, rfl, remained⟩

/-- Where no item is due and ready, what remains reaches a cycle. -/
theorem not_cycleFree_of_stuck (closed : ∀ item ∈ items, ∀ d ∈ deps (key item), d ∈ items.map key)
    (emits : Emits key items state) (follows : Follows key deps state)
    (stuck : ∀ item ∈ items, key item ∈ state.remaining →
      depsEmitted key deps item state.emitted ≠ true) (member : item ∈ items)
    (remains : key item ∈ state.remaining) : ¬ CycleFree deps (key item) := by
  intro free
  -- on the keys that reach no cycle, reaching is well-founded, as they are finite
  let G := {k // k ∈ items.map key ∧ CycleFree deps k}
  have : Finite G :=
    ((items.map key).finite_toSet.subset fun k (inside : _ ∧ CycleFree deps k) => inside.1).to_subtype
  let Below : G → G → Prop := fun a b => TransGen (fun a b => b ∈ deps a) b.1 a.1
  have : IsTrans G Below := ⟨fun a b c ab bc => bc.trans ab⟩
  have : Std.Irrefl Below := ⟨fun a cycle => a.2.2 a.1 cycle cycle⟩
  have founded : WellFounded Below := Finite.wellFounded_of_trans_of_irrefl Below
  -- what such a key depends on is emitted by then, so it would be ready
  have gone : ∀ k : G, k.1 ∉ state.remaining := by
    intro k
    induction k using founded.induction with
    | _ k ih =>
      intro remains
      obtain ⟨item, member, isKey⟩ := List.mem_map.mp k.2.1
      refine stuck item member (isKey ▸ remains) (List.all_eq_true.mpr fun d isDep => ?_)
      have isDep' : d ∈ deps k.1 := isKey ▸ isDep
      obtain ⟨other, inItems, rfl⟩ := List.mem_map.mp (closed item member d isDep)
      have emitted := (emits.covers other inItems).resolve_left
        (ih ⟨key other, List.mem_map_of_mem inItems, k.2.2.dep isDep'⟩ (TransGen.single isDep'))
      exact decide_eq_true ((follows.emitted _).mpr emitted)
  exact gone ⟨key item, List.mem_map_of_mem member, free⟩ remains

theorem exists_emitAll_eq_append
    (closed : ∀ item ∈ items, ∀ d ∈ deps (key item), d ∈ items.map key)
    (emits : Emits key items state) (follows : Follows key deps state) :
    ∃ front rest, emitAll key (depsEmitted key deps) items state = front ++ rest ∧
      DependsBackward key deps front ∧ ∀ item ∈ rest, ¬ CycleFree deps (key item) := by
  induction left : state.remaining.length using Nat.strongRecOn generalizing state with
  | ind left ih =>
  rw [emitAll]
  split_ifs with done progressed
  · exact ⟨state.ordered, [], (List.append_nil _).symm, follows.backward,
      fun item member => absurd member List.not_mem_nil⟩
  · exact ih _ (by subst left; exact emitPass_remaining_length progressed) emits.emitPass
      (follows.emitPass items) rfl
  · -- nothing was ready: the rest follows in its order
    obtain ⟨unchanged, none⟩ := foldl_of_not_progressed items progressed
    have same : emitPass key (depsEmitted key deps) items state =
      { state with progressed := false } := unchanged
    obtain ⟨more, ordered, remained⟩ := exists_foldl_ordered key
      (fun _ _ => true) items { state with progressed := false }
    have last : (emitPass key (fun _ _ => true) items { state with progressed := false }).ordered =
      state.ordered ++ more := ordered
    rw [same, last]
    refine ⟨state.ordered, more, rfl, follows.backward, fun item member => ?_⟩
    have all : Emits key items (emitPass key (fun _ _ => true) items state) := emits.emitPass
    have inItems : item ∈ items := by
      refine all.source item ?_
      rw [show emitPass key (fun _ _ => true) items state =
        emitPass key (fun _ _ => true) items { state with progressed := false } from rfl, last]
      exact List.mem_append_right _ member
    exact not_cycleFree_of_stuck closed emits follows none inItems (remained item member)

/-- Nothing has been emitted yet. -/
theorem emits_start (key : α → K) (items : List α) :
    Emits key items
      { ordered := [], emitted := [], remaining := (items.map key).eraseDups, progressed := false } :=
  ⟨fun _ member => absurd member List.not_mem_nil, List.nodup_nil,
    fun _ member => absurd member List.not_mem_nil,
    fun _ member => .inl (List.mem_eraseDups.mpr (List.mem_map_of_mem member))⟩

/-- The items that reach no cycle come first, each behind what it depends on. -/
theorem exists_readyOrder_eq_append
    (closed : ∀ item ∈ items, ∀ d ∈ deps (key item), d ∈ items.map key) :
    ∃ front rest, readyOrder key (depsEmitted key deps) items = front ++ rest ∧
      DependsBackward key deps front ∧ ∀ item ∈ rest, ¬ CycleFree deps (key item) :=
  exists_emitAll_eq_append closed (emits_start key items)
    ⟨dependsBackward_nil, fun _ => iff_of_false List.not_mem_nil List.not_mem_nil⟩

/-- Items with distinct keys are rearranged. -/
theorem readyOrder_perm (ready : α → List K → Bool) (distinct : (items.map key).Nodup) :
    (readyOrder key ready items).Perm items := by
  have source : ∀ item ∈ readyOrder key ready items, item ∈ items := readyOrder_spec.1
  have once : ((readyOrder key ready items).map key).Nodup := readyOrder_spec.2.1
  have covers : ∀ item ∈ items, key item ∈ (readyOrder key ready items).map key :=
    readyOrder_spec.2.2
  refine (List.perm_ext_iff_of_nodup once.of_map distinct.of_map).mpr fun item =>
    ⟨source item, fun member => ?_⟩
  obtain ⟨other, ordered, same⟩ := List.mem_map.mp (covers item member)
  exact List.inj_on_of_nodup_map distinct (source other ordered) member same ▸ ordered

/-- A pass over items that depend backward emits them all. -/
theorem foldl_of_dependsBackward (before : List α) (distinct : ((before ++ items).map key).Nodup)
    (backward : DependsBackward key deps (before ++ items)) (progressed : Bool) :
    (items.foldl (emitReady key (depsEmitted key deps))
      { ordered := before, emitted := (before.map key).reverse, remaining := items.map key,
        progressed := progressed }).ordered = before ++ items ∧
    (items.foldl (emitReady key (depsEmitted key deps))
      { ordered := before, emitted := (before.map key).reverse, remaining := items.map key,
        progressed := progressed }).remaining = [] := by
  induction items generalizing before progressed with
  | nil => exact ⟨(List.append_nil _).symm, rfl⟩
  | cons first rest ih =>
    have ready : depsEmitted key deps first (before.map key).reverse = true :=
      List.all_eq_true.mpr fun d isDep =>
        decide_eq_true (List.mem_reverse.mpr (backward before first rest rfl d isDep))
    have remaining : ((first :: rest).map key).filter (· ≠ key first) = rest.map key := by
      rw [List.map_append, List.map_cons, List.nodup_append, List.nodup_cons] at distinct
      rw [List.map_cons, List.filter_cons_of_neg (by simp), List.filter_eq_self]
      intro k member
      simpa using ne_of_mem_of_not_mem member distinct.2.1.1
    have step : emitReady key (depsEmitted key deps)
        { ordered := before, emitted := (before.map key).reverse,
          remaining := (first :: rest).map key, progressed := progressed } first =
        { ordered := before ++ [first], emitted := ((before ++ [first]).map key).reverse,
          remaining := rest.map key, progressed := true } := by
      rw [emitReady, if_pos ⟨List.mem_cons_self, ready⟩, remaining]
      simp
    rw [List.append_cons] at distinct backward ⊢
    rw [List.foldl_cons, step]
    exact ih (before ++ [first]) distinct backward true

theorem eraseDups_of_nodup {keys : List K} (distinct : keys.Nodup) : keys.eraseDups = keys := by
  induction keys with
  | nil => rfl
  | cons first rest ih =>
    obtain ⟨new, distinct⟩ := List.nodup_cons.mp distinct
    have others : rest.filter (fun k => !k == first) = rest := by
      rw [List.filter_eq_self]
      intro k member
      simpa using ne_of_mem_of_not_mem member new
    rw [List.eraseDups_cons, others, ih distinct]

/-- Items that depend backward stay as they are. -/
theorem readyOrder_eq_self (distinct : (items.map key).Nodup)
    (backward : DependsBackward key deps items) :
    readyOrder key (depsEmitted key deps) items = items := by
  have pass := foldl_of_dependsBackward [] distinct backward false
  rw [readyOrder, eraseDups_of_nodup distinct, emitAll]
  split_ifs with none progressed
  · exact (List.map_eq_nil_iff.mp none).symm
  · rw [emitAll, if_pos]
    · exact pass.1
    · exact pass.2
  · -- a pass that emits nothing would leave the keys as they are
    obtain ⟨unchanged, -⟩ := foldl_of_not_progressed items progressed
    exact absurd ((congrArg Emission.remaining unchanged).symm.trans pass.2) none

end Passes

end MalloyPublisher.Foundations
