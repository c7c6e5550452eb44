import MalloyPublisher.Foundations.DependencyOrder
import MalloyPublisher.Serving.ServeShape

/-!
# The order of joined sources

A source is declared behind the sources that it joins. Where joins form cycles there is no such
order for what reaches one, and these sources follow behind all others.

## Main definitions

* `Joins` — a binding joins another of the list
* `OffCycles` — no cycle of joins is reached from a binding
* `OrdersJoins` — bindings are rearranged with each behind those that it joins, as far as there is
  an order

## Main results

* `ordersJoins_orderBindingsByJoinDeps` — so are the bindings of a shape
-/

namespace MalloyPublisher.Serving

open Foundations Relation

/-- A binding joins another one of the list. A source that joins itself needs no declaration before
its own. -/
def Joins (bindings : List ServeBinding) (binding joined : ServeBinding) : Prop :=
  binding ∈ bindings ∧ joined ∈ bindings ∧ joined.sourceName ≠ binding.sourceName ∧
    ∃ name keyword text,
      .join name keyword text joined.sourceName ∈ binding.refinements.getD []

/-- No cycle of joins is reached from a binding, which then is on none itself. -/
def OffCycles (bindings : List ServeBinding) (binding : ServeBinding) : Prop :=
  ∀ other, TransGen (Joins bindings) binding other → ¬ TransGen (Joins bindings) other other

/-- The bindings are rearranged, each behind those that it joins as far as there is such an order.
-/
structure OrdersJoins (bindings ordered : List ServeBinding) : Prop where
  perm : ordered.Perm bindings
  behind : (∀ binding, ¬ TransGen (Joins bindings) binding binding) →
    ∀ binding joined, Joins bindings binding joined → [joined, binding].Sublist ordered
  unchanged : (∀ binding joined, Joins bindings binding joined → [joined, binding].Sublist bindings) →
    ordered = bindings
  offCycles : ∀ binding ∈ bindings, OffCycles bindings binding →
    (∀ joined, Joins bindings binding joined → [joined, binding].Sublist ordered) ∧
      ∀ other ∈ bindings, ¬ OffCycles bindings other → [binding, other].Sublist ordered

section Joins

variable {bindings : List ServeBinding} {binding joined other : ServeBinding} {name : String}

theorem mem_joinedSources {present : List String} : name ∈ joinedSources present binding ↔
    name ≠ binding.sourceName ∧ name ∈ present ∧
      ∃ as keyword text, .join as keyword text name ∈ binding.refinements.getD [] := by
  rw [joinedSources, List.mem_filterMap]
  constructor
  · rintro ⟨refinement, member, kept⟩
    cases refinement with
    | join as keyword text target =>
      dsimp only at kept
      split_ifs at kept with isDep
      obtain rfl := Option.some.inj kept
      exact ⟨isDep.1, isDep.2, as, keyword, text, member⟩
    | field | view | filter => cases kept
  · rintro ⟨other, present, as, keyword, text, member⟩
    exact ⟨_, member, if_pos ⟨other, present⟩⟩

/-- With distinct names, what a name depends on are the sources that its binding joins. -/
theorem dependsOn_sourceName (distinct : (bindings.map ServeBinding.sourceName).Nodup)
    (member : binding ∈ bindings) :
    dependsOn bindings binding.sourceName =
      joinedSources (bindings.map ServeBinding.sourceName) binding := by
  have found : bindings.reverse.find? (·.sourceName = binding.sourceName) = some binding := by
    have some : (bindings.reverse.find? (·.sourceName = binding.sourceName)).isSome :=
      List.find?_isSome.mpr ⟨binding, List.mem_reverse.mpr member, by simp⟩
    obtain ⟨first, isFirst⟩ := Option.isSome_iff_exists.mp some
    have same : first.sourceName = binding.sourceName := by simpa using List.find?_some isFirst
    rw [isFirst, List.inj_on_of_nodup_map distinct
      (List.mem_reverse.mp (List.mem_of_find?_eq_some isFirst)) member same]
  rw [dependsOn, found]

theorem joins_iff (distinct : (bindings.map ServeBinding.sourceName).Nodup)
    (member : binding ∈ bindings) (member' : joined ∈ bindings) :
    Joins bindings binding joined ↔ joined.sourceName ∈ dependsOn bindings binding.sourceName := by
  rw [dependsOn_sourceName distinct member, mem_joinedSources, Joins]
  constructor
  · rintro ⟨-, -, apart, join⟩
    exact ⟨apart, List.mem_map_of_mem member', join⟩
  · rintro ⟨apart, -, join⟩
    exact ⟨member, member', apart, join⟩

/-- What a name depends on is bound. -/
theorem exists_joins (distinct : (bindings.map ServeBinding.sourceName).Nodup)
    (member : binding ∈ bindings) (isDep : name ∈ dependsOn bindings binding.sourceName) :
    ∃ joined, joined.sourceName = name ∧ Joins bindings binding joined := by
  have isDep' := isDep
  rw [dependsOn_sourceName distinct member, mem_joinedSources] at isDep'
  obtain ⟨joined, member', rfl⟩ := List.mem_map.mp isDep'.2.1
  exact ⟨joined, rfl, (joins_iff distinct member member').mpr isDep⟩

/-- A chain of names is one of joins. -/
theorem exists_transGen_joins (distinct : (bindings.map ServeBinding.sourceName).Nodup)
    (member : binding ∈ bindings)
    (path : TransGen (fun a b => b ∈ dependsOn bindings a) binding.sourceName name) :
    ∃ reached ∈ bindings, reached.sourceName = name ∧
      TransGen (Joins bindings) binding reached := by
  induction path with
  | single isDep =>
    obtain ⟨joined, isNamed, joins⟩ := exists_joins distinct member isDep
    exact ⟨joined, joins.2.1, isNamed, .single joins⟩
  | tail _ isDep ih =>
    obtain ⟨reached, inBindings, rfl, chain⟩ := ih
    obtain ⟨joined, isNamed, joins⟩ := exists_joins distinct inBindings isDep
    exact ⟨joined, joins.2.1, isNamed, chain.tail joins⟩

theorem transGen_joins_iff (distinct : (bindings.map ServeBinding.sourceName).Nodup)
    (member : binding ∈ bindings) (member' : other ∈ bindings) :
    TransGen (Joins bindings) binding other ↔
      TransGen (fun a b => b ∈ dependsOn bindings a) binding.sourceName other.sourceName := by
  constructor
  · intro chain
    induction chain with
    | single joins => exact .single ((joins_iff distinct joins.1 joins.2.1).mp joins)
    | tail _ joins ih =>
      exact (ih joins.1).tail ((joins_iff distinct joins.1 joins.2.1).mp joins)
  · intro path
    obtain ⟨reached, inBindings, same, chain⟩ := exists_transGen_joins distinct member path
    rwa [← List.inj_on_of_nodup_map distinct inBindings member' same]

theorem offCycles_iff (distinct : (bindings.map ServeBinding.sourceName).Nodup)
    (member : binding ∈ bindings) :
    OffCycles bindings binding ↔ CycleFree (dependsOn bindings) binding.sourceName := by
  constructor
  · intro off name path cycle
    obtain ⟨reached, inBindings, rfl, chain⟩ := exists_transGen_joins distinct member path
    exact off reached chain ((transGen_joins_iff distinct inBindings inBindings).mpr cycle)
  · intro free other chain cycle
    obtain ⟨_, -, joins⟩ := TransGen.tail'_iff.mp chain
    have inBindings : other ∈ bindings := joins.2.1
    exact free other.sourceName ((transGen_joins_iff distinct member inBindings).mp chain)
      ((transGen_joins_iff distinct inBindings inBindings).mp cycle)

theorem closed_dependsOn (distinct : (bindings.map ServeBinding.sourceName).Nodup) :
    ∀ binding ∈ bindings, ∀ name ∈ dependsOn bindings binding.sourceName,
      name ∈ bindings.map ServeBinding.sourceName := by
  intro binding member name isDep
  obtain ⟨joined, rfl, joins⟩ := exists_joins distinct member isDep
  exact List.mem_map_of_mem joins.2.1

/-- The order of the passes is that of readiness. -/
theorem orderBindingsByJoinDeps_eq (bindings : List ServeBinding) :
    orderBindingsByJoinDeps bindings = readyOrder ServeBinding.sourceName
      (depsEmitted ServeBinding.sourceName (dependsOn bindings)) bindings := rfl

/-- Bindings that stand behind those that they join depend backward. -/
theorem dependsBackward_of_joins (distinct : (bindings.map ServeBinding.sourceName).Nodup)
    (behind : ∀ binding joined, Joins bindings binding joined →
      [joined, binding].Sublist bindings) :
    DependsBackward ServeBinding.sourceName (dependsOn bindings) bindings := by
  intro before binding after same name isDep
  have member : binding ∈ bindings := same ▸ List.mem_append_right _ List.mem_cons_self
  obtain ⟨joined, rfl, joins⟩ := exists_joins distinct member isDep
  have pair := behind binding joined joins
  have once := distinct.of_map
  rw [same] at pair once
  exact List.mem_map_of_mem (mem_of_pair_sublist once pair)

/-- The bindings of a shape are rearranged, each behind those that it joins as far as there is such
an order. -/
theorem ordersJoins_orderBindingsByJoinDeps (bindings : List ServeBinding)
    (distinct : (bindings.map ServeBinding.sourceName).Nodup) :
    OrdersJoins bindings (orderBindingsByJoinDeps bindings) := by
  rw [orderBindingsByJoinDeps_eq]
  have perm := readyOrder_perm (depsEmitted ServeBinding.sourceName (dependsOn bindings)) distinct
  obtain ⟨front, rest, isSplit, backward, last⟩ :=
    exists_readyOrder_eq_append (closed_dependsOn distinct)
  have members : ∀ binding, binding ∈ front ∨ binding ∈ rest ↔ binding ∈ bindings := by
    intro binding
    rw [← List.mem_append, ← isSplit]
    exact perm.mem_iff
  -- the rest of the split reaches a cycle, so what reaches none stands in front
  have inFront : ∀ binding ∈ bindings, OffCycles bindings binding → binding ∈ front := by
    intro binding member off
    refine ((members binding).mpr member).resolve_right fun inRest => last binding inRest ?_
    exact (offCycles_iff distinct member).mp off
  have behind : ∀ binding ∈ front, ∀ joined, Joins bindings binding joined →
      [joined, binding].Sublist (front ++ rest) := by
    intro binding member joined joins
    obtain ⟨before, after, rfl⟩ := List.append_of_mem member
    have isDep := (joins_iff distinct joins.1 joins.2.1).mp joins
    obtain ⟨other, inBefore, same⟩ :=
      List.mem_map.mp (backward before binding after rfl _ isDep)
    have inBindings := (members other).mp (.inl (List.mem_append_left _ inBefore))
    obtain rfl := List.inj_on_of_nodup_map distinct inBindings joins.2.1 same
    exact ((List.singleton_sublist.mpr inBefore).append
      (List.singleton_sublist.mpr List.mem_cons_self)).trans (List.sublist_append_left _ rest)
  refine ⟨perm, fun acyclic binding joined joins => ?_, fun ordered => ?_,
    fun binding member off => ⟨fun joined joins => ?_, fun other member' on => ?_⟩⟩
  · rw [isSplit]
    exact behind binding (inFront binding joins.1 fun other _ => acyclic other) joined joins
  · exact readyOrder_eq_self distinct (dependsBackward_of_joins distinct ordered)
  · rw [isSplit]
    exact behind binding (inFront binding member off) joined joins
  · rw [isSplit]
    have inRest : other ∈ rest := by
      refine ((members other).mpr member').resolve_left fun inFront' => on ?_
      exact (offCycles_iff distinct member').mpr (backward.cycleFree inFront')
    exact (List.singleton_sublist.mpr (inFront binding member off)).append
      (List.singleton_sublist.mpr inRest)

end Joins

/-- A binding of a source that joins others. -/
def joining (sourceName : String) (joined : List String) : ServeBinding where
  sourceName := sourceName
  origin := .persist
  destinationName := "warehouse"
  virtualHandle := sourceName
  tablePath := "warehouse." ++ sourceName
  schema := []
  refinements := some (joined.map fun name => .join name .joinOne "" name)
  freshAsOf := none
  freshnessWindowSeconds := none
  freshnessFallback := none

theorem ordersJoins_orderBindingsByJoinDeps_orders :
    OrdersJoins
      [joining "returns" ["orders"], joining "orders" ["customers"], joining "customers" [],
        joining "parts" ["kits"], joining "kits" ["parts"]]
      (orderBindingsByJoinDeps
        [joining "returns" ["orders"], joining "orders" ["customers"], joining "customers" [],
          joining "parts" ["kits"], joining "kits" ["parts"]]) :=
  ordersJoins_orderBindingsByJoinDeps _ (by decide)

end MalloyPublisher.Serving
