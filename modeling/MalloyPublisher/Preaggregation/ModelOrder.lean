import MalloyPublisher.Preaggregation.FieldOrder
import Mathlib.Data.List.Flatten

/-!
# Planning a model in any order of its sources

The rollups of a model are those of its sources, the sources sorted by name. They are the same
in any order of the sources and of their fields when each source is planned in one way and no
two sources that have rollups have names that collation takes for equal.

## Main definitions

* `PlannableModel` — a model of plannable sources with distinct names and digests
* `Reordered` — the same contents in another order
* `ModelTieFree` — nothing is left to the order of the contents

## Main results

* `planModelPreaggregation_reordered_iff` — the models that are planned in one way
-/

namespace MalloyPublisher.Preaggregation

open Foundations

variable {library : Library} {contents other : List (String × SourceDef)}

/-- Contents without violations, whose names are distinct and whose grains the digest tells
apart. -/
structure PlannableModel (library : Library) (contents : List (String × SourceDef)) : Prop where
  accepted : ∀ e ∈ contents, validateSourcePreaggregation library e.1 e.2 = []
  named : (contents.map Prod.fst).Nodup
  fields : ∀ e ∈ contents, (e.2.fields.map FieldDef.fieldName).Nodup
  digests : ∀ e ∈ contents, ∀ e' ∈ contents, ∀ a b, e.2.declares library a →
    e'.2.declares library b → grainDigest library a = grainDigest library b → a = b

/-- The same contents in another order, the fields of each source in another order too. -/
def Reordered (contents other : List (String × SourceDef)) : Prop :=
  ∃ entries, contents.Perm entries ∧
    List.Forall₂ (fun e e' => e'.1 = e.1 ∧ e.2.Reordered e'.2) entries other

/-- Whether nothing of a model's rollups is left to the order of its contents. -/
structure ModelTieFree (library : Library) (contents : List (String × SourceDef)) : Prop where
  sources : ∀ e ∈ contents, ∀ e' ∈ contents, ∀ a b, e.2.declares library a →
    e'.2.declares library b → library.Tie e.1 e'.1 → e.1 = e'.1
  fields : ∀ e ∈ contents, TieFree library e.1 e.2

theorem PlannableModel.source (plannable : PlannableModel library contents)
    {e : String × SourceDef} (member : e ∈ contents) : PlannableSource library e.1 e.2 where
  accepted := plannable.accepted e member
  named := plannable.fields e member
  apart a b first second keys :=
    plannable.digests e member e member a b first second (congrArg library.digest keys)

theorem SourceDef.Reordered.refl (source : SourceDef) : source.Reordered source :=
  ⟨rfl, rfl, List.Perm.refl _⟩

/-! ## The rollups of a model -/

theorem mem_planModelPreaggregation {plan : RollupPlan} :
    plan ∈ planModelPreaggregation library contents ↔
      ∃ e ∈ contents, plan ∈ planSourcePreaggregation library e.1 e.2 := by
  unfold planModelPreaggregation
  simp only [List.mem_flatMap, List.mem_insertionSort]

/-- The rollups of each source, under its name. -/
def planned (library : Library) (contents : List (String × SourceDef)) :
    List (String × List RollupPlan) :=
  contents.map fun e => (e.1, planSourcePreaggregation library e.1 e.2)

theorem planModelPreaggregation_eq : planModelPreaggregation library contents =
    ((planned library contents).insertionSort fun a b => library.localeLE a.1 b.1).flatMap
      Prod.snd := by
  unfold planModelPreaggregation planned
  rw [← List.map_insertionSort (fun a b : String × SourceDef => library.localeLE a.1 b.1 = true) _
    (fun e : String × SourceDef => (e.1, planSourcePreaggregation library e.1 e.2)) contents
    (fun _ _ _ _ => Iff.rfl), List.flatMap_map]

/-- A source without rollups adds nothing. -/
theorem flatMap_filter_nonempty {ι : Type*} (groups : List (ι × List RollupPlan)) :
    groups.flatMap Prod.snd = (groups.filter fun group => !group.2.isEmpty).flatMap Prod.snd := by
  induction groups with
  | nil => rfl
  | cons group groups ih =>
    obtain ⟨key, plans⟩ := group
    rw [List.flatMap_cons, ih]
    cases plans with
    | nil => rfl
    | cons plan plans => rfl

/-- A source that has rollups declares a grain. -/
theorem PlannableSource.declares_of_ne_nil {name : String} {source : SourceDef}
    (plannable : PlannableSource library name source)
    (some : planSourcePreaggregation library name source ≠ []) :
    ∃ a, source.declares library a := by
  obtain ⟨plan, planned⟩ := List.exists_mem_of_ne_nil _ some
  exact ⟨plan.grainDimensions, plannable.mem_grains_plans.mp (List.mem_map_of_mem planned)⟩

/-! ## A model without ties -/

theorem PlannableModel.planned_perm (plannable : PlannableModel library contents)
    (lawful : library.Lawful) (tieFree : ModelTieFree library contents)
    (reordered : Reordered contents other) :
    (planned library contents).Perm (planned library other) := by
  obtain ⟨entries, perm, alike⟩ := reordered
  have same : planned library entries = planned library other := by
    have inside : ∀ e ∈ entries, e ∈ contents := fun e => perm.mem_iff.mpr
    clear perm
    induction alike with
    | nil => rfl
    | @cons e e' entries other alike _ ih =>
      obtain ⟨name, source⟩ := e
      obtain ⟨name', source'⟩ := e'
      obtain ⟨rfl, fields⟩ := alike
      have member := inside _ List.mem_cons_self
      have one : planSourcePreaggregation library name' source' =
          planSourcePreaggregation library name' source :=
        (plannable.source member).planSourcePreaggregation_reordered fields lawful
          (tieFree.fields _ member)
      have rest := ih fun e later => inside e (List.mem_cons_of_mem _ later)
      unfold planned at rest ⊢
      rw [List.map_cons, List.map_cons, rest, one]
  rw [← same]
  exact perm.map _

/-- A model without ties is planned in one way. -/
theorem PlannableModel.planModelPreaggregation_reordered
    (plannable : PlannableModel library contents) (lawful : library.Lawful)
    (tieFree : ModelTieFree library contents) (reordered : Reordered contents other) :
    planModelPreaggregation library other = planModelPreaggregation library contents := by
  obtain ⟨total, trans⟩ := lawful.preorder_on (Prod.fst : String × List RollupPlan → String)
  have perm := plannable.planned_perm lawful tieFree reordered
  rw [planModelPreaggregation_eq, planModelPreaggregation_eq, flatMap_filter_nonempty,
    flatMap_filter_nonempty ((planned library contents).insertionSort _)]
  congr 1
  refine List.Perm.eq_of_pairwise ?_ ((List.pairwise_insertionSort _ _).filter _)
    ((List.pairwise_insertionSort _ _).filter _)
    ((((List.perm_insertionSort _ _).trans perm.symm).trans
      (List.perm_insertionSort _ _).symm).filter _)
  -- Two sources that have rollups do not tie, so they are one.
  have exists_entry : ∀ p ∈ planned library contents, p.2.isEmpty = false →
      ∃ e ∈ contents, (e.1, planSourcePreaggregation library e.1 e.2) = p ∧
        ∃ a, e.2.declares library a := by
    intro p inP filled
    obtain ⟨e, member, rfl⟩ := List.mem_map.mp inP
    exact ⟨e, member, rfl,
      (plannable.source member).declares_of_ne_nil (List.isEmpty_eq_false_iff.mp filled)⟩
  intro p q inP inQ less greater
  obtain ⟨inP, filledP⟩ := List.mem_filter.mp inP
  obtain ⟨inQ, filledQ⟩ := List.mem_filter.mp inQ
  rw [Bool.not_eq_true'] at filledP filledQ
  obtain ⟨e, member, rfl, a, first⟩ :=
    exists_entry p (perm.mem_iff.mpr ((List.mem_insertionSort _).mp inP)) filledP
  obtain ⟨e', member', rfl, b, second⟩ :=
    exists_entry q ((List.mem_insertionSort _).mp inQ) filledQ
  have names := tieFree.sources e member e' member' a b first second ⟨less, greater⟩
  rw [List.inj_on_of_nodup_map plannable.named member member' names]

/-! ## A model that is planned in one way -/

/-- The rollups of a source among those of its model. -/
theorem filter_planModelPreaggregation
    (named : (contents.map Prod.fst).Nodup) {e : String × SourceDef} (member : e ∈ contents) :
    (planModelPreaggregation library contents).filter (fun plan => plan.baseSourceName = e.1) =
      planSourcePreaggregation library e.1 e.2 := by
  have perm := List.perm_insertionSort
    (fun a b : String × SourceDef => library.localeLE a.1 b.1 = true) contents
  have distinct := (perm.map Prod.fst).nodup_iff.mpr named
  obtain ⟨before, after, split⟩ := List.append_of_mem (perm.mem_iff.mpr member)
  have others : ∀ o ∈ before ++ after, (planSourcePreaggregation library o.1 o.2).filter
      (fun plan => plan.baseSourceName = e.1) = [] := by
    intro o inside
    rw [split, List.map_append, List.map_cons, List.nodup_middle, List.nodup_cons,
      ← List.map_append] at distinct
    refine List.filter_eq_nil_iff.mpr fun plan planned same => distinct.1 ?_
    rw [← of_decide_eq_true same, (names_of_plan planned).1]
    exact List.mem_map_of_mem inside
  have own : (planSourcePreaggregation library e.1 e.2).filter
      (fun plan => plan.baseSourceName = e.1) = planSourcePreaggregation library e.1 e.2 :=
    List.filter_eq_self.mpr fun plan planned => decide_eq_true (names_of_plan planned).1
  unfold planModelPreaggregation
  rw [split, List.filter_flatMap, List.flatMap_append, List.flatMap_cons, own,
    List.flatMap_eq_nil_iff.mpr fun o inside => others o (List.mem_append_left _ inside),
    List.flatMap_eq_nil_iff.mpr fun o inside => others o (List.mem_append_right _ inside),
    List.append_nil, List.nil_append]

theorem nodup_planModelPreaggregation (named : (contents.map Prod.fst).Nodup) :
    (planModelPreaggregation library contents).Nodup := by
  have perm := List.perm_insertionSort
    (fun a b : String × SourceDef => library.localeLE a.1 b.1 = true) contents
  unfold planModelPreaggregation
  refine List.nodup_flatMap.mpr ⟨fun e _ => List.Nodup.of_map _ nodup_grainKey_plans, ?_⟩
  refine (List.pairwise_map.mp ((perm.map Prod.fst).nodup_iff.mpr named)).imp ?_
  intro e e' apart plan planned planned'
  exact apart ((names_of_plan planned).1.symm.trans (names_of_plan planned').1)

theorem forall₂_refl (contents : List (String × SourceDef)) :
    List.Forall₂ (fun e e' : String × SourceDef => e'.1 = e.1 ∧ e.2.Reordered e'.2)
      contents contents :=
  List.forall₂_same.mpr fun e _ => ⟨rfl, SourceDef.Reordered.refl e.2⟩

theorem Reordered.of_perm (perm : contents.Perm other) : Reordered contents other :=
  ⟨other, perm, forall₂_refl other⟩

/-- Any source can be put in another order. -/
theorem exists_reordered_source {e : String × SourceDef} (member : e ∈ contents)
    {source : SourceDef} (reordered : e.2.Reordered source) :
    ∃ other, Reordered contents other ∧ (e.1, source) ∈ other ∧
      other.map Prod.fst = contents.map Prod.fst := by
  obtain ⟨before, after, rfl⟩ := List.append_of_mem member
  refine ⟨before ++ (e.1, source) :: after, ⟨_, List.Perm.refl _, ?_⟩, by simp, by simp⟩
  exact List.rel_append (forall₂_refl before) (.cons ⟨rfl, reordered⟩ (forall₂_refl after))

/-- Of two sources either can stand first. -/
theorem exists_perm_pair {α : Type*} {l : List α} {x y : α} (inX : x ∈ l) (inY : y ∈ l)
    (apart : x ≠ y) : ∃ rest, l.Perm (x :: y :: rest) := by
  obtain ⟨before, after, rfl⟩ := List.append_of_mem inX
  have member : y ∈ before ++ after := by
    rcases List.mem_append.mp inY with earlier | later
    · exact List.mem_append_left _ earlier
    · exact List.mem_append_right _ ((List.mem_cons.mp later).resolve_left (Ne.symm apart))
  obtain ⟨first, second, split⟩ := List.append_of_mem member
  refine ⟨first ++ second, List.perm_middle.trans (.cons x ?_)⟩
  rw [split]
  exact List.perm_middle

/-- A source that stands before one it ties with has its rollups before the other's. -/
theorem pair_sublist_planModelPreaggregation {e e' : String × SourceDef}
    (rest : List (String × SourceDef)) (tie : library.localeLE e.1 e'.1 = true)
    {p q : RollupPlan} (planned : p ∈ planSourcePreaggregation library e.1 e.2)
    (planned' : q ∈ planSourcePreaggregation library e'.1 e'.2) :
    [p, q].Sublist (planModelPreaggregation library (e :: e' :: rest)) := by
  have front : [e, e'].Sublist (e :: e' :: rest) := by simp
  have sorted := List.pair_sublist_insertionSort
    (r := fun a b : String × SourceDef => library.localeLE a.1 b.1 = true) tie front
  refine List.Sublist.trans ?_
    (sorted.flatMap fun e => planSourcePreaggregation library e.1 e.2)
  rw [List.flatMap_cons, List.flatMap_cons, List.flatMap_nil, List.append_nil,
    ← List.singleton_append]
  exact (List.singleton_sublist.mpr planned).append (List.singleton_sublist.mpr planned')

/-- A model that is planned in one way has no ties. -/
theorem PlannableModel.tieFree_of_reordered (plannable : PlannableModel library contents)
    (lawful : library.Lawful)
    (one : ∀ other, Reordered contents other → planModelPreaggregation library other =
      planModelPreaggregation library contents) : ModelTieFree library contents := by
  constructor
  · intro e member e' member' a b first second tie
    by_contra apart
    obtain ⟨p, planned, -⟩ :=
      List.mem_map.mp ((plannable.source member).mem_grains_plans.mpr first)
    obtain ⟨q, planned', -⟩ :=
      List.mem_map.mp ((plannable.source member').mem_grains_plans.mpr second)
    have different : e ≠ e' := fun same => apart (congrArg Prod.fst same)
    obtain ⟨rest, perm⟩ := exists_perm_pair member member' different
    obtain ⟨rest', perm'⟩ := exists_perm_pair member' member different.symm
    have before := pair_sublist_planModelPreaggregation rest tie.1 planned planned'
    have after := pair_sublist_planModelPreaggregation rest' tie.2 planned' planned
    rw [one _ (Reordered.of_perm perm)] at before
    rw [one _ (Reordered.of_perm perm')] at after
    have once : (planModelPreaggregation library _).Nodup :=
      nodup_planModelPreaggregation plannable.named
    have same := (leads_of_sublist once before).antisymm (leads_of_sublist once after)
    refine apart ?_
    rw [← (names_of_plan planned).1, ← (names_of_plan planned').1, same]
  · intro e member
    refine (plannable.source member).tieFree_of_reordered lawful fun source reordered => ?_
    obtain ⟨other, another, inside, names⟩ := exists_reordered_source member reordered
    have named : (other.map Prod.fst).Nodup := by
      rw [names]
      exact plannable.named
    rw [← filter_planModelPreaggregation named inside, one other another,
      filter_planModelPreaggregation plannable.named member]

/-- The models that are planned in one way are those without ties. -/
theorem PlannableModel.planModelPreaggregation_reordered_iff
    (plannable : PlannableModel library contents) (lawful : library.Lawful) :
    (∀ other, Reordered contents other → planModelPreaggregation library other =
      planModelPreaggregation library contents) ↔ ModelTieFree library contents :=
  ⟨plannable.tieFree_of_reordered lawful, fun tieFree _ reordered =>
    plannable.planModelPreaggregation_reordered lawful tieFree reordered⟩

end MalloyPublisher.Preaggregation
