import MalloyPublisher.Preaggregation.RollupOrder

/-!
# Planning a source in any order of its fields

A source is planned in one way, whatever the order of its fields, when no two measures of a rollup
have names that collation takes for equal, and no two fields bring up in two orders two grains
whose rollups it takes for equal.

## Main definitions

* `SourceDef.Reordered` — the same source with its fields in another order
* `TieFree` — nothing of a source is left to the order of its fields

## Main results

* `planSourcePreaggregation_reordered` — a source without ties is planned in one way
* `tieFree_of_reordered` — a source that is planned in one way has no ties
-/

namespace MalloyPublisher.Preaggregation

open Foundations

variable {library : Library} {name : String} {source other : SourceDef}

/-- The same source with its fields in another order. -/
structure SourceDef.Reordered (source other : SourceDef) : Prop where
  annotations : other.annotations = source.annotations
  tag : other.tag = source.tag
  fields : source.fields.Perm other.fields

/-- Whether nothing of a source's rollups is left to the order of its fields. -/
structure TieFree (library : Library) (name : String) (source : SourceDef) : Prop where
  measures : ∀ f ∈ source.fields, ∀ g ∈ source.fields, ∀ a ∈ f.grainList library,
    a ∈ g.grainList library → library.Tie f.fieldName g.fieldName → f.fieldName = g.fieldName
  grains : ∀ f ∈ source.fields, ∀ g ∈ source.fields, ∀ a b, a.length = b.length →
    library.Tie (rollupSourceName library name a) (rollupSourceName library name b) →
      Leads (f.grainList library) a b → Leads (g.grainList library) b a → a = b

/-! ## What is brought in another order -/

section Reordered

variable (named : (source.fields.map FieldDef.fieldName).Nodup) (reordered : source.Reordered other)

include named reordered

/-- A field brings the same in any order. -/
theorem SourceDef.Reordered.fieldContributions_eq (f : FieldDef) :
    fieldContributions library other f = fieldContributions library source f := by
  have hidden : isHidden other = isHidden source := by
    funext dimension
    unfold isHidden SourceDef.fieldNamed
    rw [find?_perm reordered.fields named]
  unfold fieldContributions
  rw [hidden]

theorem SourceDef.Reordered.contributions_eq : contributions library other =
    other.fields.flatMap (fieldContributions library source) :=
  List.flatMap_congr fun f _ => reordered.fieldContributions_eq named f

theorem SourceDef.Reordered.contributions_perm :
    (contributions library source).Perm (contributions library other) := by
  rw [reordered.contributions_eq named]
  exact reordered.fields.flatMap_right _

end Reordered

theorem SourceDef.Reordered.basePersistNamespace_eq (reordered : source.Reordered other) :
    basePersistNamespace other = basePersistNamespace source := by
  unfold basePersistNamespace
  rw [reordered.annotations, reordered.tag]

/-! ## A source without ties -/

section Plannable

variable (plannable : PlannableSource library name source) (reordered : source.Reordered other)

include plannable reordered

omit reordered in
/-- What is brought to a key is declared at one grain. -/
theorem PlannableSource.exists_grain {key : String} {first : Contribution}
    (member : first ∈ valuesOf (contributions library source) key) :
    key = grainKey first.grain.dimensions ∧
      source.declares library first.grain.dimensions := by
  obtain ⟨f, field, last, -⟩ :=
    (mem_contributions plannable.accepted).mp (mem_valuesOf.mp member)
  obtain ⟨_, -, -, keys⟩ := exists_line_of_lastGrain last
  subst keys
  exact ⟨rfl, f, field, mem_grainList.mpr ⟨first.grain, last, rfl⟩⟩

omit reordered in
/-- Measures of one rollup whose names collation takes for equal are one measure. -/
theorem PlannableSource.measure_eq_of_tie (tieFree : TieFree library name source) {key : String}
    {c d : Contribution} (inC : c ∈ valuesOf (contributions library source) key)
    (inD : d ∈ valuesOf (contributions library source) key)
    (tie : library.Tie c.measure.name d.measure.name) : c = d := by
  obtain ⟨rfl, declared⟩ := plannable.exists_grain inC
  obtain ⟨-, f, field, last, -, named, -⟩ := (plannable.declared_at declared).mp inC
  obtain ⟨grain, g, field', last', -, named', -⟩ := (plannable.declared_at declared).mp inD
  have names : c.measure.name = d.measure.name := by
    rw [named, named'] at tie ⊢
    exact tieFree.measures f field g field' c.grain.dimensions
      (mem_grainList.mpr ⟨c.grain, last, rfl⟩) (mem_grainList.mpr ⟨d.grain, last', grain⟩) tie
  exact List.inj_on_of_nodup_map (plannable.named.sublist (names_valuesOf_sublist _)) inC inD names

/-- A place that is asked for at a grain is found in any order. -/
theorem PlannableSource.place_reordered {place : PreaggregateGrain → Option String}
    (short : ∀ entry ∈ placesByGrain library source place, entry.2.length < 2) (key : String) :
    ((valuesOf (contributions library other) key).findSome? fun c => place c.grain) =
      (valuesOf (contributions library source) key).findSome? fun c => place c.grain := by
  refine findSome?_perm (valuesOf_perm (reordered.contributions_perm plannable.named) key) ?_
  intro c member asked named
  obtain ⟨f, field, last, -⟩ :=
    (mem_contributions plannable.accepted).mp (mem_valuesOf.mp member)
  exact (findSome_place_eq_some plannable.accepted short).mpr ⟨f, field, c.grain, last, named⟩

/-- What is declared at a grain makes the same rollup in any order. -/
theorem PlannableSource.planOf_reordered (lawful : library.Lawful)
    (tieFree : TieFree library name source) {key : String} {first second : Contribution}
    (head : first ∈ valuesOf (contributions library source) key)
    (head' : second ∈ valuesOf (contributions library other) key) :
    planOf library name other second (valuesOf (contributions library other) key) =
      planOf library name source first (valuesOf (contributions library source) key) := by
  have brings : (contributions library source).Perm (contributions library other) :=
    reordered.contributions_perm plannable.named
  have perm := valuesOf_perm brings key
  obtain ⟨keys, declared⟩ := plannable.exists_grain head
  have grain : second.grain.dimensions = first.grain.dimensions := by
    have inside := perm.mem_iff.mpr head'
    rw [keys] at inside
    exact ((plannable.declared_at declared).mp inside).1
  have measures : ((valuesOf (contributions library other) key).map
        Contribution.measure).insertionSort (fun a b => library.localeLE a.name b.name) =
      ((valuesOf (contributions library source) key).map
        Contribution.measure).insertionSort fun a b => library.localeLE a.name b.name := by
    obtain ⟨total, trans⟩ := lawful.preorder_on RollupMeasure.name
    refine List.Perm.eq_of_pairwise ?_ (List.pairwise_insertionSort _ _)
      (List.pairwise_insertionSort _ _)
      (((List.perm_insertionSort _ _).trans (perm.symm.map _)).trans
        (List.perm_insertionSort _ _).symm)
    intro p q inP inQ less greater
    obtain ⟨c, inC, rfl⟩ := List.mem_map.mp ((List.mem_insertionSort _).mp inP)
    obtain ⟨d, inD, rfl⟩ := List.mem_map.mp ((List.mem_insertionSort _).mp inQ)
    rw [plannable.measure_eq_of_tie tieFree (perm.mem_iff.mpr inC) inD ⟨less, greater⟩]
  unfold planOf
  rw [grain, measures, reordered.basePersistNamespace_eq,
    plannable.place_reordered reordered (namespace_short plannable.accepted),
    plannable.place_reordered reordered (storage_short plannable.accepted)]

/-- The rollups are the same in any order, but for their own order. -/
theorem PlannableSource.plans_perm (lawful : library.Lawful)
    (tieFree : TieFree library name source) :
    (gatheredPlans library name source).Perm (gatheredPlans library name other) := by
  have once : ∀ s : SourceDef, (gatheredPlans library name s).Nodup := fun s =>
    (((List.perm_insertionSort _ _).nodup_iff).mp (List.Nodup.of_map _ nodup_grainKey_plans))
  refine (List.perm_ext_iff_of_nodup (once _) (once _)).mpr fun plan => ?_
  have planned : ∀ s : SourceDef, plan ∈ gatheredPlans library name s ↔
      plan ∈ planSourcePreaggregation library name s := fun s =>
    (List.mem_insertionSort _).symm
  rw [planned, planned, mem_planSourcePreaggregation, mem_planSourcePreaggregation]
  refine exists_congr fun key => ?_
  have brings : (contributions library source).Perm (contributions library other) :=
    reordered.contributions_perm plannable.named
  have perm := valuesOf_perm brings key
  constructor
  · rintro ⟨first, head, rfl⟩
    have inside := List.mem_of_mem_head? head
    obtain ⟨second, rest, values⟩ :=
      List.exists_cons_of_ne_nil (List.ne_nil_of_mem (perm.mem_iff.mp inside))
    refine ⟨second, by rw [values]; rfl, ?_⟩
    refine (plannable.planOf_reordered reordered lawful tieFree inside ?_).symm
    rw [values]
    exact List.mem_cons_self
  · rintro ⟨second, head, rfl⟩
    have inside := List.mem_of_mem_head? head
    obtain ⟨first, rest, values⟩ :=
      List.exists_cons_of_ne_nil (List.ne_nil_of_mem (perm.mem_iff.mpr inside))
    refine ⟨first, by rw [values]; rfl, ?_⟩
    refine plannable.planOf_reordered reordered lawful tieFree ?_ inside
    rw [values]
    exact List.mem_cons_self

omit reordered in
/-- Grains that are declared on a source have distinct keys, in any order. -/
theorem PlannableSource.grain_eq_of_key {brought : String × Contribution} {a : List String}
    (member : brought ∈ contributions library source) (declared : source.declares library a)
    (keys : grainKey brought.2.grain.dimensions = grainKey a) :
    brought.2.grain.dimensions = a :=
  plannable.apart _ _ (plannable.exists_grain (mem_valuesOf.mpr member)).2 declared keys

/-- Grains whose rollups tie are brought up alike in any order. -/
theorem PlannableSource.leads_reordered (tieFree : TieFree library name source)
    {a b : List String} (same : a.length = b.length)
    (tie : library.Tie (rollupSourceName library name a) (rollupSourceName library name b))
    (leads : Leads ((contributions library source).map fun brought =>
      brought.2.grain.dimensions) a b) :
    Leads ((contributions library other).map fun brought => brought.2.grain.dimensions) a b := by
  have blocks : ((contributions library other).map fun brought => brought.2.grain.dimensions) =
      other.fields.flatMap (FieldDef.grainList library) := by
    rw [reordered.contributions_eq plannable.named, List.map_flatMap]
    exact List.flatMap_congr fun f member =>
      plannable.map_fieldContributions (reordered.fields.mem_iff.mpr member)
  have brings : (contributions library source).Perm (contributions library other) :=
    reordered.contributions_perm plannable.named
  have perm := brings.map fun brought => brought.2.grain.dimensions
  rcases leads_or_leads (y := b) (perm.mem_iff.mp leads.mem) with alike | otherwise
  · exact alike
  · -- One field brings up `a` first and one brings up `b` first.
    rw [plannable.map_contributions] at leads
    rw [blocks] at otherwise
    obtain ⟨f, field, first⟩ := exists_leads_of_flatMap leads
    obtain ⟨g, field', second⟩ := exists_leads_of_flatMap otherwise
    have equal := tieFree.grains f field g (reordered.fields.mem_iff.mpr field') a b same tie first
      second
    rw [blocks]
    rw [equal] at otherwise ⊢
    exact otherwise

/-- A source without ties is planned in one way. -/
theorem PlannableSource.planSourcePreaggregation_reordered (lawful : library.Lawful)
    (tieFree : TieFree library name source) :
    planSourcePreaggregation library name other = planSourcePreaggregation library name source := by
  have total := lawful.compareRollupBreadth_total
  have trans := lawful.compareRollupBreadth_trans
  have perm := plannable.plans_perm reordered lawful tieFree
  have brings : (contributions library source).Perm (contributions library other) :=
    reordered.contributions_perm plannable.named
  have once : (gatheredPlans library name source).Nodup :=
    ((List.perm_insertionSort _ _).nodup_iff).mp (List.Nodup.of_map _ nodup_grainKey_plans)
  rw [planSourcePreaggregation_eq, planSourcePreaggregation_eq]
  refine (insertionSort_eq_of_leads perm once fun p inP q inQ less greater leads => ?_).symm
  obtain ⟨same, tie⟩ := tie_of_compareRollupBreadth less greater
  rw [(names_of_plan ((List.mem_insertionSort _).mpr inP)).2.1,
    (names_of_plan ((List.mem_insertionSort _).mpr inQ)).2.1] at tie
  have declared : ∀ p ∈ gatheredPlans library name source,
      source.declares library p.grainDimensions := fun p inP =>
    plannable.mem_grains_plans.mp (List.mem_map_of_mem ((List.mem_insertionSort _).mpr inP))
  have apart : ∀ p ∈ gatheredPlans library name source, ∀ brought ∈ contributions library source,
      grainKey brought.2.grain.dimensions = grainKey p.grainDimensions →
        brought.2.grain.dimensions = p.grainDimensions := fun p inP brought member keys =>
    plannable.grain_eq_of_key member (declared p inP) keys
  rw [leads_iff_leads_grains inP inQ, leads_gatheredPlans (apart p inP) (apart q inQ)] at leads
  rw [leads_iff_leads_grains (perm.mem_iff.mp inP) (perm.mem_iff.mp inQ), leads_gatheredPlans
    (fun brought member => apart p inP brought (brings.mem_iff.mpr member))
    (fun brought member => apart q inQ brought (brings.mem_iff.mpr member))]
  exact plannable.leads_reordered reordered tieFree same tie leads

end Plannable

/-! ## A source that is planned in one way -/

/-- Any field can stand first. -/
theorem exists_reordered_first {f : FieldDef} (member : f ∈ source.fields) :
    ∃ rest, source.Reordered { source with fields := f :: rest } := by
  obtain ⟨before, after, split⟩ := List.append_of_mem member
  refine ⟨before ++ after, rfl, rfl, ?_⟩
  rw [split]
  exact List.perm_middle

section OneWay

variable (plannable : PlannableSource library name source) (lawful : library.Lawful)
  {f : FieldDef} (field : f ∈ source.fields) {rest : List FieldDef}
  (reordered : source.Reordered { source with fields := f :: rest })

include plannable lawful field reordered

/-- With its field first, a measure leads those it ties with. -/
theorem PlannableSource.leads_names_first {plan : RollupPlan}
    (planned : plan ∈ planSourcePreaggregation library name { source with fields := f :: rest })
    (listed : plan.grainDimensions ∈ f.grainList library) {m : String}
    (tie : library.Tie f.fieldName m) :
    Leads (plan.measures.map RollupMeasure.name) f.fieldName m := by
  rw [leads_names lawful planned tie, reordered.contributions_eq plannable.named,
    List.flatMap_cons, valuesOf_append, List.map_append]
  refine Leads.append ?_
  rw [← plannable.map_fieldContributions field] at listed
  obtain ⟨brought, member, grain⟩ := List.mem_map.mp listed
  obtain ⟨-, -, -, -, -, -, -, -, -, key⟩ := mem_fieldContributions.mp member
  have inside : brought.2 ∈ valuesOf (fieldContributions library source f)
      (grainKey plan.grainDimensions) := by
    rw [mem_valuesOf, ← grain, ← key]
    exact member
  have alone : (valuesOf (fieldContributions library source f)
      (grainKey plan.grainDimensions)).map (fun c => c.measure.name) = [f.fieldName] := by
    rcases List.sublist_singleton.mp (names_fieldContributions_sublist f
      (grainKey plan.grainDimensions)) with none | one
    · rw [List.map_eq_nil_iff.mp none] at inside
      cases inside
    · exact one
  rw [alone]
  simp [Leads, isEither]

/-- With its field first, a grain leads those it ties with and leads in the field. -/
theorem PlannableSource.leads_plans_first {a b : List String} (same : a.length = b.length)
    (tie : library.Tie (rollupSourceName library name a) (rollupSourceName library name b))
    (leads : Leads (f.grainList library) a b) (second : source.declares library b) :
    Leads ((planSourcePreaggregation library name { source with fields := f :: rest }).map
      RollupPlan.grainDimensions) a b := by
  have brings : (contributions library source).Perm
      (contributions library { source with fields := f :: rest }) :=
    reordered.contributions_perm plannable.named
  rw [leads_plans lawful same tie
    (fun brought member => plannable.grain_eq_of_key (brings.mem_iff.mpr member)
      ⟨f, field, leads.mem⟩)
    (fun brought member => plannable.grain_eq_of_key (brings.mem_iff.mpr member) second),
    reordered.contributions_eq plannable.named, List.flatMap_cons, List.map_append]
  refine Leads.append ?_
  rw [plannable.map_fieldContributions field]
  exact leads

end OneWay

/-- A source that is planned in one way has no ties. -/
theorem PlannableSource.tieFree_of_reordered (plannable : PlannableSource library name source)
    (lawful : library.Lawful)
    (one : ∀ other, source.Reordered other → planSourcePreaggregation library name other =
      planSourcePreaggregation library name source) : TieFree library name source := by
  constructor
  · intro f field g field' a inF inG tie
    obtain ⟨plan, planned, rfl⟩ := List.mem_map.mp (plannable.mem_grains_plans.mpr ⟨f, field, inF⟩)
    obtain ⟨rest, first⟩ := exists_reordered_first field
    obtain ⟨rest', second⟩ := exists_reordered_first field'
    have leads := plannable.leads_names_first lawful field first
      (by rw [one _ first]; exact planned) inF tie
    have leads' := plannable.leads_names_first lawful field' second
      (by rw [one _ second]; exact planned) inG tie.symm
    exact leads.antisymm leads'
  · intro f field g field' a b same tie leads leads'
    obtain ⟨rest, first⟩ := exists_reordered_first field
    obtain ⟨rest', second⟩ := exists_reordered_first field'
    have before := plannable.leads_plans_first lawful field first same tie leads
      ⟨g, field', leads'.mem⟩
    have after := plannable.leads_plans_first lawful field' second same.symm tie.symm leads'
      ⟨f, field, leads.mem⟩
    rw [one _ first] at before
    rw [one _ second] at after
    exact before.antisymm after

end MalloyPublisher.Preaggregation
