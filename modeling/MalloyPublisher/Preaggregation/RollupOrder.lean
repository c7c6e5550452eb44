import MalloyPublisher.Foundations.StableOrder
import MalloyPublisher.Preaggregation.AcceptedPlans

/-!
# The order of rollups

The rollups of an accepted source are told by the grains its measures declare. They are sorted
by their names, and their measures by theirs, in the runtime's collation; what it takes for equal
stays in the order in which the fields bring it up.

## Main definitions

* `FieldDef.grainList` — the grains a field declares
* `PlannableSource` — an accepted source whose names and grains are told apart

## Main results

* `mem_grains_plans`, `mem_names_plan` — the rollups and what they list
* `leads_plans`, `leads_names` — what ties keeps the order of the fields
-/

namespace MalloyPublisher.Preaggregation

open Foundations

/-! ## The runtime's own functions -/

/-- What the runtime's collation and its digest, cut to eight digits, are documented to be. -/
structure Library.Lawful (library : Library) : Prop where
  total : ∀ a b, library.localeLE a b = true ∨ library.localeLE b a = true
  trans : ∀ a b c, library.localeLE a b = true → library.localeLE b c = true →
    library.localeLE a c = true
  short : ∀ text, (library.digest text).toList.length = 8
  hex : ∀ text, ∀ c ∈ (library.digest text).toList, c ∈ "0123456789abcdef".toList

variable {library : Library} {name : String} {source : SourceDef}

/-- Whether collation takes two texts for equal. -/
def Library.Tie (library : Library) (a b : String) : Prop :=
  library.localeLE a b = true ∧ library.localeLE b a = true

theorem Library.Lawful.refl (lawful : library.Lawful) (a : String) :
    library.localeLE a a = true :=
  (lawful.total a a).elim id id

/-- Sorting by collated names is sorting by a total preorder. -/
theorem Library.Lawful.preorder_on {α : Type*} (lawful : library.Lawful) (f : α → String) :
    Std.Total (fun a b : α => library.localeLE (f a) (f b) = true) ∧
      IsTrans α (fun a b : α => library.localeLE (f a) (f b) = true) :=
  ⟨⟨fun a b => lawful.total (f a) (f b)⟩,
    ⟨fun a b c => lawful.trans (f a) (f b) (f c)⟩⟩

theorem compareRollupBreadth_iff {a b : RollupPlan} :
    compareRollupBreadth library a b = true ↔
      a.grainDimensions.length < b.grainDimensions.length ∨
        a.grainDimensions.length = b.grainDimensions.length ∧
          library.localeLE a.rollupSourceName b.rollupSourceName = true := by
  simp [compareRollupBreadth]

/-- Rollups that tie are equally broad, and collation takes their names for equal. -/
theorem tie_of_compareRollupBreadth {a b : RollupPlan}
    (less : compareRollupBreadth library a b = true)
    (greater : compareRollupBreadth library b a = true) :
    a.grainDimensions.length = b.grainDimensions.length ∧
      library.Tie a.rollupSourceName b.rollupSourceName := by
  rw [compareRollupBreadth_iff] at less greater
  rcases less with less | ⟨same, before⟩ <;> rcases greater with greater | ⟨same', after⟩
  · omega
  · omega
  · omega
  · exact ⟨same, before, after⟩

theorem Library.Lawful.compareRollupBreadth_total (lawful : library.Lawful) :
    Std.Total (fun a b : RollupPlan => compareRollupBreadth library a b = true) := by
  refine ⟨fun a b => ?_⟩
  simp only [compareRollupBreadth_iff]
  rcases Nat.lt_trichotomy a.grainDimensions.length b.grainDimensions.length with
    less | same | greater
  · exact .inl (.inl less)
  · rcases lawful.total a.rollupSourceName b.rollupSourceName with first | second
    · exact .inl (.inr ⟨same, first⟩)
    · exact .inr (.inr ⟨same.symm, second⟩)
  · exact .inr (.inl greater)

theorem Library.Lawful.compareRollupBreadth_trans (lawful : library.Lawful) :
    IsTrans RollupPlan (fun a b => compareRollupBreadth library a b = true) := by
  refine ⟨fun a b c first second => ?_⟩
  simp only [compareRollupBreadth_iff] at first second ⊢
  rcases first with less | ⟨same, before⟩ <;> rcases second with less' | ⟨same', before'⟩
  · exact .inl (less.trans less')
  · exact .inl (same' ▸ less)
  · exact .inl (same ▸ less')
  · exact .inr ⟨same.trans same', lawful.trans _ _ _ before before'⟩

/-! ## The grains of a field -/

/-- The grains a field declares. -/
def FieldDef.grainList (library : Library) (f : FieldDef) : List (List String) :=
  (declarationOf library f).grains.map PreaggregateGrain.dimensions

/-- Whether a grain is declared on a source. -/
def SourceDef.declares (library : Library) (source : SourceDef) (a : List String) : Prop :=
  ∃ f ∈ source.fields, a ∈ f.grainList library

theorem mem_grainList {f : FieldDef} {a : List String} :
    a ∈ f.grainList library ↔ ∃ grain, f.lastGrain (grainKey a) = some grain ∧
      grain.dimensions = a := by
  unfold FieldDef.grainList
  rw [List.mem_map]
  constructor
  · rintro ⟨grain, member, rfl⟩
    exact ⟨grain, mem_grains_iff.mp member, rfl⟩
  · rintro ⟨grain, last, rfl⟩
    exact ⟨grain, mem_grains_iff.mpr last, rfl⟩

/-- A field that declares nothing has no grains. -/
theorem declared_of_mem_grainList {f : FieldDef} {a : List String}
    (member : a ∈ f.grainList library) : (declarationOf library f).declared = true := by
  obtain ⟨grain, last, -⟩ := mem_grainList.mp member
  obtain ⟨line, inside, -⟩ := exists_line_of_lastGrain last
  exact declared_of_mem inside

/-! ## What an accepted field brings -/

/-- An accepted source whose fields have distinct names and whose grains have distinct keys. -/
structure PlannableSource (library : Library) (name : String) (source : SourceDef) : Prop where
  accepted : validateSourcePreaggregation library name source = []
  named : (source.fields.map FieldDef.fieldName).Nodup
  apart : ∀ a b, source.declares library a → source.declares library b →
    grainKey a = grainKey b → a = b

/-- What a field brings stands under the keys of its grains. -/
theorem keys_fieldContributions_sublist (f : FieldDef) :
    ((fieldContributions library source f).map Prod.fst).Sublist
      ((declarationOf library f).grains.map fun grain => grainKey grain.dimensions) := by
  unfold fieldContributions
  cases f.reaggregate with
  | none => simp
  | some merge =>
    simp only
    split_ifs
    · exact List.nil_sublist _
    · rw [List.map_map]
      exact List.filter_sublist.map _

/-- What a field brings to one key is at most its own measure. -/
theorem names_fieldContributions_sublist (f : FieldDef) (key : String) :
    ((valuesOf (fieldContributions library source f) key).map fun c => c.measure.name).Sublist
      [f.fieldName] := by
  have distinct : ((fieldContributions library source f).map Prod.fst).Nodup :=
    nodup_grainKeys.sublist (keys_fieldContributions_sublist f)
  have few := length_valuesOf_le_one distinct key
  have named : ∀ c ∈ valuesOf (fieldContributions library source f) key,
      c.measure.name = f.fieldName := fun c member =>
    (mem_fieldContributions.mp (mem_valuesOf.mp member)).2.2.2.2.1
  match brought : valuesOf (fieldContributions library source f) key, few with
  | [], _ => exact List.nil_sublist _
  | [c], _ =>
    rw [List.map_singleton, named c (by rw [brought]; exact List.mem_singleton_self c)]
  | _ :: _ :: rest, few => exact absurd few (by simp)

/-- The measures of a rollup stand in the order of the fields. -/
theorem names_valuesOf_sublist (key : String) :
    ((valuesOf (contributions library source) key).map fun c => c.measure.name).Sublist
      (source.fields.map FieldDef.fieldName) := by
  unfold contributions
  induction source.fields with
  | nil => exact List.nil_sublist _
  | cons f fields ih =>
    rw [List.flatMap_cons, valuesOf_append, List.map_append, List.map_cons,
      ← List.singleton_append]
    exact (names_fieldContributions_sublist f key).append ih

/-! ## What the rollups are -/

/-- The rollups of a source before they are sorted. -/
def gatheredPlans (library : Library) (name : String) (source : SourceDef) : List RollupPlan :=
  (gather startEntry GrainEntry.add (contributions library source)).map fun entry =>
    entry.2.plan library name source

theorem planSourcePreaggregation_eq : planSourcePreaggregation library name source =
    (gatheredPlans library name source).insertionSort fun a b => compareRollupBreadth library a b :=
  rfl

/-- A rollup is planned from what is brought to the key of its grain. -/
theorem exists_planOf {plan : RollupPlan}
    (planned : plan ∈ planSourcePreaggregation library name source) :
    ∃ first, (valuesOf (contributions library source) (grainKey plan.grainDimensions)).head? =
        some first ∧ plan.grainDimensions = first.grain.dimensions ∧
      plan = planOf library name source first
        (valuesOf (contributions library source) (grainKey plan.grainDimensions)) := by
  obtain ⟨key, first, head, rfl⟩ := mem_planSourcePreaggregation.mp planned
  have keys : grainKey first.grain.dimensions = key := grainKey_of_head head
  subst keys
  exact ⟨first, head, rfl, rfl⟩

theorem measures_of_plan {plan : RollupPlan}
    (planned : plan ∈ planSourcePreaggregation library name source) :
    plan.measures = ((valuesOf (contributions library source)
      (grainKey plan.grainDimensions)).map Contribution.measure).insertionSort
        fun a b => library.localeLE a.name b.name := by
  obtain ⟨first, -, -, shape⟩ := exists_planOf planned
  exact congrArg RollupPlan.measures shape

/-- A rollup is named for its source and its grain. -/
theorem names_of_plan {plan : RollupPlan}
    (planned : plan ∈ planSourcePreaggregation library name source) :
    plan.baseSourceName = name ∧
      plan.rollupSourceName = rollupSourceName library name plan.grainDimensions ∧
        ∀ m ∈ plan.measures, m.partialName = m.name ++ PARTIAL_SUFFIX := by
  obtain ⟨key, first, -, rfl⟩ := mem_planSourcePreaggregation.mp planned
  refine ⟨rfl, rfl, fun m member => ?_⟩
  obtain ⟨c, inside, rfl⟩ := List.mem_map.mp ((List.mem_insertionSort _).mp member)
  obtain ⟨f, -, brought⟩ := List.mem_flatMap.mp (mem_valuesOf.mp inside)
  obtain ⟨-, -, -, -, named, partialName, -⟩ := mem_fieldContributions.mp brought
  rw [named, partialName]

/-- The keys of the rollups come up as those of what is brought. -/
theorem keys_gatheredPlans :
    (gatheredPlans library name source).map (fun plan => grainKey plan.grainDimensions) =
      ((contributions library source).map Prod.fst).eraseDups := by
  rw [← keys_gather startEntry GrainEntry.add, gatheredPlans, List.map_map]
  refine List.map_congr_left fun entry member => ?_
  obtain ⟨first, head, gathered⟩ := (mem_gather _ _).mp member
  rw [Function.comp_apply, ← gathered, foldl_add]
  exact grainKey_of_head head

/-- The grain of a rollup is that of something brought to it. -/
theorem exists_contribution_of_gathered {plan : RollupPlan}
    (member : plan ∈ gatheredPlans library name source) :
    ∃ brought ∈ contributions library source,
      brought.2.grain.dimensions = plan.grainDimensions := by
  obtain ⟨first, head, grain, -⟩ := exists_planOf
    ((List.mem_insertionSort _).mpr member)
  exact ⟨_, mem_valuesOf.mp (List.mem_of_mem_head? head), grain.symm⟩

/-- The grains of the rollups come up as they are brought up. -/
theorem leads_gatheredPlans {a b : List String}
    (ofA : ∀ brought ∈ contributions library source,
      grainKey brought.2.grain.dimensions = grainKey a → brought.2.grain.dimensions = a)
    (ofB : ∀ brought ∈ contributions library source,
      grainKey brought.2.grain.dimensions = grainKey b → brought.2.grain.dimensions = b) :
    Leads ((gatheredPlans library name source).map RollupPlan.grainDimensions) a b ↔
      Leads ((contributions library source).map fun brought => brought.2.grain.dimensions) a b := by
  have keys : ((gatheredPlans library name source).map RollupPlan.grainDimensions).map grainKey =
      (((contributions library source).map fun brought =>
        brought.2.grain.dimensions).map grainKey).eraseDups := by
    rw [List.map_map, List.map_map]
    refine keys_gatheredPlans.trans (congrArg _ (List.map_congr_left fun brought member => ?_))
    obtain ⟨f, -, contributed⟩ := List.mem_flatMap.mp member
    obtain ⟨-, -, -, -, -, -, -, -, -, key⟩ := mem_fieldContributions.mp contributed
    exact key
  have gathered : ∀ c, (∀ brought ∈ contributions library source,
      grainKey brought.2.grain.dimensions = grainKey c → brought.2.grain.dimensions = c) →
        ∀ z ∈ (gatheredPlans library name source).map RollupPlan.grainDimensions,
          grainKey z = grainKey c → z = c := by
    intro c apart z member
    obtain ⟨plan, planned, rfl⟩ := List.mem_map.mp member
    obtain ⟨brought, inside, grain⟩ := exists_contribution_of_gathered planned
    rw [← grain]
    exact apart brought inside
  have brought : ∀ c, (∀ brought ∈ contributions library source,
      grainKey brought.2.grain.dimensions = grainKey c → brought.2.grain.dimensions = c) →
        ∀ z ∈ (contributions library source).map fun brought => brought.2.grain.dimensions,
          grainKey z = grainKey c → z = c := by
    intro c apart z member
    obtain ⟨one, inside, rfl⟩ := List.mem_map.mp member
    exact apart one inside
  -- Grains come up as their keys do, and the keys of the rollups as those of what is brought.
  rw [← leads_map (f := grainKey) (gathered a ofA) (gathered b ofB),
    ← leads_map (f := grainKey) (brought a ofA) (brought b ofB), keys, leads_eraseDups]

/-- Rollups that tie are offered in the order in which their grains are brought up. -/
theorem leads_plans (lawful : library.Lawful) {a b : List String} (same : a.length = b.length)
    (tie : library.Tie (rollupSourceName library name a) (rollupSourceName library name b))
    (ofA : ∀ brought ∈ contributions library source,
      grainKey brought.2.grain.dimensions = grainKey a → brought.2.grain.dimensions = a)
    (ofB : ∀ brought ∈ contributions library source,
      grainKey brought.2.grain.dimensions = grainKey b → brought.2.grain.dimensions = b) :
    Leads ((planSourcePreaggregation library name source).map RollupPlan.grainDimensions) a b ↔
      Leads ((contributions library source).map fun brought => brought.2.grain.dimensions) a b := by
  have named : ∀ plan ∈ gatheredPlans library name source,
      plan.rollupSourceName = rollupSourceName library name plan.grainDimensions :=
    fun plan member => (names_of_plan ((List.mem_insertionSort _).mpr member)).2.1
  have sorted : Leads ((planSourcePreaggregation library name source).map
      RollupPlan.grainDimensions) a b ↔
        Leads ((gatheredPlans library name source).map RollupPlan.grainDimensions) a b := by
    refine leads_map_insertionSort fun p inP q inQ isP isQ => ?_
    rw [compareRollupBreadth_iff, named p inP, named q inQ]
    rcases isP with isP | isP <;> rcases isQ with isQ | isQ <;> rw [isP, isQ]
    · exact .inr ⟨rfl, lawful.refl _⟩
    · exact .inr ⟨same, tie.1⟩
    · exact .inr ⟨same.symm, tie.2⟩
    · exact .inr ⟨rfl, lawful.refl _⟩
  rw [sorted]
  exact leads_gatheredPlans ofA ofB

/-- Measures that tie are listed in the order of the fields. -/
theorem leads_names (lawful : library.Lawful) {plan : RollupPlan}
    (planned : plan ∈ planSourcePreaggregation library name source) {m m' : String}
    (tie : library.Tie m m') :
    Leads (plan.measures.map RollupMeasure.name) m m' ↔
      Leads ((valuesOf (contributions library source) (grainKey plan.grainDimensions)).map
        fun c => c.measure.name) m m' := by
  rw [measures_of_plan planned, leads_map_insertionSort, List.map_map]
  · rfl
  · intro p _ q _ isP isQ
    rcases isP with rfl | rfl <;> rcases isQ with same | same <;> rw [same]
    · exact lawful.refl _
    · exact tie.1
    · exact tie.2
    · exact lawful.refl _

/-- A rollup comes up as its grain does. -/
theorem leads_iff_leads_grains {p q : RollupPlan} (inP : p ∈ gatheredPlans library name source)
    (inQ : q ∈ gatheredPlans library name source) :
    Leads (gatheredPlans library name source) p q ↔
      Leads ((gatheredPlans library name source).map RollupPlan.grainDimensions)
        p.grainDimensions q.grainDimensions := by
  have distinct : ((gatheredPlans library name source).map fun plan =>
      grainKey plan.grainDimensions).Nodup :=
    (((List.perm_insertionSort _ _).map _).nodup_iff).mp nodup_grainKey_plans
  have one : ∀ z ∈ gatheredPlans library name source, ∀ p ∈ gatheredPlans library name source,
      z.grainDimensions = p.grainDimensions → z = p := fun z inZ p inP same =>
    List.inj_on_of_nodup_map distinct inZ inP (congrArg grainKey same)
  exact (leads_map (fun z inZ => one z inZ p inP) fun z inZ => one z inZ q inQ).symm

section Plannable

variable (plannable : PlannableSource library name source)

include plannable

/-- An accepted field brings its measure to each of its grains. -/
theorem PlannableSource.map_fieldContributions {f : FieldDef} (member : f ∈ source.fields) :
    (fieldContributions library source f).map (fun brought => brought.2.grain.dimensions) =
      f.grainList library := by
  cases declared : (declarationOf library f).declared with
  | false =>
    have none : f.grainList library = [] := List.eq_nil_iff_forall_not_mem.mpr fun a inside => by
      rw [declared_of_mem_grainList inside] at declared
      cases declared
    rw [none]
    unfold fieldContributions
    simp [declared]
  | true =>
    have field := accepted_field plannable.accepted member declared
    obtain ⟨merge, additive⟩ := Option.isSome_iff_exists.mp field.additive
    have shown := (public_of_misplacement field.placed).1
    have all : ((declarationOf library f).grains.filter fun grain =>
        !grain.dimensions.isEmpty && !grain.dimensions.any (isHidden source)) =
          (declarationOf library f).grains := by
      refine List.filter_eq_self.mpr fun grain listed => ?_
      obtain ⟨filled, named⟩ := field.shown listed
      simp only [Bool.and_eq_true, Bool.not_eq_true', List.isEmpty_eq_false_iff, List.any_eq_false]
      exact ⟨filled, fun d inside => by simp [named d inside]⟩
    unfold fieldContributions
    simp only [declared, field.usable, shown, additive, all]
    simp [FieldDef.grainList]

/-- The grains of what is brought are those of the fields, in their order. -/
theorem PlannableSource.map_contributions :
    (contributions library source).map (fun brought => brought.2.grain.dimensions) =
      source.fields.flatMap (FieldDef.grainList library) := by
  unfold contributions
  rw [List.map_flatMap]
  exact List.flatMap_congr fun f member => plannable.map_fieldContributions member

/-- What is brought to the key of a grain is declared at the grain. -/
theorem PlannableSource.declared_at {a : List String} (declared : source.declares library a)
    {c : Contribution} :
    c ∈ valuesOf (contributions library source) (grainKey a) ↔
      c.grain.dimensions = a ∧ ∃ f ∈ source.fields, f.lastGrain (grainKey a) = some c.grain ∧
        f.reaggregate = some c.measure.reaggregate ∧ c.measure.name = f.fieldName ∧
          c.measure.partialName = f.fieldName ++ PARTIAL_SUFFIX := by
  rw [mem_valuesOf, mem_contributions plannable.accepted]
  refine (and_iff_right_of_imp ?_).symm
  rintro ⟨f, member, last, -⟩
  obtain ⟨_, -, -, keys⟩ := exists_line_of_lastGrain last
  exact plannable.apart _ _ ⟨f, member, mem_grainList.mpr ⟨c.grain, by rw [keys]; exact last, rfl⟩⟩
    declared keys

/-- A source has a rollup for each grain that is declared on it. -/
theorem PlannableSource.mem_grains_plans {a : List String} :
    a ∈ (planSourcePreaggregation library name source).map RollupPlan.grainDimensions ↔
      source.declares library a := by
  rw [List.mem_map]
  constructor
  · rintro ⟨plan, planned, rfl⟩
    obtain ⟨first, head, grain, -⟩ := exists_planOf planned
    obtain ⟨f, member, last, -⟩ := (mem_contributions plannable.accepted).mp
      (mem_valuesOf.mp (List.mem_of_mem_head? head))
    exact ⟨f, member, mem_grainList.mpr ⟨first.grain, last, grain.symm⟩⟩
  · intro declared
    obtain ⟨f, member, listed⟩ := id declared
    obtain ⟨grain, last, rfl⟩ := mem_grainList.mp listed
    obtain ⟨merge, -, brought⟩ := exists_contribution plannable.accepted member last
    obtain ⟨first, rest, values⟩ :=
      List.exists_cons_of_ne_nil (List.ne_nil_of_mem (mem_valuesOf.mpr brought))
    have inside : first ∈ valuesOf (contributions library source) (grainKey grain.dimensions) := by
      rw [values]
      exact List.mem_cons_self
    refine ⟨_, mem_planSourcePreaggregation.mpr ⟨grainKey grain.dimensions, first, ?_, rfl⟩, ?_⟩
    · rw [values]
      rfl
    · exact ((plannable.declared_at declared).mp inside).1

/-- A rollup lists the measures that are declared at its grain. -/
theorem PlannableSource.mem_names_plan {plan : RollupPlan}
    (planned : plan ∈ planSourcePreaggregation library name source) {measure : String} :
    measure ∈ plan.measures.map RollupMeasure.name ↔
      ∃ f ∈ source.fields, plan.grainDimensions ∈ f.grainList library ∧ f.fieldName = measure := by
  have declared : source.declares library plan.grainDimensions :=
    plannable.mem_grains_plans.mp (List.mem_map_of_mem planned)
  rw [measures_of_plan planned, ((List.perm_insertionSort _ _).map _).mem_iff, List.map_map,
    List.mem_map]
  constructor
  · rintro ⟨c, inside, rfl⟩
    obtain ⟨grain, f, member, last, -, named, -⟩ := (plannable.declared_at declared).mp inside
    exact ⟨f, member, mem_grainList.mpr ⟨c.grain, last, grain⟩, named.symm⟩
  · rintro ⟨f, member, listed, rfl⟩
    obtain ⟨grain, last, -⟩ := mem_grainList.mp listed
    obtain ⟨merge, -, brought⟩ := exists_contribution plannable.accepted member last
    exact ⟨_, mem_valuesOf.mpr brought, rfl⟩

/-- A rollup lists each measure once. -/
theorem PlannableSource.nodup_names {plan : RollupPlan}
    (planned : plan ∈ planSourcePreaggregation library name source) :
    (plan.measures.map RollupMeasure.name).Nodup := by
  rw [measures_of_plan planned, ((List.perm_insertionSort _ _).map _).nodup_iff, List.map_map]
  exact plannable.named.sublist (names_valuesOf_sublist _)

end Plannable

end MalloyPublisher.Preaggregation
