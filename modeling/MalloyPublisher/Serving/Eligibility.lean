import MalloyPublisher.Serving.BoundNames

/-!
# Refusals of the materialized tiers

When a package is loaded, each compiled source is put to the gate of each materialized tier,
and the answers are kept for the serve side, which does not compile. The colocated tier keeps
them by content address, and a refusal at an address takes it out whatever other sources of
that address were answered, and in whatever order. The storage tier keeps them by name: a name
is eligible if some source of it was admitted, refused or not besides. Two models may each
declare a source of one name, so a refused source is served from a stored table if another
model's source of its name was admitted.

## Main definitions

* `collectSourceEligibility`, `collectColocatedSourceEligibility` — the answers kept
* `bindStorageServeBindings`, `bindColocatedServeManifest` — what is bound on these answers
* `RefusalDominates` — what was refused is not served from a table

## Main results

* `mem_eligibleEntityIds_iff` — the addresses at which no source was refused
* `refusalDominates_iff` — refusals dominate exactly where sources of one name are answered alike
-/

namespace MalloyPublisher.Serving

open Foundations

/-- A compiled source of a build graph, with what the gates answer for it, and its content
address where its SQL can be read. -/
structure GatedSource where
  name : String
  assertMaterializationEligible : Except String Unit
  assertColocatedPersistNotAuthorizeGated : Except String Unit
  computeSourceEntityId : Except String String

/-! ## Collecting the answers -/

/-- The storage tier's answers: names that were admitted, and refused names with the reason. -/
structure SourceEligibility where
  eligible : List String
  refused : List (String × String)

/-- The answers of the storage gate. -/
def collectSourceEligibility (sources : List GatedSource) : SourceEligibility :=
  sources.foldl (fun answers source =>
    match source.assertMaterializationEligible with
    | .ok () => { answers with eligible := answers.eligible ++ [source.name] }
    | .error reason => { answers with refused := setKey source.name reason answers.refused })
    { eligible := [], refused := [] }

/-- The colocated tier's answers, under content addresses. -/
structure ColocatedSourceEligibility where
  eligibleEntityIds : List String
  refused : List (String × String)

/-- Enter the colocated gate's answer for one source. Where its content address cannot be
computed there is nothing to enter it under. -/
def enterColocated (answers : ColocatedSourceEligibility) (source : GatedSource) :
    ColocatedSourceEligibility :=
  match source.assertColocatedPersistNotAuthorizeGated, source.computeSourceEntityId with
  | _, .error _ => answers
  | .error reason, .ok sourceEntityId => {
      eligibleEntityIds := answers.eligibleEntityIds.filter (· ≠ sourceEntityId)
      refused := setKey sourceEntityId reason answers.refused }
  | .ok (), .ok sourceEntityId =>
    -- A refusal that was entered before stands.
    if (answers.refused.lookup sourceEntityId).isSome then answers
    else { answers with eligibleEntityIds := answers.eligibleEntityIds ++ [sourceEntityId] }

/-- The answers of the colocated gate. -/
def collectColocatedSourceEligibility (sources : List GatedSource) :
    ColocatedSourceEligibility :=
  sources.foldl enterColocated { eligibleEntityIds := [], refused := [] }

/-! ## Binding on the answers -/

/-- A package's build plan with its sources' answers, unless it could not be computed. -/
structure PlannedPackage where
  planSources : List PlanSource
  sourceEligibility : SourceEligibility
  colocatedSourceEligibility : ColocatedSourceEligibility

/-- The plan of a package with these compiled sources. -/
def plannedPackage (planSources : List PlanSource) (sources : List GatedSource) :
    PlannedPackage where
  planSources := planSources
  sourceEligibility := collectSourceEligibility sources
  colocatedSourceEligibility := collectColocatedSourceEligibility sources

/-- The storage bindings of a manifest whose names are eligible. -/
def bindStorageServeBindings (package : Option PlannedPackage) (entries : ManifestEntries) :
    List ServeBinding :=
  let planSources := (package.map (·.planSources)).getD []
  let eligible := (package.map (·.sourceEligibility.eligible)).getD []
  (deriveServeBindings entries (groupAliasesByName planSources)).filter
    (·.sourceName ∈ eligible)

/-- The colocated entries of a manifest whose content addresses are eligible. -/
def bindColocatedServeManifest {ε : Type*} (package : Option PlannedPackage)
    (entries : List (String × ε)) : List (String × ε) :=
  entries.filter fun keyed =>
    package.any fun planned => keyed.1 ∈ planned.colocatedSourceEligibility.eligibleEntityIds

/-! ## What the answers say -/

section Answers

variable {sources : List GatedSource} {sourceEntityId : String}

/-- A name is eligible if some source of it was admitted. -/
theorem mem_eligible_iff {name : String} :
    name ∈ (collectSourceEligibility sources).eligible ↔
      ∃ source ∈ sources, source.name = name ∧ source.assertMaterializationEligible = .ok () := by
  induction sources using List.reverseRecOn with
  | nil => simp [collectSourceEligibility]
  | append_singleton earlier last ih =>
    unfold collectSourceEligibility at ih ⊢
    rw [List.foldl_concat]
    cases answer : last.assertMaterializationEligible with
    | ok _ =>
      simp only [List.mem_append, List.mem_singleton, ih]
      constructor
      · rintro (⟨source, among, named, admitted⟩ | rfl)
        · exact ⟨source, .inl among, named, admitted⟩
        · exact ⟨last, .inr rfl, rfl, answer⟩
      · rintro ⟨source, among | rfl, named, admitted⟩
        · exact .inl ⟨source, among, named, admitted⟩
        · exact .inr named.symm
    | error reason =>
      simp only [List.mem_append, List.mem_singleton, ih]
      constructor
      · rintro ⟨source, among, named, admitted⟩
        exact ⟨source, .inl among, named, admitted⟩
      · rintro ⟨source, among | rfl, named, admitted⟩
        · exact ⟨source, among, named, admitted⟩
        · rw [answer] at admitted
          cases admitted

variable (sourceEntityId) in
/-- What one source does to the answers under an address. -/
theorem enterColocated_cases (answers : ColocatedSourceEligibility) (source : GatedSource) :
    (source.computeSourceEntityId ≠ .ok sourceEntityId ∧
      ((enterColocated answers source).refused.lookup sourceEntityId).isSome =
        (answers.refused.lookup sourceEntityId).isSome ∧
      (sourceEntityId ∈ (enterColocated answers source).eligibleEntityIds ↔
        sourceEntityId ∈ answers.eligibleEntityIds)) ∨
    (source.computeSourceEntityId = .ok sourceEntityId ∧
      source.assertColocatedPersistNotAuthorizeGated ≠ .ok () ∧
      ((enterColocated answers source).refused.lookup sourceEntityId).isSome ∧
      sourceEntityId ∉ (enterColocated answers source).eligibleEntityIds) ∨
    (source.computeSourceEntityId = .ok sourceEntityId ∧
      source.assertColocatedPersistNotAuthorizeGated = .ok () ∧
      (enterColocated answers source).refused = answers.refused ∧
      ((answers.refused.lookup sourceEntityId).isSome ∧
        enterColocated answers source = answers ∨
      (answers.refused.lookup sourceEntityId).isSome = false ∧
        sourceEntityId ∈ (enterColocated answers source).eligibleEntityIds)) := by
  unfold enterColocated
  cases address : source.computeSourceEntityId with
  | error _ => exact .inl ⟨by simp, by simp, by simp⟩
  | ok entered =>
    by_cases same : entered = sourceEntityId
    · subst same
      cases answer : source.assertColocatedPersistNotAuthorizeGated with
      | error reason => exact .inr (.inl ⟨rfl, by simp, by simp [lookup_setKey], by simp⟩)
      | ok _ =>
        refine .inr (.inr ⟨rfl, rfl, ?_⟩)
        cases known : (answers.refused.lookup entered).isSome with
        | true => exact ⟨by simp [known], .inl ⟨rfl, by simp [known]⟩⟩
        | false => exact ⟨by simp [known], .inr ⟨rfl, by simp [known]⟩⟩
    · refine .inl ⟨by simpa using same, ?_⟩
      cases source.assertColocatedPersistNotAuthorizeGated with
      | error reason => simp [lookup_setKey, Ne.symm same]
      | ok _ =>
        by_cases known : (answers.refused.lookup entered).isSome
        · simp [known]
        · simp [known, Ne.symm same]

/-- An address is refused if some source at it was. -/
theorem refused_colocated_iff :
    ((collectColocatedSourceEligibility sources).refused.lookup sourceEntityId).isSome ↔
      ∃ source ∈ sources, source.computeSourceEntityId = .ok sourceEntityId ∧
        source.assertColocatedPersistNotAuthorizeGated ≠ .ok () := by
  induction sources using List.reverseRecOn with
  | nil => simp [collectColocatedSourceEligibility]
  | append_singleton earlier last ih =>
    unfold collectColocatedSourceEligibility at ih ⊢
    rw [List.foldl_concat]
    simp only [List.mem_append, List.mem_singleton]
    rcases enterColocated_cases sourceEntityId
        (earlier.foldl enterColocated { eligibleEntityIds := [], refused := [] }) last with
      ⟨elsewhere, same, -⟩ | ⟨here, answer, refused, -⟩ | ⟨here, answer, same, -⟩
    · rw [same, ih]
      constructor
      · rintro ⟨source, among, rest⟩
        exact ⟨source, .inl among, rest⟩
      · rintro ⟨source, among | rfl, address, rest⟩
        · exact ⟨source, among, address, rest⟩
        · exact absurd address elsewhere
    · exact iff_of_true refused ⟨last, .inr rfl, here, answer⟩
    · rw [same, ih]
      constructor
      · rintro ⟨source, among, rest⟩
        exact ⟨source, .inl among, rest⟩
      · rintro ⟨source, among | rfl, address, rest⟩
        · exact ⟨source, among, address, rest⟩
        · exact absurd answer rest

/-- An address is eligible if it is a source's, and every source at it was admitted. -/
theorem mem_eligibleEntityIds_iff :
    sourceEntityId ∈ (collectColocatedSourceEligibility sources).eligibleEntityIds ↔
      (∃ source ∈ sources, source.computeSourceEntityId = .ok sourceEntityId) ∧
      ∀ source ∈ sources, source.computeSourceEntityId = .ok sourceEntityId →
        source.assertColocatedPersistNotAuthorizeGated = .ok () := by
  induction sources using List.reverseRecOn with
  | nil => simp [collectColocatedSourceEligibility]
  | append_singleton earlier last ih =>
    have refused := @refused_colocated_iff earlier sourceEntityId
    unfold collectColocatedSourceEligibility at ih refused ⊢
    rw [List.foldl_concat]
    generalize earlier.foldl enterColocated { eligibleEntityIds := [], refused := [] } =
      answers at ih refused ⊢
    simp only [List.mem_append, List.mem_singleton]
    rcases enterColocated_cases sourceEntityId answers last with
      ⟨elsewhere, -, same⟩ | ⟨here, answer, -, out⟩ | ⟨here, answer, -, known | ⟨unknown, entered⟩⟩
    · rw [same, ih]
      constructor
      · rintro ⟨⟨source, among, address⟩, all⟩
        refine ⟨⟨source, .inl among, address⟩, ?_⟩
        rintro source (among | rfl) address
        · exact all source among address
        · exact absurd address elsewhere
      · rintro ⟨⟨source, among | rfl, address⟩, all⟩
        · exact ⟨⟨source, among, address⟩, fun source among => all source (.inl among)⟩
        · exact absurd address elsewhere
    · refine iff_of_false out ?_
      rintro ⟨-, all⟩
      exact answer (all last (.inr rfl) here)
    · obtain ⟨source, among, address, rejected⟩ := refused.mp known.1
      rw [known.2, ih]
      refine iff_of_false ?_ ?_
      · rintro ⟨-, all⟩
        exact rejected (all source among address)
      · rintro ⟨-, all⟩
        exact rejected (all source (.inl among) address)
    · refine iff_of_true entered ⟨⟨last, .inr rfl, here⟩, ?_⟩
      rintro source (among | rfl) address
      · by_contra rejected
        have known := refused.mpr ⟨source, among, address, rejected⟩
        rw [unknown] at known
        cases known
      · exact answer

end Answers

/-! ## Refusals dominate -/

/-- What a tier refused is not served from a table of it. The colocated tier's eligible
addresses are those at which every source was admitted, in whatever order the sources come,
and an entry is bound only there. A storage binding is admitted only for a name that no
source was refused under. -/
structure RefusalDominates (sources : List GatedSource) : Prop where
  colocated : ∀ sourceEntityId, ∀ reordered, reordered.Perm sources →
    (sourceEntityId ∈ (collectColocatedSourceEligibility reordered).eligibleEntityIds ↔
      (∃ source ∈ sources, source.computeSourceEntityId = .ok sourceEntityId) ∧
      ∀ source ∈ sources, source.computeSourceEntityId = .ok sourceEntityId →
        source.assertColocatedPersistNotAuthorizeGated = .ok ())
  bound : ∀ (planSources : List PlanSource) (entries : ManifestEntries),
    ∀ keyed ∈ bindColocatedServeManifest (some (plannedPackage planSources sources)) entries,
    ∀ source ∈ sources, source.computeSourceEntityId = .ok keyed.1 →
      source.assertColocatedPersistNotAuthorizeGated = .ok ()
  storage : ∀ (planSources : List PlanSource) (entries : ManifestEntries),
    ∀ binding ∈ bindStorageServeBindings (some (plannedPackage planSources sources)) entries,
    ∀ source ∈ sources, source.name = binding.sourceName →
      source.assertMaterializationEligible = .ok ()

/-- The sources of one name are answered alike by the storage gate. -/
def AnsweredAlike (sources : List GatedSource) : Prop :=
  ∀ admitted ∈ sources, ∀ source ∈ sources, admitted.name ≠ "" → source.name = admitted.name →
    admitted.assertMaterializationEligible = .ok () → source.assertMaterializationEligible = .ok ()

/-- A source stored in a lake is bound under its own name. -/
theorem exists_binding_lakeEntry {name : String} (named : name ≠ "")
    (planSources : List PlanSource) :
    ∃ binding ∈ deriveServeBindings [("k", lakeEntry name "k" "t")]
        (groupAliasesByName planSources), binding.sourceName = name := by
  have built : (lakeEntry name "k" "t").BuiltBy name :=
    ⟨"lake", "t", filled_some named, rfl, rfl, List.cons_ne_nil _ _⟩
  have listed : name ∈ tableNames [("k", lakeEntry name "k" "t")] planSources
      ("k", lakeEntry name "k" "t") := mem_tableNames_iff.mpr ⟨name, built, .inl rfl⟩
  obtain ⟨binding, bound, same⟩ := List.mem_map.mp listed
  exact ⟨binding, List.mem_flatMap.mpr ⟨_, List.mem_singleton_self _, bound⟩, same⟩

/-- Names of bindings are not empty. -/
theorem sourceName_ne_empty {entries : ManifestEntries} {planSources : List PlanSource}
    {binding : ServeBinding}
    (member : binding ∈ deriveServeBindings entries (groupAliasesByName planSources)) :
    binding.sourceName ≠ "" := by
  obtain ⟨keyed, among, bound⟩ := List.mem_flatMap.mp member
  have listed : binding.sourceName ∈ tableNames entries planSources keyed :=
    List.mem_map.mpr ⟨binding, bound, rfl⟩
  obtain ⟨builder, ⟨_, _, stored⟩, named | ⟨⟨address, _, declared, _⟩, -⟩⟩ :=
    mem_tableNames_iff.mp listed
  · rw [named]
    exact (filled_eq_some.mp stored.named).2
  · obtain ⟨source, -, declares⟩ := declared
    exact (filled_eq_some.mp declares.2).2

/-- Refusals dominate on both tiers exactly where the sources of one name are answered alike. -/
theorem refusalDominates_iff (sources : List GatedSource) :
    RefusalDominates sources ↔ AnsweredAlike sources := by
  constructor
  · intro dominates admitted listed source listed' named same answer
    obtain ⟨binding, derived, ofName⟩ := exists_binding_lakeEntry named []
    have eligible : binding.sourceName ∈ (collectSourceEligibility sources).eligible :=
      mem_eligible_iff.mpr ⟨admitted, listed, ofName.symm, answer⟩
    have bound : binding ∈ bindStorageServeBindings (some (plannedPackage [] sources))
        [("k", lakeEntry admitted.name "k" "t")] :=
      List.mem_filter.mpr ⟨derived, decide_eq_true eligible⟩
    exact dominates.storage [] _ binding bound source listed' (same.trans ofName.symm)
  · intro alike
    refine ⟨?_, ?_, ?_⟩
    · intro sourceEntityId reordered perm
      rw [mem_eligibleEntityIds_iff]
      simp only [perm.mem_iff]
    · intro planSources entries keyed bound
      have eligible := of_decide_eq_true (List.mem_filter.mp bound).2
      exact (mem_eligibleEntityIds_iff.mp eligible).2
    · intro planSources entries binding bound source listed named
      obtain ⟨derived, eligible⟩ := List.mem_filter.mp bound
      obtain ⟨admitted, listed', ofName, answer⟩ := mem_eligible_iff.mp (of_decide_eq_true eligible)
      have nonempty : admitted.name ≠ "" := ofName ▸ sourceName_ne_empty derived
      exact alike admitted listed' source listed nonempty (named.trans ofName.symm) answer

/-- Two models declare `orders`; one of them reads a given and is refused. -/
def openAndGiven : List GatedSource :=
  [{ name := "orders", assertMaterializationEligible := .ok ()
     assertColocatedPersistNotAuthorizeGated := .ok (), computeSourceEntityId := .ok "a1" },
   { name := "orders", assertMaterializationEligible := .error "references a given"
     assertColocatedPersistNotAuthorizeGated := .ok (), computeSourceEntityId := .ok "b2" }]

/-- A binding of `orders` is admitted for the model whose source was refused. -/
theorem openAndGiven_not_refusalDominates : ¬ RefusalDominates openAndGiven := by
  intro dominates
  have alike := dominates.storage [] [("a1", lakeEntry "orders" "a1" "orders")]
  revert alike
  decide

end MalloyPublisher.Serving
