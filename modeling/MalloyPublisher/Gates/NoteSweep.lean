import MalloyPublisher.Gates.LoadAgreement
import MalloyPublisher.Gates.PartitionMarkers
import MalloyPublisher.Foundations.Sweep

/-!
# The annotation sweep before the walks

Whether a model carries a gate or a partition marker at all is answered once, by a sweep
over its contents, its registry and what those derive from. Where the answer is no, the
walks of each query are skipped. The sweep looks at every struct a walk can read, and at
all levels of its annotations.

## Main definitions

* `hasAnyAuthorizeNote`, `hasAnyPartitionNote` — the sweeps

## Main results

* `mem_reachableStructsForNoteSweep` — a walk reads nothing the sweep does not look at
* `noteSweep_hides_nothing` — what is skipped finds no note
-/

namespace MalloyPublisher.Gates

open Foundations Relation

variable {S : Type*}

section Sweep

variable (routing : NoteRouting) (modelDef : ModelDef S)

/-- A source that stands under a name of the contents. -/
def IsContentsSource (struct : S) : Prop :=
  isSourceDef modelDef struct = true ∧ ∃ name, (name, struct) ∈ modelDef.contents

/-- The two derivation hops of a struct. -/
def derivationHops (struct : S) : List S :=
  (resolveQuerySourceBase modelDef struct).toList ++
    (resolveCompositeResolvedBase modelDef struct).toList

/-- The sources of the contents and the sources defined in the registry itself. -/
def sweepRoots : List S :=
  (modelDef.contents.map Prod.snd).filter (isSourceDef modelDef ·) ++
    modelDef.sourceRegistry.filterMap fun (_, entry) =>
      match entry with
      | .reference _ => none
      | .definition struct => if isSourceDef modelDef struct then some struct else none

variable [DecidableEq S] [Fintype S]

/-- Every struct the derivation hops lead to from the roots, the roots left out. -/
def derivedStructsReachable (roots : List S) : List S :=
  sweep (derivationHops modelDef) roots roots

/-- The structs both sweeps look at. -/
def reachableStructsForNoteSweep : List S :=
  sweepRoots modelDef ++ derivedStructsReachable modelDef (sweepRoots modelDef)

/-- Whether a gate note stands anywhere in the model, fields included. Fields that cannot
be read count as one. -/
def hasAnyAuthorizeNote : Bool :=
  (reachableStructsForNoteSweep modelDef).any fun struct =>
    containsAuthorizeAnnotationTag routing (annotationTexts (modelDef.struct struct).annotations) ||
      match (modelDef.struct struct).fields with
      | none => true
      | some fields => fields.any fun annotations =>
          containsAuthorizeAnnotationTag routing (annotationTexts annotations)

/-- Whether a partition marker stands on any struct of the model. -/
def hasAnyPartitionNote : Bool :=
  (reachableStructsForNoteSweep modelDef).any fun struct =>
    containsPartitionAnnotationTag routing (annotationTexts (modelDef.struct struct).annotations)

end Sweep

/-! ## The sweep covers the walks -/

section Covers

variable {routing : NoteRouting} {modelDef : ModelDef S} {start struct source : S}

theorem mem_sweepRoots_of_contents {name : String} (listed : (name, struct) ∈ modelDef.contents)
    (isSource : isSourceDef modelDef struct = true) : struct ∈ sweepRoots modelDef :=
  List.mem_append_left _ (List.mem_filter.mpr ⟨List.mem_map_of_mem listed, isSource⟩)

theorem mem_contents_of_lookup {key : String} (found : lookupContents modelDef key = some struct) :
    ∃ name, (name, struct) ∈ modelDef.contents := by
  obtain ⟨before, after, same, -⟩ := List.lookup_eq_some_iff.mp found
  exact ⟨key, by rw [same]; simp⟩

variable [DecidableEq S]

/-- What the registry resolves to is another source, one that an entry stands for. -/
theorem followIds_resolved {ids : List (Option String)} {sawBrokenEntry : Bool}
    (resolved : followIds modelDef struct ids sawBrokenEntry = .resolved source) :
    source ≠ struct ∧ isSourceDef modelDef source = true ∧ ∃ id entry,
      (id, entry) ∈ modelDef.sourceRegistry ∧ entry.declared modelDef = some source := by
  induction ids generalizing sawBrokenEntry with
  | nil => rw [followIds] at resolved; split_ifs at resolved
  | cons id ids ih =>
    rw [followIds] at resolved
    cases found : registryEntry modelDef id with
    | none => exact ih (by simpa [found] using resolved)
    | some entry =>
      simp only [found] at resolved
      cases declared : entry.declared modelDef with
      | none => exact ih (by simpa [declared] using resolved)
      | some other =>
        simp only [declared] at resolved
        split_ifs at resolved with itself isSource
        · exact ih resolved
        · cases resolved
          refine ⟨itself, isSource, ?_⟩
          obtain ⟨key, -, kept⟩ := Option.bind_eq_some_iff.mp found
          split_ifs at kept
          obtain ⟨before, after, same, -⟩ := List.lookup_eq_some_iff.mp kept
          exact ⟨key, entry, by rw [same]; simp, declared⟩
        · exact ih resolved

/-- A registry link leads to a root of the sweep. -/
theorem mem_sweepRoots_of_resolved
    (resolved : resolveDeclaredSource modelDef struct = .resolved source) :
    source ∈ sweepRoots modelDef := by
  obtain ⟨-, isSource, id, entry, listed, declared⟩ := followIds_resolved resolved
  cases entry with
  | reference name =>
    obtain ⟨name, listed⟩ := mem_contents_of_lookup declared
    exact mem_sweepRoots_of_contents listed isSource
  | definition struct =>
    cases declared
    exact List.mem_append_right _ (List.mem_filterMap.mpr ⟨(id, .definition source), listed, by
      simp [isSource]⟩)

variable [Fintype S]

/-- Whatever a walk reads from a source of the contents, the sweep looks at. -/
theorem mem_reachableStructsForNoteSweep (isStart : IsContentsSource modelDef start)
    {arrival : S × List AnnotationNote} (read : ReadFrom modelDef (start, []) arrival) :
    arrival.1 ∈ reachableStructsForNoteSweep modelDef := by
  induction read with
  | refl =>
    obtain ⟨isSource, name, listed⟩ := isStart
    exact List.mem_append_left _ (mem_sweepRoots_of_contents listed isSource)
  | tail _ step ih =>
    have closed := sweep_closed (derivationHops modelDef) (sweepRoots modelDef) _ ih
    cases step with
    | derives derives =>
      cases derives with
      | base resolved => exact closed _ (List.mem_append_left _ (by simp [resolved]))
      | member resolved => exact closed _ (List.mem_append_right _ (by simp [resolved]))
    | registry resolved => exact List.mem_append_left _ (mem_sweepRoots_of_resolved resolved)

end Covers

/-! ## What a skipped walk would have found -/

section Skipped

variable {routing : NoteRouting} {modelDef : ModelDef S}
variable {start struct : S} {way : List AnnotationNote} {gate : Except String (List String)}

/-- No level of a struct's annotations carries a note of the route. -/
def NoNote (routing : NoteRouting) (modelDef : ModelDef S) (route : String) (struct : S) : Prop :=
  ∀ text ∈ annotationTexts (modelDef.struct struct).annotations, noteRoute routing text ≠ some route

theorem mem_annotationTexts {level : AnnotationLevel} {annotations : AnnotationsDef} {text : String}
    (among : level ∈ annotations) (member : text ∈ ownLevelNoteTexts [level]) :
    text ∈ annotationTexts annotations :=
  List.mem_flatMap.mpr ⟨level, among, member⟩

theorem containsAuthorizeAnnotationTag_eq_false_iff {texts : List String} :
    containsAuthorizeAnnotationTag routing texts = false ↔
      ∀ text ∈ texts, noteRoute routing text ≠ some AUTHORIZE_ROUTE := by
  simp only [containsAuthorizeAnnotationTag, authorizeNoteContent, List.any_eq_false]
  refine forall₂_congr fun text _ => ?_
  split_ifs with gate <;> simp [gate]

theorem containsPartitionAnnotationTag_eq_false_iff {texts : List String} :
    containsPartitionAnnotationTag routing texts = false ↔
      ∀ text ∈ texts, noteRoute routing text ≠ some PARTITION_ROUTE := by
  simp [containsPartitionAnnotationTag, List.any_eq_false]

theorem NoNote.contains_eq_false (noNote : NoNote routing modelDef AUTHORIZE_ROUTE struct)
    {texts : List String} (listed : ∀ text ∈ texts, ∃ level ∈ (modelDef.struct struct).annotations,
      text ∈ ownLevelNoteTexts [level]) : containsAuthorizeAnnotationTag routing texts = false := by
  refine containsAuthorizeAnnotationTag_eq_false_iff.mpr fun text member => ?_
  obtain ⟨level, among, here⟩ := listed text member
  exact noNote text (mem_annotationTexts among here)

theorem NoNote.not_declaresWithout (noNote : NoNote routing modelDef AUTHORIZE_ROUTE struct)
    (way : List AnnotationNote) : ¬ DeclaresWithout routing modelDef way struct := by
  rw [DeclaresWithout, noNote.contains_eq_false fun _ => mem_level_of_mem_textsWithout]
  exact Bool.false_ne_true

theorem collectPairsAfter_of_noNote {sourceName : String} {pairs : List PartitionPair}
    {texts : List String} (unrouted : ∀ text ∈ texts, noteRoute routing text ≠ some PARTITION_ROUTE) :
    collectPairsAfter routing sourceName pairs texts = .ok pairs := by
  induction texts with
  | nil => rfl
  | cons text texts ih =>
    have passed : parsePartitionAnnotation routing sourceName text = .ok none :=
      if_pos (unrouted text List.mem_cons_self)
    rw [collectPairsAfter, passed]
    exact ih fun other member => unrouted other (List.mem_cons_of_mem _ member)

theorem inheritedPartitionPairs_of_noNote {label : String} {budget : ℕ} {inherited : AnnotationsDef}
    (unrouted : ∀ text ∈ annotationTexts inherited, noteRoute routing text ≠ some PARTITION_ROUTE) :
    inheritedPartitionPairs routing label budget inherited = .ok [] ∨
      inheritedPartitionPairs routing label budget inherited = .error (unresolvableAncestry label) := by
  induction inherited generalizing budget with
  | nil => exact .inl (by cases budget <;> rfl)
  | cons level inherited ih =>
    cases budget with
    | zero => exact .inr rfl
    | succ budget =>
      have own : collectPartitionPairs routing label (ownLevelNoteTexts (level :: inherited)) =
          .ok [] := collectPairsAfter_of_noNote fun text member =>
        unrouted text (mem_annotationTexts List.mem_cons_self member)
      rw [inheritedPartitionPairs, own]
      exact ih fun text member => unrouted text (List.mem_append_right _ member)

theorem NoNote.levelPartitionPairs (noNote : NoNote routing modelDef PARTITION_ROUTE struct) :
    levelPartitionPairs routing modelDef struct = .ok [] ∨
      levelPartitionPairs routing modelDef struct =
        .error (unresolvableAncestry (gateLabel modelDef struct)) := by
  have own : collectPartitionPairs routing (gateLabel modelDef struct)
      (ownLevelNoteTexts (modelDef.struct struct).annotations) = .ok [] := by
    refine collectPairsAfter_of_noNote fun text member => ?_
    rw [← textsWithout_nil] at member
    obtain ⟨level, among, here⟩ := mem_level_of_mem_textsWithout member
    exact noNote text (mem_annotationTexts among here)
  unfold Gates.levelPartitionPairs
  simp only [own]
  apply inheritedPartitionPairs_of_noNote
  intro text member
  obtain ⟨level, among, here⟩ := List.mem_flatMap.mp member
  exact noNote text (mem_annotationTexts (List.mem_of_mem_tail among) here)

variable [DecidableEq S]

/-- Where nothing that is read carries a gate note, every gate is a denial. -/
theorem NearestGate.eq_deny
    (silent : ∀ struct way, ReadFrom modelDef (start, []) (struct, way) →
      NoNote routing modelDef AUTHORIZE_ROUTE struct)
    (read : ReadFrom modelDef (start, []) (struct, way))
    (nearest : NearestGate routing modelDef way struct gate) : gate = .ok DENY := by
  cases nearest with
  | own declares => exact absurd declares ((silent struct way read).not_declaresWithout way)
  | ancestor quiet above =>
    obtain ⟨last, path, above⟩ := above
    obtain ⟨way, read⟩ := readFrom_of_quietLinks path read
    cases above with
    | inherited levels =>
      generalize chain : inherits (modelDef.struct last).annotations = inherited at levels
      cases levels with
      | unread long quiet => rfl
      | @declared before after level near quiet declares =>
        have among : level ∈ (modelDef.struct last).annotations := by
          apply List.mem_of_mem_tail
          rw [← inherits, chain]
          simp
        have none : containsAuthorizeAnnotationTag routing (ownLevelNoteTexts [level]) = false :=
          (silent last way read).contains_eq_false fun text member => ⟨level, among, member⟩
        rw [none] at declares
        cases declares
    | unresolvable quiet broken => rfl
    | @declared source quiet resolved new declares =>
      have noNote := silent source [] (read.tail (.registry resolved))
      rw [DeclaresOwnGate, ← textsWithout_nil] at declares
      exact absurd declares (noNote.not_declaresWithout [])

omit [DecidableEq S] in
/-- A walk that goes on with the query's base, or ends where there is none, answers as the
walk of the base does. -/
theorem baseAnswer_of_settled {walk : S → List S → Option (PartitionsRead S)}
    {marked middle : List S} (mono : ∀ other ∈ marked, other ∈ middle)
    (settled : ∀ base, resolveQuerySourceBase modelDef struct = some base →
      (∃ later, walk base middle = some (.ok ([], later)) ∧ ∀ other ∈ middle, other ∈ later) ∨
        ∃ label, walk base middle = some (.error (unresolvableAncestry label))) :
    (∃ later, (match resolveQuerySourceBase modelDef struct with
        | some queryBase => walk queryBase middle
        | none => some (.ok ([], middle))) = some (.ok ([], later)) ∧
      ∀ other ∈ marked, other ∈ later) ∨
    ∃ label, (match resolveQuerySourceBase modelDef struct with
        | some queryBase => walk queryBase middle
        | none => some (.ok ([], middle))) = some (.error (unresolvableAncestry label)) := by
  cases resolved : resolveQuerySourceBase modelDef struct with
  | none => exact .inl ⟨middle, rfl, mono⟩
  | some base =>
    refine (settled base resolved).imp_left ?_
    rintro ⟨later, answered, further⟩
    exact ⟨later, answered, fun other member => further other (mono other member)⟩

/-- Where nothing that is read carries a marker, the markers walk ends without one, or at
an ancestry it cannot read. -/
theorem resolveEntryPointPartitions_of_noNote [Fintype S]
    (silent : ∀ struct way, ReadFrom modelDef (start, []) (struct, way) →
      NoNote routing modelDef PARTITION_ROUTE struct)
    (read : ReadFrom modelDef (start, []) (struct, way)) {seen : List S} {fuel : ℕ}
    (enough : unseen seen < fuel) :
    (∃ later, resolveEntryPointPartitions routing modelDef fuel struct seen = some (.ok ([], later)) ∧
        ∀ other ∈ seen, other ∈ later) ∨
      ∃ label, resolveEntryPointPartitions routing modelDef fuel struct seen =
        some (.error (unresolvableAncestry label)) := by
  induction fuel generalizing struct way seen with
  | zero => omega
  | succ fuel ih =>
    rw [resolveEntryPointPartitions]
    by_cases known : struct ∈ seen
    · exact .inl ⟨seen, if_pos known, fun _ => id⟩
    rw [if_neg known]
    rcases (silent struct way read).levelPartitionPairs with quiet | unread
    swap
    · exact .inr ⟨_, by rw [unread]⟩
    have fewer : unseen (struct :: seen) < fuel := by
      have := unseen_cons_lt known
      omega
    have marked : ∀ other ∈ seen, other ∈ struct :: seen := fun _ => List.mem_cons_of_mem _
    simp only [quiet]
    -- The query's base is walked once the registry's declaration has given nothing.
    have goesOn (middle : List S) (mono : ∀ other ∈ struct :: seen, other ∈ middle) :=
      baseAnswer_of_settled (fun other member => mono other (marked other member))
        fun base resolved => ih (read.tail (.derives (.base resolved)))
          ((unseen_le mono).trans_lt fewer)
    cases resolved : resolveDeclaredSource modelDef struct with
    | unresolvable => exact .inr ⟨_, rfl⟩
    | none => exact goesOn _ fun _ => id
    | resolved source =>
      rcases ih (read.tail (.registry resolved)) fewer with ⟨middle, answered, mono⟩ | ⟨label, refused⟩
      · simp only [answered, Option.bind_some]
        exact goesOn middle mono
      · exact .inr ⟨label, by simp only [refused, Option.bind_some]⟩

/-- What a query skips when a sweep finds no note would have found none either: every
gate stands for something that cannot be read, and so does every refused marker. -/
theorem noteSweep_hides_nothing [Fintype S] (isStart : IsContentsSource modelDef start) :
    (hasAnyAuthorizeNote routing modelDef = false →
      (∀ struct way, ReadFrom modelDef (start, []) (struct, way) →
        NoNote routing modelDef AUTHORIZE_ROUTE struct) ∧
      ∃ gates, entryPointGates routing modelDef start = some gates ∧
        ∀ entry ∈ gates, entry.exprs = DENY) ∧
    (hasAnyPartitionNote routing modelDef = false →
      (∃ later, resolveEntryPointPartitions routing modelDef (Fintype.card S + 1) start [] =
          some (.ok ([], later))) ∨
        ∃ label, resolveEntryPointPartitions routing modelDef (Fintype.card S + 1) start [] =
          some (.error (unresolvableAncestry label))) := by
  constructor
  · intro none
    have silent (struct : S) (way : List AnnotationNote)
        (read : ReadFrom modelDef (start, []) (struct, way)) :
        NoNote routing modelDef AUTHORIZE_ROUTE struct := by
      have swept := List.any_eq_false.mp none struct (mem_reachableStructsForNoteSweep isStart read)
      simp only [Bool.or_eq_true, not_or, Bool.not_eq_true] at swept
      exact containsAuthorizeAnnotationTag_eq_false_iff.mp swept.1
    obtain ⟨gates, seen, answered, walked⟩ :=
      collectEntryPointGates_walked true (Nat.lt_succ_self (Fintype.card S))
    refine ⟨silent, gates, by rw [entryPointGates, answered, Option.map_some], fun entry member => ?_⟩
    rcases (gatesFailClosed_of_walked walked).apart entry member with denies | ⟨struct, way, derivation, nearest⟩
    · exact denies
    · exact Except.ok.inj (nearest.eq_deny silent derivation.readFrom)
  · intro none
    have silent (struct : S) (way : List AnnotationNote)
        (read : ReadFrom modelDef (start, []) (struct, way)) :
        NoNote routing modelDef PARTITION_ROUTE struct := by
      have swept := List.any_eq_false.mp none struct (mem_reachableStructsForNoteSweep isStart read)
      exact containsPartitionAnnotationTag_eq_false_iff.mp (Bool.not_eq_true _ ▸ swept)
    have total : unseen ([] : List S) < Fintype.card S + 1 :=
      Nat.lt_succ_of_le (Finset.card_le_univ _)
    refine (resolveEntryPointPartitions_of_noNote silent .refl total).imp_left ?_
    rintro ⟨later, answered, -⟩
    exact ⟨later, answered⟩

/-- A source without notes whose registry entry names nothing. -/
def danglingLink : ModelDef Unit where
  struct _ := { type := .source, name := "orders", sourceID := some "orders@m" }
  contents := [("orders", ())]
  sourceRegistry := [("orders@m", .reference "gone")]

/-- A skipped walk would have refused an ancestry nobody can read. -/
theorem danglingLink_refused :
    hasAnyPartitionNote authorizeNotes danglingLink = false ∧
      resolveEntryPointPartitions authorizeNotes danglingLink 2 () [] =
        some (.error (unresolvableAncestry "orders")) := by
  decide +kernel

theorem danglingLink_hides_nothing :
    (∃ gates, entryPointGates authorizeNotes danglingLink () = some gates ∧
        ∀ entry ∈ gates, entry.exprs = DENY) ∧
      ((∃ later, resolveEntryPointPartitions authorizeNotes danglingLink 2 () [] =
          some (.ok ([], later))) ∨
        ∃ label, resolveEntryPointPartitions authorizeNotes danglingLink 2 () [] =
          some (.error (unresolvableAncestry label))) :=
  have isStart : IsContentsSource danglingLink () := ⟨rfl, "orders", List.mem_cons_self⟩
  ⟨((noteSweep_hides_nothing isStart).1 (by decide +kernel)).2,
    (noteSweep_hides_nothing isStart).2 (by decide +kernel)⟩

end Skipped

end MalloyPublisher.Gates
