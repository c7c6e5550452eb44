import MalloyPublisher.Gates.NoteSweep
import MalloyPublisher.Foundations.FirstAnswer

/-!
# The markers of an entry point, found or refused

The markers walk reads a struct's own notes and the levels it inherits, then the
declaration its registry entry names, then its query's base. It ends at the first struct
that declares a marker or whose ancestry cannot be read, and answers that none applies only
where it has read everything it comes to.

An ancestry is unreadable for this walk where it is for the gate walk: beyond the same
number of levels, and at the same registry entries. There the gate walk denies, unless a
gate stands nearer.

## Main definitions

* `UnreadAbove` — an ancestry neither walk can read
* `StructMarkers`, `Unmarked` — what one struct contributes, said without the walk
* `MarkersFailClosed` — what the answer for an entry point owes the graph

## Main results

* `resolveEntryPointPartitions_eq_depthSearch` — the walk is a depth-first search
* `resolveEntryPointPartitions_failsClosed` — on every finite graph it ends and fails closed
-/

namespace MalloyPublisher.Gates

open Foundations Relation

variable {S : Type*}

section Spec

variable (routing : NoteRouting) (modelDef : ModelDef S)

/-- A level whose notes hold a marker. -/
def MarksLevel (level : AnnotationLevel) : Prop :=
  containsPartitionAnnotationTag routing (ownLevelNoteTexts [level]) = true

/-- What a chain of levels answers: its first marked level's pairs, or a refusal where it
goes on beyond the levels that are read. -/
inductive LevelsMarkers (label : String) (budget : ℕ) :
    AnnotationsDef → Except PartitionAnnotationError (List PartitionPair) → Prop
  | declared {before after : AnnotationsDef} {level : AnnotationLevel}
      (near : before.length < budget) (silent : ∀ other ∈ before, ¬ MarksLevel routing other)
      (marks : MarksLevel routing level) :
      LevelsMarkers label budget (before ++ level :: after)
        (collectPartitionPairs routing label (ownLevelNoteTexts [level]))
  | unread {levels : AnnotationsDef} (long : budget < levels.length)
      (silent : ∀ other ∈ levels.take budget, ¬ MarksLevel routing other) :
      LevelsMarkers label budget levels (.error (unresolvableAncestry label))

/-- The levels of a struct that a walk reads: its own, and as many of those it inherits as
the walk follows. -/
def LEVELS_READ : ℕ := ANCESTOR_WALK_MAX_DEPTH + 1

variable [DecidableEq S]

/-- An ancestry that cannot be read: levels beyond those a walk follows, or a registry
entry that names no source. -/
def UnreadAbove (struct : S) : Prop :=
  LEVELS_READ < (modelDef.struct struct).annotations.length ∨
    resolveDeclaredSource modelDef struct = .unresolvable

/-- What a struct answers to the markers walk, where it answers. -/
inductive StructMarkers : S → Except PartitionAnnotationError (List PartitionPair) → Prop
  | levels {struct : S} {reading : Except PartitionAnnotationError (List PartitionPair)}
      (levels : LevelsMarkers routing (gateLabel modelDef struct) LEVELS_READ
        (modelDef.struct struct).annotations reading) : StructMarkers struct reading
  | unresolvable {struct : S}
      (silent : ∀ level ∈ (modelDef.struct struct).annotations, ¬ MarksLevel routing level)
      (broken : resolveDeclaredSource modelDef struct = .unresolvable) :
      StructMarkers struct (.error (unresolvableAncestry (gateLabel modelDef struct)))

/-- A struct that declares no marker and whose ancestry can be read. -/
structure Unmarked (struct : S) : Prop where
  silent : ∀ level ∈ (modelDef.struct struct).annotations, ¬ MarksLevel routing level
  read : ¬ UnreadAbove modelDef struct

/-- A struct that is not derived by a query, or whose base can be read. -/
def BaseRead (struct : S) : Prop :=
  (modelDef.struct struct).type = .querySource → (resolveQuerySourceBase modelDef struct).isSome

/-- The declaration a struct's registry link leads to. -/
def declaredSource (struct : S) : Option S :=
  match resolveDeclaredSource modelDef struct with
  | .resolved source => some source
  | _ => none

/-- The structs the markers walk goes on with: the registry's declaration, then the base. -/
def markersNext (struct : S) : List S :=
  (declaredSource modelDef struct).toList ++ (resolveQuerySourceBase modelDef struct).toList

/-- The links of the markers walk. -/
def MarkersLink (struct source : S) : Prop := source ∈ markersNext modelDef struct

/-- What the answer for an entry point owes the graph, where the structs are read in the
order given. -/
structure MarkersFailClosed (start : S) (order : List S)
    (answer : Except PartitionAnnotationError (List PartitionPair)) : Prop where
  /-- The structs read are those the links lead to. -/
  reads : ∀ struct, struct ∈ order ↔ ReflTransGen (MarkersLink modelDef) start struct
  /-- The answer is the first struct's that has one. -/
  nearest : ∀ before struct after reading, order = before ++ struct :: after →
    (∀ other ∈ before, Unmarked routing modelDef other ∧ BaseRead modelDef other) →
      StructMarkers routing modelDef struct reading → answer = reading
  /-- No pairs are answered only where no struct has any and every ancestry can be read. -/
  nothing : answer = .ok [] → ∀ struct ∈ order, Unmarked routing modelDef struct
  /-- Where all can be read and nothing is marked, no marker applies. -/
  unmarked : (∀ struct ∈ order, Unmarked routing modelDef struct ∧ BaseRead modelDef struct) →
    answer = .ok []

/-- The levels of a struct that a walk reads hold no gate. -/
def UngatedLevels (struct : S) : Prop :=
  ∀ level ∈ (modelDef.struct struct).annotations.take LEVELS_READ,
    containsAuthorizeAnnotationTag routing (ownLevelNoteTexts [level]) = false

/-- The gate walk of the entry point treats the ancestries that cannot be read as the
markers walk does. -/
structure GatesAgreeOnUnread [Fintype S] (start : S) : Prop where
  /-- It denies at one that it comes to, where no gate stands nearer. -/
  denied : ∀ gates, entryPointGates routing modelDef start = some gates →
    ∀ struct way last, Derivation modelDef (start, []) (struct, way) →
      ¬ DeclaresOwnGate routing modelDef struct →
      ReflTransGen (QuietLink routing modelDef) struct last →
      UngatedLevels routing modelDef last → UnreadAbove modelDef last → Denied gates
  /-- It denies at no other: a struct is then gated as its declaration is. -/
  passed : ∀ struct, UngatedLevels routing modelDef struct → ¬ UnreadAbove modelDef struct →
    gateReading routing modelDef struct [] =
      match declaredSource modelDef struct with
      | some source => firstGate (ownGateExprs routing modelDef source)
          (ancestorGateExprs routing modelDef source [struct])
      | none => .ok []

end Spec

/-! ## What one struct contributes -/

section Levels

variable {routing : NoteRouting} {modelDef : ModelDef S} {label : String} {budget : ℕ}
variable {levels : AnnotationsDef} {struct : S}
variable {reading : Except PartitionAnnotationError (List PartitionPair)}

theorem collectPairsAfter_length {pairs after : List PartitionPair} {texts : List String}
    (collected : collectPairsAfter routing label pairs texts = .ok after) :
    pairs.length ≤ after.length := by
  induction texts generalizing pairs with
  | nil =>
    cases collected
    exact le_rfl
  | cons text texts ih =>
    rw [collectPairsAfter] at collected
    split at collected
    · cases collected
    · exact ih collected
    · split at collected
      · cases collected
      · have longer := ih collected
        rw [List.length_append] at longer
        omega

theorem parsePartitionAnnotation_eq_none {text : String}
    (passed : parsePartitionAnnotation routing label text = .ok none) :
    noteRoute routing text ≠ some PARTITION_ROUTE := by
  intro routed
  unfold parsePartitionAnnotation at passed
  rw [if_neg (not_not_intro routed)] at passed
  simp only at passed
  split_ifs at passed
  split at passed
  · cases passed
  · split_ifs at passed
    split at passed <;> cases passed

/-- A list of notes declares no pair exactly when none of them is a marker. -/
theorem collectPartitionPairs_eq_nil_iff {texts : List String} :
    collectPartitionPairs routing label texts = .ok [] ↔
      containsPartitionAnnotationTag routing texts = false := by
  rw [containsPartitionAnnotationTag_eq_false_iff]
  refine ⟨fun collected => ?_, collectPairsAfter_of_noNote⟩
  unfold collectPartitionPairs at collected
  induction texts with
  | nil => exact fun _ member => absurd member List.not_mem_nil
  | cons text texts ih =>
    rw [collectPairsAfter] at collected
    split at collected
    · cases collected
    · rename_i passed
      rintro other member
      rcases List.mem_cons.mp member with rfl | member
      · exact parsePartitionAnnotation_eq_none passed
      · exact ih collected other member
    · have kept := collectPairsAfter_length collected
      simp at kept

theorem collectPartitionPairs_of_not_marks {level : AnnotationLevel}
    (unmarked : ¬ MarksLevel routing level) :
    collectPartitionPairs routing label (ownLevelNoteTexts [level]) = .ok [] :=
  collectPartitionPairs_eq_nil_iff.mpr (Bool.not_eq_true _ ▸ unmarked)

theorem MarksLevel.collectPartitionPairs_ne_nil {level : AnnotationLevel}
    (marks : MarksLevel routing level) :
    collectPartitionPairs routing label (ownLevelNoteTexts [level]) ≠ .ok [] := by
  intro nothing
  rw [MarksLevel, collectPartitionPairs_eq_nil_iff.mp nothing] at marks
  cases marks

theorem LevelsMarkers.ne_nil (answers : LevelsMarkers routing label budget levels reading) :
    reading ≠ .ok [] := by
  cases answers with
  | declared near silent marks => exact marks.collectPartitionPairs_ne_nil
  | unread long silent => simp

/-- A chain that answers is marked on a level, or goes on beyond those that are read. -/
theorem LevelsMarkers.not_silent (answers : LevelsMarkers routing label budget levels reading)
    (silent : ∀ level ∈ levels, ¬ MarksLevel routing level) : budget < levels.length := by
  cases answers with
  | declared near quiet marks => exact absurd marks (silent _ (by simp))
  | unread long quiet => exact long

/-- The loop over a chain answers what the chain does. -/
theorem inheritedPartitionPairs_cases (routing : NoteRouting) (label : String) (budget : ℕ)
    (levels : AnnotationsDef) :
    (levels.length ≤ budget ∧ (∀ level ∈ levels, ¬ MarksLevel routing level) ∧
        inheritedPartitionPairs routing label budget levels = .ok []) ∨
      LevelsMarkers routing label budget levels
        (inheritedPartitionPairs routing label budget levels) := by
  induction levels generalizing budget with
  | nil => exact .inl ⟨Nat.zero_le _, fun _ member => absurd member List.not_mem_nil, by
      cases budget <;> rfl⟩
  | cons level levels ih =>
    cases budget with
    | zero =>
      refine .inr (.unread (Nat.succ_pos _) fun other member => ?_)
      rw [List.take_zero] at member
      cases member
    | succ budget =>
      have own : ownLevelNoteTexts (level :: levels) = ownLevelNoteTexts [level] := rfl
      rw [inheritedPartitionPairs, own]
      by_cases marks : MarksLevel routing level
      · right
        have nearest : LevelsMarkers routing label (budget + 1) ([] ++ level :: levels)
            (collectPartitionPairs routing label (ownLevelNoteTexts [level])) :=
          .declared (Nat.succ_pos _) (fun _ member => absurd member List.not_mem_nil) marks
        split
        · rename_i nothing
          exact absurd nothing marks.collectPartitionPairs_ne_nil
        · exact nearest
      · rw [collectPartitionPairs_of_not_marks marks]
        have further {before : AnnotationsDef}
            (silent : ∀ other ∈ before, ¬ MarksLevel routing other) :
            ∀ other ∈ level :: before, ¬ MarksLevel routing other := by
          rintro other member
          rcases List.mem_cons.mp member with rfl | member
          · exact marks
          · exact silent other member
        rcases ih budget with ⟨short, silent, nothing⟩ | answers
        · exact .inl ⟨Nat.succ_le_succ short, further silent, nothing⟩
        · right
          simp only
          generalize inheritedPartitionPairs routing label budget levels = reading at answers
          cases answers with
          | declared near silent here =>
            rw [← List.cons_append]
            exact .declared (Nat.succ_lt_succ near) (further silent) here
          | unread long silent => exact .unread (Nat.succ_lt_succ long) (further silent)

/-- Unmarked levels only cost their budget. -/
theorem inheritedPartitionPairs_append {before : AnnotationsDef}
    (silent : ∀ other ∈ before, ¬ MarksLevel routing other) :
    inheritedPartitionPairs routing label (before.length + budget) (before ++ levels) =
      inheritedPartitionPairs routing label budget levels := by
  induction before with
  | nil => rw [List.length_nil, Nat.zero_add, List.nil_append]
  | cons level before ih =>
    have own : ownLevelNoteTexts (level :: (before ++ levels)) = ownLevelNoteTexts [level] := rfl
    rw [List.length_cons, Nat.add_right_comm, List.cons_append, inheritedPartitionPairs, own,
      collectPartitionPairs_of_not_marks (silent level List.mem_cons_self)]
    exact ih fun other member => silent other (List.mem_cons_of_mem _ member)

/-- A chain has one answer, the loop's. -/
theorem LevelsMarkers.inheritedPartitionPairs_eq
    (answers : LevelsMarkers routing label budget levels reading) :
    inheritedPartitionPairs routing label budget levels = reading := by
  cases answers with
  | @declared before after level near silent marks =>
    obtain ⟨rest, rfl⟩ := Nat.exists_eq_add_of_lt near
    have own : ownLevelNoteTexts (level :: after) = ownLevelNoteTexts [level] := rfl
    rw [Nat.add_assoc, inheritedPartitionPairs_append silent, inheritedPartitionPairs, own]
    split
    · rename_i nothing
      exact absurd nothing marks.collectPartitionPairs_ne_nil
    · rfl
  | unread long silent =>
    have read : (levels.take budget).length = budget := List.length_take_of_le long.le
    have cut : inheritedPartitionPairs routing label (_ + 0) (_ ++ levels.drop budget) = _ :=
      inheritedPartitionPairs_append silent
    rw [List.take_append_drop, read, Nat.add_zero] at cut
    obtain ⟨level, more, beyond⟩ :=
      List.exists_cons_of_ne_nil (show levels.drop budget ≠ [] by simpa using long)
    rw [cut, beyond, inheritedPartitionPairs]

/-- A struct's own level is read as the first of its chain. -/
theorem levelPartitionPairs_eq : levelPartitionPairs routing modelDef struct =
    inheritedPartitionPairs routing (gateLabel modelDef struct) LEVELS_READ
      (modelDef.struct struct).annotations := by
  unfold levelPartitionPairs
  cases (modelDef.struct struct).annotations with
  | nil => rfl
  | cons level inherited => rfl

end Levels

section Verdict

variable [DecidableEq S] {routing : NoteRouting} {modelDef : ModelDef S} {struct : S}
variable {answer : Except PartitionAnnotationError (List PartitionPair)}

/-- What a struct answers to the markers walk, if it does. -/
def markersVerdict (routing : NoteRouting) (modelDef : ModelDef S) (struct : S) :
    Option (Except PartitionAnnotationError (List PartitionPair)) :=
  match levelPartitionPairs routing modelDef struct with
  | .ok [] =>
    if resolveDeclaredSource modelDef struct = .unresolvable then
      some (.error (unresolvableAncestry (gateLabel modelDef struct)))
    else none
  | answer => some answer

theorem markersVerdict_of_ne_nil
    (answers : levelPartitionPairs routing modelDef struct ≠ .ok []) :
    markersVerdict routing modelDef struct = some (levelPartitionPairs routing modelDef struct) := by
  unfold markersVerdict
  split
  · contradiction
  · rfl

/-- A struct that answers is not unmarked, and has one answer. -/
theorem StructMarkers.markersVerdict_eq (markers : StructMarkers routing modelDef struct answer) :
    markersVerdict routing modelDef struct = some answer ∧ answer ≠ .ok [] := by
  cases markers with
  | levels answers =>
    have same := levelPartitionPairs_eq.trans answers.inheritedPartitionPairs_eq
    have declares := answers.ne_nil
    rw [← same] at declares ⊢
    exact ⟨markersVerdict_of_ne_nil declares, declares⟩
  | unresolvable silent broken =>
    refine ⟨?_, by simp⟩
    rcases inheritedPartitionPairs_cases routing (gateLabel modelDef struct) LEVELS_READ
        (modelDef.struct struct).annotations with ⟨-, -, nothing⟩ | answers
    · rw [← levelPartitionPairs_eq] at nothing
      simp only [markersVerdict, nothing, broken, if_true]
    · -- The chain goes on beyond the levels that are read: refused all the same.
      have long := answers.not_silent silent
      have refused : LevelsMarkers routing (gateLabel modelDef struct) LEVELS_READ
          (modelDef.struct struct).annotations (.error (unresolvableAncestry (gateLabel modelDef struct))) :=
        .unread long fun other member => silent other (List.mem_of_mem_take member)
      have same := levelPartitionPairs_eq.trans refused.inheritedPartitionPairs_eq
      rw [markersVerdict_of_ne_nil (by simp [same]), same]

variable (routing modelDef struct) in
theorem markersVerdict_spec :
    (markersVerdict routing modelDef struct = none ∧ Unmarked routing modelDef struct) ∨
      ∃ answer, StructMarkers routing modelDef struct answer ∧ ¬ Unmarked routing modelDef struct := by
  rcases inheritedPartitionPairs_cases routing (gateLabel modelDef struct) LEVELS_READ
      (modelDef.struct struct).annotations with ⟨short, silent, nothing⟩ | answers
  · rw [← levelPartitionPairs_eq] at nothing
    simp only [markersVerdict, nothing]
    by_cases broken : resolveDeclaredSource modelDef struct = .unresolvable
    · exact .inr ⟨_, .unresolvable silent broken, fun unmarked => unmarked.read (.inr broken)⟩
    · left
      refine ⟨if_neg broken, silent, ?_⟩
      rintro (long | unresolvable)
      · exact absurd short (Nat.not_le_of_lt long)
      · exact broken unresolvable
  · exact .inr ⟨_, .levels answers,
      fun unmarked => unmarked.read (.inl (answers.not_silent unmarked.silent))⟩

theorem markersVerdict_eq_none_iff :
    markersVerdict routing modelDef struct = none ↔ Unmarked routing modelDef struct := by
  rcases markersVerdict_spec routing modelDef struct with ⟨none, unmarked⟩ | ⟨answer, markers, marked⟩
  · exact iff_of_true none unmarked
  · rw [markers.markersVerdict_eq.1]
    exact iff_of_false (Option.some_ne_none _) marked

theorem structMarkers_of_verdict (answers : markersVerdict routing modelDef struct = some answer) :
    StructMarkers routing modelDef struct answer := by
  rcases markersVerdict_spec routing modelDef struct with ⟨none, -⟩ | ⟨other, markers, -⟩
  · rw [none] at answers
    cases answers
  · rw [markers.markersVerdict_eq.1] at answers
    exact Option.some.inj answers ▸ markers

end Verdict

/-! ## The walk -/

section Search

variable [DecidableEq S] {routing : NoteRouting} {modelDef : ModelDef S} {start struct : S}

/-- How a search ended that the markers walk made. -/
def PartitionsRead.searchEnd :
    PartitionsRead S → SearchEnd (Except PartitionAnnotationError (List PartitionPair)) S
  | .ok ([], seen) => .exhausted seen
  | .ok (pairs, _) => .answered (.ok pairs)
  | .error reason => .answered (.error reason)

variable (routing modelDef) in
/-- The markers walk is a depth-first search. -/
theorem resolveEntryPointPartitions_eq_depthSearch (fuel : ℕ) (struct : S) (seen : List S) :
    (resolveEntryPointPartitions routing modelDef fuel struct seen).map PartitionsRead.searchEnd =
      depthSearch (markersVerdict routing modelDef) (markersNext modelDef) fuel struct seen := by
  induction fuel generalizing struct seen with
  | zero => rfl
  | succ fuel ih =>
    rw [resolveEntryPointPartitions, depthSearch]
    split_ifs with known
    · rfl
    rw [markersVerdict]
    rcases levelPartitionPairs routing modelDef struct with reason | (_ | ⟨pair, pairs⟩)
    · rfl
    · -- No marker here: the declaration is read, then the base.
      have base (middle : List S) :
          Option.map PartitionsRead.searchEnd
            (match resolveQuerySourceBase modelDef struct with
            | some queryBase => resolveEntryPointPartitions routing modelDef fuel queryBase middle
            | none => some (.ok ([], middle))) =
          searchAll (depthSearch (markersVerdict routing modelDef) (markersNext modelDef) fuel)
            (resolveQuerySourceBase modelDef struct).toList middle := by
        cases resolveQuerySourceBase modelDef struct with
        | none => rfl
        | some queryBase => exact (ih queryBase middle).trans (searchAll_singleton _ _ _).symm
      rw [markersNext, declaredSource]
      cases resolveDeclaredSource modelDef struct with
      | unresolvable => rfl
      | none => exact base _
      | resolved source =>
        simp only [Option.toList_some, List.singleton_append, searchAll, ← ih source, reduceCtorEq,
          if_false]
        rcases resolveEntryPointPartitions routing modelDef fuel source (struct :: seen) with
          _ | (reason | ⟨_ | ⟨pair, pairs⟩, middle⟩)
        · rfl
        · rfl
        · exact base middle
        · rfl
    · rfl

omit [DecidableEq S] in
theorem PartitionsRead.map_fst_of_searchEnd {read : PartitionsRead S}
    {verdict : S → Option (Except PartitionAnnotationError (List PartitionPair))}
    {order later : List S} (ended : read.searchEnd = .ofVisits verdict order later) :
    read.map Prod.fst = (order.findSome? verdict).getD (.ok []) := by
  unfold SearchEnd.ofVisits at ended
  rcases read with reason | ⟨_ | ⟨pair, pairs⟩, seen⟩ <;>
    cases found : order.findSome? verdict <;> simp_all [searchEnd, Except.map]

/-- What the first answering struct of an order contributes fails closed. -/
theorem markersFailClosed_of_order {order : List S}
    (reads : ∀ struct, struct ∈ order ↔ ReflTransGen (MarkersLink modelDef) start struct) :
    MarkersFailClosed routing modelDef start order
      ((order.findSome? (markersVerdict routing modelDef)).getD (.ok [])) where
  reads := reads
  nearest before struct after reading same quiet markers := by
    have passed : before.findSome? (markersVerdict routing modelDef) = none :=
      List.findSome?_eq_none_iff.mpr fun other member =>
        markersVerdict_eq_none_iff.mpr (quiet other member).1
    rw [same, List.findSome?_append, passed, Option.none_or, List.findSome?_cons,
      markers.markersVerdict_eq.1]
    rfl
  nothing none := by
    simp only [← markersVerdict_eq_none_iff, ← List.findSome?_eq_none_iff]
    cases found : order.findSome? (markersVerdict routing modelDef) with
    | none => rfl
    | some answer =>
      rw [found] at none
      obtain ⟨before, struct, after, same, answers, quiet⟩ := List.findSome?_eq_some_iff.mp found
      exact absurd none (structMarkers_of_verdict answers).markersVerdict_eq.2
  unmarked quiet := by
    have passed : order.findSome? (markersVerdict routing modelDef) = none :=
      List.findSome?_eq_none_iff.mpr fun other member =>
        markersVerdict_eq_none_iff.mpr (quiet other member).1
    rw [passed, Option.getD_none]

end Search

/-! ## What the gate walk makes of an unreadable ancestry -/

section Unread

variable {routing : NoteRouting} {modelDef : ModelDef S} {start struct : S}

theorem ungated_inherits (ungated : UngatedLevels routing modelDef struct) :
    ∀ level ∈ (inherits (modelDef.struct struct).annotations).take ANCESTOR_WALK_MAX_DEPTH,
      containsAuthorizeAnnotationTag routing (ownLevelNoteTexts [level]) = false := by
  intro level member
  apply ungated level
  cases levels : (modelDef.struct struct).annotations with
  | nil => simp [levels, inherits] at member
  | cons own inherited =>
    rw [levels, inherits, List.tail_cons] at member
    exact List.mem_cons_of_mem own member

theorem not_declaresOwnGate_of_ungated (ungated : UngatedLevels routing modelDef struct) :
    ¬ DeclaresOwnGate routing modelDef struct := by
  unfold DeclaresOwnGate
  cases levels : (modelDef.struct struct).annotations with
  | nil => exact Bool.false_ne_true
  | cons own inherited =>
    have first : own ∈ (modelDef.struct struct).annotations.take LEVELS_READ := by
      simp [levels, LEVELS_READ]
    exact ungated own first ▸ Bool.false_ne_true

theorem not_declaresWithout_of_own (excludeNotes : List AnnotationNote)
    (quiet : ¬ DeclaresOwnGate routing modelDef struct) :
    ¬ DeclaresWithout routing modelDef excludeNotes struct := by
  intro declares
  obtain ⟨text, member, gate⟩ := List.any_eq_true.mp declares
  obtain ⟨note, listed, rfl⟩ := List.mem_map.mp member
  exact quiet (List.any_eq_true.mpr
    ⟨note.text, List.mem_map_of_mem (List.mem_of_mem_filter listed), gate⟩)

theorem long_iff : LEVELS_READ < (modelDef.struct struct).annotations.length ↔
    ANCESTOR_WALK_MAX_DEPTH < (inherits (modelDef.struct struct).annotations).length := by
  rw [inherits, List.length_tail, LEVELS_READ]
  omega

theorem silentAbove_of_ungated (ungated : UngatedLevels routing modelDef struct)
    (short : ¬ LEVELS_READ < (modelDef.struct struct).annotations.length) :
    SilentAbove routing modelDef struct := by
  rw [long_iff, not_lt] at short
  refine ⟨short, fun level member => ungated_inherits ungated level ?_⟩
  rwa [List.take_of_length_le short]

variable [DecidableEq S]

/-- The gate above an unreadable ancestry is a denial. -/
theorem gateAbove_of_unread {past : S → Prop} (ungated : UngatedLevels routing modelDef struct)
    (unread : UnreadAbove modelDef struct) : GateAbove routing modelDef past struct (.ok DENY) := by
  by_cases long : LEVELS_READ < (modelDef.struct struct).annotations.length
  · exact .inherited (.unread (long_iff.mp long) (ungated_inherits ungated))
  · exact .unresolvable (silentAbove_of_ungated ungated long) (unread.resolve_left long)

/-- A struct whose ancestry can be read is gated as its declaration is. -/
theorem gateReading_of_read (ungated : UngatedLevels routing modelDef struct)
    (read : ¬ UnreadAbove modelDef struct) :
    gateReading routing modelDef struct [] =
      match declaredSource modelDef struct with
      | some source => firstGate (ownGateExprs routing modelDef source)
          (ancestorGateExprs routing modelDef source [struct])
      | none => .ok [] := by
  have own := not_declaresWithout_of_own [] (not_declaresOwnGate_of_ungated ungated)
  have above := silentAbove_of_ungated ungated fun long => read (.inl long)
  have few : ¬ ANCESTOR_WALK_MAX_DEPTH < (([] : List S).insert struct).length := by
    simp [ANCESTOR_WALK_MAX_DEPTH]
  rw [gateReading, collectAuthorizeExprs_textsWithout_eq_nil_iff.mpr own, firstGate_nil,
    ancestorGateExprs_of_silent above, if_neg few, declaredSource]
  cases resolved : resolveDeclaredSource modelDef struct with
  | unresolvable => exact absurd (.inr resolved) read
  | none => rfl
  | resolved source =>
    have apart := (followIds_resolved resolved).1
    exact if_neg (by simpa using apart)

/-- The gate walk agrees with the markers walk on what cannot be read. -/
theorem gatesAgreeOnUnread [Fintype S] : GatesAgreeOnUnread routing modelDef start where
  denied gates answered struct way last derivation quiet path ungated unread := by
    have total : Fintype.card S < Fintype.card S + 1 := Nat.lt_succ_self _
    obtain ⟨collected, seen, answers, walked⟩ :=
      @collectEntryPointGates_walked S _ routing modelDef start _ true _ total
    rw [entryPointGates, answers, Option.map_some, Option.some.injEq] at answered
    subst answered
    obtain ⟨excludeNotes, -, enforced, -⟩ :=
      (gatesFailClosed_of_walked walked).enforced struct way derivation
    have nearest : NearestGate routing modelDef excludeNotes struct (.ok DENY) :=
      .ancestor (not_declaresWithout_of_own excludeNotes quiet)
        ⟨last, path, gateAbove_of_unread ungated unread⟩
    rcases enforced _ nearest with ⟨entry, member, same⟩ | denied
    · exact ⟨entry, member, (Except.ok.inj same).symm⟩
    · exact denied
  passed struct := gateReading_of_read

end Unread

/-! ## The walk fails closed -/

section FailsClosed

variable [DecidableEq S] [Fintype S]

/-- The markers walk of an entry point ends on every finite graph, and fails closed: on the
same ancestries as the gate walk. -/
theorem resolveEntryPointPartitions_failsClosed (routing : NoteRouting) (modelDef : ModelDef S)
    (start : S) :
    ∃ order later answer,
      visits (markersNext modelDef) (Fintype.card S + 1) start [] = some (order, later) ∧
      resolveEntryPointPartitions routing modelDef (Fintype.card S + 1) start [] = some answer ∧
      MarkersFailClosed routing modelDef start order (answer.map Prod.fst) ∧
      GatesAgreeOnUnread routing modelDef start := by
  obtain ⟨order, later, visited, reads⟩ :=
    exists_visits (markersNext modelDef) start (Nat.lt_succ_self (Fintype.card S))
  have ended := resolveEntryPointPartitions_eq_depthSearch routing modelDef (Fintype.card S + 1) start []
  rw [depthSearch_eq visited] at ended
  obtain ⟨answer, answered, ended⟩ := Option.map_eq_some_iff.mp ended
  refine ⟨order, later, answer, visited, answered, ?_, gatesAgreeOnUnread⟩
  rw [PartitionsRead.map_fst_of_searchEnd ended]
  exact markersFailClosed_of_order reads

end FailsClosed

/-- The routing of `#(authorize)` and `#(partition)` notes. -/
def gateAndMarkerNotes : NoteRouting where
  routeOf text :=
    if "#(partition)".toList.isPrefixOf text.toList then some PARTITION_ROUTE
    else authorizeNotes.routeOf text
  payloadOf := authorizeNotes.payloadOf

/-- A partitioned source without a gate, whose registry entry names nothing. -/
def markedLink : ModelDef (Fin 1) where
  struct _ := { type := .source, name := "orders", sourceID := some "orders@m",
                annotations := [⟨[{ id := 0, text := "#(partition) tenant = $TENANT" }], []⟩] }
  contents := [("orders", Fin.last 0)]
  sourceRegistry := [("orders@m", .reference "gone")]

/-- A marker of its own stands before a link nobody can read, which the gate walk denies. -/
theorem markedLink_answers :
    resolveDeclaredSource markedLink 0 = .unresolvable ∧
      resolveEntryPointPartitions gateAndMarkerNotes markedLink 2 0 [] =
        some (.ok ([{ column := "tenant", given := "TENANT" }], [0])) ∧
      (entryPointGates gateAndMarkerNotes markedLink 0).map (·.map GateEntry.exprs) =
        some [DENY] := by
  decide +kernel

theorem markedLink_wellFormed : WellFormed [{ column := "tenant", given := "TENANT" }] := by
  have answered : resolveEntryPointPartitions gateAndMarkerNotes markedLink 2 0 [] =
      some (.ok ([{ column := "tenant", given := "TENANT" }], [0])) := by decide +kernel
  exact resolveEntryPointPartitions_wellFormed answered

end MalloyPublisher.Gates
