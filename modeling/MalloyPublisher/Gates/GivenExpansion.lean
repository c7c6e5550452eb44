import MalloyPublisher.Foundations.DepthFirst
import Mathlib.Data.Fintype.Option

/-!
# The givens a gate reads

A gate reads a given that its expression names, or that a field it refers to reads. A reference
is a path of names through joined fields to a field. The expansion follows references, each field
once, and comes to the first path that names no field, or else to the givens of what it read. A
field that several structs share is read in the one it was come to in first.

## Main definitions

* `resolveFieldUsagePath` — the field a path names, and its struct
* `expandRefSummaryGivenIds` — the expansion

## Main results

* `expandRefSummaryGivenIds_sound` — the expansion ends, and invents nothing
* `expandRefSummaryGivenIds_complete` — it misses nothing where structs share no field
-/

namespace MalloyPublisher.Gates

open Foundations

/-- What an expression refers to: field paths, and givens by id. -/
structure RefSummary where
  fieldUsage : List (List String) := []
  givenUsage : List String := []

/-- A field. A joined source, a record or an array has fields of its own. -/
structure FieldDef (F : Type*) where
  name : String
  isStruct : Bool := false
  fields : List F := []
  refSummary : RefSummary := {}

variable {F : Type*} (fieldDef : F → FieldDef F)

/-- The field that a path names from the fields of a struct, with the fields of its own struct. -/
def resolveFieldUsagePath : List F → List String → Option (List F × F)
  | _, [] => none
  | struct, [leaf] => (struct.find? fun f => (fieldDef f).name = leaf).map (struct, ·)
  | struct, segment :: path =>
    (struct.find? fun f => (fieldDef f).name = segment && (fieldDef f).isStruct).bind fun joined =>
      resolveFieldUsagePath (fieldDef joined).fields path

/-- Where the references of a summary lead: to a field, or to none by a path that names none.
The empty path of a function call refers to nothing. -/
def references (struct : List F) (refSummary : RefSummary) :
    List (Option F × List F × List String) :=
  (refSummary.fieldUsage.filter (· ≠ [])).map fun path =>
    match resolveFieldUsagePath fieldDef struct path with
    | some (inside, field) => (some field, inside, path)
    | none => (none, struct, path)

/-- The references of a field that was come to in a struct. -/
def referencesOf : Option F → List F × List String → List (Option F × List F × List String)
  | some field, (struct, _) => references fieldDef struct (fieldDef field).refSummary
  | none, _ => []

/-- What is read at a field: its own givens. A path that names no field is kept apart. -/
def readAt : Option F → List F × List String → List (List String ⊕ String)
  | some field, _ => (fieldDef field).refSummary.givenUsage.map .inr
  | none, (_, path) => [.inl path]

/-- The givens that are read through a summary, or the first path that names no field. -/
def expandRefSummaryGivenIds [DecidableEq F] (fuel : ℕ) (struct : List F)
    (refSummary : RefSummary) : Option (Except (List String) (List String)) :=
  (walkAll (depthFirst (readAt fieldDef) (referencesOf fieldDef) fuel)
    (references fieldDef struct refSummary) []).map fun walked =>
      match walked.1.findSome? Sum.getLeft? with
      | some unresolvedPath => .error unresolvedPath
      | none => .ok (refSummary.givenUsage ++ walked.1.filterMap Sum.getRight?)

variable (struct : List F) (refSummary : RefSummary)

/-- The references lead somewhere: to a field in its struct, or to a path that names none. -/
def LeadTo (place : Option F × List F × List String) : Prop :=
  ∃ start ∈ references fieldDef struct refSummary, Arrives (referencesOf fieldDef) start place

def ReadIn (field : F) (inside : List F) : Prop :=
  ∃ path, LeadTo fieldDef struct refSummary (some field, inside, path)

def Unresolved (path : List String) : Prop :=
  ∃ inside, LeadTo fieldDef struct refSummary (none, inside, path)

/-- A given is the summary's own, or one of a field that its references lead to. -/
def ReadsGiven (id : String) : Prop :=
  id ∈ refSummary.givenUsage ∨ ∃ field inside,
    ReadIn fieldDef struct refSummary field inside ∧ id ∈ (fieldDef field).refSummary.givenUsage

variable {fieldDef struct refSummary}

section Walks

variable {emitted : List (List String ⊕ String)} {later : List (Option F)}
  (walked : Walked (readAt fieldDef) (referencesOf fieldDef)
    (references fieldDef struct refSummary) [] emitted later)

include walked

theorem unresolved_of_walked {path : List String} (member : .inl path ∈ emitted) :
    Unresolved fieldDef struct refSummary path := by
  obtain ⟨start, among, node, ⟨inside, named⟩, arrives, reads⟩ := walked.source _ member
  cases node with
  | some field => simp [readAt] at reads
  | none =>
    obtain rfl : path = named := by simpa [readAt] using reads
    exact ⟨inside, start, among, arrives⟩

theorem readsGiven_of_walked {id : String} (member : .inr id ∈ emitted) :
    ReadsGiven fieldDef struct refSummary id := by
  obtain ⟨start, among, node, ⟨inside, path⟩, arrives, reads⟩ := walked.source _ member
  cases node with
  | some field =>
    exact .inr ⟨field, inside, ⟨path, start, among, arrives⟩, by simpa [readAt] using reads⟩
  | none => simp [readAt] at reads

end Walks

variable [DecidableEq F] [Fintype F]

/-- The expansion ends on every graph of fields. A given it answers is read, and a path it fails
with names no field. -/
theorem expandRefSummaryGivenIds_sound (fieldDef : F → FieldDef F) (struct : List F)
    (refSummary : RefSummary) : ∃ answer,
      expandRefSummaryGivenIds fieldDef (Fintype.card (Option F) + 1) struct refSummary =
        some answer ∧
      (∀ ids, answer = .ok ids → ∀ id ∈ ids, ReadsGiven fieldDef struct refSummary id) ∧
      ∀ path, answer = .error path → Unresolved fieldDef struct refSummary path := by
  obtain ⟨emitted, later, answered, walked⟩ :=
    exists_walked (readAt fieldDef) (referencesOf fieldDef)
      (references fieldDef struct refSummary) (Nat.lt_succ_self _)
  refine ⟨_, by rw [expandRefSummaryGivenIds, answered, Option.map_some], ?_, ?_⟩
  · intro ids ends id member
    split at ends
    · cases ends
    · obtain rfl := Except.ok.inj ends
      rcases List.mem_append.mp member with own | read
      · exact .inl own
      · exact readsGiven_of_walked walked (by simpa using read)
  · intro path ends
    split at ends
    next unresolvedPath found =>
      obtain rfl := Except.error.inj ends
      obtain ⟨read, member, left⟩ := List.exists_of_findSome?_eq_some found
      exact unresolved_of_walked walked (Sum.getLeft?_eq_some_iff.mp left ▸ member)
    next => cases ends

/-- Where no field is come to in two structs, the expansion answers exactly the givens that are
read, unless there is a path that names no field. -/
theorem expandRefSummaryGivenIds_complete
    (alone : ∀ field inside inside', ReadIn fieldDef struct refSummary field inside →
      ReadIn fieldDef struct refSummary field inside' → inside = inside') :
    ∃ answer, expandRefSummaryGivenIds fieldDef (Fintype.card (Option F) + 1) struct refSummary =
        some answer ∧
      ((∃ ids, answer = .ok ids) ↔ ∀ path, ¬ Unresolved fieldDef struct refSummary path) ∧
      ∀ ids, answer = .ok ids → ∀ id, id ∈ ids ↔ ReadsGiven fieldDef struct refSummary id := by
  obtain ⟨emitted, later, answered, walked⟩ :=
    exists_walked (readAt fieldDef) (referencesOf fieldDef)
      (references fieldDef struct refSummary) (Nat.lt_succ_self _)
  have agree : WaysAgree (referencesOf fieldDef) (references fieldDef struct refSummary) := by
    rintro start among start' among' (_ | field) context context' arrives arrives'
    · rfl
    · have same := alone field _ _ ⟨_, start, among, arrives⟩ ⟨_, start', among', arrives'⟩
      simp only [referencesOf, same]
  have fails : (∃ path, .inl path ∈ emitted) ↔
      ∃ path, Unresolved fieldDef struct refSummary path := by
    constructor
    · rintro ⟨path, member⟩
      exact ⟨path, unresolved_of_walked walked member⟩
    · rintro ⟨path, inside, start, among, arrives⟩
      obtain ⟨_, _, context, _, reads⟩ := walked.visits agree among arrives
      exact ⟨context.2, reads _ List.mem_cons_self⟩
  refine ⟨_, by rw [expandRefSummaryGivenIds, answered, Option.map_some], ?_, ?_⟩
  · rw [← not_exists, ← fails]
    split
    next path found =>
      obtain ⟨read, member, left⟩ := List.exists_of_findSome?_eq_some found
      have failed : ∃ path, .inl path ∈ emitted :=
        ⟨path, Sum.getLeft?_eq_some_iff.mp left ▸ member⟩
      simp [failed]
    next none =>
      refine ⟨fun _ => ?_, fun _ => ⟨_, rfl⟩⟩
      rintro ⟨path, member⟩
      cases List.findSome?_eq_none_iff.mp none _ member
  · intro ids ends id
    split at ends
    · cases ends
    · obtain rfl := Except.ok.inj ends
      have read : id ∈ emitted.filterMap Sum.getRight? ↔ .inr id ∈ emitted := by simp
      rw [List.mem_append, read]
      refine ⟨fun member => member.elim .inl (readsGiven_of_walked walked), fun reads => ?_⟩
      refine reads.imp_right fun ⟨field, inside, ⟨path, start, among, arrives⟩, own⟩ => ?_
      obtain ⟨_, _, _, _, all⟩ := walked.visits agree among arrives
      exact all _ (List.mem_map_of_mem own)

/-- A field over a given, and a gate that refers to it. -/
def grouped : Unit → FieldDef Unit := fun _ => { name := "mine", refSummary := { givenUsage := ["GROUPS"] } }

def gate : RefSummary := { fieldUsage := [["mine"]] }

theorem grouped_complete : ∃ answer, expandRefSummaryGivenIds grouped (Fintype.card (Option Unit) + 1) [()] gate = some answer ∧
    ((∃ ids, answer = .ok ids) ↔ ∀ path, ¬ Unresolved grouped [()] gate path) ∧
    ∀ ids, answer = .ok ids → ∀ id, id ∈ ids ↔ ReadsGiven grouped [()] gate id := by
  refine expandRefSummaryGivenIds_complete fun field inside inside' one other => ?_
  have only : ∀ inside, ReadIn grouped [()] gate field inside → inside = [()] := by
    rintro inside ⟨path, start, among, arrives⟩
    obtain rfl : start = (some (), [()], ["mine"]) := List.mem_singleton.mp among
    rcases Relation.ReflTransGen.cases_head arrives with same | ⟨_, step, _⟩
    · cases same
      rfl
    · cases step
  rw [only _ one, only _ other]

end MalloyPublisher.Gates
