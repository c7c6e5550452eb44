import MalloyPublisher.Gates.SourceGraph
import MalloyPublisher.Foundations.Derivation
import Mathlib.Data.List.Chain

/-!
# The gate a struct inherits

A struct that declares no gate of its own carries the nearest one above it: on the levels
it inherits, else on the declaration the registry names, and so on up. The walk reads at
most `ANCESTOR_WALK_MAX_DEPTH` levels and as many declarations, and denies where a chain
goes on beyond that or a declaration cannot be read.

## Main definitions

* `ancestorGateExprs` — the walk
* `AncestorGate` — the gate it looks for, said without the walk

## Main results

* `AncestorGate.ancestorGateExprs_eq` — the walk answers that gate or denies
* `ancestorGateExprs_sound` — it answers nothing else
* `ancestorGateExprs_of_long_chain` — it denies on a chain it cannot read to its end
-/

namespace MalloyPublisher.Gates

open Foundations Relation

variable {S : Type*}

/-- The most levels and the most declarations the walk reads. -/
def ANCESTOR_WALK_MAX_DEPTH : ℕ := 32

/-- A disjunction nobody satisfies. -/
def DENY : List String := ["false"]

/-- The first of two readings, unless it declares nothing. -/
def firstGate (first next : Except String (List String)) : Except String (List String) :=
  match first with
  | .ok [] => next
  | gate => gate

@[simp] theorem firstGate_nil (next : Except String (List String)) :
    firstGate (.ok []) next = next := rfl

theorem firstGate_of_ne {first : Except String (List String)} (declares : first ≠ .ok [])
    (next : Except String (List String)) : firstGate first next = first := by
  unfold firstGate
  split
  · contradiction
  · rfl

section Walk

variable (routing : NoteRouting) (modelDef : ModelDef S)

/-- The loop over an inherited chain, `budget` levels deep. -/
def inheritedGateExprs : ℕ → AnnotationsDef → Except String (List String)
  | _, [] => .ok []
  | 0, _ :: _ => .ok DENY
  | budget + 1, level :: inherited =>
    firstGate (collectAuthorizeExprs routing (ownLevelNoteTexts (level :: inherited)))
      (inheritedGateExprs budget inherited)

/-- The disjunction of a struct's own notes. -/
def ownGateExprs (struct : S) : Except String (List String) :=
  collectAuthorizeExprs routing (ownLevelNoteTexts (modelDef.struct struct).annotations)

/-- What the levels a struct inherits declare. -/
def inheritsGateExprs (struct : S) : Except String (List String) :=
  inheritedGateExprs routing ANCESTOR_WALK_MAX_DEPTH (inherits (modelDef.struct struct).annotations)

/-- The gate a struct carries from the source it was derived from. -/
def ancestorGateExprs [DecidableEq S] (struct : S) (seen : List S) : Except String (List String) :=
  firstGate (inheritsGateExprs routing modelDef struct)
    (if ANCESTOR_WALK_MAX_DEPTH < (seen.insert struct).length then .ok DENY
    else
      match resolveDeclaredSource modelDef struct with
      | .unresolvable => .ok DENY
      | .none => .ok []
      | .resolved source =>
        -- A cycle declares nothing: the caller has read the struct it comes back to.
        if source ∈ seen.insert struct then .ok []
        else
          firstGate (ownGateExprs routing modelDef source)
            (ancestorGateExprs source (seen.insert struct)))
termination_by ANCESTOR_WALK_MAX_DEPTH + 1 - (seen.insert struct).length
decreasing_by
  rw [List.length_insert_of_not_mem ‹source ∉ _›]
  omega

end Walk

/-! ## What the walk looks for -/

section Spec

variable (routing : NoteRouting) (modelDef : ModelDef S)

/-- A chain that declares no gate and can be read to its end. -/
def Silent (budget : ℕ) (inherited : AnnotationsDef) : Prop :=
  inherited.length ≤ budget ∧ ∀ level ∈ inherited,
    containsAuthorizeAnnotationTag routing (ownLevelNoteTexts [level]) = false

/-- The gate of a chain: its first declaring level's, or a denial where the chain goes on
beyond what is read. -/
inductive LevelsGate (budget : ℕ) : AnnotationsDef → Except String (List String) → Prop
  | declared {before after : AnnotationsDef} {level : AnnotationLevel}
      (near : before.length < budget)
      (silent : ∀ level ∈ before,
        containsAuthorizeAnnotationTag routing (ownLevelNoteTexts [level]) = false)
      (declares : containsAuthorizeAnnotationTag routing (ownLevelNoteTexts [level]) = true) :
      LevelsGate budget (before ++ level :: after)
        (collectAuthorizeExprs routing (ownLevelNoteTexts [level]))
  | unread {inherited : AnnotationsDef} (long : budget < inherited.length)
      (silent : ∀ level ∈ inherited.take budget,
        containsAuthorizeAnnotationTag routing (ownLevelNoteTexts [level]) = false) :
      LevelsGate budget inherited (.ok DENY)

/-- A struct's own notes declare a gate. -/
def DeclaresOwnGate (struct : S) : Prop :=
  containsAuthorizeAnnotationTag routing (ownLevelNoteTexts (modelDef.struct struct).annotations) =
    true

/-- The levels a struct inherits declare nothing. -/
def SilentAbove (struct : S) : Prop :=
  Silent routing ANCESTOR_WALK_MAX_DEPTH (inherits (modelDef.struct struct).annotations)

variable [DecidableEq S]

/-- A registry link past which the walk goes on looking. -/
structure QuietLink (struct source : S) : Prop where
  silent : SilentAbove routing modelDef struct
  resolved : resolveDeclaredSource modelDef struct = .resolved source
  quiet : ¬ DeclaresOwnGate routing modelDef source

/-- The gate right above a struct, where a link back to the structs read in the past
declares nothing new. -/
inductive GateAbove (past : S → Prop) : S → Except String (List String) → Prop
  | inherited {struct : S} {gate : Except String (List String)}
      (levels : LevelsGate routing ANCESTOR_WALK_MAX_DEPTH
        (inherits (modelDef.struct struct).annotations) gate) : GateAbove past struct gate
  | unresolvable {struct : S} (silent : SilentAbove routing modelDef struct)
      (broken : resolveDeclaredSource modelDef struct = .unresolvable) :
      GateAbove past struct (.ok DENY)
  | declared {struct source : S} (silent : SilentAbove routing modelDef struct)
      (resolved : resolveDeclaredSource modelDef struct = .resolved source)
      (new : ¬ past source) (declares : DeclaresOwnGate routing modelDef source) :
      GateAbove past struct (ownGateExprs routing modelDef source)

/-- The gate a struct inherits: the nearest one above it. -/
def AncestorGate (struct : S) (gate : Except String (List String)) : Prop :=
  ∃ last, ReflTransGen (QuietLink routing modelDef) struct last ∧
    GateAbove routing modelDef (· = struct) last gate

end Spec

/-! ## Inherited levels -/

section Levels

variable {routing : NoteRouting} {budget : ℕ} {inherited : AnnotationsDef}

theorem collectAuthorizeExprs_ne_nil {texts : List String}
    (declares : containsAuthorizeAnnotationTag routing texts = true) :
    collectAuthorizeExprs routing texts ≠ .ok [] := by
  intro nothing
  rw [(collectAuthorizeExprs_eq_nil_iff routing texts).mp nothing] at declares
  contradiction

theorem inheritedGateExprs_eq_nil_iff :
    inheritedGateExprs routing budget inherited = .ok [] ↔ Silent routing budget inherited := by
  induction inherited generalizing budget with
  | nil => simp [inheritedGateExprs, Silent]
  | cons level inherited ih =>
    cases budget with
    | zero => simp [inheritedGateExprs, Silent, DENY]
    | succ budget =>
      have own : ownLevelNoteTexts (level :: inherited) = ownLevelNoteTexts [level] := rfl
      rw [inheritedGateExprs, own]
      by_cases quiet : containsAuthorizeAnnotationTag routing (ownLevelNoteTexts [level]) = false
      · rw [(collectAuthorizeExprs_eq_nil_iff routing _).mpr quiet, firstGate_nil, ih]
        simp [Silent, quiet]
      · have declares := collectAuthorizeExprs_ne_nil (Bool.not_eq_false _ ▸ quiet)
        rw [firstGate_of_ne declares]
        simp [Silent, declares, quiet]

/-- A silent beginning only costs its budget. -/
theorem inheritedGateExprs_append {before : AnnotationsDef}
    (silent : ∀ level ∈ before,
      containsAuthorizeAnnotationTag routing (ownLevelNoteTexts [level]) = false) :
    inheritedGateExprs routing (before.length + budget) (before ++ inherited) =
      inheritedGateExprs routing budget inherited := by
  induction before with
  | nil => rw [List.length_nil, Nat.zero_add, List.nil_append]
  | cons level before ih =>
    have own : ownLevelNoteTexts (level :: (before ++ inherited)) = ownLevelNoteTexts [level] := rfl
    rw [List.length_cons, Nat.add_right_comm, List.cons_append, inheritedGateExprs, own,
      (collectAuthorizeExprs_eq_nil_iff routing _).mpr (silent level List.mem_cons_self),
      firstGate_nil]
    exact ih fun level member => silent level (List.mem_cons_of_mem _ member)

/-- The loop answers the gate of the chain. -/
theorem LevelsGate.inheritedGateExprs_eq {gate : Except String (List String)}
    (levels : LevelsGate routing budget inherited gate) :
    inheritedGateExprs routing budget inherited = gate ∧ gate ≠ .ok [] := by
  cases levels with
  | @declared before after level near silent declares =>
    obtain ⟨rest, rfl⟩ := Nat.exists_eq_add_of_lt near
    have gate := collectAuthorizeExprs_ne_nil declares
    refine ⟨?_, gate⟩
    rw [Nat.add_assoc, inheritedGateExprs_append silent, inheritedGateExprs]
    exact firstGate_of_ne gate _
  | unread long silent =>
    have read : (inherited.take budget).length = budget := List.length_take_of_le long.le
    have rest : inherited.drop budget ≠ [] := by simpa using long
    refine ⟨?_, by simp [DENY]⟩
    have cut : inheritedGateExprs routing (_ + 0) (_ ++ inherited.drop budget) = _ :=
      inheritedGateExprs_append silent
    rw [List.take_append_drop, read, Nat.add_zero] at cut
    rw [cut]
    obtain ⟨level, more, unread⟩ := List.exists_cons_of_ne_nil rest
    rw [unread, inheritedGateExprs]

/-- The loop answers nothing but the gate of the chain. -/
theorem levelsGate_of_ne_nil (declares : inheritedGateExprs routing budget inherited ≠ .ok []) :
    LevelsGate routing budget inherited (inheritedGateExprs routing budget inherited) := by
  induction inherited generalizing budget with
  | nil => cases budget <;> exact absurd rfl declares
  | cons level inherited ih =>
    cases budget with
    | zero => exact .unread (Nat.succ_pos _) (by simp)
    | succ budget =>
      have own : ownLevelNoteTexts (level :: inherited) = ownLevelNoteTexts [level] := rfl
      rw [inheritedGateExprs, own] at declares ⊢
      by_cases quiet : containsAuthorizeAnnotationTag routing (ownLevelNoteTexts [level]) = false
      · rw [(collectAuthorizeExprs_eq_nil_iff routing _).mpr quiet, firstGate_nil] at declares ⊢
        have below := ih declares
        generalize inheritedGateExprs routing budget inherited = gate at below
        cases below with
        | @declared before after level' near silent gate =>
          rw [← List.cons_append]
          refine .declared (Nat.succ_lt_succ near) (fun other member => ?_) gate
          rcases List.mem_cons.mp member with rfl | member
          · exact quiet
          · exact silent other member
        | unread long silent =>
          refine .unread (Nat.succ_lt_succ long) fun other member => ?_
          rcases List.mem_cons.mp member with rfl | member
          · exact quiet
          · exact silent other member
      · have gate := Bool.not_eq_false _ ▸ quiet
        rw [firstGate_of_ne (collectAuthorizeExprs_ne_nil gate)]
        exact .declared (Nat.succ_pos _) (fun _ member => absurd member List.not_mem_nil) gate

end Levels

/-! ## The walk -/

section Ancestors

variable {routing : NoteRouting} {modelDef : ModelDef S}
variable {past : S → Prop} {struct source other last : S} {seen : List S} {gate : Except String (List String)}

theorem inheritsGateExprs_eq_nil_iff :
    inheritsGateExprs routing modelDef struct = .ok [] ↔ SilentAbove routing modelDef struct :=
  inheritedGateExprs_eq_nil_iff

theorem ownGateExprs_eq_nil_iff :
    ownGateExprs routing modelDef struct = .ok [] ↔ ¬ DeclaresOwnGate routing modelDef struct := by
  rw [ownGateExprs, collectAuthorizeExprs_eq_nil_iff, DeclaresOwnGate, Bool.not_eq_true]

variable [DecidableEq S]

theorem QuietLink.eq (link : QuietLink routing modelDef struct source)
    (link' : QuietLink routing modelDef struct other) : source = other :=
  Declared.resolved.inj (link.resolved.symm.trans link'.resolved)

theorem GateAbove.deadEnd (above : GateAbove routing modelDef past struct gate) :
    DeadEnd (QuietLink routing modelDef) struct := by
  intro source link
  cases above with
  | inherited levels =>
    obtain ⟨answer, declares⟩ := levels.inheritedGateExprs_eq
    exact declares (answer.symm.trans (inheritedGateExprs_eq_nil_iff.mpr link.silent))
  | unresolvable silent broken =>
    rw [link.resolved] at broken
    cases broken
  | declared silent resolved new declares =>
    rw [link.resolved] at resolved
    cases resolved
    exact link.quiet declares

theorem GateAbove.ne_nil (above : GateAbove routing modelDef past struct gate) :
    gate ≠ .ok [] := by
  cases above with
  | inherited levels => exact levels.inheritedGateExprs_eq.2
  | unresolvable silent broken => simp [DENY]
  | declared silent resolved new declares =>
    exact fun nothing => ownGateExprs_eq_nil_iff.mp nothing declares

/-- A chain that ends in a gate has no cycle. -/
theorem GateAbove.no_cycle (above : GateAbove routing modelDef past last gate)
    (path : ReflTransGen (QuietLink routing modelDef) struct last) :
    ¬ TransGen (QuietLink routing modelDef) struct struct := by
  have grounded : Grounded (QuietLink routing modelDef) (fun _ => True) struct :=
    .of_unique (fun _ _ _ link link' => link.eq link') path above.deadEnd trivial
  exact grounded.no_cycle .refl

/-- Past the levels a struct inherits, the walk follows the registry. -/
theorem ancestorGateExprs_of_silent (silent : SilentAbove routing modelDef struct)
    (seen : List S) :
    ancestorGateExprs routing modelDef struct seen =
      if ANCESTOR_WALK_MAX_DEPTH < (seen.insert struct).length then .ok DENY
      else
        match resolveDeclaredSource modelDef struct with
        | .unresolvable => .ok DENY
        | .none => .ok []
        | .resolved source =>
          if source ∈ seen.insert struct then .ok []
          else
            firstGate (ownGateExprs routing modelDef source)
              (ancestorGateExprs routing modelDef source (seen.insert struct)) := by
  rw [ancestorGateExprs, inheritsGateExprs_eq_nil_iff.mpr silent, firstGate_nil]

theorem ancestorGateExprs_of_many (silent : SilentAbove routing modelDef struct)
    (many : ANCESTOR_WALK_MAX_DEPTH < (seen.insert struct).length) :
    ancestorGateExprs routing modelDef struct seen = .ok DENY := by
  rw [ancestorGateExprs_of_silent silent, if_pos many]

theorem ancestorGateExprs_of_resolved (silent : SilentAbove routing modelDef struct)
    (few : ¬ ANCESTOR_WALK_MAX_DEPTH < (seen.insert struct).length)
    (resolved : resolveDeclaredSource modelDef struct = .resolved source)
    (new : source ∉ seen.insert struct) :
    ancestorGateExprs routing modelDef struct seen =
      firstGate (ownGateExprs routing modelDef source)
        (ancestorGateExprs routing modelDef source (seen.insert struct)) := by
  rw [ancestorGateExprs_of_silent silent, if_neg few, resolved]
  exact if_neg new

/-- More structs than the walk reads stand in `seen` or along its chain. -/
def Capped (routing : NoteRouting) (modelDef : ModelDef S) (struct : S) (seen : List S) : Prop :=
  ∃ read : List S, read.Nodup ∧ ANCESTOR_WALK_MAX_DEPTH < read.length ∧
    ∀ other ∈ read, other ∈ seen ∨ ReflTransGen (QuietLink routing modelDef) struct other

theorem capped_of_lt (once : seen.Nodup)
    (many : ANCESTOR_WALK_MAX_DEPTH < (seen.insert struct).length) :
    Capped routing modelDef struct seen := by
  refine ⟨_, once.insert, many, fun other member => ?_⟩
  rcases List.mem_insert_iff.mp member with rfl | member
  · exact .inr .refl
  · exact .inl member

theorem Capped.head (link : QuietLink routing modelDef struct source)
    (capped : Capped routing modelDef source (seen.insert struct)) :
    Capped routing modelDef struct seen := by
  obtain ⟨read, once, many, along⟩ := capped
  refine ⟨read, once, many, fun other member => ?_⟩
  rcases along other member with before | after
  · rcases List.mem_insert_iff.mp before with rfl | before
    · exact .inr .refl
    · exact .inl before
  · exact .inr (.head link after)

/-- The walk answers the gate at the end of its chain, or denies at its cap. The structs
it has read declare nothing new, and the chain comes back to none. -/
theorem ancestorGateExprs_of_gateAbove (above : GateAbove routing modelDef past last gate)
    (path : ReflTransGen (QuietLink routing modelDef) struct last) (once : seen.Nodup)
    (read : ∀ other ∈ seen.insert struct, past other ∨ ¬ DeclaresOwnGate routing modelDef other)
    (behind : ∀ other ∈ seen, ¬ ReflTransGen (QuietLink routing modelDef) struct other) :
    ancestorGateExprs routing modelDef struct seen = gate ∨
      Capped routing modelDef struct seen ∧
        ancestorGateExprs routing modelDef struct seen = .ok DENY := by
  induction path using ReflTransGen.head_induction_on generalizing seen with
  | refl =>
    cases above with
    | inherited levels =>
      obtain ⟨answer, declares⟩ := levels.inheritedGateExprs_eq
      left
      rw [ancestorGateExprs, inheritsGateExprs, answer]
      exact firstGate_of_ne declares _
    | unresolvable silent broken =>
      left
      rw [ancestorGateExprs_of_silent silent, broken, ite_self]
    | @declared source silent resolved fresh declares =>
      have new : source ∉ seen.insert last := fun known =>
        (read source known).resolve_left fresh declares
      by_cases many : ANCESTOR_WALK_MAX_DEPTH < (seen.insert last).length
      · exact .inr ⟨capped_of_lt once many, ancestorGateExprs_of_many silent many⟩
      · left
        rw [ancestorGateExprs_of_resolved silent many resolved new]
        exact firstGate_of_ne (fun nothing => ownGateExprs_eq_nil_iff.mp nothing declares) _
  | @head struct source link path ih =>
    have new : source ∉ seen.insert struct := by
      intro known
      rcases List.mem_insert_iff.mp known with rfl | known
      · exact above.no_cycle (.head link path) (.single link)
      · exact behind source known (.single link)
    by_cases many : ANCESTOR_WALK_MAX_DEPTH < (seen.insert struct).length
    · exact .inr ⟨capped_of_lt once many, ancestorGateExprs_of_many link.silent many⟩
    rw [ancestorGateExprs_of_resolved link.silent many link.resolved new,
      ownGateExprs_eq_nil_iff.mpr link.quiet, firstGate_nil]
    refine (ih once.insert (fun other member => ?_) fun other member back => ?_).imp_right
      (And.imp_left (Capped.head link))
    · rcases List.mem_insert_iff.mp member with rfl | member
      · exact .inr link.quiet
      · exact read other member
    · rcases List.mem_insert_iff.mp member with rfl | member
      · exact above.no_cycle (.head link path) (.head' link back)
      · exact behind other member (.head link back)

/-- A struct's inherited gate is what the walk answers, unless it denies at its cap. -/
theorem AncestorGate.ancestorGateExprs_eq (ancestor : AncestorGate routing modelDef struct gate) :
    ancestorGateExprs routing modelDef struct [] = gate ∨
      ancestorGateExprs routing modelDef struct [] = .ok DENY := by
  obtain ⟨last, path, above⟩ := ancestor
  refine (ancestorGateExprs_of_gateAbove above path List.nodup_nil (fun other member => .inl ?_)
    fun other member => absurd member List.not_mem_nil).imp_right And.right
  simpa using member

/-- The walk answers nothing but the gate at the end of its chain, or denies at its cap. -/
theorem ancestorGateExprs_sound (once : seen.Nodup) (read : ∀ other, past other → other ∈ seen.insert struct)
    (declares : ancestorGateExprs routing modelDef struct seen ≠ .ok []) :
    (∃ last, ReflTransGen (QuietLink routing modelDef) struct last ∧
        GateAbove routing modelDef past last (ancestorGateExprs routing modelDef struct seen)) ∨
      Capped routing modelDef struct seen ∧
        ancestorGateExprs routing modelDef struct seen = .ok DENY := by
  induction budget : ANCESTOR_WALK_MAX_DEPTH + 1 - (seen.insert struct).length using
    Nat.strong_induction_on generalizing struct seen with
  | h budget ih =>
  by_cases silent : SilentAbove routing modelDef struct
  · by_cases many : ANCESTOR_WALK_MAX_DEPTH < (seen.insert struct).length
    · exact .inr ⟨capped_of_lt once many, ancestorGateExprs_of_many silent many⟩
    have registry := ancestorGateExprs_of_silent silent seen
    rw [if_neg many] at registry
    cases resolved : resolveDeclaredSource modelDef struct with
    | unresolvable =>
      rw [resolved] at registry
      exact .inl ⟨struct, .refl, registry ▸ .unresolvable silent resolved⟩
    | none =>
      rw [resolved] at registry
      exact absurd registry declares
    | resolved source =>
      have new : source ∉ seen.insert struct := by
        intro known
        rw [resolved] at registry
        exact declares (registry.trans (if_pos known))
      rw [ancestorGateExprs_of_resolved silent many resolved new] at declares ⊢
      by_cases gated : DeclaresOwnGate routing modelDef source
      · left
        rw [firstGate_of_ne fun nothing => ownGateExprs_eq_nil_iff.mp nothing gated]
        exact ⟨struct, .refl, .declared silent resolved (fun old => new (read source old)) gated⟩
      · rw [ownGateExprs_eq_nil_iff.mpr gated, firstGate_nil] at declares ⊢
        have link : QuietLink routing modelDef struct source := ⟨silent, resolved, gated⟩
        have longer : ((seen.insert struct).insert source).length =
            (seen.insert struct).length + 1 := List.length_insert_of_not_mem new
        rcases ih _ (by omega) once.insert
            (fun other old => List.mem_insert_of_mem (read other old)) declares rfl with
          ⟨last, path, above⟩ | ⟨capped, denies⟩
        · exact .inl ⟨last, .head link path, above⟩
        · exact .inr ⟨capped.head link, denies⟩
  · have above : inheritsGateExprs routing modelDef struct ≠ .ok [] := fun nothing =>
      silent (inheritsGateExprs_eq_nil_iff.mp nothing)
    left
    rw [ancestorGateExprs, firstGate_of_ne above]
    exact ⟨struct, .refl, .inherited (levelsGate_of_ne_nil above)⟩

/-- The walk denies on a chain of more declarations than it reads. -/
theorem ancestorGateExprs_of_long_chain {chain : List S}
    (links : (struct :: chain).IsChain (QuietLink routing modelDef))
    (silent : ∀ other ∈ struct :: chain, SilentAbove routing modelDef other)
    (once : (struct :: chain).Nodup) (fresh : ∀ other ∈ struct :: chain, other ∉ seen)
    (long : ANCESTOR_WALK_MAX_DEPTH ≤ seen.length + chain.length) :
    ancestorGateExprs routing modelDef struct seen = .ok DENY := by
  have counted {struct : S} {seen : List S} (fresh : struct ∉ seen) :
      (seen.insert struct).length = seen.length + 1 := List.length_insert_of_not_mem fresh
  induction chain generalizing struct seen with
  | nil =>
    apply ancestorGateExprs_of_many (silent struct List.mem_cons_self)
    rw [counted (fresh struct List.mem_cons_self)]
    exact Nat.lt_succ_of_le long
  | cons source chain ih =>
    obtain ⟨link, links⟩ := List.isChain_cons_cons.mp links
    obtain ⟨apart, once⟩ := List.nodup_cons.mp once
    have later : ∀ other ∈ source :: chain, other ∉ seen.insert struct := by
      intro other member known
      rcases List.mem_insert_iff.mp known with rfl | known
      · exact apart member
      · exact fresh other (List.mem_cons_of_mem _ member) known
    by_cases many : ANCESTOR_WALK_MAX_DEPTH < (seen.insert struct).length
    · exact ancestorGateExprs_of_many link.silent many
    rw [ancestorGateExprs_of_resolved link.silent many link.resolved
      (later source List.mem_cons_self), ownGateExprs_eq_nil_iff.mpr link.quiet, firstGate_nil]
    refine ih links (fun other member => silent other (List.mem_cons_of_mem _ member)) once later ?_
    rw [counted (fresh struct List.mem_cons_self), Nat.add_right_comm]
    exact long

end Ancestors

end MalloyPublisher.Gates
