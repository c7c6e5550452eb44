/-
# The chain behind a request-declared entry point

When a model declares a gate, an entry point the request itself declared is admitted
only on a proof that its own declarations lead to model-declared ungated sources. The
walk follows the bases scraped from the request's text and stops at the first name it
cannot place.
-/

import MalloyPublisher.Foundations.Derivation
import MalloyPublisher.Foundations.Worklist

namespace MalloyPublisher.Access

open Foundations Relation

/-- The longest derivation either chain walk follows. -/
def REQUEST_CHAIN_MAX_NAMES : ℕ := 64

/-- Why a chain proves nothing. -/
inductive ChainReason
  | reachesGatedSource
  | chainNotEstablished
  deriving DecidableEq, Repr

section Chain

variable {Gate : Type*}

-- The model's declared sources with their entry-point gates, and the bases the
-- request declares for each name.
variable (entryPointGatesBySource : String → Option (List Gate))
  (basesOf : String → Option (List String))

/-- One turn of the chain walk: a gated source refutes, an ungated one ends its
branch, and a name the request declared leads on to its bases. -/
def visitRequestName (name : String) : Visit String (ChainReason × String) :=
  match entryPointGatesBySource name with
  | some modelGates =>
    if 0 < modelGates.length then .refuse (.reachesGatedSource, name)
    -- The walk stops here and does not follow the author's own derivations.
    else .expand []
  | none =>
    match basesOf name with
    | none => .refuse (.chainNotEstablished, name)
    | some bases =>
      if bases.length = 0 then .refuse (.chainNotEstablished, name) else .expand bases

/-- The walk, with the names it looked up. -/
def requestChain (entryPoint : String) : Except (ChainReason × String) Unit × List String :=
  worklist (visitRequestName entryPointGatesBySource basesOf)
    (fun name => (.chainNotEstablished, name)) REQUEST_CHAIN_MAX_NAMES [] [entryPoint]

/-- Whether the request's declarations establish that the entry point derives only
from model-declared ungated sources; the refusal names its reason and its name. -/
def requestChainProvesUngated (entryPoint : String) : Except (ChainReason × String) Unit :=
  (requestChain entryPointGatesBySource basesOf entryPoint).1

/-! ## What the walk is to prove -/

/-- A derivation step: a name the model does not declare derives from a base the
request declares for it. -/
def Follows (name base : String) : Prop :=
  entryPointGatesBySource name = none ∧ ∃ bases, basesOf name = some bases ∧ base ∈ bases

/-- A model-declared source with at least one gate. -/
def Gated (name : String) : Prop :=
  ∃ gates, entryPointGatesBySource name = some gates ∧ 0 < gates.length

/-- A model-declared source without a gate. -/
def Ungated (name : String) : Prop :=
  ∃ gates, entryPointGatesBySource name = some gates ∧ gates.length = 0

/-- A name the request declares a base for. -/
def HasBase (name : String) : Prop :=
  ∃ bases, basesOf name = some bases ∧ 0 < bases.length

/-- The names the walk can come to. -/
def Reaches (entryPoint name : String) : Prop :=
  ReflTransGen (Follows entryPointGatesBySource basesOf) entryPoint name

/-- At most as many names are reachable as the walk visits. -/
def FewNames (entryPoint : String) : Prop :=
  ∃ names : List String, names.length ≤ REQUEST_CHAIN_MAX_NAMES ∧
    ∀ name, Reaches entryPointGatesBySource basesOf entryPoint name → name ∈ names

/-- Nothing gated is reachable, and every reachable name can be placed. -/
structure Placed (entryPoint : String) : Prop where
  noGated : ∀ name, Reaches entryPointGatesBySource basesOf entryPoint name →
    ¬ Gated entryPointGatesBySource name
  placed : ∀ name, Reaches entryPointGatesBySource basesOf entryPoint name →
    Ungated entryPointGatesBySource name ∨ HasBase basesOf name

/-- The entry point derives only from model-declared ungated sources. -/
structure DerivesFromUngated (entryPoint : String) : Prop
    extends Placed entryPointGatesBySource basesOf entryPoint where
  ends : EndsIn (Follows entryPointGatesBySource basesOf) (Ungated entryPointGatesBySource)
    entryPoint

/-- The walk's answer is a proof of the derivation, is found for every derivation of
few enough names, and takes few enough visits. -/
structure IsProof (entryPoint : String) : Prop where
  sound : requestChainProvesUngated entryPointGatesBySource basesOf entryPoint = .ok () →
    DerivesFromUngated entryPointGatesBySource basesOf entryPoint
  complete : FewNames entryPointGatesBySource basesOf entryPoint →
    DerivesFromUngated entryPointGatesBySource basesOf entryPoint →
    requestChainProvesUngated entryPointGatesBySource basesOf entryPoint = .ok ()
  visits : (requestChain entryPointGatesBySource basesOf entryPoint).2.length ≤
    REQUEST_CHAIN_MAX_NAMES

/-- A cycle of names the request declares can be reached. -/
def ReachesCycle (entryPoint : String) : Prop :=
  ∃ name, Reaches entryPointGatesBySource basesOf entryPoint name ∧
    TransGen (Follows entryPointGatesBySource basesOf) name name

variable {entryPointGatesBySource basesOf} {entryPoint name : String}

/-- The walk expands a name exactly when it can place it without a gate. -/
theorem visitRequestName_expands_iff :
    (∃ next, visitRequestName entryPointGatesBySource basesOf name = .expand next) ↔
      ¬ Gated entryPointGatesBySource name ∧
        (Ungated entryPointGatesBySource name ∨ HasBase basesOf name) := by
  unfold visitRequestName Gated Ungated HasBase
  cases declared : entryPointGatesBySource name with
  | some gates => cases gates <;> simp
  | none =>
    cases read : basesOf name with
    | none => simp
    | some bases => cases bases <;> simp

/-- Along expanded names, the walk's steps are the derivation's. -/
theorem expands_iff_follows :
    Expands (visitRequestName entryPointGatesBySource basesOf) name entryPoint ↔
      Follows entryPointGatesBySource basesOf name entryPoint := by
  unfold Expands visitRequestName Follows
  cases declared : entryPointGatesBySource name with
  | some gates => cases gates <;> simp
  | none =>
    cases read : basesOf name with
    | none => simp
    | some bases => cases bases <;> simp

theorem requestChainProvesUngated_ok_iff :
    requestChainProvesUngated entryPointGatesBySource basesOf entryPoint = .ok () ↔
      FewNames entryPointGatesBySource basesOf entryPoint ∧
        Placed entryPointGatesBySource basesOf entryPoint := by
  have steps : Expands (visitRequestName entryPointGatesBySource basesOf) =
      Follows entryPointGatesBySource basesOf := by
    funext name base
    exact propext expands_iff_follows
  rw [requestChainProvesUngated, requestChain, worklist_accepts_iff, steps]
  refine and_congr_right fun _ => ⟨fun expands => ⟨fun name reach => ?_, fun name reach => ?_⟩,
    fun placed name reach => ?_⟩
  · exact (visitRequestName_expands_iff.mp (expands name reach)).1
  · exact (visitRequestName_expands_iff.mp (expands name reach)).2
  · exact visitRequestName_expands_iff.mpr ⟨placed.noGated name reach, placed.placed name reach⟩

/-- Among placed names only an ungated source ends a path. -/
theorem Placed.ungated_of_deadEnd (placed : Placed entryPointGatesBySource basesOf entryPoint)
    (reach : Reaches entryPointGatesBySource basesOf entryPoint name)
    (deadEnd : DeadEnd (Follows entryPointGatesBySource basesOf) name) :
    Ungated entryPointGatesBySource name := by
  rcases placed.placed name reach with ungated | ⟨bases, read, some⟩
  · exact ungated
  · cases declared : entryPointGatesBySource name with
    | none =>
      obtain ⟨base, member⟩ := List.exists_mem_of_length_pos some
      exact absurd ⟨declared, bases, read, member⟩ (deadEnd base)
    | some gates =>
      refine ⟨gates, declared, ?_⟩
      by_contra gated
      exact placed.noGated name reach ⟨gates, declared, Nat.pos_of_ne_zero gated⟩

/-- The walk is a proof exactly when it is not asked about a cycle: it takes a cycle
of few, placed, request-declared names for a grounded derivation. -/
theorem isProof_iff (entryPointGatesBySource : String → Option (List Gate))
    (basesOf : String → Option (List String)) (entryPoint : String) :
    IsProof entryPointGatesBySource basesOf entryPoint ↔
      ¬ (ReachesCycle entryPointGatesBySource basesOf entryPoint ∧
        FewNames entryPointGatesBySource basesOf entryPoint ∧
        Placed entryPointGatesBySource basesOf entryPoint) := by
  constructor
  · rintro proof ⟨⟨name, reach, cycle⟩, few, placed⟩
    have proven := requestChainProvesUngated_ok_iff.mpr ⟨few, placed⟩
    exact (grounded_iff_endsIn.mpr (proof.sound proven).ends).no_cycle reach cycle
  · intro noCycle
    refine ⟨fun proven => ?_, fun few derives => ?_, ?_⟩
    · obtain ⟨few, placed⟩ := requestChainProvesUngated_ok_iff.mp proven
      obtain ⟨names, -, listed⟩ := id few
      refine ⟨placed, (endsIn_iff_of_finite listed).mpr ⟨fun name reach cycle => ?_, ?_⟩⟩
      · exact noCycle ⟨⟨name, reach, cycle⟩, few, placed⟩
      · exact fun name reach deadEnd => placed.ungated_of_deadEnd reach deadEnd
    · exact requestChainProvesUngated_ok_iff.mpr ⟨few, derives.toPlaced⟩
    · exact length_worklist_le _ _ _ (Nat.zero_le _)

section Cycle

/-- A model with one gated source. -/
def oneGate (name : String) : Option (List String) :=
  if name = "orders" then some ["org_id in $ORGS"] else none

/-- Two request-declared names that derive from each other. -/
def eachOther (name : String) : Option (List String) :=
  if name = "a" then some ["b"] else if name = "b" then some ["a"] else none

theorem not_isProof_of_cycle : ¬ IsProof oneGate eachOther "a" := by
  intro proof
  have proven : requestChainProvesUngated oneGate eachOther "a" = .ok () := by
    simp [requestChainProvesUngated, requestChain, worklist, visitRequestName, oneGate, eachOther,
      REQUEST_CHAIN_MAX_NAMES]
  refine (proof.sound proven).ends.1 ⟨fun i => if i % 2 = 0 then "a" else "b", rfl, fun i => ?_⟩
  rcases Nat.mod_two_eq_zero_or_one i with even | odd
  · have next : (i + 1) % 2 = 1 := by omega
    simp [Follows, oneGate, eachOther, even, next]
  · have next : (i + 1) % 2 = 0 := by omega
    simp [Follows, oneGate, eachOther, odd, next]

end Cycle

end Chain

end MalloyPublisher.Access
