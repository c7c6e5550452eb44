import MalloyPublisher.Gates.RegistryWalk
import MalloyPublisher.Foundations.DepthFirst
import Mathlib.Data.Fin.VecNotation

/-!
# The gates of an entry point

A query is gated by what its entry point declares or inherits, and, where the entry point
is itself derived by a query, by what its base and the composite member that base was
resolved to are gated by. Each declaring source is one entry, and the entries are and-ed:
the notes a composite member copies from the base are read with the base alone.

## Main definitions

* `collectEntryPointGates` — the walk
* `NearestGate` — the gate a struct is read to have, said without the walk
* `GatesFailClosed` — what the entries of a walk owe the graph

## Main results

* `collectEntryPointGates_eq_depthFirst` — the walk visits each struct once, depth first
* `collectEntryPointGates_failsClosed` — on every finite graph it ends and fails closed
-/

namespace MalloyPublisher.Gates

open Foundations Relation

variable {S : Type*}

/-- One gate an entry point carries. -/
structure GateEntry (S : Type*) where
  label : String
  exprs : List String
  selfContained : Bool
  struct : Option S
  deriving DecidableEq, Repr

section Walk

variable [DecidableEq S] (routing : NoteRouting) (modelDef : ModelDef S)

/-- The texts of a struct's own notes, the excluded note objects left out. -/
def textsWithout (excludeNotes : List AnnotationNote) (struct : S) : List String :=
  ((ownNotes modelDef struct).filter (· ∉ excludeNotes)).map AnnotationNote.text

/-- A struct's own disjunction, else its nearest ancestor's, and which of them it is. A
note that does not parse denies. -/
def gateExprsForOwnAnnotations (struct : S) (excludeNotes : List AnnotationNote) :
    List String × Bool :=
  match collectAuthorizeExprs routing (textsWithout modelDef excludeNotes struct) with
  | .error _ => (DENY, false)
  | .ok [] =>
    match ancestorGateExprs routing modelDef struct [] with
    | .error _ => (DENY, false)
    | .ok ancestor => (ancestor, 0 < ancestor.length)
  | .ok own => (own, false)

/-- The name an entry is reported under. -/
def gateLabel (struct : S) : String :=
  (modelDef.struct struct).as?.getD (modelDef.struct struct).name

/-- The entry a struct's own annotations make, if they gate it. -/
def ownGateEntry (entryPointStruct struct : S) (treatAsOwnGate : Bool)
    (excludeNotes : List AnnotationNote) : List (GateEntry S) :=
  let read := gateExprsForOwnAnnotations routing modelDef struct excludeNotes
  if 0 < read.1.length then
    [{ label := gateLabel modelDef struct, exprs := read.1,
       -- A gate carried in from an ancestor was authored elsewhere too.
       selfContained := read.2 || !treatAsOwnGate, struct := some entryPointStruct }]
  else []

/-- The entry that stands for a base nobody could read. -/
def unreadBaseEntry (struct : S) : GateEntry S :=
  { label := gateLabel modelDef struct, exprs := DENY, selfContained := true, struct := none }

/-- The notes a composite member may have copied: its base's own. -/
def copiedNotes (struct : S) : List AnnotationNote :=
  match resolveQuerySourceBase modelDef struct with
  | some base => ownNotes modelDef base
  | none => []

/-- The gates that apply to `struct` as an entry point, over the structs not seen yet.
Answers the entries and the structs seen, or nothing where the fuel runs out. -/
def collectEntryPointGates (entryPointStruct : S) :
    ℕ → S → List S → Bool → List AnnotationNote → Option (List (GateEntry S) × List S)
  | 0, _, _, _, _ => none
  | fuel + 1, struct, seen, treatAsOwnGate, excludeNotes =>
    if struct ∈ seen then some ([], seen)
    else
      let own := ownGateEntry routing modelDef entryPointStruct struct treatAsOwnGate excludeNotes
      if (modelDef.struct struct).type = .querySource then
        let viaBase := match resolveQuerySourceBase modelDef struct with
          | some base => collectEntryPointGates entryPointStruct fuel base (struct :: seen) false []
          | none => some ([unreadBaseEntry modelDef struct], struct :: seen)
        viaBase.bind fun (based, middle) =>
          let viaMember := match (modelDef.struct struct).compositeResolvedSourceDef with
            | some resolved => collectEntryPointGates entryPointStruct fuel resolved middle false
                (copiedNotes modelDef struct)
            | none => some ([], middle)
          viaMember.map fun (branch, later) => (own ++ based ++ branch, later)
      else some (own, struct :: seen)

/-- The gates of an entry point, the walk given fuel for every struct there is. -/
def entryPointGates [Fintype S] (struct : S) : Option (List (GateEntry S)) :=
  (collectEntryPointGates routing modelDef struct (Fintype.card S + 1) struct [] true []).map
    Prod.fst

end Walk

/-! ## What the walk looks for -/

section Spec

variable [DecidableEq S] (routing : NoteRouting) (modelDef : ModelDef S)

/-- A struct's own notes, less the excluded ones, declare a gate. -/
def DeclaresWithout (excludeNotes : List AnnotationNote) (struct : S) : Prop :=
  containsAuthorizeAnnotationTag routing (textsWithout modelDef excludeNotes struct) = true

/-- The gate a struct is read to have: its own, else the nearest above it. -/
inductive NearestGate (excludeNotes : List AnnotationNote) :
    S → Except String (List String) → Prop
  | own {struct : S} (declares : DeclaresWithout routing modelDef excludeNotes struct) :
      NearestGate excludeNotes struct
        (collectAuthorizeExprs routing (textsWithout modelDef excludeNotes struct))
  | ancestor {struct : S} {gate : Except String (List String)}
      (silent : ¬ DeclaresWithout routing modelDef excludeNotes struct)
      (above : AncestorGate routing modelDef struct gate) : NearestGate excludeNotes struct gate

/-- A struct that declares nothing starts a chain of more registry links than are read,
nothing on which declares a gate. -/
structure LongQuietChain (excludeNotes : List AnnotationNote) (struct : S) (chain : List S) :
    Prop where
  silent : ¬ DeclaresWithout routing modelDef excludeNotes struct
  links : (struct :: chain).IsChain (QuietLink routing modelDef)
  silentAbove : ∀ other ∈ struct :: chain, SilentAbove routing modelDef other
  once : (struct :: chain).Nodup
  long : ANCESTOR_WALK_MAX_DEPTH ≤ chain.length

/-- A query's derivation leads from a struct to its base, and to its composite member
less what the base copied there. -/
inductive DerivesFrom : S × List AnnotationNote → S × List AnnotationNote → Prop
  | base {struct base : S} {excludeNotes : List AnnotationNote}
      (resolved : resolveQuerySourceBase modelDef struct = some base) :
      DerivesFrom (struct, excludeNotes) (base, [])
  | member {struct member : S} {excludeNotes : List AnnotationNote}
      (resolved : resolveCompositeResolvedBase modelDef struct = some member) :
      DerivesFrom (struct, excludeNotes) (member, copiedNotes modelDef struct)

/-- The ways a struct is derived from: structs with the notes left out on the way. -/
def Derivation : S × List AnnotationNote → S × List AnnotationNote → Prop :=
  ReflTransGen (DerivesFrom modelDef)

/-- An entry that nobody passes. -/
def Denied (gates : List (GateEntry S)) : Prop := ∃ entry ∈ gates, entry.exprs = DENY

/-- A gate is enforced as an entry of its own, or nobody passes. -/
def Enforced (gates : List (GateEntry S)) (gate : Except String (List String)) : Prop :=
  (∃ entry ∈ gates, gate = .ok entry.exprs) ∨ Denied gates

/-- What the entries of a walk from `start` owe the graph. -/
structure GatesFailClosed (start : S) (gates : List (GateEntry S)) : Prop where
  /-- A struct the entry point derives from is read in one of the ways it is derived. -/
  enforced : ∀ struct way, Derivation modelDef (start, []) (struct, way) →
    ∃ excludeNotes, Derivation modelDef (start, []) (struct, excludeNotes) ∧
      (∀ gate, NearestGate routing modelDef excludeNotes struct gate → Enforced gates gate) ∧
      ∀ chain, LongQuietChain routing modelDef excludeNotes struct chain → Denied gates
  unreadBase : ∀ struct way, Derivation modelDef (start, []) (struct, way) →
    (modelDef.struct struct).type = .querySource →
      resolveQuerySourceBase modelDef struct = none → Denied gates
  /-- No entry mixes two sources' disjunctions. -/
  apart : ∀ entry ∈ gates, entry.exprs = DENY ∨ ∃ struct excludeNotes,
    Derivation modelDef (start, []) (struct, excludeNotes) ∧
      NearestGate routing modelDef excludeNotes struct (.ok entry.exprs)

end Spec

/-! ## The walk is depth first -/

section DepthFirst

variable {routing : NoteRouting} {modelDef : ModelDef S} {entryPointStruct : S}

/-- The structs a visit leads to. -/
def visitNext (modelDef : ModelDef S) (struct : S) (_ : Bool × List AnnotationNote) :
    List (S × (Bool × List AnnotationNote)) :=
  (resolveQuerySourceBase modelDef struct).toList.map (·, (false, [])) ++
    (resolveCompositeResolvedBase modelDef struct).toList.map
      (·, (false, copiedNotes modelDef struct))

theorem derivesFrom_of_childOf {arrival child : S × (Bool × List AnnotationNote)}
    (childOf : ChildOf (visitNext modelDef) arrival child) :
    DerivesFrom modelDef (arrival.1, arrival.2.2) (child.1, child.2.2) := by
  rcases List.mem_append.mp childOf with member | member
  · obtain ⟨base, resolved, rfl⟩ := List.mem_map.mp member
    exact .base (Option.mem_toList.mp resolved)
  · obtain ⟨composite, resolved, rfl⟩ := List.mem_map.mp member
    exact .member (Option.mem_toList.mp resolved)

theorem derivation_of_arrives {start arrival : S × (Bool × List AnnotationNote)}
    (arrives : Arrives (visitNext modelDef) start arrival) :
    Derivation modelDef (start.1, start.2.2) (arrival.1, arrival.2.2) := by
  induction arrives with
  | refl => exact .refl
  | tail _ childOf ih => exact ih.tail (derivesFrom_of_childOf childOf)

/-- Only a query's struct is derived from another. -/
theorem DerivesFrom.type_eq {arrival next : S × List AnnotationNote}
    (derives : DerivesFrom modelDef arrival next) :
    (modelDef.struct arrival.1).type = .querySource := by
  by_contra plain
  cases derives with
  | base resolved => simp [resolveQuerySourceBase, plain] at resolved
  | member resolved => simp [resolveCompositeResolvedBase, plain] at resolved

/-- What a struct is derived from is among the structs its visit leads to. -/
theorem DerivesFrom.mem_visitNext {arrival child : S × List AnnotationNote}
    (derives : DerivesFrom modelDef arrival child) (context : Bool × List AnnotationNote) :
    (child.1, (false, child.2)) ∈ visitNext modelDef arrival.1 context := by
  cases derives with
  | base resolved => exact List.mem_append_left _ (by simp [resolved])
  | member resolved => exact List.mem_append_right _ (by simp [resolved])

variable [DecidableEq S]

/-- What a visit of a struct adds: its own entry, and a denial for an unread base. -/
def visitEntries (routing : NoteRouting) (modelDef : ModelDef S) (entryPointStruct struct : S)
    (context : Bool × List AnnotationNote) : List (GateEntry S) :=
  ownGateEntry routing modelDef entryPointStruct struct context.1 context.2 ++
    if (modelDef.struct struct).type = .querySource ∧
        resolveQuerySourceBase modelDef struct = none then
      [unreadBaseEntry modelDef struct]
    else []

theorem collectEntryPointGates_eq_depthFirst (fuel : ℕ) (struct : S) (seen : List S)
    (treatAsOwnGate : Bool) (excludeNotes : List AnnotationNote) :
    collectEntryPointGates routing modelDef entryPointStruct fuel struct seen treatAsOwnGate
        excludeNotes =
      depthFirst (visitEntries routing modelDef entryPointStruct) (visitNext modelDef) fuel
        (struct, (treatAsOwnGate, excludeNotes)) seen := by
  induction fuel generalizing struct seen treatAsOwnGate excludeNotes with
  | zero => rfl
  | succ fuel ih =>
    rw [collectEntryPointGates, depthFirst]
    split_ifs with known derived
    · rfl
    · have member : resolveCompositeResolvedBase modelDef struct =
          (modelDef.struct struct).compositeResolvedSourceDef := if_pos derived
      simp only [visitNext, visitEntries, member, derived, true_and]
      cases resolveQuerySourceBase modelDef struct <;>
        cases (modelDef.struct struct).compositeResolvedSourceDef <;>
        simp [walkAll, ih, Option.map_eq_bind, Option.bind_assoc]
    · have base : resolveQuerySourceBase modelDef struct = none := if_neg derived
      have member : resolveCompositeResolvedBase modelDef struct = none := if_neg derived
      simp [visitNext, visitEntries, base, member, derived, walkAll]

end DepthFirst

/-! ## What a struct's annotations are read as -/

section Reading

variable {routing : NoteRouting} {modelDef : ModelDef S}
variable {struct : S} {excludeNotes : List AnnotationNote} {gate : Except String (List String)}

theorem collectAuthorizeExprs_textsWithout_eq_nil_iff :
    collectAuthorizeExprs routing (textsWithout modelDef excludeNotes struct) = .ok [] ↔
      ¬ DeclaresWithout routing modelDef excludeNotes struct := by
  rw [collectAuthorizeExprs_eq_nil_iff, DeclaresWithout, Bool.not_eq_true]

variable [DecidableEq S]

/-- What cannot be read denies. -/
def orDeny : Except String (List String) → List String
  | .ok exprs => exprs
  | .error _ => DENY

/-- A struct's own disjunction, else its nearest ancestor's. -/
def gateReading (routing : NoteRouting) (modelDef : ModelDef S) (struct : S)
    (excludeNotes : List AnnotationNote) : Except String (List String) :=
  firstGate (collectAuthorizeExprs routing (textsWithout modelDef excludeNotes struct))
    (ancestorGateExprs routing modelDef struct [])

theorem gateExprsForOwnAnnotations_fst :
    (gateExprsForOwnAnnotations routing modelDef struct excludeNotes).1 =
      orDeny (gateReading routing modelDef struct excludeNotes) := by
  unfold gateExprsForOwnAnnotations gateReading
  cases collectAuthorizeExprs routing (textsWithout modelDef excludeNotes struct) with
  | error reason => rfl
  | ok own =>
    cases own with
    | nil => cases ancestorGateExprs routing modelDef struct [] <;> rfl
    | cons expr own => rfl

theorem NearestGate.gateReading_eq
    (nearest : NearestGate routing modelDef excludeNotes struct gate) :
    (gateReading routing modelDef struct excludeNotes = gate ∨
      gateReading routing modelDef struct excludeNotes = .ok DENY) ∧ gate ≠ .ok [] := by
  unfold gateReading
  cases nearest with
  | own declares =>
    have nonempty := mt collectAuthorizeExprs_textsWithout_eq_nil_iff.mp (not_not_intro declares)
    exact ⟨.inl (firstGate_of_ne nonempty _), nonempty⟩
  | ancestor silent above =>
    rw [collectAuthorizeExprs_textsWithout_eq_nil_iff.mpr silent, firstGate_nil]
    obtain ⟨last, path, gateAbove⟩ := id above
    exact ⟨above.ancestorGateExprs_eq, gateAbove.ne_nil⟩

theorem nearestGate_of_ne_nil (declares : gateReading routing modelDef struct excludeNotes ≠ .ok []) :
    NearestGate routing modelDef excludeNotes struct
        (gateReading routing modelDef struct excludeNotes) ∨
      gateReading routing modelDef struct excludeNotes = .ok DENY := by
  unfold gateReading at declares ⊢
  by_cases own : DeclaresWithout routing modelDef excludeNotes struct
  · rw [firstGate_of_ne (mt collectAuthorizeExprs_textsWithout_eq_nil_iff.mp (not_not_intro own))]
    exact .inl (.own own)
  · rw [collectAuthorizeExprs_textsWithout_eq_nil_iff.mpr own, firstGate_nil] at declares ⊢
    have started : ∀ other, other = struct → other ∈ ([] : List S).insert struct := by
      rintro _ rfl
      exact List.mem_insert_self
    rcases ancestorGateExprs_sound List.nodup_nil started declares with
      ⟨last, path, above⟩ | ⟨-, denies⟩
    · exact .inl (.ancestor own ⟨last, path, above⟩)
    · exact .inr denies

theorem LongQuietChain.gateReading_eq {chain : List S}
    (quiet : LongQuietChain routing modelDef excludeNotes struct chain) :
    gateReading routing modelDef struct excludeNotes = .ok DENY := by
  rw [gateReading, collectAuthorizeExprs_textsWithout_eq_nil_iff.mpr quiet.silent, firstGate_nil]
  refine ancestorGateExprs_of_long_chain quiet.links quiet.silentAbove quiet.once
    (fun _ _ => List.not_mem_nil) ?_
  rw [List.length_nil, Nat.zero_add]
  exact quiet.long

variable {entryPointStruct : S} {treatAsOwnGate : Bool}

theorem exprs_of_mem_ownGateEntry {entry : GateEntry S}
    (member : entry ∈ ownGateEntry routing modelDef entryPointStruct struct treatAsOwnGate
      excludeNotes) :
    entry.exprs = orDeny (gateReading routing modelDef struct excludeNotes) ∧ entry.exprs ≠ [] := by
  rw [← gateExprsForOwnAnnotations_fst]
  simp only [ownGateEntry] at member
  split_ifs at member with gated
  · rw [List.mem_singleton.mp member]
    exact ⟨rfl, List.ne_nil_of_length_pos gated⟩
  · cases member

theorem exists_mem_ownGateEntry (entryPointStruct : S) (treatAsOwnGate : Bool)
    (declares : gateReading routing modelDef struct excludeNotes ≠ .ok []) :
    ∃ entry ∈ ownGateEntry routing modelDef entryPointStruct struct treatAsOwnGate excludeNotes,
      entry.exprs = orDeny (gateReading routing modelDef struct excludeNotes) := by
  have gated : orDeny (gateReading routing modelDef struct excludeNotes) ≠ [] := by
    cases reading : gateReading routing modelDef struct excludeNotes with
    | error reason => simp [orDeny, DENY]
    | ok exprs => simpa [orDeny, reading] using declares
  unfold ownGateEntry
  rw [← gateExprsForOwnAnnotations_fst] at gated ⊢
  rw [if_pos (List.length_pos_of_ne_nil gated)]
  exact ⟨_, List.mem_singleton_self _, rfl⟩

variable {gates : List (GateEntry S)}

/-- A struct's entry enforces its gate. -/
theorem NearestGate.enforced (nearest : NearestGate routing modelDef excludeNotes struct gate)
    (collected : ∀ entry ∈ ownGateEntry routing modelDef entryPointStruct struct treatAsOwnGate
      excludeNotes, entry ∈ gates) : Enforced gates gate := by
  obtain ⟨reading, declares⟩ := nearest.gateReading_eq
  have nonempty : gateReading routing modelDef struct excludeNotes ≠ .ok [] := by
    rcases reading with same | denies
    · exact same ▸ declares
    · simp [denies, DENY]
  obtain ⟨entry, member, exprs⟩ := exists_mem_ownGateEntry entryPointStruct treatAsOwnGate nonempty
  rcases reading with rfl | denies
  · cases found : gateReading routing modelDef struct excludeNotes with
    | error reason => exact .inr ⟨entry, collected entry member, by rw [exprs, found, orDeny]⟩
    | ok own => exact .inl ⟨entry, collected entry member, by rw [exprs, found, orDeny]⟩
  · exact .inr ⟨entry, collected entry member, by rw [exprs, denies, orDeny]⟩

end Reading

/-! ## The walk fails closed -/

section FailsClosed

variable [DecidableEq S] {routing : NoteRouting} {modelDef : ModelDef S} {start struct : S}
variable {entryPointStruct : S} {context : Bool × List AnnotationNote} {seen : List S}
variable {gates : List (GateEntry S)}

/-- A walk reaches everything its start derives from. -/
theorem mem_of_derivation {visited : S × List AnnotationNote}
    (walked : Walked (visitEntries routing modelDef entryPointStruct) (visitNext modelDef)
      [(start, context)] [] gates seen)
    (derivation : Derivation modelDef (start, context.2) visited) : visited.1 ∈ seen := by
  induction derivation with
  | refl => exact walked.started _ List.mem_cons_self
  | tail _ step ih =>
    obtain ⟨_, _, reached, _, _, closed⟩ := walked.visited _ ih List.not_mem_nil
    exact closed _ (step.mem_visitNext reached)

theorem gatesFailClosed_of_walked {own : Bool}
    (walked : Walked (visitEntries routing modelDef entryPointStruct) (visitNext modelDef)
      [(start, (own, []))] [] gates seen) :
    GatesFailClosed routing modelDef start gates where
  enforced struct way derivation := by
    obtain ⟨_, here, ⟨own, excludeNotes⟩, arrives, emits, -⟩ :=
      walked.visited struct (mem_of_derivation walked derivation) List.not_mem_nil
    rw [List.mem_singleton.mp here] at arrives
    have collected : ∀ entry ∈ ownGateEntry routing modelDef entryPointStruct struct own
        excludeNotes, entry ∈ gates := fun entry member => emits entry (List.mem_append_left _ member)
    refine ⟨excludeNotes, derivation_of_arrives arrives, fun gate nearest =>
      nearest.enforced collected, fun chain quiet => ?_⟩
    have denies := quiet.gateReading_eq
    obtain ⟨entry, member, exprs⟩ :=
      exists_mem_ownGateEntry entryPointStruct own (by rw [denies]; simp [DENY])
    exact ⟨entry, collected entry member, by rw [exprs, denies, orDeny]⟩
  unreadBase struct way derivation derived unread := by
    obtain ⟨_, _, context, -, emits, -⟩ :=
      walked.visited struct (mem_of_derivation walked derivation) List.not_mem_nil
    refine ⟨_, emits (unreadBaseEntry modelDef struct) (List.mem_append_right _ ?_), rfl⟩
    rw [if_pos ⟨derived, unread⟩]
    exact List.mem_singleton_self _
  apart entry member := by
    obtain ⟨_, here, struct, ⟨own, excludeNotes⟩, arrives, emitted⟩ := walked.source entry member
    rw [List.mem_singleton.mp here] at arrives
    rcases List.mem_append.mp emitted with ownEntry | unread
    · obtain ⟨exprs, nonempty⟩ := exprs_of_mem_ownGateEntry ownEntry
      cases reading : gateReading routing modelDef struct excludeNotes with
      | error reason => exact .inl (by rw [exprs, reading, orDeny])
      | ok gate =>
        have same : entry.exprs = gate := by rw [exprs, reading, orDeny]
        have declares : gateReading routing modelDef struct excludeNotes ≠ .ok [] := by
          simpa [reading, same] using nonempty
        rcases nearestGate_of_ne_nil declares with nearest | denies
        · rw [reading, ← same] at nearest
          exact .inr ⟨struct, excludeNotes, derivation_of_arrives arrives, nearest⟩
        · rw [reading, ← same] at denies
          exact .inl (Except.ok.inj denies)
    · split_ifs at unread with derived
      · rw [List.mem_singleton.mp unread]
        exact .inl rfl
      · cases unread

/-- The gate walk of an entry point ends on every finite graph. -/
theorem collectEntryPointGates_walked [Fintype S] (treatAsOwnGate : Bool) {fuel : ℕ}
    (enough : Fintype.card S < fuel) :
    ∃ gates seen, collectEntryPointGates routing modelDef start fuel start [] treatAsOwnGate [] =
        some (gates, seen) ∧
      Walked (visitEntries routing modelDef start) (visitNext modelDef)
        [(start, (treatAsOwnGate, []))] [] gates seen := by
  have total : unseen ([] : List S) < fuel := (Finset.card_le_univ _).trans_lt enough
  have ends : (collectEntryPointGates routing modelDef start fuel start [] treatAsOwnGate
      []).isSome := by
    rw [collectEntryPointGates_eq_depthFirst]
    exact depthFirst_isSome _ total
  obtain ⟨⟨gates, seen⟩, answered⟩ := Option.isSome_iff_exists.mp ends
  have walked := answered
  rw [collectEntryPointGates_eq_depthFirst] at walked
  exact ⟨gates, seen, answered, depthFirst_walked walked⟩

/-- The gate walk of an entry point ends on every finite graph, and fails closed. -/
theorem collectEntryPointGates_failsClosed [Fintype S] (treatAsOwnGate : Bool) {fuel : ℕ}
    (enough : Fintype.card S < fuel) :
    ∃ gates seen, collectEntryPointGates routing modelDef start fuel start [] treatAsOwnGate [] =
        some (gates, seen) ∧ GatesFailClosed routing modelDef start gates := by
  obtain ⟨gates, seen, answered, walked⟩ := collectEntryPointGates_walked treatAsOwnGate enough
  exact ⟨gates, seen, answered, gatesFailClosed_of_walked walked⟩

end FailsClosed

/-! ## Where a walk leaves a gate alone -/

/-- The routing of `#(authorize)` notes. -/
def authorizeNotes : NoteRouting where
  routeOf text :=
    if "#(authorize)".toList.isPrefixOf text.toList then some AUTHORIZE_ROUTE else none
  payloadOf text := some (String.ofList (text.toList.drop 12))

def adminNote : AnnotationNote := { id := 0, text := "#(authorize) $ROLE = 'admin'" }

def staffNote : AnnotationNote := { id := 1, text := "#(authorize) $ROLE = 'staff'" }

/-- A gated source whose registry entry names nothing. -/
def brokenLink : ModelDef (Fin 1) where
  struct _ := { type := .source, name := "orders", sourceID := some "orders@m",
                annotations := [⟨[adminNote], []⟩] }
  contents := [("orders", 0)]
  sourceRegistry := [("orders@m", .reference "gone")]

/-- A query over the open source 2, linked to a query over the gated source 3. -/
def linkedQueries : ModelDef (Fin 4) where
  struct := ![
    { type := .querySource, name := "mine", sourceID := some "theirs@m", structRef := .inline 2 },
    { type := .querySource, name := "theirs", structRef := .inline 3 },
    { type := .source, name := "open" },
    { type := .source, name := "locked", annotations := [⟨[adminNote], []⟩] }]
  contents := [("mine", 0), ("theirs", 1)]
  sourceRegistry := [("theirs@m", .definition 1)]

/-- A query over the query 1 and resolved to member 3. So is 1, whose base 2 copied its
note there. -/
def sharedMember : ModelDef (Fin 4) where
  struct := ![
    { type := .querySource, name := "outer", structRef := .inline 1,
      compositeResolvedSourceDef := some 3 },
    { type := .querySource, name := "inner", structRef := .inline 2,
      compositeResolvedSourceDef := some 3 },
    { type := .source, name := "base", annotations := [⟨[adminNote], []⟩] },
    { type := .source, name := "member", annotations := [⟨[adminNote, staffNote], []⟩] }]
  contents := [("outer", 0)]
  sourceRegistry := []

/-- A gate of its own stands before a link nobody can read; what a linked query is a query
of is not followed; and a member reached twice is read as on the first way to it. -/
theorem gates_left_alone :
    (resolveDeclaredSource brokenLink 0 = .unresolvable ∧
      (entryPointGates authorizeNotes brokenLink 0).map (·.map GateEntry.exprs) =
        some [["$ROLE = 'admin'"]]) ∧
    (resolveDeclaredSource linkedQueries 0 = .resolved 1 ∧
      resolveQuerySourceBase linkedQueries 1 = some 3 ∧
      ownGateExprs authorizeNotes linkedQueries 3 = .ok ["$ROLE = 'admin'"] ∧
      entryPointGates authorizeNotes linkedQueries 0 = some []) ∧
    resolveCompositeResolvedBase sharedMember 0 = some 3 ∧
      ownGateExprs authorizeNotes sharedMember 3 = .ok ["$ROLE = 'admin'", "$ROLE = 'staff'"] ∧
      (entryPointGates authorizeNotes sharedMember 0).map (·.map GateEntry.exprs) =
        some [["$ROLE = 'admin'"], ["$ROLE = 'staff'"]] := by
  decide +kernel

theorem sharedMember_failsClosed :
    ∃ gates seen, collectEntryPointGates authorizeNotes sharedMember 0 5 0 [] true [] =
        some (gates, seen) ∧ GatesFailClosed authorizeNotes sharedMember 0 gates :=
  collectEntryPointGates_failsClosed true (by decide)

end MalloyPublisher.Gates
