import MalloyPublisher.Gates.EntryPointGates

/-!
# The gates a package load validates

Loading a package validates the gates a source inherits with a walk of its own. It follows
the same links as the walk that serves a request, but it stops at the first gate it comes
to, keeps no record of the gated structs it passed and shares its visited structs with the
registry walk below it. The two still find the same disjunctions where a derived query has
no registry link and no struct is read in two ways.

## Main definitions

* `effectiveAncestorGateExprs` — the load walk
* `LoadPremises` — what the two walks need of the graph to agree

## Main results

* `effectiveAncestorGateExprs_agrees` — the groups that are validated are those enforced
-/

namespace MalloyPublisher.Gates

open Foundations Relation

variable {S : Type*}

/-- What the load walk answers: its groups and the structs seen, or why a note is refused. -/
abbrev GroupsRead (S : Type*) := Except String (List (List String) × List S)

/-- One derivation hop: a target's own disjunction, else what a walk from it finds. -/
def hopGroups [DecidableEq S] (own : Except String (List String)) (walk : S → List S → Option (GroupsRead S))
    (target : S) (seen : List S) : Option (GroupsRead S) :=
  if target ∈ seen then some (.ok ([], seen))
  else
    match own with
    | .error reason => some (.error reason)
    | .ok [] => walk target seen
    | .ok ownExprs => some (.ok ([ownExprs], seen))

section Walk

variable [DecidableEq S] (routing : NoteRouting) (modelDef : ModelDef S)

/-- What an unresolved base adds: a denial, where there should have been one. -/
def unreadBaseGroups (struct : S) : List (List String) :=
  if (modelDef.struct struct).type = .querySource then [DENY] else []

/-- The gates a struct inherits, one group for each source that declares one, over the
structs not seen yet; nothing where the fuel runs out. -/
def effectiveAncestorGateExprs : ℕ → S → List S → Option (GroupsRead S)
  | 0, _, _ => none
  | fuel + 1, struct, seen =>
    match ancestorGateExprs routing modelDef struct seen with
    | .error reason => some (.error reason)
    | .ok (expr :: exprs) => some (.ok ([expr :: exprs], seen))
    | .ok [] =>
      if struct ∈ seen then some (.ok ([], seen))
      else
        let viaBase := match resolveQuerySourceBase modelDef struct with
          | some base => hopGroups (ownGateExprs routing modelDef base)
              (effectiveAncestorGateExprs fuel) base (struct :: seen)
          | none => some (.ok (unreadBaseGroups modelDef struct, struct :: seen))
        viaBase.bind fun
          | .error reason => some (.error reason)
          | .ok (based, middle) =>
            let viaMember := match resolveCompositeResolvedBase modelDef struct with
              | some composite => hopGroups (collectAuthorizeExprs routing
                  (textsWithout modelDef (copiedNotes modelDef struct) composite))
                  (effectiveAncestorGateExprs fuel) composite middle
              | none => some (.ok ([], middle))
            viaMember.map (Except.map fun (branch, later) => (based ++ branch, later))

end Walk

/-! ## When the walks agree -/

section Premises

variable [DecidableEq S] (routing : NoteRouting) (modelDef : ModelDef S)

/-- A link along which either walk reads notes: a derivation hop or a registry link. -/
inductive ReadsFrom : S × List AnnotationNote → S × List AnnotationNote → Prop
  | derives {arrival next : S × List AnnotationNote} (derives : DerivesFrom modelDef arrival next) :
      ReadsFrom arrival next
  | registry {struct source : S} {excludeNotes : List AnnotationNote}
      (resolved : resolveDeclaredSource modelDef struct = .resolved source) :
      ReadsFrom (struct, excludeNotes) (source, [])

/-- What is read from a start, and in which way. -/
def ReadFrom : S × List AnnotationNote → S × List AnnotationNote → Prop :=
  ReflTransGen (ReadsFrom modelDef)

/-- The graphs the load walk reads as the request walk does. -/
structure LoadPremises (start : S) : Prop where
  /-- A query's struct carries no annotations. -/
  bare : ∀ struct, (modelDef.struct struct).type = .querySource →
    (modelDef.struct struct).annotations = []
  parses : ∀ struct, ∀ level ∈ (modelDef.struct struct).annotations,
    ∀ text ∈ ownLevelNoteTexts [level], ∃ expr, parseAuthorizeAnnotation routing text = .ok expr
  ungated : ¬ DeclaresOwnGate routing modelDef start
  /-- The registry's entry for a query's struct is that struct. -/
  elided : ∀ struct, (modelDef.struct struct).type = .querySource →
    resolveDeclaredSource modelDef struct = .none
  few : ∃ names : List S, names.length ≤ ANCESTOR_WALK_MAX_DEPTH ∧
    ∀ struct way, ReadFrom modelDef (start, []) (struct, way) → struct ∈ names
  /-- No struct is read to declare one thing on one way and another on another. -/
  agree : ∀ struct way way', ReadFrom modelDef (start, []) (struct, way) →
    ReadFrom modelDef (start, []) (struct, way') →
      collectAuthorizeExprs routing (textsWithout modelDef way struct) =
        collectAuthorizeExprs routing (textsWithout modelDef way' struct)

end Premises

/-! ## Readings -/

section Readings

variable {routing : NoteRouting} {modelDef : ModelDef S} {start struct last : S}
variable {way : List AnnotationNote} {seen : List S} {gate : Except String (List String)}

theorem textsWithout_nil : textsWithout modelDef [] struct =
    ownLevelNoteTexts (modelDef.struct struct).annotations := by
  simp [textsWithout, ownNotes, ownLevelNoteTexts]

theorem mem_level_of_mem_textsWithout {text : String} (member : text ∈ textsWithout modelDef way struct) :
    ∃ level ∈ (modelDef.struct struct).annotations, text ∈ ownLevelNoteTexts [level] := by
  obtain ⟨note, listed, rfl⟩ := List.mem_map.mp member
  have own := List.mem_of_mem_filter listed
  unfold ownNotes at own
  cases annotations : (modelDef.struct struct).annotations with
  | nil => rw [annotations] at own; cases own
  | cons level above =>
    rw [annotations] at own
    exact ⟨level, List.mem_cons_self, List.mem_map_of_mem own⟩

variable [DecidableEq S]

theorem Derivation.readFrom {arrival next : S × List AnnotationNote}
    (derivation : Derivation modelDef arrival next) : ReadFrom modelDef arrival next := by
  induction derivation with
  | refl => exact .refl
  | tail _ step ih => exact ih.tail (.derives step)

/-- What a chain of quiet links leads to is read from where it starts. -/
theorem readFrom_of_quietLinks (path : ReflTransGen (QuietLink routing modelDef) struct last)
    (read : ReadFrom modelDef (start, []) (struct, way)) :
    ∃ way, ReadFrom modelDef (start, []) (last, way) := by
  induction path with
  | refl => exact ⟨way, read⟩
  | tail _ link ih =>
    obtain ⟨way, read⟩ := ih
    exact ⟨[], read.tail (.registry link.resolved)⟩

/-- A gate above a struct is one above it for whoever has not read its source. -/
theorem GateAbove.of_fresh {past past' : S → Prop}
    (above : GateAbove routing modelDef past last gate)
    (fresh : ∀ source, resolveDeclaredSource modelDef last = .resolved source →
      DeclaresOwnGate routing modelDef source → ¬ past' source) :
    GateAbove routing modelDef past' last gate := by
  cases above with
  | inherited levels => exact .inherited levels
  | unresolvable silent broken => exact .unresolvable silent broken
  | declared silent resolved new declares =>
    exact .declared silent resolved (fresh _ resolved declares) declares

variable (premises : LoadPremises routing modelDef start)

include premises

theorem LoadPremises.collect_ok (struct : S) (way : List AnnotationNote) :
    ∃ exprs, collectAuthorizeExprs routing (textsWithout modelDef way struct) = .ok exprs := by
  refine exists_collectAuthorizeExprs routing fun text member => ?_
  obtain ⟨level, among, listed⟩ := mem_level_of_mem_textsWithout member
  exact premises.parses struct level among text listed

theorem LoadPremises.gateAbove_ok {past : S → Prop}
    (above : GateAbove routing modelDef past struct gate) : ∃ exprs, gate = .ok exprs := by
  cases above with
  | inherited levels =>
    generalize chain : inherits (modelDef.struct struct).annotations = inherited at levels
    cases levels with
    | @declared before after level near silent declares =>
      refine exists_collectAuthorizeExprs routing (premises.parses struct level ?_)
      apply List.mem_of_mem_tail
      rw [← inherits, chain]
      simp
    | unread long silent => exact ⟨_, rfl⟩
  | unresolvable silent broken => exact ⟨_, rfl⟩
  | @declared source silent resolved new declares =>
    rw [ownGateExprs, ← textsWithout_nil]
    exact premises.collect_ok source []

theorem LoadPremises.gateReading_ok (struct : S) (way : List AnnotationNote) :
    ∃ exprs, gateReading routing modelDef struct way = .ok exprs := by
  by_cases nothing : gateReading routing modelDef struct way = .ok []
  · exact ⟨[], nothing⟩
  · rcases nearestGate_of_ne_nil nothing with nearest | denies
    · generalize gateReading routing modelDef struct way = gate at nearest
      cases nearest with
      | own declares => exact premises.collect_ok struct way
      | ancestor silent above =>
        obtain ⟨last, path, above⟩ := above
        exact premises.gateAbove_ok above
    · exact ⟨DENY, denies⟩

/-- A query's struct has no gate but what it derives from. -/
theorem LoadPremises.gateReading_of_querySource
    (derived : (modelDef.struct struct).type = .querySource) (way : List AnnotationNote) :
    gateReading routing modelDef struct way = .ok [] := by
  have bare := premises.bare struct derived
  have nothing : textsWithout modelDef way struct = [] := by
    simp [textsWithout, ownNotes, bare, ownLevelNotes]
  have silent : SilentAbove routing modelDef struct := by
    simp [SilentAbove, Silent, inherits, bare]
  rw [gateReading, nothing, collectAuthorizeExprs, firstGate_nil,
    ancestorGateExprs_of_silent silent, premises.elided struct derived]
  exact ite_cond_eq_false _ _ (by simp [ANCESTOR_WALK_MAX_DEPTH])

/-- The structs a load walk has passed: each was read to declare nothing. -/
structure Passed (routing : NoteRouting) (modelDef : ModelDef S) (start : S) (seen : List S) :
    Prop where
  once : seen.Nodup
  silent : ∀ struct ∈ seen, ∃ way, ReadFrom modelDef (start, []) (struct, way) ∧
    gateReading routing modelDef struct way = .ok []

omit premises in
theorem gateReading_eq_nil_iff : gateReading routing modelDef struct way = .ok [] ↔
    ¬ DeclaresWithout routing modelDef way struct ∧
      ancestorGateExprs routing modelDef struct [] = .ok [] := by
  unfold gateReading
  rw [← collectAuthorizeExprs_textsWithout_eq_nil_iff]
  by_cases own : collectAuthorizeExprs routing (textsWithout modelDef way struct) = .ok []
  · rw [own, firstGate_nil]
    simp
  · rw [firstGate_of_ne own]
    simp [own]

/-- A struct that was passed declares nothing to whoever reads it through the registry. -/
theorem LoadPremises.not_passed (passed : Passed routing modelDef start seen) {source : S}
    (read : ReadFrom modelDef (start, []) (source, []))
    (declares : DeclaresOwnGate routing modelDef source) : source ∉ seen := by
  intro known
  obtain ⟨way, read', silent⟩ := passed.silent source known
  have own := collectAuthorizeExprs_textsWithout_eq_nil_iff.mpr (gateReading_eq_nil_iff.mp silent).1
  rw [premises.agree source way [] read' read, textsWithout_nil] at own
  exact ownGateExprs_eq_nil_iff.mp own declares

/-- No walk of these graphs comes to its cap. -/
theorem LoadPremises.not_capped (passed : Passed routing modelDef start seen)
    (read : ReadFrom modelDef (start, []) (struct, way)) : ¬ Capped routing modelDef struct seen := by
  rintro ⟨along, once, many, covered⟩
  obtain ⟨names, few, listed⟩ := premises.few
  have fits : along.length ≤ names.length := by
    refine (once.subperm fun other member => ?_).length_le
    rcases covered other member with known | path
    · obtain ⟨way, read, -⟩ := passed.silent other known
      exact listed other way read
    · obtain ⟨way, read⟩ := readFrom_of_quietLinks path read
      exact listed other way read
  omega

/-- What was passed does not change what the registry walk answers. -/
theorem LoadPremises.ancestorGateExprs_eq (passed : Passed routing modelDef start seen)
    (read : ReadFrom modelDef (start, []) (struct, way)) :
    ancestorGateExprs routing modelDef struct seen =
      ancestorGateExprs routing modelDef struct [] := by
  have nobody : Passed routing modelDef start [] := ⟨List.nodup_nil, by simp⟩
  -- A gate the chain leads to is answered whatever was passed.
  have answered (gate : Except String (List String)) (last : S)
      (path : ReflTransGen (QuietLink routing modelDef) struct last)
      (above : GateAbove routing modelDef (· = struct) last gate) :
      ancestorGateExprs routing modelDef struct seen = gate := by
    have fresh (source : S) (resolved : resolveDeclaredSource modelDef last = .resolved source)
        (declares : DeclaresOwnGate routing modelDef source) : source ∉ seen := by
      obtain ⟨way, read⟩ := readFrom_of_quietLinks path read
      exact premises.not_passed passed (read.tail (.registry resolved)) declares
    have aboveNew : GateAbove routing modelDef (· ∈ seen.insert struct) last gate := by
      cases above with
      | inherited levels => exact .inherited levels
      | unresolvable silent broken => exact .unresolvable silent broken
      | declared silent resolved other declares =>
        refine .declared silent resolved (fun known => ?_) declares
        rcases List.mem_insert_iff.mp known with rfl | known
        · exact other rfl
        · exact fresh _ resolved declares known
    refine (ancestorGateExprs_of_gateAbove aboveNew path passed.once (fun _ known => .inl known)
      fun other known back => ?_).resolve_right
        fun capped => premises.not_capped passed read capped.1
    -- A passed struct on the chain would inherit the gate at its end itself.
    have ahead : ReflTransGen (QuietLink routing modelDef) other last := by
      rcases ReflTransGen.total_of_right_unique (fun _ _ _ link link' => link.eq link') back path
        with ahead | behind
      · exact ahead
      · rcases behind.cases_head with rfl | ⟨next, link, -⟩
        · exact .refl
        · exact absurd link (above.deadEnd next)
    have inherits : AncestorGate routing modelDef other gate :=
      ⟨last, ahead, above.of_fresh fun source resolved declares same =>
        fresh source resolved declares (same ▸ known)⟩
    obtain ⟨_, -, silent⟩ := passed.silent other known
    have nothing := (gateReading_eq_nil_iff.mp silent).2
    rcases inherits.ancestorGateExprs_eq with gives | denies
    · exact above.ne_nil (gives.symm.trans nothing)
    · rw [nothing] at denies
      simp [DENY] at denies
  by_cases nothing : ancestorGateExprs routing modelDef struct [] = .ok []
  · rw [nothing]
    by_contra declares
    have started : ∀ other, other = struct → other ∈ seen.insert struct := by
      rintro _ rfl
      exact List.mem_insert_self
    rcases ancestorGateExprs_sound passed.once started declares with ⟨last, path, above⟩ | ⟨capped, -⟩
    · rcases AncestorGate.ancestorGateExprs_eq ⟨last, path, above⟩ with gives | denies
      · exact declares (gives.symm.trans nothing)
      · rw [nothing] at denies
        simp [DENY] at denies
    · exact premises.not_capped passed read capped
  · have started : ∀ other, other = struct → other ∈ ([] : List S).insert struct := by
      rintro _ rfl
      exact List.mem_insert_self
    rcases ancestorGateExprs_sound List.nodup_nil started nothing with ⟨last, path, above⟩ | ⟨capped, -⟩
    · exact answered _ last path above
    · exact absurd capped (premises.not_capped nobody read)

end Readings

/-! ## What a load walk has done -/

section Loaded

variable [DecidableEq S] (routing : NoteRouting) (modelDef : ModelDef S)

/-- A query reached from the start whose base cannot be read. -/
def UnreadBase (start struct : S) : Prop :=
  (∃ way, Derivation modelDef (start, []) (struct, way)) ∧
    (modelDef.struct struct).type = .querySource ∧ resolveQuerySourceBase modelDef struct = none

/-- A disjunction that what the start derives from is read to have. -/
def ReadGroup (start : S) (exprs : List String) : Prop :=
  (∃ struct way, Derivation modelDef (start, []) (struct, way) ∧
      gateReading routing modelDef struct way = .ok exprs ∧ exprs ≠ []) ∨
    exprs = DENY ∧ ∃ struct, UnreadBase modelDef start struct

/-- A struct has been passed, or its gate is among the groups. -/
def Settled (groups : List (List String)) (seen : List S) (arrival : S × List AnnotationNote) :
    Prop :=
  arrival.1 ∈ seen ∨ ∃ exprs ∈ groups, exprs ≠ [] ∧
    gateReading routing modelDef arrival.1 arrival.2 = .ok exprs

/-- What a load walk from `starts` past the structs in `seen` has done. -/
structure Loaded (start : S) (starts : List (S × List AnnotationNote)) (seen : List S)
    (groups : List (List String)) (later : List S) : Prop where
  once : later.Nodup
  mono : ∀ struct ∈ seen, struct ∈ later
  started : ∀ arrival ∈ starts, Settled routing modelDef groups later arrival
  silent : ∀ struct ∈ later, struct ∉ seen →
    (∃ way, Derivation modelDef (start, []) (struct, way) ∧
      gateReading routing modelDef struct way = .ok []) ∧
    (UnreadBase modelDef start struct → DENY ∈ groups) ∧
    ∀ way next, DerivesFrom modelDef (struct, way) next → Settled routing modelDef groups later next
  sound : ∀ exprs ∈ groups, ReadGroup routing modelDef start exprs

variable {routing modelDef} {start struct : S} {starts starts' : List (S × List AnnotationNote)}
variable {seen middle later : List S} {groups groups' : List (List String)}
variable {way : List AnnotationNote}

theorem Settled.mono {arrival : S × List AnnotationNote}
    (settled : Settled routing modelDef groups seen arrival)
    (more : ∀ exprs ∈ groups, exprs ∈ groups') (further : ∀ struct ∈ seen, struct ∈ later) :
    Settled routing modelDef groups' later arrival := by
  rcases settled with known | ⟨exprs, member, gated⟩
  · exact .inl (further _ known)
  · exact .inr ⟨exprs, more _ member, gated⟩

theorem Loaded.idle (once : seen.Nodup)
    (sound : ∀ exprs ∈ groups, ReadGroup routing modelDef start exprs) :
    Loaded routing modelDef start [] seen groups seen where
  once := once
  mono _ member := member
  started _ member := absurd member List.not_mem_nil
  silent _ member fresh := absurd member fresh
  sound := sound

/-- Two walks one after the other. -/
theorem Loaded.append (first : Loaded routing modelDef start starts seen groups middle)
    (second : Loaded routing modelDef start starts' middle groups' later) :
    Loaded routing modelDef start (starts ++ starts') seen (groups ++ groups') later where
  once := second.once
  mono struct member := second.mono struct (first.mono struct member)
  started arrival member := by
    rcases List.mem_append.mp member with member | member
    · exact (first.started arrival member).mono (fun _ => List.mem_append_left _) second.mono
    · exact (second.started arrival member).mono (fun _ => List.mem_append_right _) fun _ => id
  silent struct member fresh := by
    by_cases early : struct ∈ middle
    · obtain ⟨read, unread, next⟩ := first.silent struct early fresh
      exact ⟨read, fun broken => List.mem_append_left _ (unread broken), fun way other derives =>
        (next way other derives).mono (fun _ => List.mem_append_left _) second.mono⟩
    · obtain ⟨read, unread, next⟩ := second.silent struct member early
      exact ⟨read, fun broken => List.mem_append_right _ (unread broken), fun way other derives =>
        (next way other derives).mono (fun _ => List.mem_append_right _) fun _ => id⟩
  sound exprs member := by
    rcases List.mem_append.mp member with member | member
    · exact first.sound exprs member
    · exact second.sound exprs member

/-- A struct's own visit, and the walk over what it derives from. -/
theorem Loaded.visit (walked : Loaded routing modelDef start starts (struct :: seen) groups later)
    (derivation : Derivation modelDef (start, []) (struct, way))
    (silent : gateReading routing modelDef struct way = .ok [])
    (unread : UnreadBase modelDef start struct → DENY ∈ groups)
    (all : ∀ way next, DerivesFrom modelDef (struct, way) next → next ∈ starts) :
    Loaded routing modelDef start [(struct, way)] seen groups later where
  once := walked.once
  mono other member := walked.mono other (List.mem_cons_of_mem _ member)
  started arrival member := by
    rw [List.mem_singleton.mp member]
    exact .inl (walked.mono struct List.mem_cons_self)
  silent other member fresh := by
    rcases eq_or_ne other struct with rfl | apart
    · exact ⟨⟨way, derivation, silent⟩, unread, fun way next derives =>
        walked.started next (all way next derives)⟩
    · exact walked.silent other member fun known => (List.mem_cons.mp known).elim apart fresh
  sound := walked.sound

theorem Loaded.passed (walked : Loaded routing modelDef start starts seen groups later)
    (before : Passed routing modelDef start seen) : Passed routing modelDef start later where
  once := walked.once
  silent struct member := by
    by_cases known : struct ∈ seen
    · exact before.silent struct known
    · obtain ⟨⟨way, derivation, silent⟩, -⟩ := walked.silent struct member known
      exact ⟨way, derivation.readFrom, silent⟩

/-- A hop ends, given that the walk it may go on with does. -/
theorem hopGroups_loaded {walk : S → List S → Option (GroupsRead S)} {target : S}
    {own : Except String (List String)} (passed : Passed routing modelDef start seen)
    (derivation : Derivation modelDef (start, []) (target, way))
    (read : own = collectAuthorizeExprs routing (textsWithout modelDef way target))
    (parses : ∃ exprs, own = .ok exprs)
    (walks : target ∉ seen → ¬ DeclaresWithout routing modelDef way target →
      ∃ groups later, walk target seen = some (.ok (groups, later)) ∧
        Loaded routing modelDef start [(target, way)] seen groups later) :
    ∃ groups later, hopGroups own walk target seen = some (.ok (groups, later)) ∧
      Loaded routing modelDef start [(target, way)] seen groups later := by
  unfold hopGroups
  by_cases known : target ∈ seen
  · rw [if_pos known]
    refine ⟨[], seen, rfl, { Loaded.idle passed.once (by simp) with started := ?_ }⟩
    exact fun arrival member => .inl (List.mem_singleton.mp member ▸ known)
  · rw [if_neg known]
    obtain ⟨exprs, same⟩ := parses
    cases exprs with
    | nil =>
      rw [same]
      exact walks known (collectAuthorizeExprs_textsWithout_eq_nil_iff.mp (read.symm.trans same))
    | cons expr exprs =>
      have reading : gateReading routing modelDef target way = .ok (expr :: exprs) := by
        rw [gateReading, ← read, same]
        rfl
      rw [same]
      refine ⟨_, seen, rfl, { Loaded.idle passed.once ?_ with started := ?_ }⟩
      · intro other member
        rw [List.mem_singleton.mp member]
        exact .inl ⟨target, way, derivation, reading, by simp⟩
      · intro arrival member
        rw [List.mem_singleton.mp member]
        exact .inr ⟨_, List.mem_singleton_self _, by simp, reading⟩

/-- The hop to a query's base, or what stands for a base nobody could read. -/
theorem viaBase_loaded {walk : S → List S → Option (GroupsRead S)}
    (premises : LoadPremises routing modelDef start) (passed : Passed routing modelDef start seen)
    (derivation : Derivation modelDef (start, []) (struct, way))
    (walks : ∀ target, target ∉ seen → Derivation modelDef (start, []) (target, []) →
      ¬ DeclaresWithout routing modelDef [] target →
      ∃ groups later, walk target seen = some (.ok (groups, later)) ∧
        Loaded routing modelDef start [(target, [])] seen groups later) :
    ∃ groups later, (match resolveQuerySourceBase modelDef struct with
        | some base => hopGroups (ownGateExprs routing modelDef base) walk base seen
        | none => some (.ok (unreadBaseGroups modelDef struct, seen))) = some (.ok (groups, later)) ∧
      Loaded routing modelDef start
        ((resolveQuerySourceBase modelDef struct).toList.map (·, [])) seen groups later ∧
      (UnreadBase modelDef start struct → DENY ∈ groups) := by
  cases resolved : resolveQuerySourceBase modelDef struct with
  | none =>
    refine ⟨_, seen, rfl, .idle passed.once fun exprs member => ?_, fun unread => ?_⟩
    · unfold unreadBaseGroups at member
      split_ifs at member with derived
      · exact .inr ⟨List.mem_singleton.mp member, struct, ⟨way, derivation⟩, derived, resolved⟩
      · cases member
    · rw [unreadBaseGroups, if_pos unread.2.1]
      exact List.mem_singleton_self _
  | some base =>
    have next := derivation.tail (.base resolved)
    have read : ownGateExprs routing modelDef base =
        collectAuthorizeExprs routing (textsWithout modelDef [] base) := by
      rw [textsWithout_nil, ownGateExprs]
    have parses : ∃ exprs, ownGateExprs routing modelDef base = .ok exprs := by
      rw [read]
      exact premises.collect_ok base []
    obtain ⟨groups, later, answered, loaded⟩ :=
      hopGroups_loaded passed next read parses fun fresh => walks base fresh next
    refine ⟨groups, later, answered, loaded, fun unread => ?_⟩
    rw [unread.2.2] at resolved
    cases resolved

/-- The hop to the composite member a query's base was resolved to. -/
theorem viaMember_loaded {walk : S → List S → Option (GroupsRead S)}
    (premises : LoadPremises routing modelDef start) (passed : Passed routing modelDef start seen)
    (derivation : Derivation modelDef (start, []) (struct, way))
    (walks : ∀ target way, target ∉ seen → Derivation modelDef (start, []) (target, way) →
      ¬ DeclaresWithout routing modelDef way target →
      ∃ groups later, walk target seen = some (.ok (groups, later)) ∧
        Loaded routing modelDef start [(target, way)] seen groups later) :
    ∃ groups later, (match resolveCompositeResolvedBase modelDef struct with
        | some composite => hopGroups (collectAuthorizeExprs routing
            (textsWithout modelDef (copiedNotes modelDef struct) composite)) walk composite seen
        | none => some (.ok ([], seen))) = some (.ok (groups, later)) ∧
      Loaded routing modelDef start
        ((resolveCompositeResolvedBase modelDef struct).toList.map (·, copiedNotes modelDef struct))
        seen groups later := by
  cases resolved : resolveCompositeResolvedBase modelDef struct with
  | none => exact ⟨_, seen, rfl, .idle passed.once (by simp)⟩
  | some composite =>
    have next := derivation.tail (.member resolved)
    obtain ⟨groups, later, answered, loaded⟩ := hopGroups_loaded passed next rfl
      (premises.collect_ok composite _) fun fresh => walks composite _ fresh next
    exact ⟨groups, later, answered, loaded⟩

/-- The load walk ends on every finite graph, and has done its part. -/
theorem effectiveAncestorGateExprs_loaded [Fintype S] {fuel : ℕ}
    (premises : LoadPremises routing modelDef start) (passed : Passed routing modelDef start seen)
    (derivation : Derivation modelDef (start, []) (struct, way))
    (ungated : ¬ DeclaresWithout routing modelDef way struct) (fresh : struct ∉ seen)
    (enough : unseen seen < fuel) :
    ∃ groups later, effectiveAncestorGateExprs routing modelDef fuel struct seen =
        some (.ok (groups, later)) ∧
      Loaded routing modelDef start [(struct, way)] seen groups later := by
  induction fuel generalizing struct seen way with
  | zero => omega
  | succ fuel ih =>
    have direct : gateReading routing modelDef struct way =
        ancestorGateExprs routing modelDef struct seen := by
      rw [gateReading, collectAuthorizeExprs_textsWithout_eq_nil_iff.mpr ungated, firstGate_nil,
        premises.ancestorGateExprs_eq passed derivation.readFrom]
    obtain ⟨exprs, reading⟩ := premises.gateReading_ok struct way
    rw [effectiveAncestorGateExprs, ← direct, reading]
    cases exprs with
    | cons expr exprs =>
      refine ⟨_, seen, rfl, { Loaded.idle passed.once ?_ with started := ?_ }⟩
      · intro other member
        rw [List.mem_singleton.mp member]
        exact .inl ⟨struct, way, derivation, reading, by simp⟩
      · intro arrival member
        rw [List.mem_singleton.mp member]
        exact .inr ⟨_, List.mem_singleton_self _, by simp, reading⟩
    | nil =>
      have marked : Passed routing modelDef start (struct :: seen) := by
        refine ⟨List.nodup_cons.mpr ⟨fresh, passed.once⟩, fun other member => ?_⟩
        rcases List.mem_cons.mp member with rfl | member
        · exact ⟨way, derivation.readFrom, reading⟩
        · exact passed.silent other member
      have fewer : unseen (struct :: seen) < fuel := by
        have := unseen_cons_lt fresh
        omega
      obtain ⟨based, middle, answeredBase, viaBase, unread⟩ :=
        viaBase_loaded premises marked derivation fun target fresh derives silent =>
          ih marked derives silent fresh fewer
      have further : unseen middle < fuel := (unseen_le viaBase.mono).trans_lt fewer
      obtain ⟨branch, later, answeredMember, viaMember⟩ :=
        viaMember_loaded premises (viaBase.passed marked) derivation
          fun target way fresh derives silent =>
            ih (viaBase.passed marked) derives silent fresh further
      refine ⟨based ++ branch, later, ?_, (viaBase.append viaMember).visit derivation reading
        (fun broken => List.mem_append_left _ (unread broken)) fun way next derives => ?_⟩
      · simp only [if_neg fresh, answeredBase, Option.bind_some, answeredMember, Option.map_some]
        rfl
      · cases derives with
        | base resolved => exact List.mem_append_left _ (by simp [resolved])
        | member resolved => exact List.mem_append_right _ (by simp [resolved])

end Loaded

/-! ## The walks agree -/

section Agreement

variable [DecidableEq S] {routing : NoteRouting} {modelDef : ModelDef S} {start : S}
variable {groups : List (List String)} {seen : List S} {gates : List (GateEntry S)}

/-- A load walk settles everything its start derives from: only a query leads on, and a
query's struct is passed. -/
theorem settled_of_derivation (premises : LoadPremises routing modelDef start)
    (loaded : Loaded routing modelDef start [(start, [])] [] groups seen)
    {arrival : S × List AnnotationNote} (derivation : Derivation modelDef (start, []) arrival) :
    Settled routing modelDef groups seen arrival := by
  induction derivation with
  | refl => exact loaded.started _ List.mem_cons_self
  | tail _ step ih =>
    rcases ih with known | ⟨exprs, -, gated, reading⟩
    · exact (loaded.silent _ known List.not_mem_nil).2.2 _ _ step
    · rw [premises.gateReading_of_querySource (step.type_eq)] at reading
      exact absurd (Except.ok.inj reading).symm gated

/-- The two ways a struct is read on agree on its gate. -/
theorem LoadPremises.gateReading_eq (premises : LoadPremises routing modelDef start)
    {struct : S} {way way' : List AnnotationNote}
    (derivation : Derivation modelDef (start, []) (struct, way))
    (derivation' : Derivation modelDef (start, []) (struct, way')) :
    gateReading routing modelDef struct way = gateReading routing modelDef struct way' := by
  rw [gateReading, premises.agree struct way way' derivation.readFrom derivation'.readFrom,
    gateReading]

/-- The load walk's groups are the disjunctions its start is read to have. -/
theorem mem_groups_iff (premises : LoadPremises routing modelDef start)
    (loaded : Loaded routing modelDef start [(start, [])] [] groups seen) (exprs : List String) :
    exprs ∈ groups ↔ ReadGroup routing modelDef start exprs := by
  refine ⟨loaded.sound exprs, ?_⟩
  rintro (⟨struct, way, derivation, reading, gated⟩ | ⟨rfl, struct, unread⟩)
  · rcases settled_of_derivation premises loaded derivation with known | ⟨other, member, -, same⟩
    · obtain ⟨⟨way', derivation', silent⟩, -⟩ := loaded.silent struct known List.not_mem_nil
      rw [premises.gateReading_eq derivation derivation', silent] at reading
      exact absurd (Except.ok.inj reading).symm gated
    · cases reading.symm.trans same
      exact member
  · obtain ⟨way, derivation⟩ := unread.1
    rcases settled_of_derivation premises loaded derivation with known | ⟨other, -, gated, reading⟩
    · exact (loaded.silent struct known List.not_mem_nil).2.1 unread
    · rw [premises.gateReading_of_querySource unread.2.1] at reading
      exact absurd (Except.ok.inj reading).symm gated

/-- The request walk's entries are the disjunctions its start is read to have. -/
theorem exists_entry_iff (premises : LoadPremises routing modelDef start) {own : Bool}
    (walked : Walked (visitEntries routing modelDef start) (visitNext modelDef)
      [(start, (own, []))] [] gates seen) (exprs : List String) :
    (∃ entry ∈ gates, entry.exprs = exprs) ↔ ReadGroup routing modelDef start exprs := by
  constructor
  · rintro ⟨entry, member, rfl⟩
    obtain ⟨_, here, struct, ⟨own, way⟩, arrives, emitted⟩ := walked.source entry member
    rw [List.mem_singleton.mp here] at arrives
    rcases List.mem_append.mp emitted with ownEntry | unread
    · obtain ⟨same, gated⟩ := exprs_of_mem_ownGateEntry ownEntry
      obtain ⟨exprs, reading⟩ := premises.gateReading_ok struct way
      rw [reading, orDeny] at same
      exact .inl ⟨struct, way, derivation_of_arrives arrives, same ▸ reading, gated⟩
    · split_ifs at unread with broken
      · rw [List.mem_singleton.mp unread]
        exact .inr ⟨rfl, struct, ⟨way, derivation_of_arrives arrives⟩, broken⟩
      · cases unread
  · rintro (⟨struct, way, derivation, reading, gated⟩ | ⟨rfl, struct, unread⟩)
    · obtain ⟨_, here, ⟨own, way'⟩, arrives, emits, -⟩ :=
        walked.visited struct (mem_of_derivation walked derivation) List.not_mem_nil
      rw [List.mem_singleton.mp here] at arrives
      rw [premises.gateReading_eq derivation (derivation_of_arrives arrives)] at reading
      obtain ⟨entry, member, same⟩ :=
        exists_mem_ownGateEntry start own (by rw [reading]; simpa using gated)
      refine ⟨entry, emits entry (List.mem_append_left _ member), ?_⟩
      rw [same, reading, orDeny]
    · exact (gatesFailClosed_of_walked walked).unreadBase struct _ unread.1.choose_spec
        unread.2.1 unread.2.2

end Agreement

/-! ## Two loads -/

/-- A query over the gated source 1 that the registry links to the gated source 2. -/
def linkedQuery : ModelDef (Fin 3) where
  struct := ![
    { type := .querySource, name := "mine", sourceID := some "staff@m", structRef := .inline 1 },
    { type := .source, name := "admin", annotations := [⟨[adminNote], []⟩] },
    { type := .source, name := "staff", annotations := [⟨[staffNote], []⟩] }]
  contents := [("mine", 0), ("staff", 2)]
  sourceRegistry := [("staff@m", .reference "staff")]

/-- A query over the gated source 1, resolved to member 2 that carries its note too. -/
def memberQuery : ModelDef (Fin 3) where
  struct := ![
    { type := .querySource, name := "mine", structRef := .inline 1,
      compositeResolvedSourceDef := some 2 },
    { type := .source, name := "base", annotations := [⟨[adminNote], []⟩] },
    { type := .source, name := "member", annotations := [⟨[adminNote, staffNote], []⟩] }]
  contents := [("mine", 0)]
  sourceRegistry := []

theorem memberQuery_readFrom {arrival : Fin 3 × List AnnotationNote}
    (read : ReadFrom memberQuery (0, []) arrival) :
    arrival ∈ [((0 : Fin 3), []), (1, []), (2, [adminNote])] := by
  induction read with
  | refl => exact List.mem_cons_self
  | @tail before after _ step ih =>
    obtain ⟨struct, way⟩ := before
    cases step with
    | derives derives =>
      cases derives with
      | @base _ base _ resolved =>
        have all : ∀ struct base, resolveQuerySourceBase memberQuery struct = some base →
            base = 1 := by decide +kernel
        simp [all struct base resolved]
      | @member _ member _ resolved =>
        have all : ∀ struct member, resolveCompositeResolvedBase memberQuery struct = some member →
            member = 2 ∧ copiedNotes memberQuery struct = [adminNote] := by decide +kernel
        obtain ⟨rfl, copied⟩ := all struct member resolved
        simp [copied]
    | @registry _ source _ resolved =>
      have none : ∀ struct source, resolveDeclaredSource memberQuery struct ≠ .resolved source := by
        decide +kernel
      exact absurd resolved (none struct source)

theorem memberQuery_loadPremises : LoadPremises authorizeNotes memberQuery 0 where
  bare := by decide +kernel
  parses struct level among text member := by
    have all : ∀ struct, ∀ level ∈ (memberQuery.struct struct).annotations,
        ∀ text ∈ ownLevelNoteTexts [level], parseAuthorizeAnnotation authorizeNotes text ∈
          [.ok (some "$ROLE = 'admin'"), .ok (some "$ROLE = 'staff'")] := by decide +kernel
    rcases List.mem_pair.mp (all struct level among text member) with parsed | parsed
    · exact ⟨_, parsed⟩
    · exact ⟨_, parsed⟩
  ungated := by
    rw [← ownGateExprs_eq_nil_iff]
    decide +kernel
  elided := by decide +kernel
  few := by
    have all : ∀ struct : Fin 3, struct ∈ [0, 1, 2] := by decide
    exact ⟨[0, 1, 2], by decide, fun struct _ _ => all struct⟩
  agree struct way way' read read' := by
    have one : ∀ a ∈ [((0 : Fin 3), []), (1, []), (2, [adminNote])],
        ∀ b ∈ [((0 : Fin 3), []), (1, []), (2, [adminNote])], a.1 = b.1 → a = b := by decide
    cases one _ (memberQuery_readFrom read) _ (memberQuery_readFrom read') rfl
    rfl

end MalloyPublisher.Gates
