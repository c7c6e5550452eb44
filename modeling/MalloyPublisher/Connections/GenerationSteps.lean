import MalloyPublisher.Connections.Generation

/-!
# The steps of a generation of connections

The release goes through the promises that it took, closes what they built and lists the tunnels
that are registered by then. A promise of the release that has not been built is still in its list,
so that it is awaited, and its tunnel is registered before the tunnels are listed. A build that has
not settled has a lookup that awaits it.

## Main definitions

* `Released` — how far the release is with the promises that it took
* `Awaited` — what lookups await, and what those that failed have
* `WentOn` — how a lookup goes on

## Main results

* `wentOn_goOn` — what a lookup awaited is over when it goes on
* `Kept.step` — every step keeps the caches, the release and the lookups in step
-/

namespace MalloyPublisher.Connections

namespace Generation

variable {generation : Generation} {state next : State} {p : ℕ}

/-! ## What the release knows of -/

/-- A promise of the release is in its list until it has been closed or found to be dropped, and so
is its tunnel. -/
structure Released (state : State) : Prop where
  idle : state.release = .idle → ∀ p, (state.promises p).late = false
  late : ∀ p, (state.promises p).late = true → (state.promises p).connection ≠ .closed
  closing : ∀ targets isShutDown, state.release = .closing targets isShutDown →
    (∀ p ∈ targets, (state.promises p).late = false ∧ p < state.made) ∧
    ∀ p, (state.promises p).late = false →
      p ∈ targets ∨ (state.promises p).build = .evicted ∨ (state.promises p).connection = .closed
  draining : ∀ endpoints, state.release = .draining endpoints →
    (∀ p ∈ endpoints, (state.promises p).build = .built) ∧
    ∀ p, (state.promises p).late = false →
      ((state.promises p).build = .evicted ∨ (state.promises p).connection = .closed) ∧
      ((state.promises p).tunnel = .live → p ∈ endpoints)
  finished : state.release = .finished → ∀ p, (state.promises p).late = false →
    ((state.promises p).build = .evicted ∨ (state.promises p).connection = .closed) ∧
    (state.promises p).tunnel ≠ .live

theorem Released.congr (released : Released state) (promises : next.promises = state.promises)
    (made : next.made = state.made) (release : next.release = state.release) : Released next where
  idle := promises ▸ release ▸ released.idle
  late := promises ▸ released.late
  closing := promises ▸ made ▸ release ▸ released.closing
  draining := promises ▸ release ▸ released.draining
  finished := promises ▸ release ▸ released.finished

theorem built_of_closed (cached : Cached generation state)
    (closed : (state.promises p).connection = .closed) : (state.promises p).build = .built :=
  (cached.consistent p).connection.mp (by simp [closed])

/-- What is still to be built is of the release's list, or late. -/
theorem Released.unbuilt (released : Released state) (cached : Cached generation state)
    (pending : (state.promises p).build ≠ .evicted) (unbuilt : (state.promises p).build ≠ .built)
    (early : (state.promises p).late = false) :
    state.release = .idle ∨ ∃ targets isShutDown, state.release = .closing targets isShutDown ∧
      p ∈ targets := by
  have gone : ¬((state.promises p).build = .evicted ∨ (state.promises p).connection = .closed) :=
    fun gone => gone.elim pending fun closed => unbuilt (built_of_closed cached closed)
  cases release : state.release with
  | idle => exact Or.inl rfl
  | closing targets isShutDown =>
    exact Or.inr ⟨targets, isShutDown, rfl,
      ((released.closing targets isShutDown release).2 p early).resolve_right gone⟩
  | draining endpoints => exact absurd ((released.draining endpoints release).2 p early).1 gone
  | finished => exact absurd (released.finished release p early).1 gone

/-- A build goes on. -/
theorem Released.goesOn (released : Released state) (cached : Cached generation state)
    (goesOn : GoesOn state.promises next.promises p) (made : next.made = state.made)
    (release : next.release = state.release) (unbuilt : (state.promises p).build ≠ .built)
    (unclosed : (next.promises p).connection ≠ .closed) : Released next := by
  have listed := released.unbuilt cached goesOn.pending unbuilt
  refine ⟨fun idle q => ?_, fun q late => ?_, fun targets isShutDown closing => ?_,
    fun endpoints draining => ?_, fun finished q early => ?_⟩
  · rw [goesOn.late_eq]
    exact released.idle (release ▸ idle) q
  · rw [goesOn.late_eq] at late
    rcases eq_or_ne q p with rfl | other
    · exact unclosed
    · rw [goesOn.others q other]
      exact released.late q late
  · rw [release] at closing
    obtain ⟨earlyTargets, closes⟩ := released.closing targets isShutDown closing
    refine ⟨fun q member => goesOn.late_eq q ▸ made ▸ earlyTargets q member, fun q early => ?_⟩
    rw [goesOn.late_eq] at early
    rcases eq_or_ne q p with rfl | other
    · rcases listed early with idle | ⟨others, isDown, isClosing, member⟩
      · cases idle.symm.trans closing
      · cases isClosing.symm.trans closing
        exact Or.inl member
    · rw [goesOn.others q other]
      exact closes q early
  · rw [release] at draining
    obtain ⟨built, closes⟩ := released.draining endpoints draining
    refine ⟨fun q member => ?_, fun q early => ?_⟩
    · rw [goesOn.others q fun same => unbuilt (same ▸ built q member)]
      exact built q member
    · rw [goesOn.late_eq] at early
      rcases eq_or_ne q p with rfl | other
      · rcases listed early with idle | ⟨_, _, isClosing, -⟩
        · cases idle.symm.trans draining
        · cases isClosing.symm.trans draining
      · rw [goesOn.others q other]
        exact closes q early
  · rw [release] at finished
    rw [goesOn.late_eq] at early
    rcases eq_or_ne q p with rfl | other
    · rcases listed early with idle | ⟨_, _, isClosing, -⟩
      · cases idle.symm.trans finished
      · cases isClosing.symm.trans finished
    · rw [goesOn.others q other]
      exact released.finished finished q early

/-- A promise that is made while the release runs is late. -/
theorem Released.build (released : Released state) (cached : Cached generation state)
    (unfinished : state.release ≠ .finished)
    (wrapper : Wrapper) (name : String) : Released (state.build wrapper name) := by
  have early : ∀ q, state.release ≠ .idle →
      ((state.build wrapper name).promises q).late = false → q ≠ state.made := by
    rintro q running early rfl
    rw [promises_build_self] at early
    exact running (by simpa using early)
  refine ⟨fun idle q => ?_, fun q late => ?_, fun targets isShutDown closing => ?_,
    fun endpoints draining => ?_, fun finished => absurd finished unfinished⟩
  · have idle : state.release = .idle := idle
    rcases eq_or_ne q state.made with rfl | other
    · simp [idle]
    · rw [promises_build_of_ne other]
      exact released.idle idle q
  · rcases eq_or_ne q state.made with rfl | other
    · rw [promises_build_self]
      split_ifs <;> nofun
    · rw [promises_build_of_ne other] at late ⊢
      exact released.late q late
  · have closing : state.release = .closing targets isShutDown := closing
    obtain ⟨earlyTargets, closes⟩ := released.closing targets isShutDown closing
    refine ⟨fun q member => ?_, fun q earlyQ => ?_⟩
    · obtain ⟨earlyQ, before⟩ := earlyTargets q member
      exact ⟨promises_build_of_ne (Nat.ne_of_lt before) .. ▸ earlyQ, Nat.lt_succ_of_lt before⟩
    · have other := early q (by simp [closing]) earlyQ
      rw [promises_build_of_ne other] at earlyQ ⊢
      exact closes q earlyQ
  · have draining : state.release = .draining endpoints := draining
    obtain ⟨built, closes⟩ := released.draining endpoints draining
    refine ⟨fun q member => ?_, fun q earlyQ => ?_⟩
    · have other : q ≠ state.made := fun same => by
        have unmade := cached.numbered q (Nat.le_of_eq same.symm)
        cases unmade.symm.trans (built q member)
      exact promises_build_of_ne other .. ▸ built q member
    · have other := early q (by simp [draining]) earlyQ
      rw [promises_build_of_ne other] at earlyQ ⊢
      exact closes q earlyQ

/-- The release takes the promises of the moment. -/
theorem Released.releases (released : Released state) (cached : Cached generation state)
    (idle : state.release = .idle) :
    Released { state with release := .closing state.cached false } := by
  refine ⟨nofun, released.late, ?_, nofun, nofun⟩
  rintro targets isShutDown ⟨⟩
  refine ⟨fun p member => ?_, fun p early => ?_⟩
  · exact ⟨released.idle idle p, List.mem_range.mp (List.mem_filter.mp member).1⟩
  · rcases eq_or_ne (state.promises p).build .evicted with evicted | kept
    · exact Or.inr (Or.inl evicted)
    · have isMade : p < state.made := by
        by_contra unmade
        exact kept (cached.numbered p (Nat.le_of_not_lt unmade))
      have found := cached.cached (by simp [idle]) p kept
      exact Or.inl (List.mem_filter.mpr ⟨List.mem_range.mpr isMade, decide_eq_true found⟩)

/-- What a promise built is closed, or it is found to be dropped. -/
theorem Released.settles (released : Released state) {targets : List ℕ} {isShutDown : Bool}
    (closing : state.release = .closing targets isShutDown) (member : p ∈ targets)
    (settled : state.connectionSettled p (targets.filter (· ≠ p)) isShutDown = some next) :
    Released next := by
  obtain ⟨earlyTargets, closes⟩ := released.closing targets isShutDown closing
  have inRest : ∀ q ∈ targets, q ≠ p → q ∈ targets.filter (· ≠ p) := fun q member other =>
    List.mem_filter.mpr ⟨member, decide_eq_true other⟩
  have earlyRest : ∀ q ∈ targets.filter (· ≠ p), (state.promises q).late = false ∧ q < state.made :=
    fun q member => earlyTargets q (List.mem_filter.mp member).1
  unfold State.connectionSettled at settled
  split at settled
  · obtain rfl := Option.some.inj settled
    let closed : Promise := { state.promises p with connection := .closed }
    have others : ∀ q, q ≠ p → (state.setPromise p closed).promises q = state.promises q :=
      fun q other => promises_setPromise_of_ne other closed
    have self : (state.setPromise p closed).promises p = closed := promises_setPromise_self ..
    refine ⟨nofun, fun q late => ?_, ?_, nofun, nofun⟩
    · have other : q ≠ p := fun same => by
        subst same
        have early : closed.late = false := (earlyTargets q member).1
        exact Bool.noConfusion (early.symm.trans ((congrArg Promise.late self).symm.trans late))
      have late := (congrArg Promise.late (others q other)).symm.trans late
      exact (congrArg Promise.connection (others q other)).trans_ne (released.late q late)
    · rintro _ _ ⟨⟩
      have late_eq : ∀ q,
          ((state.setPromise p closed).promises q).late = (state.promises q).late := by
        intro q
        rcases eq_or_ne q p with rfl | other
        · rw [self]
        · rw [others q other]
      refine ⟨fun q member => ⟨(late_eq q).trans (earlyRest q member).1, (earlyRest q member).2⟩,
        fun q early => ?_⟩
      rcases eq_or_ne q p with rfl | other
      · exact Or.inr (Or.inr (congrArg Promise.connection self))
      · show q ∈ _ ∨ ((state.setPromise p closed).promises q).build = .evicted ∨
          ((state.setPromise p closed).promises q).connection = .closed
        rw [others q other]
        exact (closes q ((late_eq q).symm.trans early)).imp_left fun member =>
          inRest q member other
  · rename_i evicted
    obtain rfl := Option.some.inj settled
    refine ⟨nofun, released.late, ?_, nofun, nofun⟩
    rintro _ _ ⟨⟩
    refine ⟨earlyRest, fun q early => ?_⟩
    rcases eq_or_ne q p with rfl | other
    · exact Or.inr (Or.inl evicted)
    · exact (closes q early).imp_left fun member => inRest q member other
  · cases settled

/-- Once the connections are closed, every tunnel that they had is registered. -/
theorem Released.collects (released : Released state) (cached : Cached generation state)
    (closing : state.release = .closing [] true) :
    Released { state with release := .draining state.endpoints } := by
  obtain ⟨-, closes⟩ := released.closing [] true closing
  refine ⟨nofun, released.late, nofun, ?_, nofun⟩
  rintro endpoints ⟨⟩
  have isMade : ∀ p, (state.promises p).build ≠ .evicted → p < state.made := fun p kept => by
    by_contra unmade
    exact kept (cached.numbered p (Nat.le_of_not_lt unmade))
  refine ⟨fun p member => ?_, fun p early => ?_⟩
  · exact cached.endpoint _ p (of_decide_eq_true (List.mem_filter.mp member).2)
  · have gone := (closes p early).resolve_left List.not_mem_nil
    refine ⟨gone, fun live => ?_⟩
    obtain ⟨isProxy, stage⟩ := (cached.consistent p).tunnel live
    have built : (state.promises p).build = .built :=
      gone.elim (fun evicted => by simp [evicted] at stage) (built_of_closed cached)
    refine List.mem_filter.mpr ⟨List.mem_range.mpr (isMade p (by simp [built])), ?_⟩
    exact decide_eq_true (cached.registered (by simp [closing]) p built isProxy)

theorem Released.drains (released : Released state) {endpoints : List ℕ}
    (draining : state.release = .draining endpoints) (member : p ∈ endpoints) :
    Released { state.setPromise p { state.promises p with tunnel := .closed } with
      release := .draining (endpoints.filter (· ≠ p)) } := by
  obtain ⟨built, closes⟩ := released.draining endpoints draining
  let closed : Promise := { state.promises p with tunnel := .closed }
  have others : ∀ q, q ≠ p → (state.setPromise p closed).promises q = state.promises q :=
    fun q other => promises_setPromise_of_ne other closed
  have self : (state.setPromise p closed).promises p = closed := promises_setPromise_self ..
  -- Of a promise only its tunnel changes.
  have alike : ∀ q, ((state.setPromise p closed).promises q).late = (state.promises q).late ∧
      ((state.setPromise p closed).promises q).build = (state.promises q).build ∧
      ((state.setPromise p closed).promises q).connection = (state.promises q).connection := by
    intro q
    rcases eq_or_ne q p with rfl | other
    · rw [self]
      exact ⟨rfl, rfl, rfl⟩
    · rw [others q other]
      exact ⟨rfl, rfl, rfl⟩
  refine ⟨nofun, fun q late => ?_, nofun, ?_, nofun⟩
  · exact (alike q).2.2.trans_ne (released.late q ((alike q).1.symm.trans late))
  · rintro _ ⟨⟩
    refine ⟨fun q member => ?_, fun q early => ?_⟩
    · exact (alike q).2.1.trans (built q (List.mem_filter.mp member).1)
    · obtain ⟨gone, registered⟩ := closes q ((alike q).1.symm.trans early)
      refine ⟨?_, fun live => ?_⟩
      · exact gone.imp (alike q).2.1.trans (alike q).2.2.trans
      · have other : q ≠ p := fun same => by
          subst same
          exact absurd ((congrArg Promise.tunnel self).symm.trans live) (by simp [closed])
        have live := (congrArg Promise.tunnel (others q other)).symm.trans live
        exact List.mem_filter.mpr ⟨registered live, decide_eq_true other⟩

theorem Released.clears (released : Released state) (draining : state.release = .draining []) :
    Released { state with
      cache := fun _ _ => none, proxyEndpoints := fun _ => none, release := .finished } := by
  obtain ⟨-, closes⟩ := released.draining [] draining
  refine ⟨nofun, released.late, nofun, nofun, fun _ p early => ?_⟩
  exact ⟨(closes p early).1, fun live => List.not_mem_nil ((closes p early).2 live)⟩

/-! ## What lookups await -/

/-- A build that has not settled is awaited, and a lookup that has more to do, or has failed, has
no tunnel. -/
structure Awaited (state : State) : Prop where
  unasked : ∀ l, state.asked ≤ l →
    (state.lookups l).stage = .resolved ∧ (state.lookups l).connectionPromise = none ∧
      (state.lookups l).attachPromise = none
  past : ∀ l p, (state.lookups l).connectionPromise = some p →
    (state.lookups l).stage ≠ .awaitingBuild →
      (state.promises p).build = .built ∨ (state.promises p).build = .evicted
  known : ∀ l p, (state.lookups l).connectionPromise = some p → p < state.made
  awaited : ∀ p, (state.promises p).build ≠ .built → (state.promises p).build ≠ .evicted →
    ∃ l, (state.lookups l).stage = .awaitingBuild ∧ (state.lookups l).connectionPromise = some p
  tunnelless : ∀ l p, (state.lookups l).connectionPromise = some p →
    (state.lookups l).stage ≠ .awaitingBuild → (state.lookups l).stage ≠ .resolved →
      (state.promises p).build = .evicted ∨ (state.promises p).wrapper ≠ .proxy

theorem Awaited.congr (awaited : Awaited state) (lookups : next.lookups = state.lookups)
    (asked : next.asked = state.asked) (promises : next.promises = state.promises)
    (made : next.made = state.made) : Awaited next where
  unasked := lookups ▸ asked ▸ awaited.unasked
  past := lookups ▸ promises ▸ awaited.past
  known := lookups ▸ made ▸ awaited.known
  awaited := lookups ▸ promises ▸ awaited.awaited
  tunnelless := lookups ▸ promises ▸ awaited.tunnelless

theorem Awaited.goesOn (awaited : Awaited state)
    (goesOn : GoesOn state.promises next.promises p) (lookups : next.lookups = state.lookups)
    (asked : next.asked = state.asked) (made : next.made = state.made) : Awaited next where
  unasked := lookups ▸ asked ▸ awaited.unasked
  past l q isPromise stage := by
    rw [lookups] at isPromise stage
    rcases eq_or_ne q p with rfl | other
    · exact (awaited.past l q isPromise stage).imp goesOn.built fun evicted =>
        absurd evicted goesOn.pending
    · rw [goesOn.others q other]
      exact awaited.past l q isPromise stage
  known := lookups ▸ made ▸ awaited.known
  awaited q unbuilt kept := by
    rw [lookups]
    refine awaited.awaited q (fun built => unbuilt ?_) (goesOn.kept kept)
    rcases eq_or_ne q p with rfl | other
    · exact goesOn.built built
    · rwa [goesOn.others q other]
  tunnelless l q isPromise stage unresolved := by
    rw [lookups] at isPromise stage unresolved
    rw [goesOn.wrapper_eq]
    refine (awaited.tunnelless l q isPromise stage unresolved).imp_left fun evicted => ?_
    rwa [goesOn.others q fun same => goesOn.pending (same ▸ evicted)]

/-- A lookup goes on from an await that is over. -/
theorem Awaited.put (awaited : Awaited state) {l : ℕ} {lookup : Lookup}
    (unresolved : (state.lookups l).stage ≠ .resolved)
    (isPromise : lookup.connectionPromise = (state.lookups l).connectionPromise)
    (settled : (state.lookups l).stage = .awaitingBuild → ∀ p, lookup.connectionPromise = some p →
      (state.promises p).build = .built ∨ (state.promises p).build = .evicted)
    (tunnelless : ∀ p, lookup.connectionPromise = some p → lookup.stage ≠ .resolved →
      (state.promises p).build = .evicted ∨ (state.promises p).wrapper ≠ .proxy) :
    Awaited (state.put l lookup) := by
  have self : (state.put l lookup).lookups l = lookup := Function.update_self ..
  have others : ∀ k, k ≠ l → (state.put l lookup).lookups k = state.lookups k :=
    fun k other => Function.update_of_ne other ..
  refine ⟨fun k later => ?_, fun k p => ?_, fun k p => ?_, fun p unbuilt kept => ?_, fun k p => ?_⟩
  · have other : k ≠ l := fun same => unresolved (same ▸ (awaited.unasked k later).1)
    rw [others k other]
    exact awaited.unasked k later
  · rcases eq_or_ne k l with rfl | other
    · rw [self]
      intro promised _
      by_cases stage : (state.lookups k).stage = .awaitingBuild
      · exact settled stage p promised
      · exact awaited.past k p (isPromise ▸ promised) stage
    · rw [others k other]
      exact awaited.past k p
  · rcases eq_or_ne k l with rfl | other
    · rw [self, isPromise]
      exact awaited.known k p
    · rw [others k other]
      exact awaited.known k p
  · obtain ⟨k, stage, promised⟩ := awaited.awaited p unbuilt kept
    have other : k ≠ l := fun same => by
      subst same
      exact (settled stage p (isPromise.trans promised)).elim unbuilt kept
    exact ⟨k, others k other ▸ stage, others k other ▸ promised⟩
  · rcases eq_or_ne k l with rfl | other
    · rw [self]
      exact fun promised _ => tunnelless p promised
    · rw [others k other]
      exact awaited.tunnelless k p

/-- A lookup begins. -/
theorem Awaited.begin (awaited : Awaited state) {lookup : Lookup}
    (known : ∀ p, lookup.connectionPromise = some p → p < state.made)
    (awaiting : lookup.connectionPromise = none ∨ lookup.stage = .awaitingBuild) :
    Awaited (state.begin lookup) := by
  have self : (state.begin lookup).lookups state.asked = lookup := Function.update_self ..
  have others : ∀ k, k ≠ state.asked → (state.begin lookup).lookups k = state.lookups k :=
    fun k other => Function.update_of_ne other ..
  have only : ∀ p, lookup.connectionPromise = some p → lookup.stage = .awaitingBuild := by
    intro p promised
    exact awaiting.resolve_left fun none' => by cases none'.symm.trans promised
  refine ⟨fun k later => ?_, fun k p => ?_, fun k p => ?_, fun p unbuilt kept => ?_, fun k p => ?_⟩
  · rw [others k (Nat.ne_of_gt later)]
    exact awaited.unasked k (Nat.le_of_succ_le later)
  · rcases eq_or_ne k state.asked with rfl | other
    · rw [self]
      exact fun promised stage => absurd (only p promised) stage
    · rw [others k other]
      exact awaited.past k p
  · rcases eq_or_ne k state.asked with rfl | other
    · rw [self]
      exact known p
    · rw [others k other]
      exact awaited.known k p
  · obtain ⟨k, stage, promised⟩ := awaited.awaited p unbuilt kept
    have other : k ≠ state.asked := fun same => by
      cases (awaited.unasked k (Nat.le_of_eq same.symm)).1.symm.trans stage
    exact ⟨k, others k other ▸ stage, others k other ▸ promised⟩
  · rcases eq_or_ne k state.asked with rfl | other
    · rw [self]
      exact fun promised stage => absurd (only p promised) stage
    · rw [others k other]
      exact awaited.tunnelless k p

/-- A lookup begins and awaits a promise of its own. -/
theorem Awaited.build (awaited : Awaited state) (wrapper : Wrapper) (name : String)
    (asked : Option String) : Awaited ((state.build wrapper name).begin
      { name := asked, connectionPromise := some state.made, stage := .awaitingBuild }) := by
  let lookup : Lookup :=
    { name := asked, connectionPromise := some state.made, stage := .awaitingBuild }
  let began : State := (state.build wrapper name).begin lookup
  have self : began.lookups state.asked = lookup := Function.update_self ..
  have others : ∀ k, k ≠ state.asked → began.lookups k = state.lookups k :=
    fun k other => Function.update_of_ne other ..
  have old : ∀ q, q ≠ state.made → began.promises q = state.promises q :=
    fun q other => promises_build_of_ne other ..
  refine ⟨fun k later => ?_, fun k p => ?_, fun k p promised => ?_, fun p unbuilt kept => ?_,
    fun k p => ?_⟩
  · rw [others k (Nat.ne_of_gt later)]
    exact awaited.unasked k (Nat.le_of_succ_le later)
  · rcases eq_or_ne k state.asked with rfl | other
    · rw [self]
      exact fun _ stage => absurd rfl stage
    · rw [others k other]
      intro promised
      rw [old p (Nat.ne_of_lt (awaited.known k p promised))]
      exact awaited.past k p promised
  · show p < state.made + 1
    rcases eq_or_ne k state.asked with rfl | other
    · rw [self] at promised
      exact Nat.lt_succ_of_le (Nat.le_of_eq (Option.some.inj promised).symm)
    · rw [others k other] at promised
      exact Nat.lt_succ_of_lt (awaited.known k p promised)
  · rcases eq_or_ne p state.made with rfl | other
    · exact ⟨state.asked, congrArg Lookup.stage self, congrArg Lookup.connectionPromise self⟩
    · rw [old p other] at unbuilt kept
      obtain ⟨k, stage, promised⟩ := awaited.awaited p unbuilt kept
      have otherLookup : k ≠ state.asked := fun same => by
        cases (awaited.unasked k (Nat.le_of_eq same.symm)).1.symm.trans stage
      exact ⟨k, others k otherLookup ▸ stage, others k otherLookup ▸ promised⟩
  · rcases eq_or_ne k state.asked with rfl | other
    · rw [self]
      exact fun _ stage => absurd rfl stage
    · rw [others k other]
      intro promised
      rw [old p (Nat.ne_of_lt (awaited.known k p promised))]
      exact awaited.tunnelless k p promised

/-! ## What every step keeps -/

structure Kept (generation : Generation) (state : State) : Prop where
  cached : Cached generation state
  released : Released state
  awaited : Awaited state

theorem Kept.congr (kept : Kept generation state) (cache : next.cache = state.cache)
    (proxyEndpoints : next.proxyEndpoints = state.proxyEndpoints)
    (promises : next.promises = state.promises) (made : next.made = state.made)
    (release : next.release = state.release) (awaited : Awaited next) : Kept generation next :=
  ⟨kept.cached.congr cache proxyEndpoints promises made fun unfinished => release ▸ unfinished,
    kept.released.congr promises made release, awaited⟩

/-- The name and the wrapper of a lookup that is not left to the engine. -/
theorem wrapper_of_lookup {name : Option String} {key : String} {wrapper : Wrapper}
    (isKey : (name.bind fun name => (generation.wrapper name).map fun wrapper => (name, wrapper)) =
      some (key, wrapper)) : name = some key ∧ generation.wrapper key = some wrapper := by
  obtain ⟨key', isName, isPair⟩ := Option.bind_eq_some_iff.mp isKey
  obtain ⟨wrapper', isWrapper, same⟩ := Option.map_eq_some_iff.mp isPair
  obtain ⟨rfl, rfl⟩ := Prod.mk.inj same
  exact ⟨isName, isWrapper⟩

/-- A name is looked up. -/
theorem Kept.lookupConnection (kept : Kept generation state)
    (unfinished : state.release ≠ .finished) (name : Option String) (constructs : Bool) :
    Kept generation (state.lookupConnection generation name constructs) := by
  unfold State.lookupConnection
  split
  · exact kept.congr rfl rfl rfl rfl rfl (kept.awaited.begin nofun (Or.inl rfl))
  · rename_i key wrapper isKey
    obtain ⟨-, isWrapper⟩ := wrapper_of_lookup isKey
    split
    · rename_i promise found
      refine kept.congr rfl rfl rfl rfl rfl (kept.awaited.begin ?_ (Or.inr rfl))
      rintro p ⟨⟩
      by_contra unmade
      exact (kept.cached.taken _ _ _ found).1 (kept.cached.numbered _ (Nat.le_of_not_lt unmade))
    · rename_i uncached
      split_ifs
      · have cached := kept.cached.build isWrapper unfinished uncached
        have released := kept.released.build kept.cached unfinished wrapper key
        exact ⟨cached.congr rfl rfl rfl rfl id, released.congr rfl rfl rfl,
          kept.awaited.build wrapper key name⟩
      · exact kept.congr rfl rfl rfl rfl rfl (kept.awaited.begin nofun (Or.inl rfl))

theorem Kept.put (kept : Kept generation state) {l : ℕ} {lookup : Lookup}
    (awaited : Awaited (state.put l lookup)) : Kept generation (state.put l lookup) :=
  kept.congr rfl rfl rfl rfl rfl awaited

/-- What a lookup awaited is over. -/
structure Ready (state : State) (l : ℕ) (stage : Stage) : Prop where
  unresolved : (state.lookups l).stage ≠ .resolved
  build : (state.lookups l).stage = .awaitingBuild →
    ∀ p, (state.lookups l).connectionPromise = some p →
      ((state.promises p).build = .built ∨ (state.promises p).build = .evicted) ∧
      (stage ≠ .resolved →
        (state.promises p).build = .evicted ∨ (state.promises p).wrapper ≠ .proxy)
  attach : (state.lookups l).stage = .awaitingAttach →
    ∀ run, (state.lookups l).attachPromise = some run →
      (state.runs run).phase = .attached ∨ (state.runs run).phase = .evicted

/-- How a lookup goes on. -/
inductive WentOn (generation : Generation) (state : State) (l : ℕ) : State → Prop
  | put {stage : Stage} (ready : Ready state l stage) (after : stage ≠ .awaitingAttach) :
      WentOn generation state l (state.put l { state.lookups l with stage })
  | attaches {target : Target} (ready : Ready state l .pinning) :
      WentOn generation state l (state.attachOnce generation l (state.lookups l) target)

/-- An await that is neither of a promise nor of an attach run may end at any time. -/
theorem ready_of_stage {l : ℕ} (after : Stage) (unresolved : (state.lookups l).stage ≠ .resolved)
    (noBuild : (state.lookups l).stage ≠ .awaitingBuild)
    (noAttach : (state.lookups l).stage ≠ .awaitingAttach) : Ready state l after :=
  ⟨unresolved, fun awaits => absurd awaits noBuild, fun awaits => absurd awaits noAttach⟩

theorem wentOn_afterBuild {l : ℕ} (stage : (state.lookups l).stage = .awaitingBuild)
    (promised : (state.lookups l).connectionPromise = some p)
    (built : (state.promises p).build = .built) :
    WentOn generation state l (state.afterBuild generation l (state.lookups l) p) := by
  have ready : ∀ after : Stage, (after ≠ .resolved → (state.promises p).wrapper ≠ .proxy) →
      Ready state l after := by
    refine fun after direct => ⟨by simp [stage], fun _ q promisedQ => ?_, by simp [stage]⟩
    obtain rfl := Option.some.inj (promised.symm.trans promisedQ)
    exact ⟨Or.inl built, fun unresolved => Or.inr (direct unresolved)⟩
  unfold State.afterBuild
  split
  · rename_i wrapper
    split_ifs
    · exact .put (ready _ fun _ => by simp [wrapper]) nofun
    · exact .put (ready _ fun _ => by simp [wrapper]) nofun
  · exact .put (ready _ fun unresolved => absurd rfl unresolved) nofun
  · exact .put (ready _ fun unresolved => absurd rfl unresolved) nofun
  · rename_i wrapper
    exact .attaches (ready _ fun _ => by simp [wrapper])

theorem wentOn_goOn {l : ℕ} {ok : Bool} (went : state.goOn generation l ok = some next) :
    WentOn generation state l next := by
  unfold State.goOn at went
  dsimp only at went
  cases stage : (state.lookups l).stage with
  | awaitingBuild =>
    simp only [stage] at went
    obtain ⟨p, promised, went⟩ := Option.bind_eq_some_iff.mp went
    split at went
    · rename_i built
      exact Option.some.inj went ▸ wentOn_afterBuild stage promised built
    · rename_i evicted
      refine Option.some.inj went ▸ .put ⟨by simp [stage], fun _ q promisedQ => ?_,
        by simp [stage]⟩ nofun
      obtain rfl := Option.some.inj (promised.symm.trans promisedQ)
      exact ⟨Or.inr evicted, fun _ => Or.inl evicted⟩
    · cases went
  | awaitingBase => simp [stage] at went
  | listing =>
    simp only [stage] at went
    have ready : Ready state l (if ok then .pinning else .attachingDuckLake) := ready_of_stage _
      (by simp [stage]) (by simp [stage]) (by simp [stage])
    exact Option.some.inj went ▸ .put ready (by cases ok <;> nofun)
  | attachingDuckLake =>
    simp only [stage] at went
    have ready : Ready state l (if ok then .pinning else .failed) := ready_of_stage _
      (by simp [stage]) (by simp [stage]) (by simp [stage])
    exact Option.some.inj went ▸ .put ready (by cases ok <;> nofun)
  | awaitingAttach =>
    simp only [stage] at went
    obtain ⟨run, isRun, went⟩ := Option.bind_eq_some_iff.mp went
    have ready : ∀ after : Stage, ((state.runs run).phase = .attached ∨
        (state.runs run).phase = .evicted) → Ready state l after := by
      refine fun after past => ⟨by simp [stage], by simp [stage], fun _ other isOther => ?_⟩
      obtain rfl := Option.some.inj (isRun.symm.trans isOther)
      exact past
    split at went
    · rename_i attached
      exact Option.some.inj went ▸ .put (ready _ (Or.inl attached)) nofun
    · rename_i evicted
      exact Option.some.inj went ▸ .put (ready _ (Or.inr evicted)) nofun
    · cases went
  | pinning =>
    simp only [stage] at went
    have ready : Ready state l (if ok then .resolved else .failed) := ready_of_stage _
      (by simp [stage]) (by simp [stage]) (by simp [stage])
    exact Option.some.inj went ▸ .put ready (by cases ok <;> nofun)
  | resolved => simp [stage] at went
  | failed => simp [stage] at went

theorem wentOn_baseReturned {l : ℕ} (stage : (state.lookups l).stage = .awaitingBase)
    (object : Option ℕ) (isDuckDB : Bool) :
    WentOn generation state l (state.baseReturned generation l object isDuckDB) := by
  have ready : ∀ after : Stage, Ready state l after := fun after =>
    ready_of_stage after (by simp [stage]) (by simp [stage]) (by simp [stage])
  unfold State.baseReturned
  cases object with
  | none => exact .put (ready _) nofun
  | some object =>
    dsimp only
    split_ifs
    · exact .attaches (ready _)
    · exact .put (ready _) nofun

/-- A lookup that goes on changes no promise. -/
theorem Kept.wentOn (kept : Kept generation state) {l : ℕ}
    (went : WentOn generation state l next) : Kept generation next := by
  have puts : ∀ lookup : Lookup,
      lookup.connectionPromise = (state.lookups l).connectionPromise →
      Ready state l lookup.stage → Awaited (state.put l lookup) := fun lookup same ready =>
    kept.awaited.put ready.unresolved same
      (fun awaits p promised => (ready.build awaits p (same ▸ promised)).1)
      fun p promised unresolved => by
        by_cases awaits : (state.lookups l).stage = .awaitingBuild
        · exact (ready.build awaits p (same ▸ promised)).2 unresolved
        · exact kept.awaited.tunnelless l p (same ▸ promised) awaits ready.unresolved
  cases went with
  | put ready _ => exact kept.put (puts _ rfl ready)
  | attaches ready =>
    have attach : Ready state l .awaitingAttach :=
      ⟨ready.unresolved, fun awaits p promised => ⟨(ready.build awaits p promised).1,
        fun _ => (ready.build awaits p promised).2 nofun⟩, ready.attach⟩
    unfold State.attachOnce
    split_ifs
    · split
      · exact kept.put (puts _ rfl attach)
      · have awaited := puts { state.lookups l with
          attachPromise := some state.started, stage := .awaitingAttach } rfl attach
        exact kept.congr rfl rfl rfl rfl rfl (awaited.congr rfl rfl rfl rfl)
    · exact kept.put (puts _ rfl ready)

/-- A build that has not settled is of a proxied connection, and has no connection yet. -/
theorem Cached.building (cached : Cached generation state)
    (unbuilt : (state.promises p).build ≠ .built) (pending : (state.promises p).build ≠ .evicted) :
    (state.promises p).wrapper = .proxy ∧ (state.promises p).connection = .absent := by
  constructor
  · by_contra direct
    exact ((cached.consistent p).direct direct).elim unbuilt pending
  · by_contra opened
    exact unbuilt ((cached.consistent p).connection.mp opened)

/-- A build goes on, and is not over yet. -/
theorem Kept.building (kept : Kept generation state) {promise : Promise}
    (unbuilt : (state.promises p).build ≠ .built) (pending : (state.promises p).build ≠ .evicted)
    (name : promise.name = (state.promises p).name)
    (wrapper : promise.wrapper = (state.promises p).wrapper)
    (late : promise.late = (state.promises p).late)
    (connection : promise.connection = (state.promises p).connection)
    (unbuiltAfter : promise.build ≠ .built) (pendingAfter : promise.build ≠ .evicted)
    (tunnel : promise.tunnel = .live → promise.build = .opened ∨ promise.build = .closing) :
    Kept generation (state.setPromise p promise) := by
  obtain ⟨isProxy, absent⟩ := kept.cached.building unbuilt pending
  have goesOn := goesOn_setPromise name wrapper late pending (fun built => absurd built unbuilt)
    ⟨by simp [connection, absent, unbuiltAfter],
      fun live => ⟨wrapper.trans isProxy, (tunnel live).imp_right Or.inl⟩,
      fun direct => absurd (wrapper.trans isProxy) direct⟩
  refine ⟨kept.cached.setPromise goesOn pendingAfter fun built => absurd built unbuiltAfter,
    kept.released.goesOn kept.cached goesOn rfl rfl unbuilt ?_,
    kept.awaited.goesOn goesOn rfl rfl rfl⟩
  rw [promises_setPromise_self, connection, absent]
  exact nofun

theorem Kept.connect (kept : Kept generation state) (opened : (state.promises p).build = .opened)
    (constructs : Bool) : Kept generation (state.connect p constructs) := by
  have unbuilt : (state.promises p).build ≠ .built := by simp [opened]
  have pending : (state.promises p).build ≠ .evicted := by simp [opened]
  cases constructs with
  | false =>
    exact kept.building unbuilt pending rfl rfl rfl rfl nofun nofun fun _ => Or.inr rfl
  | true =>
    obtain ⟨isProxy, -⟩ := kept.cached.building unbuilt pending
    have goesOn : GoesOn state.promises (state.connect p true).promises p :=
      goesOn_setPromise rfl rfl rfl pending (fun _ => rfl)
        ⟨by simp, fun _ => ⟨isProxy, Or.inr (Or.inr rfl)⟩, fun direct => absurd isProxy direct⟩
    refine ⟨kept.cached.connect opened goesOn,
      kept.released.goesOn kept.cached goesOn rfl rfl unbuilt ?_,
      kept.awaited.goesOn goesOn rfl rfl rfl⟩
    exact (congrArg Promise.connection (promises_setPromise_self ..)).trans_ne nofun

theorem Kept.evict (kept : Kept generation state)
    (rejected : (state.promises p).build = .rejected) : Kept generation (state.evict p) := by
  have unbuilt : (state.promises p).build ≠ .built := by simp [rejected]
  have pending : (state.promises p).build ≠ .evicted := by simp [rejected]
  obtain ⟨isProxy, absent⟩ := kept.cached.building unbuilt pending
  have goesOn : GoesOn state.promises (state.evict p).promises p := by
    refine goesOn_setPromise rfl rfl rfl pending (fun built => absurd built unbuilt) ⟨?_, ?_, ?_⟩
    · simp [absent]
    · intro live
      have stage := ((kept.cached.consistent p).tunnel live).2
      simp [rejected] at stage
    · exact fun _ => Or.inr rfl
  refine ⟨kept.cached.evict rejected goesOn,
    kept.released.goesOn kept.cached goesOn rfl rfl unbuilt ?_,
    kept.awaited.goesOn goesOn rfl rfl rfl⟩
  exact (congrArg Promise.connection (promises_setPromise_self ..)).trans_ne (by simp [absent])

/-- What is built is closed. -/
theorem Kept.closes (kept : Kept generation state) (promise : Promise)
    (built : (state.promises p).build = .built) (name : promise.name = (state.promises p).name)
    (wrapper : promise.wrapper = (state.promises p).wrapper)
    (late : promise.late = (state.promises p).late) (isBuilt : promise.build = .built)
    (connection : promise.connection ≠ .absent)
    (tunnel : promise.tunnel = .live → (state.promises p).tunnel = .live) :
    Cached generation (state.setPromise p promise) ∧ Awaited (state.setPromise p promise) := by
  have goesOn := goesOn_setPromise name wrapper late (by simp [built]) (fun _ => isBuilt)
    ⟨by simp [connection, isBuilt], fun live => ⟨wrapper.trans
      ((kept.cached.consistent p).tunnel (tunnel live)).1, Or.inr (Or.inr isBuilt)⟩,
      fun _ => Or.inl isBuilt⟩
  exact ⟨kept.cached.setPromise goesOn (by simp [isBuilt]) fun _ => built,
    kept.awaited.goesOn goesOn rfl rfl rfl⟩

theorem Kept.connectionSettled (kept : Kept generation state) {targets : List ℕ}
    {isShutDown : Bool} (closing : state.release = .closing targets isShutDown)
    (member : p ∈ targets)
    (settled : state.connectionSettled p (targets.filter (· ≠ p)) isShutDown = some next) :
    Kept generation next := by
  have released := kept.released.settles closing member settled
  unfold State.connectionSettled at settled
  split at settled
  · rename_i built
    obtain rfl := Option.some.inj settled
    obtain ⟨cached, awaited⟩ := kept.closes { state.promises p with connection := .closed }
      built rfl rfl rfl built nofun id
    have unfinished : state.release ≠ .finished := by simp [closing]
    exact ⟨cached.congr rfl rfl rfl rfl fun _ => unfinished, released,
      awaited.congr rfl rfl rfl rfl⟩
  · obtain rfl := Option.some.inj settled
    exact ⟨kept.cached.congr rfl rfl rfl rfl (by simp [closing]), released,
      kept.awaited.congr rfl rfl rfl rfl⟩
  · cases settled

theorem Kept.endpointClosed (kept : Kept generation state) {endpoints : List ℕ}
    (draining : state.release = .draining endpoints) (member : p ∈ endpoints) :
    Kept generation { state.setPromise p { state.promises p with tunnel := .closed } with
      release := .draining (endpoints.filter (· ≠ p)) } := by
  have built := (kept.released.draining endpoints draining).1 p member
  obtain ⟨cached, awaited⟩ := kept.closes { state.promises p with tunnel := .closed }
    built rfl rfl rfl built ((kept.cached.consistent p).connection.mpr built) nofun
  have unfinished : state.release ≠ .finished := by simp [draining]
  exact ⟨cached.congr rfl rfl rfl rfl fun _ => unfinished,
    kept.released.drains draining member, awaited.congr rfl rfl rfl rfl⟩

/-- The caches are cleared. -/
theorem Kept.clear (kept : Kept generation state) (draining : state.release = .draining []) :
    Kept generation { state with
      cache := fun _ _ => none, proxyEndpoints := fun _ => none, release := .finished } where
  cached := {
    consistent := kept.cached.consistent
    numbered := kept.cached.numbered
    wrapper := kept.cached.wrapper
    alone := kept.cached.alone
    cached := fun unfinished => absurd rfl unfinished
    taken := nofun
    registered := fun unfinished => absurd rfl unfinished
    endpoint := nofun }
  released := kept.released.clears draining
  awaited := kept.awaited.congr rfl rfl rfl rfl

/-- The release goes on, and the promises stay as they are. -/
theorem Kept.releases (kept : Kept generation state) {release : Release}
    (unfinished : state.release ≠ .finished) (released : Released { state with release }) :
    Kept generation { state with release } :=
  ⟨kept.cached.congr rfl rfl rfl rfl fun _ => unfinished, released,
    kept.awaited.congr rfl rfl rfl rfl⟩

theorem Kept.step (kept : Kept generation state) {event : Event}
    (stepped : state.step generation event = some next) : Kept generation next := by
  cases event with
  | lookupConnection name constructs =>
    obtain ⟨unfinished, went⟩ := Option.ite_none_left_eq_some.mp stepped
    exact Option.some.inj went ▸ kept.lookupConnection unfinished name constructs
  | baseReturned l object isDuckDB =>
    obtain ⟨stage, went⟩ := Option.ite_none_right_eq_some.mp stepped
    exact Option.some.inj went ▸ kept.wentOn (wentOn_baseReturned stage object isDuckDB)
  | goOn l ok => exact kept.wentOn (wentOn_goOn stepped)
  | dialed p opens =>
    obtain ⟨dialing, went⟩ := Option.ite_none_right_eq_some.mp stepped
    obtain rfl := Option.some.inj went
    have undug : (state.promises p).tunnel ≠ .live := fun live => by
      have stage := ((kept.cached.consistent p).tunnel live).2
      simp [dialing] at stage
    cases opens with
    | true =>
      exact kept.building (by simp [dialing]) (by simp [dialing]) rfl rfl rfl rfl nofun nofun
        fun _ => Or.inl rfl
    | false =>
      exact kept.building (by simp [dialing]) (by simp [dialing]) rfl rfl rfl rfl nofun nofun
        fun live => absurd live undug
  | connect p constructs =>
    obtain ⟨opened, went⟩ := Option.ite_none_right_eq_some.mp stepped
    exact Option.some.inj went ▸ kept.connect opened constructs
  | tunnelClosed p =>
    obtain ⟨closing, went⟩ := Option.ite_none_right_eq_some.mp stepped
    exact Option.some.inj went ▸ kept.building (by simp [closing]) (by simp [closing]) rfl rfl rfl
      rfl nofun nofun nofun
  | evict p =>
    obtain ⟨rejected, went⟩ := Option.ite_none_right_eq_some.mp stepped
    exact Option.some.inj went ▸ kept.evict rejected
  | attachSettled run ok =>
    obtain ⟨-, went⟩ := Option.ite_none_right_eq_some.mp stepped
    exact Option.some.inj went ▸ kept.congr rfl rfl rfl rfl rfl
      (kept.awaited.congr rfl rfl rfl rfl)
  | evictAttach run =>
    obtain ⟨-, went⟩ := Option.ite_none_right_eq_some.mp stepped
    exact Option.some.inj went ▸ kept.congr rfl rfl rfl rfl rfl
      (kept.awaited.congr rfl rfl rfl rfl)
  | releaseConnections =>
    obtain ⟨idle, went⟩ := Option.ite_none_right_eq_some.mp stepped
    exact Option.some.inj went ▸ kept.releases (by simp [idle])
      (kept.released.releases kept.cached idle)
  | shutDown =>
    unfold State.step at stepped
    dsimp only at stepped
    split at stepped
    · rename_i targets closing
      obtain ⟨earlyTargets, closes⟩ := kept.released.closing targets false closing
      refine Option.some.inj stepped ▸ kept.releases (by simp [closing])
        ⟨nofun, kept.released.late, ?_, nofun, nofun⟩
      rintro _ _ ⟨⟩
      exact ⟨earlyTargets, closes⟩
    · cases stepped
  | connectionSettled p =>
    unfold State.step at stepped
    dsimp only at stepped
    split at stepped
    · rename_i targets isShutDown closing
      obtain ⟨member, settled⟩ := Option.ite_none_right_eq_some.mp stepped
      exact kept.connectionSettled closing member settled
    · cases stepped
  | collectEndpoints =>
    obtain ⟨closing, went⟩ := Option.ite_none_right_eq_some.mp stepped
    exact Option.some.inj went ▸ kept.releases (by simp [closing])
      (kept.released.collects kept.cached closing)
  | endpointClosed p =>
    unfold State.step at stepped
    dsimp only at stepped
    split at stepped
    · rename_i endpoints draining
      obtain ⟨member, went⟩ := Option.ite_none_right_eq_some.mp stepped
      exact Option.some.inj went ▸ kept.endpointClosed draining member
    · cases stepped
  | clear =>
    obtain ⟨draining, went⟩ := Option.ite_none_right_eq_some.mp stepped
    exact Option.some.inj went ▸ kept.clear draining

theorem kept_initial (generation : Generation) : Kept generation {} where
  cached := {
    consistent := fun _ => ⟨by simp, nofun, fun _ => Or.inr rfl⟩
    numbered := fun _ _ => rfl
    wrapper := fun _ kept => absurd rfl kept
    alone := fun _ _ kept => absurd rfl kept
    cached := fun _ _ kept => absurd rfl kept
    taken := nofun
    registered := nofun
    endpoint := nofun }
  released := ⟨fun _ _ => rfl, nofun, nofun, nofun, nofun⟩
  awaited := ⟨fun _ _ => ⟨rfl, rfl, rfl⟩, nofun, nofun, fun _ _ kept => absurd rfl kept, nofun⟩

theorem run_concat (state : State) (events : List Event) (event : Event) :
    state.run generation (events ++ [event]) =
      (state.run generation events).bind fun between => between.step generation event := by
  simp [State.run, List.foldlM_append]

end Generation

end MalloyPublisher.Connections
