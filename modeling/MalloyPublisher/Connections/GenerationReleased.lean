import MalloyPublisher.Connections.GenerationSteps
import Mathlib.Data.List.Induction

/-!
# What a generation of connections leaves open

A lookup that begins takes a promise that is not dropped, so that one that has failed is not
replayed. What is built behind a promise of the release is closed. What is built behind a later one
is not: the release takes the promises when it begins, and clears the caches when it is done.

## Main definitions

* `Attaching` — the attach runs of sessions, and the lookups that have gone on from them
* `Spent` — no lookup from a number on takes what is dropped
* `NoneLate` — no step of a run builds a connection that the release does not know of

## Main results

* `Spent.step`, `Spent.of_run` — what is dropped is not taken up again
* `noneLate_iff` — a run has built a connection late if one of its steps did
* `generationReleased` — one connection and one tunnel a name, failures that are not replayed, and
  nothing left open but what is built late
* `dialedAfter_leftOpen` — a tunnel that is dialed after the release has looked is left open
-/

namespace MalloyPublisher.Connections

namespace Generation

variable {generation : Generation} {state next : State} {p : ℕ}

/-! ## What is dropped is not taken up again -/

/-- The attach runs that sessions have are not dropped, and a lookup that has gone on from one has
seen its end. -/
structure Attaching (state : State) : Prop where
  numbered : ∀ run, state.started ≤ run → (state.runs run).phase = .evicted
  kept : ∀ target run, state.attachPromises target = some run →
    (state.runs run).phase ≠ .evicted ∧ (state.runs run).target = target
  past : ∀ l run, (state.lookups l).attachPromise = some run →
    run < state.started ∧ ((state.lookups l).stage ≠ .awaitingAttach →
      (state.runs run).phase = .attached ∨ (state.runs run).phase = .evicted)

theorem Attaching.congr (attaching : Attaching state)
    (attachPromises : next.attachPromises = state.attachPromises) (runs : next.runs = state.runs)
    (started : next.started = state.started) (lookups : next.lookups = state.lookups) :
    Attaching next where
  numbered := runs ▸ started ▸ attaching.numbered
  kept := attachPromises ▸ runs ▸ attaching.kept
  past := lookups ▸ started ▸ runs ▸ attaching.past

/-- A lookup begins with no attach run. -/
theorem Attaching.begin (attaching : Attaching state) {lookup : Lookup}
    (unattached : lookup.attachPromise = none) : Attaching (state.begin lookup) where
  numbered := attaching.numbered
  kept := attaching.kept
  past l run isRun := by
    rcases eq_or_ne l state.asked with rfl | other
    · have self : (state.begin lookup).lookups state.asked = lookup := Function.update_self ..
      rw [self, unattached] at isRun
      cases isRun
    · have same : (state.begin lookup).lookups l = state.lookups l := Function.update_of_ne other ..
      rw [same] at isRun ⊢
      exact attaching.past l run isRun

theorem Attaching.put (attaching : Attaching state) {l : ℕ} {lookup : Lookup}
    (past : ∀ run, lookup.attachPromise = some run →
      run < state.started ∧ (lookup.stage ≠ .awaitingAttach →
        (state.runs run).phase = .attached ∨ (state.runs run).phase = .evicted)) :
    Attaching (state.put l lookup) where
  numbered := attaching.numbered
  kept := attaching.kept
  past k run isRun := by
    rcases eq_or_ne k l with rfl | other
    · have self : (state.put k lookup).lookups k = lookup := Function.update_self ..
      rw [self] at isRun ⊢
      exact past run isRun
    · have same : (state.put l lookup).lookups k = state.lookups k :=
        Function.update_of_ne other ..
      rw [same] at isRun ⊢
      exact attaching.past k run isRun

theorem Attaching.unspent (attaching : Attaching state) {run : ℕ}
    (kept : (state.runs run).phase ≠ .evicted) : run < state.started := by
  by_contra unstarted
  exact kept (attaching.numbered run (Nat.le_of_not_lt unstarted))

/-- A session that has no attach run gets one. -/
theorem Attaching.starts (attaching : Attaching state) (l : ℕ) (lookup : Lookup)
    (target : Target) (awaits : lookup.attachPromise = some state.started)
    (stage : lookup.stage = .awaitingAttach) : Attaching { state.put l lookup with
      attachPromises := Function.update state.attachPromises target (some state.started)
      runs := Function.update state.runs state.started { target, phase := .running }
      started := state.started + 1 } where
  numbered run unstarted := by
    show (Function.update state.runs state.started _ run).phase = .evicted
    rw [Function.update_of_ne (Nat.ne_of_gt unstarted)]
    exact attaching.numbered run (Nat.le_of_succ_le unstarted)
  kept other run found := by
    have found : Function.update state.attachPromises target (some state.started) other =
        some run := found
    show (Function.update state.runs state.started _ run).phase ≠ .evicted ∧
      (Function.update state.runs state.started _ run).target = other
    rcases eq_or_ne other target with rfl | otherTarget
    · rw [Function.update_self] at found
      rw [← Option.some.inj found, Function.update_self]
      exact ⟨nofun, rfl⟩
    · rw [Function.update_of_ne otherTarget] at found
      obtain ⟨kept, same⟩ := attaching.kept other run found
      rw [Function.update_of_ne (Nat.ne_of_lt (attaching.unspent kept))]
      exact ⟨kept, same⟩
  past k run isRun := by
    show run < state.started + 1 ∧ (_ → (Function.update state.runs state.started _ run).phase = _ ∨
      (Function.update state.runs state.started _ run).phase = _)
    rcases eq_or_ne k l with rfl | other
    · have self : (state.put k lookup).lookups k = lookup := Function.update_self ..
      have isRun : ((state.put k lookup).lookups k).attachPromise = some run := isRun
      rw [self, awaits] at isRun
      refine ⟨Nat.lt_succ_of_le (Nat.le_of_eq (Option.some.inj isRun).symm), fun after => ?_⟩
      exact absurd ((congrArg Lookup.stage self).trans stage) after
    · have same : (state.put l lookup).lookups k = state.lookups k :=
        Function.update_of_ne other ..
      have isRun : ((state.put l lookup).lookups k).attachPromise = some run := isRun
      rw [same] at isRun
      obtain ⟨isStarted, past⟩ := attaching.past k run isRun
      rw [Function.update_of_ne (Nat.ne_of_lt isStarted)]
      exact ⟨Nat.lt_succ_of_lt isStarted, fun after => past (same ▸ after)⟩

/-- A lookup that goes on from an attach run has seen its end. -/
theorem Attaching.wentOn (attaching : Attaching state) {l : ℕ}
    (went : WentOn generation state l next) : Attaching next := by
  have after : ∀ stage, Ready state l stage → ∀ run, (state.lookups l).attachPromise = some run →
      run < state.started ∧
        ((state.runs run).phase = .attached ∨ (state.runs run).phase = .evicted) := by
    intro stage ready run isRun
    obtain ⟨isStarted, past⟩ := attaching.past l run isRun
    refine ⟨isStarted, ?_⟩
    by_cases awaits : (state.lookups l).stage = .awaitingAttach
    · exact ready.attach awaits run isRun
    · exact past awaits
  cases went with
  | put ready _ =>
    exact attaching.put fun run isRun => (after _ ready run isRun).imp_right fun past _ => past
  | attaches ready =>
    unfold State.attachOnce
    split_ifs
    · split
      · rename_i run found
        refine attaching.put fun run isRun => ⟨?_, fun awaits => absurd rfl awaits⟩
        rw [← Option.some.inj isRun]
        exact attaching.unspent (attaching.kept _ _ found).1
      · exact attaching.starts l _ _ rfl rfl
    · exact attaching.put fun run isRun => (after _ ready run isRun).imp_right fun past _ => past

/-- An attach run goes on, where no lookup has gone on from it. -/
theorem Attaching.goesOn (attaching : Attaching state) {a : ℕ} {phase : AttachPhase}
    {attachPromises : Target → Option ℕ} (pending : (state.runs a).phase ≠ .evicted)
    (unattached : (state.runs a).phase ≠ .attached)
    (kept : ∀ target run, attachPromises target = some run →
      state.attachPromises target = some run ∧ (run = a → phase ≠ .evicted)) :
    Attaching { state with
      runs := Function.update state.runs a { state.runs a with phase }, attachPromises } where
  numbered run unstarted := by
    have other : run ≠ a := fun same => pending (same ▸ attaching.numbered run unstarted)
    show (Function.update state.runs a _ run).phase = .evicted
    rw [Function.update_of_ne other]
    exact attaching.numbered run unstarted
  kept target run found := by
    obtain ⟨found, alive⟩ := kept target run found
    obtain ⟨keptRun, same⟩ := attaching.kept target run found
    show (Function.update state.runs a _ run).phase ≠ .evicted ∧
      (Function.update state.runs a _ run).target = target
    rcases eq_or_ne run a with rfl | other
    · rw [Function.update_self]
      exact ⟨alive rfl, same⟩
    · rw [Function.update_of_ne other]
      exact ⟨keptRun, same⟩
  past l run isRun := by
    obtain ⟨isStarted, past⟩ := attaching.past l run isRun
    refine ⟨isStarted, fun after => ?_⟩
    have other : run ≠ a := fun same => by
      subst same
      exact (past after).elim unattached pending
    show (Function.update state.runs a _ run).phase = _ ∨
      (Function.update state.runs a _ run).phase = _
    rw [Function.update_of_ne other]
    exact past after

/-- A step of a build or of the release. -/
def Event.isRemote : Event → Bool
  | .lookupConnection _ _ | .baseReturned _ _ _ | .goOn _ _ | .attachSettled _ _
  | .evictAttach _ => false
  | _ => true

/-- The lookups and the attach runs stay as they are. -/
structure Apart (state next : State) : Prop where
  lookups : next.lookups = state.lookups
  asked : next.asked = state.asked
  attachPromises : next.attachPromises = state.attachPromises
  runs : next.runs = state.runs
  started : next.started = state.started

theorem apart_of_step {event : Event} (remote : event.isRemote = true)
    (stepped : state.step generation event = some next) : Apart state next := by
  have same : Apart state state := ⟨rfl, rfl, rfl, rfl, rfl⟩
  cases event with
  | lookupConnection _ _ | baseReturned _ _ _ | goOn _ _ | attachSettled _ _ | evictAttach _ =>
    cases remote
  | dialed _ _ | tunnelClosed _ | evict _ | releaseConnections | collectEndpoints | clear =>
    obtain ⟨-, went⟩ := Option.ite_none_right_eq_some.mp stepped
    exact Option.some.inj went ▸ ⟨rfl, rfl, rfl, rfl, rfl⟩
  | connect p constructs =>
    obtain ⟨-, went⟩ := Option.ite_none_right_eq_some.mp stepped
    refine Option.some.inj went ▸ ?_
    cases constructs <;> exact ⟨rfl, rfl, rfl, rfl, rfl⟩
  | shutDown =>
    unfold State.step at stepped
    dsimp only at stepped
    split at stepped
    · exact Option.some.inj stepped ▸ ⟨rfl, rfl, rfl, rfl, rfl⟩
    · cases stepped
  | connectionSettled p =>
    unfold State.step at stepped
    dsimp only at stepped
    split at stepped
    · obtain ⟨-, settled⟩ := Option.ite_none_right_eq_some.mp stepped
      unfold State.connectionSettled at settled
      split at settled
      · exact Option.some.inj settled ▸ ⟨rfl, rfl, rfl, rfl, rfl⟩
      · exact Option.some.inj settled ▸ ⟨rfl, rfl, rfl, rfl, rfl⟩
      · cases settled
    · cases stepped
  | endpointClosed p =>
    unfold State.step at stepped
    dsimp only at stepped
    split at stepped
    · obtain ⟨-, went⟩ := Option.ite_none_right_eq_some.mp stepped
      exact Option.some.inj went ▸ ⟨rfl, rfl, rfl, rfl, rfl⟩
    · cases stepped

/-- The attach promises that are left when a run is dropped. -/
theorem kept_evictAttach {a run : ℕ} {target : Target} (attaching : Attaching state)
    (found : (state.evictAttach a).attachPromises target = some run) :
    state.attachPromises target = some run ∧ run ≠ a := by
  have found : Function.update state.attachPromises (state.runs a).target
      (if state.attachPromises (state.runs a).target = some a then none
        else state.attachPromises (state.runs a).target) target = some run := found
  rcases eq_or_ne target (state.runs a).target with rfl | other
  · rw [Function.update_self] at found
    split_ifs at found with here
    exact ⟨found, fun same => here (same ▸ found)⟩
  · rw [Function.update_of_ne other] at found
    exact ⟨found, fun same => other (same ▸ (attaching.kept target run found).2.symm)⟩

theorem Attaching.step (attaching : Attaching state) {event : Event}
    (stepped : state.step generation event = some next) : Attaching next := by
  by_cases remote : event.isRemote = true
  · have apart := apart_of_step remote stepped
    exact attaching.congr apart.attachPromises apart.runs apart.started apart.lookups
  cases event with
  | lookupConnection name constructs =>
    obtain ⟨-, went⟩ := Option.ite_none_left_eq_some.mp stepped
    obtain rfl := Option.some.inj went
    unfold State.lookupConnection
    split
    · exact attaching.begin rfl
    · split
      · exact attaching.begin rfl
      · split_ifs
        · exact (attaching.congr rfl rfl rfl rfl : Attaching (state.build _ _)).begin rfl
        · exact attaching.begin rfl
  | baseReturned l object isDuckDB =>
    obtain ⟨stage, went⟩ := Option.ite_none_right_eq_some.mp stepped
    exact Option.some.inj went ▸ attaching.wentOn (wentOn_baseReturned stage object isDuckDB)
  | goOn l ok => exact attaching.wentOn (wentOn_goOn stepped)
  | attachSettled a ok =>
    obtain ⟨running, went⟩ := Option.ite_none_right_eq_some.mp stepped
    refine Option.some.inj went ▸ attaching.goesOn (by simp [running]) (by simp [running])
      fun target run found => ⟨found, fun _ => ?_⟩
    cases ok <;> nofun
  | evictAttach a =>
    obtain ⟨rejected, went⟩ := Option.ite_none_right_eq_some.mp stepped
    refine Option.some.inj went ▸ attaching.goesOn (by simp [rejected]) (by simp [rejected])
      fun target run found => ?_
    obtain ⟨found, other⟩ := kept_evictAttach attaching found
    exact ⟨found, fun same => absurd same other⟩
  | _ => exact absurd rfl remote

/-- What a step makes of a promise. -/
inductive Evolves (generation : Generation) (state : State) (event : Event) (p : ℕ) : Promise → Prop
  | stays : Evolves generation state event p (state.promises p)
  | begins {promise : Promise} (isMade : p = state.made)
      (late : promise.late = true → promise.build = .built →
        state.buildsLate generation event = true) : Evolves generation state event p promise
  | goesOn {promise : Promise} (alive : (state.promises p).build ≠ .evicted)
      (late : promise.late = (state.promises p).late)
      (built : promise.build = .built ↔
        (state.promises p).build = .built ∨ event = .connect p true) :
      Evolves generation state event p promise

theorem evolves_setPromise {event : Event} {promise : Promise} (q : ℕ)
    (alive : (state.promises p).build ≠ .evicted) (late : promise.late = (state.promises p).late)
    (built : promise.build = .built ↔
      (state.promises p).build = .built ∨ event = .connect p true) :
    Evolves generation state event q ((state.setPromise p promise).promises q) := by
  rcases eq_or_ne q p with rfl | other
  · rw [promises_setPromise_self]
    exact .goesOn alive late built
  · rw [promises_setPromise_of_ne other]
    exact .stays

theorem WentOn.promises {l : ℕ} (went : WentOn generation state l next) :
    next.promises = state.promises ∧ next.made = state.made ∧ next.asked = state.asked := by
  cases went with
  | put => exact ⟨rfl, rfl, rfl⟩
  | attaches =>
    unfold State.attachOnce
    split_ifs
    · split <;> exact ⟨rfl, rfl, rfl⟩
    · exact ⟨rfl, rfl, rfl⟩

/-- What is built at once while the release runs is built late. -/
theorem buildsLate_of_build {name : Option String} {key : String} {wrapper : Wrapper}
    {constructs : Bool}
    (isKey : (name.bind fun name => (generation.wrapper name).map fun wrapper => (name, wrapper)) =
      some (key, wrapper)) (uncached : state.cache wrapper key = none)
    (begins : generation.starts wrapper key constructs = true)
    (late : ((state.build wrapper key).promises state.made).late = true)
    (built : ((state.build wrapper key).promises state.made).build = .built) :
    state.buildsLate generation (.lookupConnection name constructs) = true := by
  obtain ⟨rfl, isWrapper⟩ := wrapper_of_lookup isKey
  rw [promises_build_self] at late built
  have direct : wrapper ≠ .proxy := fun isProxy => by simp [isProxy] at built
  have constructs : constructs = true := by simpa [Generation.starts, direct] using begins
  simpa [State.buildsLate, isWrapper, direct, constructs, uncached] using late

theorem Kept.evolves (kept : Kept generation state) {event : Event}
    (stepped : state.step generation event = some next) :
    state.made ≤ next.made ∧ ∀ p, Evolves generation state event p (next.promises p) := by
  have stays : ∀ other : State, other.made = state.made → other.promises = state.promises →
      state.made ≤ other.made ∧ ∀ p, Evolves generation state event p (other.promises p) :=
    fun other made promises => ⟨Nat.le_of_eq made.symm, fun p => promises ▸ .stays⟩
  cases event with
  | lookupConnection name constructs =>
    obtain ⟨-, went⟩ := Option.ite_none_left_eq_some.mp stepped
    obtain rfl := Option.some.inj went
    unfold State.lookupConnection
    split
    · exact stays _ rfl rfl
    · rename_i key wrapper isKey
      split
      · exact stays _ rfl rfl
      · rename_i uncached
        split_ifs with begins
        · refine ⟨Nat.le_succ _, fun p => ?_⟩
          rcases eq_or_ne p state.made with rfl | other
          · exact .begins rfl fun late built => buildsLate_of_build isKey uncached begins late built
          · exact (promises_build_of_ne other ..).symm ▸ .stays
        · exact stays _ rfl rfl
  | baseReturned l object isDuckDB =>
    obtain ⟨stage, went⟩ := Option.ite_none_right_eq_some.mp stepped
    have went := Option.some.inj went ▸ wentOn_baseReturned stage
      object isDuckDB
    exact stays _ went.promises.2.1 went.promises.1
  | goOn l ok =>
    have went := wentOn_goOn stepped
    exact stays _ went.promises.2.1 went.promises.1
  | dialed p opens =>
    obtain ⟨dialing, went⟩ := Option.ite_none_right_eq_some.mp stepped
    refine Option.some.inj went ▸ ⟨Nat.le_refl _, fun q => ?_⟩
    cases opens <;> exact evolves_setPromise q (by simp [dialing]) rfl (by simp [dialing])
  | connect p constructs =>
    obtain ⟨opened, went⟩ := Option.ite_none_right_eq_some.mp stepped
    refine Option.some.inj went ▸ ?_
    cases constructs
    · exact ⟨Nat.le_refl _, fun q => evolves_setPromise q (by simp [opened]) rfl (by simp [opened])⟩
    · exact ⟨Nat.le_refl _, fun q => evolves_setPromise q (by simp [opened]) rfl (by simp)⟩
  | tunnelClosed p =>
    obtain ⟨closing, went⟩ := Option.ite_none_right_eq_some.mp stepped
    exact Option.some.inj went ▸ ⟨Nat.le_refl _, fun q =>
      evolves_setPromise q (by simp [closing]) rfl (by simp [closing])⟩
  | evict p =>
    obtain ⟨rejected, went⟩ := Option.ite_none_right_eq_some.mp stepped
    exact Option.some.inj went ▸ ⟨Nat.le_refl _, fun q =>
      evolves_setPromise q (by simp [rejected]) rfl (by simp [rejected])⟩
  | attachSettled _ _ | evictAttach _ | releaseConnections | collectEndpoints | clear =>
    obtain ⟨-, went⟩ := Option.ite_none_right_eq_some.mp stepped
    exact Option.some.inj went ▸ stays _ rfl rfl
  | shutDown =>
    unfold State.step at stepped
    dsimp only at stepped
    split at stepped
    · exact Option.some.inj stepped ▸ stays _ rfl rfl
    · cases stepped
  | connectionSettled p =>
    unfold State.step at stepped
    dsimp only at stepped
    split at stepped
    · obtain ⟨-, settled⟩ := Option.ite_none_right_eq_some.mp stepped
      unfold State.connectionSettled at settled
      split at settled
      · rename_i built
        exact Option.some.inj settled ▸ ⟨Nat.le_refl _, fun q =>
          evolves_setPromise q (by simp [built]) rfl (by simp)⟩
      · exact Option.some.inj settled ▸ stays _ rfl rfl
      · cases settled
    · cases stepped
  | endpointClosed p =>
    unfold State.step at stepped
    dsimp only at stepped
    split at stepped
    · rename_i endpoints draining
      obtain ⟨member, went⟩ := Option.ite_none_right_eq_some.mp stepped
      have built := (kept.released.draining endpoints draining).1 p member
      exact Option.some.inj went ▸ ⟨Nat.le_refl _, fun q =>
        evolves_setPromise q (by simp [built]) rfl (by simp)⟩
    · cases stepped

/-- A promise that is dropped stays so. -/
theorem Kept.evicted_step (kept : Kept generation state) {event : Event}
    (stepped : state.step generation event = some next) (isMade : p < state.made)
    (evicted : (state.promises p).build = .evicted) :
    p < next.made ∧ (next.promises p).build = .evicted := by
  obtain ⟨grows, evolves⟩ := kept.evolves stepped
  refine ⟨Nat.lt_of_lt_of_le isMade grows, ?_⟩
  have evolved := evolves p
  generalize next.promises p = promise at evolved ⊢
  cases evolved with
  | stays => exact evicted
  | begins isNew => exact absurd isNew (Nat.ne_of_lt isMade)
  | goesOn alive => exact absurd evicted alive

/-- An attach run that is dropped stays so. -/
theorem evictedRun_step {event : Event} {a : ℕ}
    (stepped : state.step generation event = some next) (isStarted : a < state.started)
    (evicted : (state.runs a).phase = .evicted) :
    a < next.started ∧ (next.runs a).phase = .evicted := by
  have updates : ∀ b run, b ≠ a → (Function.update state.runs b run a).phase = .evicted := by
    intro b run other
    rwa [Function.update_of_ne other.symm]
  have wentOn : ∀ l next, WentOn generation state l next →
      a < next.started ∧ (next.runs a).phase = .evicted := by
    intro l next went
    cases went with
    | put => exact ⟨isStarted, evicted⟩
    | attaches =>
      unfold State.attachOnce
      split_ifs
      · split
        · exact ⟨isStarted, evicted⟩
        · exact ⟨Nat.lt_succ_of_lt isStarted, updates _ _ (Nat.ne_of_gt isStarted)⟩
      · exact ⟨isStarted, evicted⟩
  by_cases remote : event.isRemote = true
  · have apart := apart_of_step remote stepped
    rw [apart.started, apart.runs]
    exact ⟨isStarted, evicted⟩
  cases event with
  | lookupConnection name constructs =>
    obtain ⟨-, went⟩ := Option.ite_none_left_eq_some.mp stepped
    obtain rfl := Option.some.inj went
    unfold State.lookupConnection
    split
    · exact ⟨isStarted, evicted⟩
    · split
      · exact ⟨isStarted, evicted⟩
      · split_ifs <;> exact ⟨isStarted, evicted⟩
  | baseReturned l object isDuckDB =>
    obtain ⟨stage, went⟩ := Option.ite_none_right_eq_some.mp stepped
    exact wentOn l _ (Option.some.inj went ▸ wentOn_baseReturned stage object isDuckDB)
  | goOn l ok => exact wentOn l _ (wentOn_goOn stepped)
  | attachSettled b ok =>
    obtain ⟨running, went⟩ := Option.ite_none_right_eq_some.mp stepped
    exact Option.some.inj went ▸ ⟨isStarted, updates b _ fun same => by
      simp [same, evicted] at running⟩
  | evictAttach b =>
    obtain ⟨rejected, went⟩ := Option.ite_none_right_eq_some.mp stepped
    exact Option.some.inj went ▸ ⟨isStarted, updates b _ fun same => by
      simp [same, evicted] at rejected⟩
  | _ => exact absurd rfl remote

/-- A promise and an attach run that are dropped, and that no lookup from a number on has. -/
structure Spent (from' : ℕ) (gone goneRun : Option ℕ) (state : State) : Prop where
  asked : from' ≤ state.asked
  promise : ∀ p, gone = some p → p < state.made ∧ (state.promises p).build = .evicted
  run : ∀ a, goneRun = some a → a < state.started ∧ (state.runs a).phase = .evicted
  untaken : ∀ l, from' ≤ l →
    (∀ p, gone = some p → (state.lookups l).connectionPromise ≠ some p) ∧
    ∀ a, goneRun = some a → (state.lookups l).attachPromise ≠ some a

variable {from' : ℕ} {gone goneRun : Option ℕ}

/-- A lookup changes to one that has neither. -/
theorem Spent.update (spent : Spent from' gone goneRun state) {l : ℕ} {lookup : Lookup}
    (promise : from' ≤ l → ∀ p, gone = some p → lookup.connectionPromise ≠ some p)
    (run : from' ≤ l → ∀ a, goneRun = some a → lookup.attachPromise ≠ some a) (k : ℕ)
    (late : from' ≤ k) :
    (∀ p, gone = some p → (Function.update state.lookups l lookup k).connectionPromise ≠ some p) ∧
    ∀ a, goneRun = some a → (Function.update state.lookups l lookup k).attachPromise ≠ some a := by
  rcases eq_or_ne k l with rfl | other
  · rw [Function.update_self]
    exact ⟨promise late, run late⟩
  · rw [Function.update_of_ne other]
    exact spent.untaken k late

theorem Spent.untaken_wentOn (spent : Spent from' gone goneRun state) (attaching : Attaching state)
    {l : ℕ} (went : WentOn generation state l next) (k : ℕ) (late : from' ≤ k) :
    (∀ p, gone = some p → (next.lookups k).connectionPromise ≠ some p) ∧
    ∀ a, goneRun = some a → (next.lookups k).attachPromise ≠ some a := by
  have same : ∀ {lookup : Lookup}, lookup.connectionPromise = (state.lookups l).connectionPromise →
      from' ≤ l → ∀ p, gone = some p → lookup.connectionPromise ≠ some p :=
    fun same late p isGone => same ▸ (spent.untaken l late).1 p isGone
  cases went with
  | put =>
    refine spent.update ?_ ?_ k late
    · exact same rfl
    · exact fun late => (spent.untaken l late).2
  | attaches =>
    unfold State.attachOnce
    split_ifs
    · split
      · rename_i run found
        refine spent.update ?_ (fun _ a isGone taken => ?_) k late
        · exact same rfl
        obtain rfl := Option.some.inj taken
        exact (attaching.kept _ _ found).1 (spent.run _ isGone).2
      · refine spent.update ?_ (fun _ a isGone taken => ?_) k late
        · exact same rfl
        exact Nat.ne_of_gt (spent.run a isGone).1 (Option.some.inj taken)
    · refine spent.update ?_ ?_ k late
      · exact same rfl
      · exact fun late => (spent.untaken l late).2

/-- A lookup that begins takes a promise that is not dropped. -/
theorem Spent.untaken_lookupConnection (spent : Spent from' gone goneRun state)
    (kept : Kept generation state) (name : Option String) (constructs : Bool) (k : ℕ)
    (late : from' ≤ k) :
    let next := state.lookupConnection generation name constructs
    (∀ p, gone = some p → (next.lookups k).connectionPromise ≠ some p) ∧
    ∀ a, goneRun = some a → (next.lookups k).attachPromise ≠ some a := by
  unfold State.lookupConnection
  split
  · refine spent.update ?_ ?_ k late <;> exact fun _ _ _ => nofun
  · split
    · rename_i promise found
      refine spent.update (fun _ p isGone taken => ?_) ?_ k late
      rotate_left
      · exact fun _ _ _ => nofun
      obtain rfl := Option.some.inj taken
      exact (kept.cached.taken _ _ _ found).1 (spent.promise _ isGone).2
    · split_ifs
      · refine spent.update (fun _ p isGone taken => ?_) ?_ k late
        rotate_left
        · exact fun _ _ _ => nofun
        exact Nat.ne_of_gt (spent.promise p isGone).1 (Option.some.inj taken)
      · refine spent.update ?_ ?_ k late <;> exact fun _ _ _ => nofun

theorem asked_lookupConnection (state : State) (name : Option String) (constructs : Bool) :
    (state.lookupConnection generation name constructs).asked = state.asked + 1 := by
  unfold State.lookupConnection
  split
  · rfl
  · split
    · rfl
    · split_ifs <;> rfl

/-- A lookup takes up no promise and no attach run that is dropped. -/
theorem Spent.step {event : Event} (spent : Spent from' gone goneRun state)
    (kept : Kept generation state) (attaching : Attaching state)
    (stepped : state.step generation event = some next) : Spent from' gone goneRun next := by
  suffices rest : from' ≤ next.asked ∧ ∀ l, from' ≤ l →
      (∀ p, gone = some p → (next.lookups l).connectionPromise ≠ some p) ∧
      ∀ a, goneRun = some a → (next.lookups l).attachPromise ≠ some a from
    ⟨rest.1, fun p isGone => kept.evicted_step stepped (spent.promise p isGone).1
        (spent.promise p isGone).2,
      fun a isGone => evictedRun_step stepped (spent.run a isGone).1 (spent.run a isGone).2, rest.2⟩
  by_cases remote : event.isRemote = true
  · have apart := apart_of_step remote stepped
    rw [apart.asked, apart.lookups]
    exact ⟨spent.asked, spent.untaken⟩
  cases event with
  | lookupConnection name constructs =>
    obtain ⟨-, went⟩ := Option.ite_none_left_eq_some.mp stepped
    obtain rfl := Option.some.inj went
    rw [asked_lookupConnection]
    exact ⟨Nat.le_succ_of_le spent.asked, spent.untaken_lookupConnection kept name constructs⟩
  | baseReturned l object isDuckDB =>
    obtain ⟨stage, went⟩ := Option.ite_none_right_eq_some.mp stepped
    have went := Option.some.inj went ▸ wentOn_baseReturned stage
      object isDuckDB
    exact ⟨went.promises.2.2.symm ▸ spent.asked, spent.untaken_wentOn attaching went⟩
  | goOn l ok =>
    have went := wentOn_goOn stepped
    exact ⟨went.promises.2.2.symm ▸ spent.asked, spent.untaken_wentOn attaching went⟩
  | attachSettled _ _ | evictAttach _ =>
    obtain ⟨-, went⟩ := Option.ite_none_right_eq_some.mp stepped
    exact Option.some.inj went ▸ ⟨spent.asked, spent.untaken⟩
  | _ => exact absurd rfl remote

/-! ## What is built late -/

/-- A connection is built behind a promise that the release does not know of. -/
def State.BuiltLate (state : State) : Prop :=
  ∃ p, (state.promises p).late = true ∧ (state.promises p).build = .built

theorem builtLate_of_buildsLate {event : Event}
    (stepped : state.step generation event = some next)
    (builds : state.buildsLate generation event = true) : next.BuiltLate := by
  cases event with
  | lookupConnection name constructs =>
    obtain ⟨-, went⟩ := Option.ite_none_left_eq_some.mp stepped
    obtain rfl := Option.some.inj went
    simp only [State.buildsLate, Bool.and_eq_true, Option.any_eq_true] at builds
    obtain ⟨running, key, rfl, wrapper, isWrapper, ⟨direct, rfl⟩, uncached⟩ := builds
    have direct : wrapper ≠ .proxy := of_decide_eq_true direct
    have uncached : state.cache wrapper key = none := Option.isNone_iff_eq_none.mp uncached
    refine ⟨state.made, ?_⟩
    have promises : (state.lookupConnection generation (some key) true).promises state.made =
        (state.build wrapper key).promises state.made := by
      simp [State.lookupConnection, isWrapper, uncached, Generation.starts, direct, State.begin]
    rw [promises, promises_build_self]
    exact ⟨running, if_neg direct⟩
  | connect p constructs =>
    obtain ⟨-, went⟩ := Option.ite_none_right_eq_some.mp stepped
    obtain rfl := Option.some.inj went
    simp only [State.buildsLate, Bool.and_eq_true] at builds
    obtain ⟨late, rfl⟩ := builds
    have self : (state.connect p true).promises p =
        { state.promises p with build := .built, connection := .live } := Function.update_self ..
    exact ⟨p, self ▸ late, self ▸ rfl⟩
  | _ => exact absurd builds Bool.false_ne_true

/-- A connection is built late by such a step, or it was before. -/
theorem Kept.builtLate_step (kept : Kept generation state) {event : Event}
    (stepped : state.step generation event = some next) :
    next.BuiltLate ↔ state.BuiltLate ∨ state.buildsLate generation event = true := by
  obtain ⟨-, evolves⟩ := kept.evolves stepped
  constructor
  · rintro ⟨p, late, built⟩
    have evolved := evolves p
    generalize next.promises p = promise at evolved late built
    cases evolved with
    | stays => exact Or.inl ⟨p, late, built⟩
    | begins _ begins => exact Or.inr (begins late built)
    | goesOn _ same builds =>
      rw [same] at late
      rcases builds.mp built with built | rfl
      · exact Or.inl ⟨p, late, built⟩
      · exact Or.inr (by simp [State.buildsLate, late])
  · rintro (⟨p, late, built⟩ | builds)
    · refine ⟨p, ?_⟩
      have evolved := evolves p
      generalize next.promises p = promise at evolved ⊢
      cases evolved with
      | stays => exact ⟨late, built⟩
      | begins isMade =>
        cases built.symm.trans (kept.cached.numbered p (Nat.le_of_eq isMade.symm))
      | goesOn _ same builds => exact ⟨same.trans late, builds.mpr (Or.inl built)⟩
    · exact builtLate_of_buildsLate stepped builds

/-! ## What a run comes to -/

/-- What every state of a run is. -/
structure Sound (generation : Generation) (state : State) : Prop where
  kept : Kept generation state
  attaching : Attaching state

theorem sound_initial (generation : Generation) : Sound generation {} :=
  ⟨kept_initial generation, fun _ _ => rfl, nofun, nofun⟩

theorem Sound.step (sound : Sound generation state) {event : Event}
    (stepped : state.step generation event = some next) : Sound generation next :=
  ⟨sound.kept.step stepped, sound.attaching.step stepped⟩

theorem Sound.run (sound : Sound generation state) {events : List Event}
    (ran : state.run generation events = some next) : Sound generation next := by
  induction events using List.reverseRecOn generalizing next with
  | nil => exact Option.some.inj ran ▸ sound
  | append_singleton events event ih =>
    rw [run_concat] at ran
    obtain ⟨between, ran, stepped⟩ := Option.bind_eq_some_iff.mp ran
    exact (ih ran).step stepped

/-- Once it is dropped, a promise or an attach run is not taken up by the lookups that begin. -/
theorem Spent.of_run (spent : Spent from' gone goneRun state) (sound : Sound generation state)
    {events : List Event} (ran : state.run generation events = some next) :
    Spent from' gone goneRun next := by
  induction events using List.reverseRecOn generalizing next with
  | nil => exact Option.some.inj ran ▸ spent
  | append_singleton events event ih =>
    rw [run_concat] at ran
    obtain ⟨between, ran, stepped⟩ := Option.bind_eq_some_iff.mp ran
    have sound := sound.run ran
    exact (ih ran).step sound.kept sound.attaching stepped

/-- No step of a run builds a connection late. -/
def NoneLate (generation : Generation) (events : List Event) : Prop :=
  ∀ before event after state, events = before ++ event :: after →
    ({} : State).run generation before = some state →
    state.buildsLate generation event = false

theorem noneLate_iff {events : List Event} (ran : ({} : State).run generation events = some state) :
    NoneLate generation events ↔ ¬state.BuiltLate := by
  induction events using List.reverseRecOn generalizing state with
  | nil =>
    refine iff_of_true (fun before event after _ split => by simp at split) ?_
    rw [← Option.some.inj ran]
    rintro ⟨p, late, -⟩
    cases late
  | append_singleton events event ih =>
    rw [run_concat] at ran
    obtain ⟨between, ran, stepped⟩ := Option.bind_eq_some_iff.mp ran
    rw [((sound_initial generation).run ran).kept.builtLate_step stepped, not_or, ← ih ran,
      Bool.not_eq_true]
    constructor
    · intro none'
      refine ⟨fun before event' after state split ranBefore => ?_,
        none' events event [] between rfl ran⟩
      exact none' before event' (after ++ [event]) state (by simp [split]) ranBefore
    · rintro ⟨none', last⟩ before event' after state split ranBefore
      rcases List.eq_nil_or_concat after with rfl | ⟨after, last', rfl⟩
      · obtain ⟨rfl, isEvent⟩ := List.append_inj' split rfl
        obtain rfl := (List.cons.inj isEvent).1
        obtain rfl := Option.some.inj (ran.symm.trans ranBefore)
        exact last
      · rw [List.concat_eq_append, ← List.cons_append, ← List.append_assoc] at split
        exact none' before event' after state (List.append_inj' split rfl).1 ranBefore

/-- The release and every lookup have settled. -/
structure State.Settled (state : State) : Prop where
  release : state.release = .finished
  lookups : ∀ l, (state.lookups l).stage = .resolved ∨ (state.lookups l).stage = .failed

/-- What was opened has been closed. -/
def State.NothingOpen (state : State) : Prop :=
  ∀ p, (state.promises p).connection ≠ .live ∧ (state.promises p).tunnel ≠ .live

/-- Once all has settled, what is open is what was built late. -/
theorem Kept.nothingOpen_iff (kept : Kept generation state) (settled : state.Settled) :
    state.NothingOpen ↔ ¬state.BuiltLate := by
  have past : ∀ p, (state.promises p).build = .built ∨ (state.promises p).build = .evicted := by
    intro p
    by_contra pending
    rw [not_or] at pending
    obtain ⟨l, stage, -⟩ := kept.awaited.awaited p pending.1 pending.2
    rcases settled.lookups l with resolved | failed
    · cases resolved.symm.trans stage
    · cases failed.symm.trans stage
  constructor
  · rintro nothing ⟨p, late, built⟩
    have present := (kept.cached.consistent p).connection.mpr built
    cases connection : (state.promises p).connection with
    | absent => exact present connection
    | live => exact (nothing p).1 connection
    | closed => exact kept.released.late p late connection
  · intro none' p
    have evicted : (state.promises p).build = .evicted →
        (state.promises p).connection ≠ .live ∧ (state.promises p).tunnel ≠ .live := by
      refine fun evicted => ⟨fun live => ?_, fun live => ?_⟩
      · have built := (kept.cached.consistent p).connection.mp (by simp [live])
        cases evicted.symm.trans built
      · have stage := ((kept.cached.consistent p).tunnel live).2
        simp [evicted] at stage
    cases late : (state.promises p).late with
    | true => exact evicted ((past p).resolve_left fun built => none' ⟨p, late, built⟩)
    | false =>
      obtain ⟨gone, noTunnel⟩ := kept.released.finished settled.release p late
      rcases gone with isEvicted | closed
      · exact evicted isEvicted
      · exact ⟨by simp [closed], noTunnel⟩

/-- A name has one connection and one tunnel at most, a lookup that failed has no tunnel, and what
it failed by is not taken up by those that begin after it. What has settled leaves nothing open if
no connection is built behind a promise that the release does not know of, and else it does. -/
theorem generationReleased (generation : Generation) (events : List Event) (state : State)
    (ran : ({} : State).run generation events = some state) :
    (∀ p q, (state.promises p).name = (state.promises q).name →
      ((state.promises p).connection = .live → (state.promises q).connection = .live → p = q) ∧
      ((state.promises p).tunnel = .live → (state.promises q).tunnel = .live → p = q)) ∧
    (∀ l, (state.lookups l).stage = .failed →
      (∀ p, (state.lookups l).connectionPromise = some p → (state.promises p).tunnel ≠ .live) ∧
      ∀ more later, state.run generation more = some later → ∀ k, state.asked ≤ k →
        (∀ p, (state.lookups l).connectionPromise = some p → (state.promises p).build ≠ .built →
          (later.lookups k).connectionPromise ≠ some p) ∧
        ∀ run, (state.lookups l).attachPromise = some run → (state.runs run).phase ≠ .attached →
          (later.lookups k).attachPromise ≠ some run) ∧
    (state.Settled → (state.NothingOpen ↔ NoneLate generation events)) := by
  obtain ⟨kept, attaching⟩ := (sound_initial generation).run ran
  have alive : ∀ p, ((state.promises p).connection = .live ∨ (state.promises p).tunnel = .live) →
      (state.promises p).build ≠ .evicted := by
    rintro p (live | live) evicted
    · cases evicted.symm.trans ((kept.cached.consistent p).connection.mp (by simp [live]))
    · have stage := ((kept.cached.consistent p).tunnel live).2
      simp [evicted] at stage
  refine ⟨fun p q same => ⟨fun liveP liveQ => ?_, fun liveP liveQ => ?_⟩, fun l failed =>
    ⟨fun p promised live => ?_, fun more later ranLater k isLater =>
      ⟨fun p promised unbuilt => ?_, fun run isRun unattached => ?_⟩⟩,
    fun settled => (kept.nothingOpen_iff settled).trans (noneLate_iff ran).symm⟩
  · exact kept.cached.alone p q (alive p (Or.inl liveP)) (alive q (Or.inl liveQ)) same
  · exact kept.cached.alone p q (alive p (Or.inr liveP)) (alive q (Or.inr liveQ)) same
  · rcases kept.awaited.tunnelless l p promised (by simp [failed]) (by simp [failed]) with
      evicted | direct
    · exact alive p (Or.inr live) evicted
    · exact direct ((kept.cached.consistent p).tunnel live).1
  · have evicted := (kept.awaited.past l p promised (by simp [failed])).resolve_left unbuilt
    have spent : Spent state.asked (some p) none state :=
      ⟨Nat.le_refl _, fun q isP => Option.some.inj isP ▸ ⟨kept.awaited.known l p promised, evicted⟩,
        nofun, fun m unasked => ⟨fun q _ => by simp [(kept.awaited.unasked m unasked).2.1], nofun⟩⟩
    exact ((spent.of_run ⟨kept, attaching⟩ ranLater).untaken k isLater).1 p rfl
  · obtain ⟨isStarted, past⟩ := attaching.past l run isRun
    have evicted := (past (by simp [failed])).resolve_left unattached
    have spent : Spent state.asked none (some run) state :=
      ⟨Nat.le_refl _, nofun, fun a isA => Option.some.inj isA ▸ ⟨isStarted, evicted⟩,
        fun m unasked => ⟨nofun, fun a _ => by simp [(kept.awaited.unasked m unasked).2.2]⟩⟩
    exact ((spent.of_run ⟨kept, attaching⟩ ranLater).untaken k isLater).2 run rfl

/-! ## A tunnel that is left open -/

/-- One connection is proxied. -/
def tunnelled : Generation where
  metadata name := if name = "pg" then some
    { isDuckLake := false, proxy := true, tunnelable := true, hasSnowflakePrivateKey := false
      hasAzureAttachment := false, attachesDatabases := false } else none
  isUpdateConnectionRequest := false

/-- A run of one lookup has settled when the lookup and the release have. -/
theorem settled_of_one {events : List Event}
    (ran : ({} : State).run tunnelled events = some state) (asked : state.asked = 1)
    (stage : (state.lookups 0).stage = .resolved) (release : state.release = .finished) :
    state.Settled := by
  refine ⟨release, fun l => Or.inl ?_⟩
  rcases Nat.eq_zero_or_pos l with rfl | later
  · exact stage
  · exact (((sound_initial tunnelled).run ran).kept.awaited.unasked l (asked ▸ later)).1

/-- The tunnel is dialed when the release begins, which waits for it. -/
def dialedBefore : List Event :=
  [.lookupConnection (some "pg") true, .releaseConnections, .dialed 0 true, .connect 0 true,
    .goOn 0 true, .shutDown, .connectionSettled 0, .collectEndpoints, .endpointClosed 0, .clear]

/-- The tunnel is dialed when the release has collected the tunnels. -/
def dialedAfter : List Event :=
  [.releaseConnections, .lookupConnection (some "pg") true, .shutDown, .collectEndpoints,
    .dialed 0 true, .connect 0 true, .goOn 0 true, .clear]

theorem generationReleased_dialedBefore : ∃ state,
    ({} : State).run tunnelled dialedBefore = some state ∧ state.Settled ∧ state.NothingOpen := by
  let state := (({} : State).run tunnelled dialedBefore).get rfl
  have ran : ({} : State).run tunnelled dialedBefore = some state := (Option.some_get _).symm
  have settled : state.Settled := settled_of_one ran rfl rfl rfl
  refine ⟨state, ran, settled,
    ((generationReleased tunnelled dialedBefore state ran).2.2 settled).mpr ?_⟩
  refine (noneLate_iff ran).mpr ?_
  rintro ⟨p, late, built⟩
  rcases Nat.eq_zero_or_pos p with rfl | later
  · exact Bool.false_ne_true late
  · cases built.symm.trans (((sound_initial tunnelled).run ran).kept.cached.numbered p later)

/-- A proxied connection is looked up while the release runs, and is built when the release has
collected the tunnels. -/
theorem dialedAfter_leftOpen : ¬∀ generation events state,
    ({} : State).run generation events = some state → state.Settled → state.NothingOpen := by
  intro closes
  let state := (({} : State).run tunnelled dialedAfter).get rfl
  have ran : ({} : State).run tunnelled dialedAfter = some state := (Option.some_get _).symm
  exact (closes tunnelled dialedAfter state ran (settled_of_one ran rfl rfl rfl) 0).2 rfl

end Generation

end MalloyPublisher.Connections
