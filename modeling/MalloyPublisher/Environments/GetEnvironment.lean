import Mathlib.Data.Nat.Notation
import Mathlib.Data.Option.Basic
import Mathlib.Tactic.SplitIfs

/-!
# Loading an environment once

A request for an environment that is not loaded, or is to be loaded again, takes a mutex and
loads it. A request that finds the mutex taken waits for it and then takes one of its own, which
it puts in the place of the one it waited for. Two requests that waited for the same load do so
one after the other without looking, and go on to load together.

The requests are for one name. A request runs on its own between its awaits; which of them goes
on next is left open, and so is which of its loads fail.

## Main definitions

* `Phase` — the await a request stands at
* `Store.step` — the store after a request is made or goes on
* `Store.goesOnAlone` — a request that has waited takes a mutex while no other has one
* `Store.runAlone` — the store after events that each meet this condition
* `LoadedOnce` — one load at a time, one environment, and who waited for it has it

## Main results

* `OneLoad.step` — what such events keep
* `loadedOnce_of_runAlone` — after such events, the environment is loaded once
* `failedLoad_creates_twice` — two requests that waited for a load that failed load it twice
-/

namespace MalloyPublisher.Environments

/-! ## Requests -/

/-- The await at which a request stands. Environments are numbered as they are created, and the
result of a request that fails is nothing. -/
inductive Phase
  /-- The store's initialization. -/
  | entered
  /-- The unlocking of the mutex another request made. -/
  | waiting (holder : ℕ)
  /-- Its own mutex, which is taken. -/
  | acquiring
  /-- The server's manifest. -/
  | resolving
  /-- The store's initialization, at the top of `addEnvironment`. -/
  | joining
  /-- The update of an environment that exists. -/
  | updating (environment : ℕ)
  /-- The server's manifest, in `addEnvironment`. -/
  | configuring
  /-- The packages, copied to disk, or an empty directory. -/
  | mounting
  /-- The new environment. -/
  | creating
  /-- The database. -/
  | mirroring (environment : ℕ)
  /-- The end of what runs under the mutex. -/
  | leaving (result : Option ℕ)
  | settled (result : Option ℕ)
deriving DecidableEq

/-- Whether a request's mutex is locked. -/
def Phase.holdsMutex : Phase → Bool
  | .entered | .waiting _ | .settled _ => false
  | _ => true

/-- Whether a request is in the body of `addEnvironment`. -/
def Phase.inAddEnvironment : Phase → Bool
  | .joining | .updating _ | .configuring | .mounting | .creating | .mirroring _ => true
  | _ => false

/-- Whether a request is on the way to create an environment. -/
def Phase.creates : Phase → Bool
  | .configuring | .mounting | .creating => true
  | _ => false

/-- The environment a request has in hand. -/
def Phase.environment : Phase → Option ℕ
  | .updating environment | .mirroring environment => some environment
  | .leaving result | .settled result => result
  | _ => none

structure Call where
  reload : Bool
  /-- The request whose mutex it waited for. -/
  waitedFor : Option ℕ := none
  phase : Phase := .entered
deriving DecidableEq

/-- The store, as far as one name goes. A mutex is the request that made it. -/
structure Store where
  environment : Option ℕ := none
  /-- How many environments there have been. -/
  created : ℕ := 0
  mutex : Option ℕ := none
  calls : ℕ → Option Call := fun _ => none
  made : ℕ := 0

def Store.isLocked (store : Store) (holder : ℕ) : Bool :=
  (store.calls holder).any fun call => call.phase.holdsMutex

/-- A request comes to its next await. -/
def Store.put (store : Store) (i : ℕ) (call : Call) (phase : Phase) : Store :=
  { store with calls := Function.update store.calls i (some { call with phase := phase }) }

/-- Put a fresh mutex under the name and take it. -/
def Store.take (store : Store) (i : ℕ) (call : Call) : Store :=
  { store.put i call .acquiring with mutex := some i }

/-- The environment a request is content with: the one that is loaded, unless it is to be loaded
again. -/
def Store.existing (store : Store) (call : Call) : Option ℕ :=
  if call.reload then none else store.environment

/-- A request goes on from its await, up to the next. What it awaited may have failed. -/
def Store.resume (store : Store) (i : ℕ) (call : Call) (fails : Bool) : Option Store :=
  let goesOn (phase : Phase) : Option Store :=
    some (store.put i call (if fails then .leaving none else phase))
  match call.phase with
  | .entered =>
    match store.existing call with
    | some environment => some (store.put i call (.settled (some environment)))
    | none =>
      match store.mutex with
      | none => some (store.take i call)
      | some holder =>
        if store.isLocked holder then
          some (store.put i { call with waitedFor := some holder } (.waiting holder))
        else some (store.take i call)
  | .waiting holder =>
    if store.isLocked holder then none
    else
      match store.existing call with
      | some environment => some (store.put i call (.settled (some environment)))
      | none => some (store.take i call)
  | .acquiring =>
    match store.existing call with
    | some environment => some (store.put i call (.leaving (some environment)))
    | none => some (store.put i call .resolving)
  | .resolving => goesOn .joining
  | .joining =>
    match store.environment with
    | some environment => goesOn (.updating environment)
    | none => goesOn .configuring
  | .updating environment =>
    if fails then some (store.put i call (.leaving none))
    else some { store.put i call (.mirroring environment) with environment := some environment }
  | .configuring => goesOn .mounting
  | .mounting => goesOn .creating
  | .creating =>
    if fails then some (store.put i call (.leaving none))
    else some { store.put i call (.mirroring store.created) with
      environment := some store.created, created := store.created + 1 }
  | .mirroring environment => goesOn (.leaving (some environment))
  | .leaving result => some (store.put i call (.settled result))
  | .settled _ => none

inductive Event
  | getEnvironment (reload : Bool)
  | resume (request : ℕ) (fails : Bool)
deriving DecidableEq

/-- The store after an event, if it can happen. -/
def Store.step (store : Store) : Event → Option Store
  | .getEnvironment reload => some { store with
      calls := Function.update store.calls store.made (some { reload := reload })
      made := store.made + 1 }
  | .resume i fails => (store.calls i).bind fun call => store.resume i call fails

/-- The store after a sequence of events. -/
def Store.run (store : Store) (events : List Event) : Option Store :=
  events.foldlM Store.step store

/-! ## What a request does when it goes on -/

/-- What a request does when it goes on. -/
inductive Move (store : Store) (i : ℕ) (call : Call) : Store → Prop
  /-- It is content with the environment that is loaded. -/
  | finds {environment : ℕ} (idle : call.phase = .entered ∨
        ∃ holder, call.phase = .waiting holder ∧ store.isLocked holder = false)
      (existing : store.existing call = some environment) :
      Move store i call (store.put i call (.settled (some environment)))
  | waits {holder : ℕ} (entered : call.phase = .entered) (taken : store.isLocked holder = true) :
      Move store i call
        (store.put i { call with waitedFor := some holder } (.waiting holder))
  | takes (idle : (call.phase = .entered ∧ ∀ holder, store.mutex = some holder →
        store.isLocked holder = false) ∨
        ∃ holder, call.phase = .waiting holder ∧ store.isLocked holder = false)
      (missing : store.existing call = none) : Move store i call (store.take i call)
  /-- It goes on under its mutex, and the store stays as it is. -/
  | works {phase : Phase} (before : call.phase.holdsMutex = true)
      (after : phase.holdsMutex = true)
      (creates : phase.creates = true → call.phase.creates = true ∨ store.environment = none)
      (inHand : ∀ environment, phase.environment = some environment →
        call.phase.environment = some environment ∨ store.environment = some environment) :
      Move store i call (store.put i call phase)
  | updates {environment : ℕ} (updating : call.phase = .updating environment) :
      Move store i call
        { store.put i call (.mirroring environment) with environment := some environment }
  | creates (creating : call.phase = .creating) :
      Move store i call { store.put i call (.mirroring store.created) with
        environment := some store.created, created := store.created + 1 }
  | leaves {result : Option ℕ} (leaving : call.phase = .leaving result) :
      Move store i call (store.put i call (.settled result))

variable {store next : Store} {i : ℕ} {call : Call} {fails : Bool}

theorem existing_eq_some {environment : ℕ} (existing : store.existing call = some environment) :
    call.reload = false ∧ store.environment = some environment := by
  unfold Store.existing at existing
  split_ifs at existing with reload
  exact ⟨eq_false_of_ne_true reload, existing⟩

/-- What it awaits under its mutex may fail, and then it leaves. -/
theorem move_of_goesOn {phase : Phase} (before : call.phase.holdsMutex = true)
    (after : phase.holdsMutex = true)
    (creates : phase.creates = true → call.phase.creates = true ∨ store.environment = none)
    (inHand : ∀ environment, phase.environment = some environment →
      call.phase.environment = some environment ∨ store.environment = some environment) :
    Move store i call (store.put i call (if fails then .leaving none else phase)) := by
  cases fails with
  | true => exact .works before rfl (by simp [Phase.creates]) (by simp [Phase.environment])
  | false => exact .works before after creates inHand

theorem move_of_resume (resumed : store.resume i call fails = some next) :
    Move store i call next := by
  unfold Store.resume at resumed
  cases phase : call.phase with
  | entered =>
    simp only [phase] at resumed
    cases existing : store.existing call with
    | some environment =>
      simp only [existing, Option.some.injEq] at resumed
      exact resumed ▸ .finds (.inl phase) existing
    | none =>
      simp only [existing] at resumed
      cases mutex : store.mutex with
      | none =>
        simp only [mutex, Option.some.injEq] at resumed
        exact resumed ▸ .takes (.inl ⟨phase, by simp [mutex]⟩) existing
      | some holder =>
        simp only [mutex] at resumed
        split_ifs at resumed with taken
        · exact Option.some.inj resumed ▸ .waits phase taken
        · refine Option.some.inj resumed ▸ .takes (.inl ⟨phase, fun other same => ?_⟩) existing
          rw [← Option.some.inj (mutex.symm.trans same)]
          exact eq_false_of_ne_true taken
  | waiting holder =>
    simp only [phase] at resumed
    split_ifs at resumed with taken
    have free := eq_false_of_ne_true taken
    cases existing : store.existing call with
    | some environment =>
      simp only [existing, Option.some.injEq] at resumed
      exact resumed ▸ .finds (.inr ⟨holder, phase, free⟩) existing
    | none =>
      simp only [existing, Option.some.injEq] at resumed
      exact resumed ▸ .takes (.inr ⟨holder, phase, free⟩) existing
  | acquiring =>
    simp only [phase] at resumed
    cases existing : store.existing call with
    | some environment =>
      simp only [existing, Option.some.injEq] at resumed
      refine resumed ▸ .works (by rw [phase]; rfl) rfl (by simp [Phase.creates]) ?_
      intro other inHand
      exact .inr (inHand ▸ (existing_eq_some existing).2)
    | none =>
      simp only [existing, Option.some.injEq] at resumed
      exact resumed ▸ .works (by rw [phase]; rfl) rfl (by simp [Phase.creates])
        (by simp [Phase.environment])
  | resolving =>
    simp only [phase, Option.some.injEq] at resumed
    exact resumed ▸ move_of_goesOn (by rw [phase]; rfl) rfl (by simp [Phase.creates])
      (by simp [Phase.environment])
  | joining =>
    simp only [phase] at resumed
    cases loaded : store.environment with
    | some environment =>
      simp only [loaded, Option.some.injEq] at resumed
      refine resumed ▸ move_of_goesOn (by rw [phase]; rfl) rfl (by simp [Phase.creates]) ?_
      intro other inHand
      exact .inr (loaded.trans inHand)
    | none =>
      simp only [loaded, Option.some.injEq] at resumed
      exact resumed ▸ move_of_goesOn (by rw [phase]; rfl) rfl (fun _ => .inr loaded)
        (by simp [Phase.environment])
  | updating environment =>
    simp only [phase] at resumed
    split_ifs at resumed with failed
    · exact Option.some.inj resumed ▸ .works (by rw [phase]; rfl) rfl (by simp [Phase.creates])
        (by simp [Phase.environment])
    · exact Option.some.inj resumed ▸ .updates phase
  | configuring =>
    simp only [phase, Option.some.injEq] at resumed
    exact resumed ▸ move_of_goesOn (by rw [phase]; rfl) rfl (fun _ => .inl (by rw [phase]; rfl))
      (by simp [Phase.environment])
  | mounting =>
    simp only [phase, Option.some.injEq] at resumed
    exact resumed ▸ move_of_goesOn (by rw [phase]; rfl) rfl (fun _ => .inl (by rw [phase]; rfl))
      (by simp [Phase.environment])
  | creating =>
    simp only [phase] at resumed
    split_ifs at resumed with failed
    · exact Option.some.inj resumed ▸ .works (by rw [phase]; rfl) rfl (by simp [Phase.creates])
        (by simp [Phase.environment])
    · exact Option.some.inj resumed ▸ .creates phase
  | mirroring environment =>
    simp only [phase, Option.some.injEq] at resumed
    refine resumed ▸ move_of_goesOn (by rw [phase]; rfl) rfl (by simp [Phase.creates]) ?_
    intro other inHand
    exact .inl (by rw [phase]; exact inHand)
  | leaving result =>
    simp only [phase, Option.some.injEq] at resumed
    exact resumed ▸ .leaves phase
  | settled result => simp [phase] at resumed

/-! ## One load at a time -/

/-- A request that has waited takes a mutex of its own only while no other is locked. -/
def Store.goesOnAlone (store : Store) : Event → Bool
  | .getEnvironment _ => true
  | .resume i _ => (store.calls i).all fun call => match call.phase with
    | .waiting _ =>
      (store.existing call).isSome || store.mutex.all fun other => !store.isLocked other
    | _ => true

/-- The store after a sequence of events that each meet the condition. -/
def Store.runAlone (store : Store) (events : List Event) : Option Store :=
  events.foldlM (fun store event => if store.goesOnAlone event then store.step event else none)
    store

/-- A store before any request: the environment is not loaded, or has been. -/
structure Store.Initial (store : Store) : Prop where
  loaded : store.created = 0 ∧ store.environment = none ∨
    store.created = 1 ∧ store.environment = some 0
  unlocked : store.mutex = none
  idle : ∀ i, store.calls i = none

/-- The environment is loaded by one request at a time and created once, and who waited for a load
that succeeded has its environment. A request that loads it again may fail with its own load. -/
structure LoadedOnce (store : Store) : Prop where
  oneAtATime : ∀ i call j other, store.calls i = some call → store.calls j = some other →
    call.phase.inAddEnvironment = true → other.phase.inAddEnvironment = true → i = j
  createdOnce : store.created ≤ 1
  waited : ∀ i call j other environment result, store.calls i = some call →
    call.waitedFor = some j → store.calls j = some other →
    other.phase = .settled (some environment) → call.phase = .settled result →
    result = some environment ∨ result = none ∧ call.reload = true

theorem update_eq_some {now : Call} {j : ℕ} {other : Call}
    (called : Function.update store.calls i (some now) j = some other) :
    j = i ∧ other = now ∨ j ≠ i ∧ store.calls j = some other := by
  by_cases same : j = i
  · subst same
    rw [Function.update_self] at called
    exact .inl ⟨rfl, (Option.some.inj called).symm⟩
  · rw [Function.update_of_ne same] at called
    exact .inr ⟨same, called⟩

/-- What a request knows of the one it waited for: it is still under way, or has settled, and then
its environment is the result unless it is to be loaded again. -/
def Call.Awaited (call holder : Call) (i : ℕ) : Prop :=
  holder.phase.holdsMutex = true ∧ call.phase = .waiting i ∨
    ∃ result, holder.phase = .settled result ∧ ∀ environment, result = some environment →
      call.reload = false → call.phase = .waiting i ∨ call.phase = .settled (some environment)

/-- What steps that meet the condition keep. -/
structure OneLoad (store : Store) : Prop where
  fresh : ∀ i, store.made ≤ i → store.calls i = none
  /-- Only the mutex that stands under the name is locked. -/
  current : ∀ i call, store.calls i = some call → call.phase.holdsMutex = true →
    store.mutex = some i
  loaded : store.created = 0 ∧ store.environment = none ∨
    store.created = 1 ∧ store.environment = some 0
  creates : ∀ i call, store.calls i = some call → call.phase.creates = true →
    store.environment = none
  inHand : ∀ i call environment, store.calls i = some call →
    call.phase.environment = some environment → store.environment = some environment
  waiting : ∀ i call holder, store.calls i = some call → call.phase = .waiting holder →
    call.waitedFor = some holder
  waited : ∀ i call holder, store.calls i = some call → call.waitedFor = some holder →
    ∃ other, store.calls holder = some other ∧ call.Awaited other holder

/-- What a request under its mutex knows of the one it waited for says nothing about its result. -/
theorem Call.Awaited.keep {holder now : Call} (awaited : call.Awaited holder i)
    (holds : call.phase.holdsMutex = true) (reload : now.reload = call.reload) :
    now.Awaited holder i := by
  obtain ⟨-, waits⟩ | ⟨result, settled, content⟩ := awaited
  · rw [waits] at holds
    cases holds
  · refine .inr ⟨result, settled, fun environment same notReload => ?_⟩
    obtain waits | found := content environment same (reload ▸ notReload)
    · rw [waits] at holds
      cases holds
    · rw [found] at holds
      cases holds

theorem Phase.holdsMutex_of_creates {phase : Phase} (creates : phase.creates = true) :
    phase.holdsMutex = true := by
  cases phase <;> first | rfl | cases creates

theorem isLocked_eq {holder : ℕ} {other : Call} (called : store.calls holder = some other) :
    store.isLocked holder = other.phase.holdsMutex := by
  simp [Store.isLocked, called]

theorem Phase.holdsMutex_of_inAddEnvironment {phase : Phase}
    (adds : phase.inAddEnvironment = true) : phase.holdsMutex = true := by
  cases phase <;> first | rfl | cases adds

namespace OneLoad

variable {j : ℕ} {other : Call}

theorem initial (initial : store.Initial) : OneLoad store where
  fresh i _ := initial.idle i
  current i call called := by simp [initial.idle i] at called
  loaded := initial.loaded
  creates i call called := by simp [initial.idle i] at called
  inHand i call environment called := by simp [initial.idle i] at called
  waiting i call holder called := by simp [initial.idle i] at called
  waited i call holder called := by simp [initial.idle i] at called

/-- While a request has its mutex locked, no other has. -/
theorem eq_of_holdsMutex (inv : OneLoad store) (called : store.calls i = some call)
    (holds : call.phase.holdsMutex = true) (calledOther : store.calls j = some other)
    (otherHolds : other.phase.holdsMutex = true) : j = i :=
  Option.some.inj ((inv.current j other calledOther otherHolds).symm.trans
    (inv.current i call called holds))

/-- A request does not wait for itself. -/
theorem waitedFor_ne_self (inv : OneLoad store) (called : store.calls i = some call)
    (live : ∀ result, call.phase ≠ .settled result) : call.waitedFor ≠ some i := by
  intro waited
  obtain ⟨itself, same, ⟨holds, waiting⟩ | ⟨result, settled, -⟩⟩ :=
    inv.waited i call i called waited
  all_goals
    rw [called] at same
    cases same
  · rw [waiting] at holds
    cases holds
  · exact live result settled

/-- A request that goes on changes its own entry, and of the rest what its move allows. -/
theorem replace (inv : OneLoad store) (called : store.calls i = some call)
    (live : ∀ result, call.phase ≠ .settled result) {now : Call}
    (calls : next.calls = Function.update store.calls i (some now)) (made : next.made = store.made)
    (loaded : next.created = 0 ∧ next.environment = none ∨
      next.created = 1 ∧ next.environment = some 0)
    (current : now.phase.holdsMutex = true → next.mutex = some i)
    (currentOthers : ∀ j other, j ≠ i → store.calls j = some other →
      other.phase.holdsMutex = true → next.mutex = some j)
    (creates : now.phase.creates = true → next.environment = none)
    (createsOthers : ∀ j other, j ≠ i → store.calls j = some other →
      other.phase.creates = true → next.environment = none)
    (inHand : ∀ environment, now.phase.environment = some environment →
      next.environment = some environment)
    (keeps : ∀ environment, store.environment = some environment →
      next.environment = some environment)
    (waiting : ∀ holder, now.phase = .waiting holder → now.waitedFor = some holder)
    (waited : ∀ holder, now.waitedFor = some holder → holder ≠ i ∧
      ∃ other, store.calls holder = some other ∧ now.Awaited other holder)
    (leads : call.phase.holdsMutex = true →
      now.phase.holdsMutex = true ∨ ∃ result, now.phase = .settled result) :
    OneLoad next := by
  have own : next.calls i = some now := by rw [calls, Function.update_self]
  have others : ∀ j, j ≠ i → next.calls j = store.calls j := fun j ne => by
    rw [calls, Function.update_of_ne ne]
  have split : ∀ j other, next.calls j = some other →
      j = i ∧ other = now ∨ j ≠ i ∧ store.calls j = some other :=
    fun j other calledOther => update_eq_some (calls ▸ calledOther)
  refine ⟨fun j unmade => ?_, fun j other calledOther holds => ?_, loaded,
    fun j other calledOther createsOther => ?_,
    fun j other environment calledOther inHandOther => ?_,
    fun j other holder calledOther waitingOther => ?_,
    fun j other holder calledOther waitedOther => ?_⟩
  · rw [made] at unmade
    have ne : j ≠ i := by
      rintro rfl
      rw [inv.fresh j unmade] at called
      cases called
    exact (others j ne).trans (inv.fresh j unmade)
  · obtain ⟨rfl, rfl⟩ | ⟨ne, calledOther⟩ := split j other calledOther
    · exact current holds
    · exact currentOthers j other ne calledOther holds
  · obtain ⟨rfl, rfl⟩ | ⟨ne, calledOther⟩ := split j other calledOther
    · exact creates createsOther
    · exact createsOthers j other ne calledOther createsOther
  · obtain ⟨rfl, rfl⟩ | ⟨ne, calledOther⟩ := split j other calledOther
    · exact inHand environment inHandOther
    · exact keeps environment (inv.inHand j other environment calledOther inHandOther)
  · obtain ⟨rfl, rfl⟩ | ⟨ne, calledOther⟩ := split j other calledOther
    · exact waiting holder waitingOther
    · exact inv.waiting j other holder calledOther waitingOther
  · obtain ⟨rfl, rfl⟩ | ⟨ne, calledOther⟩ := split j other calledOther
    · obtain ⟨away, found, calledHolder, awaited⟩ := waited holder waitedOther
      exact ⟨found, (others holder away).trans calledHolder, awaited⟩
    · obtain ⟨found, calledHolder, awaited⟩ := inv.waited j other holder calledOther waitedOther
      by_cases away : holder = i
      · -- The request that goes on is the one that was waited for.
        subst away
        rw [called] at calledHolder
        cases calledHolder
        obtain ⟨holds, waits⟩ | ⟨result, settled, -⟩ := awaited
        · refine ⟨now, own, (leads holds).imp (fun holds => ⟨holds, waits⟩) ?_⟩
          exact fun ⟨result, settled⟩ => ⟨result, settled, fun _ _ _ => .inl waits⟩
        · exact absurd settled (live result)
      · exact ⟨found, (others holder away).trans calledHolder, awaited⟩

/-- What a request does under its mutex concerns no other. -/
theorem underMutex (inv : OneLoad store) (called : store.calls i = some call)
    (holds : call.phase.holdsMutex = true) {phase : Phase}
    (calls : next.calls = Function.update store.calls i (some { call with phase := phase }))
    (made : next.made = store.made)
    (loaded : next.created = 0 ∧ next.environment = none ∨
      next.created = 1 ∧ next.environment = some 0)
    (current : phase.holdsMutex = true → next.mutex = some i)
    (creates : phase.creates = true → next.environment = none)
    (inHand : ∀ environment, phase.environment = some environment →
      next.environment = some environment)
    (keeps : ∀ environment, store.environment = some environment →
      next.environment = some environment)
    (leads : phase.holdsMutex = true ∨ ∃ result, phase = .settled result) : OneLoad next := by
  have live : ∀ result, call.phase ≠ .settled result := by
    intro result settled
    rw [settled] at holds
    cases holds
  have alone : ∀ j other, j ≠ i → store.calls j = some other →
      other.phase.holdsMutex = true → False := fun j other ne calledOther otherHolds =>
    ne (inv.eq_of_holdsMutex called holds calledOther otherHolds)
  refine inv.replace called live calls made loaded current
    (fun j other ne calledOther otherHolds => (alone j other ne calledOther otherHolds).elim)
    creates (fun j other ne calledOther createsOther =>
      (alone j other ne calledOther (Phase.holdsMutex_of_creates createsOther)).elim)
    inHand keeps ?_ ?_ (fun _ => leads)
  · intro holder waits
    obtain holds | ⟨result, settled⟩ := leads
    · rw [show phase = .waiting holder from waits] at holds
      cases holds
    · cases settled.symm.trans waits
  · intro holder waited
    refine ⟨fun same => inv.waitedFor_ne_self called live (same ▸ waited), ?_⟩
    obtain ⟨other, calledHolder, awaited⟩ := inv.waited i call holder called waited
    exact ⟨other, calledHolder, awaited.keep holds rfl⟩

/-- A request that takes no mutex, of which another may still know that it waits. -/
theorem settledResult (inv : OneLoad store) (called : store.calls i = some call) {holder : ℕ}
    (waited : call.waitedFor = some holder)
    (free : ∀ holder, call.phase = .waiting holder → store.isLocked holder = false) :
    ∃ other, store.calls holder = some other ∧ ∃ result, other.phase = .settled result ∧
      ∀ environment, result = some environment → store.environment = some environment := by
  obtain ⟨other, calledHolder, ⟨holds, waits⟩ | ⟨result, settled, -⟩⟩ :=
    inv.waited i call holder called waited
  · have unlocked := free holder waits
    rw [isLocked_eq calledHolder, holds] at unlocked
    cases unlocked
  · refine ⟨other, calledHolder, result, settled, fun environment same => ?_⟩
    exact inv.inHand holder other environment calledHolder (by rw [settled]; exact same)

theorem move (inv : OneLoad store) (called : store.calls i = some call)
    (alone : store.goesOnAlone (.resume i fails) = true)
    (moved : Move store i call next) : OneLoad next := by
  cases moved with
  | @finds environment idle existing =>
    obtain ⟨-, loaded⟩ := existing_eq_some existing
    have live : ∀ result, call.phase ≠ .settled result := by
      rintro result settled
      simp [settled] at idle
    have unlocked : call.phase.holdsMutex = false := by
      obtain entered | ⟨holder, waits, -⟩ := idle
      · rw [entered]; rfl
      · rw [waits]; rfl
    refine inv.replace called live rfl rfl inv.loaded (by simp [Phase.holdsMutex])
      (fun j other _ => inv.current j other) (by simp [Phase.creates])
      (fun j other _ => inv.creates j other) ?_ (fun _ => id) (by simp) ?_ (by simp [unlocked])
    · intro found inHand
      exact loaded.trans inHand
    · intro holder waited
      refine ⟨fun same => inv.waitedFor_ne_self called live (same ▸ waited), ?_⟩
      obtain ⟨other, calledHolder, result, settled, same⟩ := inv.settledResult called waited
        (by rintro holder waits; simpa [waits] using idle)
      refine ⟨other, calledHolder, .inr ⟨result, settled, fun found is_result _ => .inr ?_⟩⟩
      rw [← same found is_result, loaded]
  | @waits holder entered taken =>
    have live : ∀ result, call.phase ≠ .settled result := by simp [entered]
    obtain ⟨other, calledHolder⟩ : ∃ other, store.calls holder = some other := by
      cases calledHolder : store.calls holder with
      | none => simp [Store.isLocked, calledHolder] at taken
      | some other => exact ⟨other, rfl⟩
    have holds : other.phase.holdsMutex = true := isLocked_eq calledHolder ▸ taken
    have away : holder ≠ i := by
      rintro rfl
      rw [called] at calledHolder
      cases calledHolder
      rw [entered] at holds
      cases holds
    refine inv.replace called live rfl rfl inv.loaded (by simp [Phase.holdsMutex])
      (fun j other _ => inv.current j other) (by simp [Phase.creates])
      (fun j other _ => inv.creates j other) (by simp [Phase.environment]) (fun _ => id)
      (by simp) ?_ (by simp [entered, Phase.holdsMutex])
    intro found same
    cases same
    exact ⟨away, other, calledHolder, .inl ⟨holds, rfl⟩⟩
  | takes idle missing =>
    have live : ∀ result, call.phase ≠ .settled result := by
      rintro result settled
      simp [settled] at idle
    have unlocked : call.phase.holdsMutex = false := by
      obtain ⟨entered, -⟩ | ⟨holder, waits, -⟩ := idle
      · rw [entered]; rfl
      · rw [waits]; rfl
    have free : ∀ other, store.mutex = some other → store.isLocked other = false := by
      obtain ⟨-, free⟩ | ⟨holder, waits, -⟩ := idle
      · exact free
      · simp only [Store.goesOnAlone, called, waits, missing, Option.all_some, Option.isSome_none,
          Bool.false_or] at alone
        intro other stands
        simpa [stands] using alone
    -- No mutex is locked, since a locked one would stand under the name.
    have nobody : ∀ j other, store.calls j = some other → other.phase.holdsMutex = true → False := by
      intro j other calledOther holds
      have locked := free j (inv.current j other calledOther holds)
      rw [isLocked_eq calledOther, holds] at locked
      cases locked
    refine inv.replace called live rfl rfl inv.loaded (fun _ => rfl)
      (fun j other _ calledOther holds => (nobody j other calledOther holds).elim)
      (by simp [Phase.creates]) (fun j other _ => inv.creates j other)
      (by simp [Phase.environment]) (fun _ => id) (by simp) ?_ (by simp [unlocked])
    intro holder waited
    refine ⟨fun same => inv.waitedFor_ne_self called live (same ▸ waited), ?_⟩
    obtain ⟨other, calledHolder, result, settled, same⟩ := inv.settledResult called waited
      (by rintro holder waits; simpa [waits] using idle)
    refine ⟨other, calledHolder, .inr ⟨result, settled, fun found isResult notReload => ?_⟩⟩
    have content : store.existing call = some found := by
      rw [Store.existing, if_neg (by rw [show call.reload = false from notReload]; simp)]
      exact same found isResult
    rw [content] at missing
    cases missing
  | works before after creates inHand =>
    refine inv.underMutex called before rfl rfl inv.loaded
      (fun _ => inv.current i call called before) ?_ ?_ (fun _ => id) (.inl after)
    · intro createsNow
      exact (creates createsNow).elim (inv.creates i call called) id
    · intro environment inHandNow
      exact (inHand environment inHandNow).elim (inv.inHand i call environment called) id
  | @updates environment updating =>
    have holds : call.phase.holdsMutex = true := by rw [updating]; rfl
    have same : store.environment = some environment :=
      inv.inHand i call environment called (by rw [updating]; rfl)
    refine inv.underMutex called holds rfl rfl (same ▸ inv.loaded)
      (fun _ => inv.current i call called holds) (by simp [Phase.creates]) (fun _ => id) ?_
      (.inl rfl)
    intro found loaded
    exact same.symm.trans loaded
  | creates creating =>
    have holds : call.phase.holdsMutex = true := by rw [creating]; rfl
    have missing : store.environment = none := inv.creates i call called (by rw [creating]; rfl)
    have none_created : store.created = 0 := by
      obtain ⟨created, -⟩ | ⟨-, loaded⟩ := inv.loaded
      · exact created
      · cases missing.symm.trans loaded
    refine inv.underMutex called holds rfl rfl (.inr ?_)
      (fun _ => inv.current i call called holds) (by simp [Phase.creates]) (fun _ => id) ?_
      (.inl rfl)
    · simp [none_created]
    · intro found loaded
      cases missing.symm.trans loaded
  | @leaves result leaving =>
    have holds : call.phase.holdsMutex = true := by rw [leaving]; rfl
    refine inv.underMutex called holds rfl rfl inv.loaded (by simp [Phase.holdsMutex])
      (by simp [Phase.creates]) ?_ (fun _ => id) (.inr ⟨result, rfl⟩)
    intro environment inHand
    exact inv.inHand i call environment called (by rw [leaving]; exact inHand)

theorem step (inv : OneLoad store) {event : Event} (alone : store.goesOnAlone event = true)
    (stepped : store.step event = some next) : OneLoad next := by
  cases event with
  | getEnvironment reload =>
    cases stepped
    have unmade : ∀ j other, store.calls j = some other → j ≠ store.made := by
      rintro j other calledOther rfl
      rw [inv.fresh _ (Nat.le_refl _)] at calledOther
      cases calledOther
    refine ⟨fun j later => ?_, fun j other calledOther => ?_, inv.loaded,
      fun j other calledOther => ?_, fun j other environment calledOther => ?_,
      fun j other holder calledOther => ?_, fun j other holder calledOther waited => ?_⟩
    · simp only at later ⊢
      rw [Function.update_of_ne (by omega)]
      exact inv.fresh j (by omega)
    all_goals obtain ⟨rfl, rfl⟩ | ⟨ne, calledOther⟩ := update_eq_some calledOther
    · simp [Phase.holdsMutex]
    · exact inv.current j other calledOther
    · simp [Phase.creates]
    · exact inv.creates j other calledOther
    · simp [Phase.environment]
    · exact inv.inHand j other environment calledOther
    · simp
    · exact inv.waiting j other holder calledOther
    · cases waited
    · obtain ⟨found, calledHolder, awaited⟩ := inv.waited j other holder calledOther waited
      refine ⟨found, ?_, awaited⟩
      exact (Function.update_of_ne (unmade holder found calledHolder) _ _).trans calledHolder
  | resume i fails =>
    obtain ⟨call, called, resumed⟩ := Option.bind_eq_some_iff.mp stepped
    exact inv.move called alone (move_of_resume resumed)

theorem runAlone (inv : OneLoad store) {events : List Event}
    (run : store.runAlone events = some next) : OneLoad next := by
  induction events generalizing store with
  | nil => exact Option.some.inj run ▸ inv
  | cons event events ih =>
    obtain ⟨between, stepped, run⟩ := Option.bind_eq_some_iff.mp run
    simp only at stepped
    split_ifs at stepped with alone
    exact ih (inv.step alone stepped) run

end OneLoad

/-- Where requests that have waited go on to load one at a time, the environment is loaded once. -/
theorem loadedOnce_of_runAlone {events : List Event} (initial : store.Initial)
    (run : store.runAlone events = some next) : LoadedOnce next := by
  have inv := (OneLoad.initial initial).runAlone run
  refine ⟨fun i call j other called calledOther adds addsOther => ?_, ?_,
    fun i call j other environment result called waited calledOther settled done => ?_⟩
  · exact inv.eq_of_holdsMutex calledOther (Phase.holdsMutex_of_inAddEnvironment addsOther) called
      (Phase.holdsMutex_of_inAddEnvironment adds)
  · obtain ⟨created, -⟩ | ⟨created, -⟩ := inv.loaded <;> omega
  · obtain ⟨found, calledHolder, awaited⟩ := inv.waited i call j called waited
    rw [calledOther] at calledHolder
    cases calledHolder
    obtain ⟨holds, -⟩ | ⟨_, settledHolder, content⟩ := awaited
    · rw [settled] at holds
      cases holds
    · rw [settled, Phase.settled.injEq] at settledHolder
      cases reload : call.reload with
      | false =>
        obtain waits | found := content environment settledHolder.symm reload
        · cases done.symm.trans waits
        · exact .inl (Phase.settled.inj (done.symm.trans found))
      | true =>
        cases result with
        | none => exact .inr ⟨rfl, rfl⟩
        | some result =>
          have own := inv.inHand i call result called (by rw [done]; rfl)
          have theirs := inv.inHand j other environment calledOther (by rw [settled]; rfl)
          exact .inl (own.symm.trans theirs)

theorem initial_empty : Store.Initial {} := ⟨.inl ⟨rfl, rfl⟩, rfl, fun _ => rfl⟩

/-- Two requests, of which the second waits for what the first loads. -/
def pairOfRequests : List Event :=
  [.getEnvironment false, .getEnvironment false, .resume 0 false, .resume 1 false] ++
    List.replicate 8 (.resume 0 false) ++ [.resume 1 false]

theorem loadedOnce_pairOfRequests :
    ∃ next, Store.runAlone {} pairOfRequests = some next ∧ next.created = 1 ∧ LoadedOnce next := by
  have counted : (Store.runAlone {} pairOfRequests).map Store.created = some 1 := by decide
  obtain ⟨next, run, created⟩ := Option.map_eq_some_iff.mp counted
  exact ⟨next, run, created, loadedOnce_of_runAlone initial_empty run⟩

/-- Three requests: two wait for the first, whose load fails, and go on together. -/
def failedLoad : List Event :=
  [.getEnvironment false, .getEnvironment false, .getEnvironment false, .resume 0 false,
    .resume 1 false, .resume 2 false, .resume 0 false, .resume 0 true, .resume 0 false,
    .resume 1 false, .resume 2 false] ++
    List.replicate 5 (.resume 1 false) ++ List.replicate 5 (.resume 2 false) ++
    [.resume 1 false, .resume 2 false]

theorem failedLoad_creates_twice : ¬ ∀ (store next : Store) (events : List Event),
    store.Initial → store.run events = some next → LoadedOnce next := by
  intro once
  have counted : (Store.run {} failedLoad).map Store.created = some 2 := by decide
  obtain ⟨next, run, created⟩ := Option.map_eq_some_iff.mp counted
  have atMostOne := (once {} next failedLoad initial_empty run).createdOnce
  omega

end MalloyPublisher.Environments
