import Mathlib.Data.Int.Notation
import Mathlib.Data.Option.Basic
import Mathlib.Data.List.Basic

/-!
# The materialization scheduler

A timer starts a sweep at every tick, whether or not the sweep before it is done. A sweep comes to
one package after another: it arms the schedule of the package, if need be from the newest fire on
record, and fires a rebuild if the schedule is due. It reads what is armed before it awaits the
fire, and writes it after.

A sweep runs on its own between its awaits; which sweep goes on next is left open, and so are the
packages a sweep comes to, their schedules and the times of the ticks.

## Main definitions

* `Scheduler.step` — what happens from one await to the next
* `Scheduler.Meets` — a fire is issued while no other of the package is under way, through what is
  armed for it, and a package is armed anew only for an occurrence after its last fire
* `FiresOnce` — each occurrence once, each sweep within its cap, and one catch-up per arming

## Main results

* `Inv.step` — what a step that meets the condition keeps
* `firesOnce_of_run` — after a run of such steps, each occurrence has been fired at most once
* `overlapping_fire_twice` — two sweeps at one package fire one occurrence twice
-/

namespace MalloyPublisher.Materialization

/-! ## Sweeps -/

/-- What is armed for a package, with the time it was armed from. -/
structure ScheduleState (σ : Type*) where
  schedule : σ
  nextFireAtMs : ℤ
  lastFiredAtMs : Option ℤ
  anchorMs : ℤ
  deriving DecidableEq

/-- The await at which a sweep stands. -/
inductive SweepPhase (K σ : Type*)
  /-- Between two packages. -/
  | scanning
  /-- The newest fire on record. -/
  | anchoring (key : K) (schedule : σ)
  /-- The return of `arm`, with the number of what it armed. -/
  | holding (key : K) (schedule : σ) (id : ℕ)
  | firing (key : K) (schedule : σ) (id : ℕ)
  deriving DecidableEq

structure SchedulerSweep (K σ : Type*) where
  nowMs : ℤ
  fired : ℕ := 0
  seen : List K := []
  phase : SweepPhase K σ := .scanning
  deriving DecidableEq

/-- A call of `fire`. -/
structure ScheduledFire (K : Type*) where
  sweep : ℕ
  key : K
  id : ℕ
  /-- The occurrence that was due. -/
  occurrenceMs : ℤ
  atMs : ℤ
  deriving DecidableEq

/-- The scheduler, with the fires on record and a history. What is armed for a package is a mutable
object, which a sweep holds on to; objects are numbered, for each package, as they are made. -/
structure Scheduler (K σ : Type*) where
  armed : K → Option ℕ
  objects : K → ℕ → Option (ScheduleState σ)
  made : K → ℕ
  sweeps : ℕ → Option (SchedulerSweep K σ)
  started : ℕ
  recorded : K → Option ℤ
  /-- The fires issued, the newest first. -/
  fires : List (ScheduledFire K)

inductive SchedulerAction (K σ : Type*)
  | tick (nowMs : ℤ)
  /-- A sweep comes to a package, which has a schedule if it can be scheduled. -/
  | visit (sweep : ℕ) (key : K) (schedule : Option σ)
  /-- The record is read, or the lookup fails. -/
  | anchor (sweep : ℕ) (fails : Bool)
  | resume (sweep : ℕ)
  /-- The awaited fire is done, with whatever outcome. -/
  | advance (sweep : ℕ)
  | finish (sweep : ℕ)
  /-- A fire comes on record. -/
  | record (key : K) (atMs : ℤ)
  | restart
  deriving DecidableEq

namespace Scheduler

variable {K σ : Type*} [DecidableEq K] [DecidableEq σ] (nextAfter : σ → ℤ → ℤ)
  (maxFiresPerTick : ℕ) (scheduler : Scheduler K σ)

/-- The scheduler of a process that starts, with what is on record. -/
def initial (recorded : K → Option ℤ) : Scheduler K σ where
  armed := fun _ => none
  objects := fun _ _ => none
  made := fun _ => 0
  sweeps := fun _ => none
  started := 0
  recorded := recorded
  fires := []

def putSweep (i : ℕ) (sweep : Option (SchedulerSweep K σ)) : Scheduler K σ :=
  { scheduler with sweeps := Function.update scheduler.sweeps i sweep }

def putObject (key : K) (id : ℕ) (object : ScheduleState σ) : Scheduler K σ :=
  { scheduler with
    objects := Function.update scheduler.objects key
      (Function.update (scheduler.objects key) id (some object)) }

/-- Make an object for a package and put it under the package. -/
def armFrom (key : K) (schedule : σ) (anchorMs : ℤ) (lastFiredAtMs : Option ℤ) : Scheduler K σ :=
  { scheduler.putObject key (scheduler.made key)
      ⟨schedule, nextAfter schedule anchorMs, lastFiredAtMs, anchorMs⟩ with
    armed := Function.update scheduler.armed key (some (scheduler.made key))
    made := Function.update scheduler.made key (scheduler.made key + 1) }

/-- The first half of `arm`, up to the record where it is asked. -/
def visitPackage (i : ℕ) (sweep : SchedulerSweep K σ) (key : K) (schedule : σ) :
    Option (Scheduler K σ) :=
  match scheduler.armed key with
  | none => some (scheduler.putSweep i (some { sweep with phase := .anchoring key schedule }))
  | some id => (scheduler.objects key id).map fun existing =>
    if existing.schedule = schedule then
      scheduler.putSweep i (some { sweep with phase := .holding key schedule id })
    else
      (scheduler.armFrom nextAfter key schedule sweep.nowMs existing.lastFiredAtMs).putSweep i
        (some { sweep with phase := .holding key schedule (scheduler.made key) })

/-- After `arm`: go on to the next package, or fire. -/
def fireIfDue (i : ℕ) (sweep : SchedulerSweep K σ) (key : K) (schedule : σ) (id : ℕ)
    (armed : ScheduleState σ) : Scheduler K σ :=
  if sweep.nowMs < armed.nextFireAtMs ∨ maxFiresPerTick ≤ sweep.fired then
    scheduler.putSweep i (some { sweep with phase := .scanning })
  else
    { scheduler.putSweep i (some { sweep with phase := .firing key schedule id }) with
      fires := ⟨i, key, id, armed.nextFireAtMs, sweep.nowMs⟩ :: scheduler.fires }

/-- The time to arm a package from that nothing is armed for. -/
def recoveryAnchor (key : K) (nowMs : ℤ) (fails : Bool) : ℤ :=
  if fails then nowMs else (scheduler.recorded key).getD nowMs

/-- What happens from one await to the next, if it can happen. -/
def step : SchedulerAction K σ → Option (Scheduler K σ)
  | .tick nowMs => some { scheduler.putSweep scheduler.started (some { nowMs := nowMs }) with
      started := scheduler.started + 1 }
  | .visit i key schedule => (scheduler.sweeps i).bind fun sweep =>
    match sweep.phase, schedule with
    | .scanning, none =>
      some { scheduler with armed := Function.update scheduler.armed key none }
    | .scanning, some schedule =>
      scheduler.visitPackage nextAfter i { sweep with seen := key :: sweep.seen } key schedule
    | _, _ => none
  | .anchor i fails => (scheduler.sweeps i).bind fun sweep =>
    match sweep.phase with
    | .anchoring key schedule =>
      some ((scheduler.armFrom nextAfter key schedule
        (scheduler.recoveryAnchor key sweep.nowMs fails) none).putSweep i
          (some { sweep with phase := .holding key schedule (scheduler.made key) }))
    | _ => none
  | .resume i => (scheduler.sweeps i).bind fun sweep =>
    match sweep.phase with
    | .holding key schedule id => (scheduler.objects key id).map
        (scheduler.fireIfDue maxFiresPerTick i sweep key schedule id)
    | _ => none
  | .advance i => (scheduler.sweeps i).bind fun sweep =>
    match sweep.phase with
    | .firing key schedule id => (scheduler.objects key id).map fun armed =>
      (scheduler.putObject key id { armed with
        nextFireAtMs := nextAfter schedule sweep.nowMs
        lastFiredAtMs := some sweep.nowMs }).putSweep i
          (some { sweep with fired := sweep.fired + 1, phase := .scanning })
    | _ => none
  | .finish i => (scheduler.sweeps i).bind fun sweep =>
    match sweep.phase with
    | .scanning => some { scheduler.putSweep i none with
        armed := fun key => if key ∈ sweep.seen then scheduler.armed key else none }
    | _ => none
  | .record key atMs => some { scheduler with
      recorded := Function.update scheduler.recorded key (some atMs) }
  | .restart => some { initial scheduler.recorded with
      made := scheduler.made, started := scheduler.started, fires := scheduler.fires }

/-- The scheduler after a sequence of actions. -/
def run (actions : List (SchedulerAction K σ)) : Option (Scheduler K σ) :=
  actions.foldlM (fun before action => before.step nextAfter maxFiresPerTick action) scheduler

/-! ## The condition -/

/-- A fire of a package is under way. -/
def IsFiring (key : K) : Prop :=
  ∃ i sweep schedule id, scheduler.sweeps i = some sweep ∧ sweep.phase = .firing key schedule id

/-- The fires of a package were before a time. -/
def FiredBefore (key : K) (atMs : ℤ) : Prop :=
  ∀ fire ∈ scheduler.fires, fire.key = key → fire.atMs < atMs

/-- A fire is issued while no other of the package is under way, and through what is armed for the
package; a package is armed anew only for an occurrence after its last fire. -/
def Meets : SchedulerAction K σ → Prop
  | .visit i key (some schedule) => ∀ sweep id existing, scheduler.sweeps i = some sweep →
      scheduler.armed key = some id → scheduler.objects key id = some existing →
        existing.schedule ≠ schedule →
          scheduler.FiredBefore key (nextAfter schedule sweep.nowMs)
  | .anchor i fails => ∀ sweep key schedule, scheduler.sweeps i = some sweep →
      sweep.phase = .anchoring key schedule →
        scheduler.FiredBefore key
          (nextAfter schedule (scheduler.recoveryAnchor key sweep.nowMs fails))
  | .resume i => ∀ sweep key schedule id armed, scheduler.sweeps i = some sweep →
      sweep.phase = .holding key schedule id → scheduler.objects key id = some armed →
        armed.nextFireAtMs ≤ sweep.nowMs → sweep.fired < maxFiresPerTick →
          scheduler.armed key = some id ∧ ¬scheduler.IsFiring key
  | _ => True

/-- Every action of a sequence meets the condition where it happens. -/
def MeetsAll : Scheduler K σ → List (SchedulerAction K σ) → Prop
  | _, [] => True
  | scheduler, action :: later => scheduler.Meets nextAfter maxFiresPerTick action ∧
      ∀ next, scheduler.step nextAfter maxFiresPerTick action = some next → next.MeetsAll later

end Scheduler

/-! ## What a step can do -/

def SweepPhase.isFiring {K σ : Type*} : SweepPhase K σ → Bool
  | .firing _ _ _ => true
  | _ => false

namespace Scheduler

variable {K σ : Type*} [DecidableEq K] [DecidableEq σ]

/-- What a step that meets the condition does. -/
inductive Move (nextAfter : σ → ℤ → ℤ) (maxFiresPerTick : ℕ) (scheduler : Scheduler K σ) :
    Scheduler K σ → Prop
  | starts (nowMs : ℤ) : Move nextAfter maxFiresPerTick scheduler
      { scheduler.putSweep scheduler.started (some { nowMs := nowMs }) with
        started := scheduler.started + 1 }
  /-- A sweep goes on without a fire, or ends, and what is armed for packages may be dropped. -/
  | goesOn {i : ℕ} {sweep : SchedulerSweep K σ} (after : Option (SchedulerSweep K σ))
      (armed : K → Option ℕ) (stands : scheduler.sweeps i = some sweep)
      (idle : sweep.phase.isFiring = false)
      (same : ∀ other, after = some other →
        other.fired = sweep.fired ∧ other.phase.isFiring = false)
      (kept : ∀ key, armed key = none ∨ armed key = scheduler.armed key) :
      Move nextAfter maxFiresPerTick scheduler
        { scheduler.putSweep i after with armed := armed }
  | arms {i : ℕ} {sweep after : SchedulerSweep K σ} (key : K) (schedule : σ) (anchorMs : ℤ)
      (lastFiredAtMs : Option ℤ) (stands : scheduler.sweeps i = some sweep)
      (idle : sweep.phase.isFiring = false) (same : after.fired = sweep.fired)
      (idleAfter : after.phase.isFiring = false)
      (late : scheduler.FiredBefore key (nextAfter schedule anchorMs)) :
      Move nextAfter maxFiresPerTick scheduler
        ((scheduler.armFrom nextAfter key schedule anchorMs lastFiredAtMs).putSweep i (some after))
  | issues {i : ℕ} {sweep : SchedulerSweep K σ} {key : K} {schedule : σ} {id : ℕ}
      {object : ScheduleState σ} (stands : scheduler.sweeps i = some sweep)
      (holds : sweep.phase = .holding key schedule id)
      (isObject : scheduler.objects key id = some object)
      (due : object.nextFireAtMs ≤ sweep.nowMs) (capped : sweep.fired < maxFiresPerTick)
      (isArmed : scheduler.armed key = some id) (alone : ¬scheduler.IsFiring key) :
      Move nextAfter maxFiresPerTick scheduler
        { scheduler.putSweep i (some { sweep with phase := .firing key schedule id }) with
          fires := ⟨i, key, id, object.nextFireAtMs, sweep.nowMs⟩ :: scheduler.fires }
  | advances {i : ℕ} {sweep : SchedulerSweep K σ} {key : K} {schedule : σ} {id : ℕ}
      {object : ScheduleState σ} (stands : scheduler.sweeps i = some sweep)
      (fires : sweep.phase = .firing key schedule id)
      (isObject : scheduler.objects key id = some object) :
      Move nextAfter maxFiresPerTick scheduler
        ((scheduler.putObject key id { object with
          nextFireAtMs := nextAfter schedule sweep.nowMs
          lastFiredAtMs := some sweep.nowMs }).putSweep i
            (some { sweep with fired := sweep.fired + 1, phase := .scanning }))
  | records (recorded : K → Option ℤ) :
      Move nextAfter maxFiresPerTick scheduler { scheduler with recorded := recorded }
  | restarts : Move nextAfter maxFiresPerTick scheduler
      { initial scheduler.recorded with
        made := scheduler.made, started := scheduler.started, fires := scheduler.fires }

variable {nextAfter : σ → ℤ → ℤ} {maxFiresPerTick : ℕ} {scheduler next : Scheduler K σ}

omit [DecidableEq K] [DecidableEq σ] in
theorem putSweep_self {i : ℕ} {sweep : SchedulerSweep K σ}
    (stands : scheduler.sweeps i = some sweep) :
    scheduler.putSweep i (some sweep) = scheduler := by
  rw [putSweep, ← stands, Function.update_eq_self]

theorem move_of_visitPackage {i : ℕ} {sweep seen : SchedulerSweep K σ} {key : K} {schedule : σ}
    (stands : scheduler.sweeps i = some sweep) (idle : sweep.phase.isFiring = false)
    (sameNow : seen.nowMs = sweep.nowMs) (sameFired : seen.fired = sweep.fired)
    (meets : scheduler.Meets nextAfter maxFiresPerTick (.visit i key (some schedule)))
    (stepped : scheduler.visitPackage nextAfter i seen key schedule = some next) :
    Move nextAfter maxFiresPerTick scheduler next := by
  unfold visitPackage at stepped
  cases isArmed : scheduler.armed key with
  | none =>
    simp only [isArmed, Option.some.injEq] at stepped
    subst stepped
    refine .goesOn _ scheduler.armed stands idle ?_ fun _ => .inr rfl
    rintro other ⟨⟩
    exact ⟨sameFired, rfl⟩
  | some id =>
    simp only [isArmed] at stepped
    obtain ⟨existing, isObject, rfl⟩ := Option.map_eq_some_iff.mp stepped
    split_ifs with same
    · refine .goesOn _ scheduler.armed stands idle ?_ fun _ => .inr rfl
      rintro other ⟨⟩
      exact ⟨sameFired, rfl⟩
    · refine .arms key schedule seen.nowMs existing.lastFiredAtMs stands idle sameFired rfl ?_
      rw [sameNow]
      exact meets sweep id existing stands isArmed isObject same

theorem move_of_step {action : SchedulerAction K σ}
    (meets : scheduler.Meets nextAfter maxFiresPerTick action)
    (stepped : scheduler.step nextAfter maxFiresPerTick action = some next) :
    Move nextAfter maxFiresPerTick scheduler next := by
  cases action with
  | tick nowMs =>
    cases stepped
    exact .starts nowMs
  | visit i key schedule =>
    obtain ⟨sweep, stands, stepped⟩ := Option.bind_eq_some_iff.mp stepped
    cases phase : sweep.phase with
    | scanning =>
      have idle : sweep.phase.isFiring = false := by rw [phase]; rfl
      cases schedule with
      | none =>
        simp only [phase, Option.some.injEq] at stepped
        subst stepped
        have dropped : Move nextAfter maxFiresPerTick scheduler _ := .goesOn
          (some sweep) (Function.update scheduler.armed key none) stands idle
          (by rintro other ⟨⟩; exact ⟨rfl, idle⟩) fun other => by
            by_cases same : other = key
            · left
              rw [same, Function.update_self]
            · exact .inr (Function.update_of_ne same _ _)
        rwa [putSweep_self stands] at dropped
      | some schedule =>
        simp only [phase] at stepped
        refine move_of_visitPackage stands idle ?_ ?_ meets stepped <;> rfl
    | anchoring _ _ => simp [phase] at stepped
    | holding _ _ _ => simp [phase] at stepped
    | firing _ _ _ => simp [phase] at stepped
  | anchor i fails =>
    obtain ⟨sweep, stands, stepped⟩ := Option.bind_eq_some_iff.mp stepped
    cases phase : sweep.phase with
    | anchoring key schedule =>
      simp only [phase, Option.some.injEq] at stepped
      subst stepped
      exact .arms key schedule _ none stands (by rw [phase]; rfl) rfl rfl
        (meets sweep key schedule stands phase)
    | scanning => simp [phase] at stepped
    | holding _ _ _ => simp [phase] at stepped
    | firing _ _ _ => simp [phase] at stepped
  | resume i =>
    obtain ⟨sweep, stands, stepped⟩ := Option.bind_eq_some_iff.mp stepped
    cases phase : sweep.phase with
    | holding key schedule id =>
      simp only [phase] at stepped
      obtain ⟨object, isObject, rfl⟩ := Option.map_eq_some_iff.mp stepped
      unfold fireIfDue
      split_ifs with passes
      · refine .goesOn _ scheduler.armed stands (by rw [phase]; rfl) ?_ fun _ => .inr rfl
        rintro other ⟨⟩
        exact ⟨rfl, rfl⟩
      · rw [not_or, Int.not_lt, Nat.not_le] at passes
        obtain ⟨isArmed, alone⟩ :=
          meets sweep key schedule id object stands phase isObject passes.1 passes.2
        exact .issues stands phase isObject passes.1 passes.2 isArmed alone
    | scanning => simp [phase] at stepped
    | anchoring _ _ => simp [phase] at stepped
    | firing _ _ _ => simp [phase] at stepped
  | advance i =>
    obtain ⟨sweep, stands, stepped⟩ := Option.bind_eq_some_iff.mp stepped
    cases phase : sweep.phase with
    | firing key schedule id =>
      simp only [phase] at stepped
      obtain ⟨object, isObject, rfl⟩ := Option.map_eq_some_iff.mp stepped
      exact .advances stands phase isObject
    | scanning => simp [phase] at stepped
    | anchoring _ _ => simp [phase] at stepped
    | holding _ _ _ => simp [phase] at stepped
  | finish i =>
    obtain ⟨sweep, stands, stepped⟩ := Option.bind_eq_some_iff.mp stepped
    cases phase : sweep.phase with
    | scanning =>
      simp only [phase, Option.some.injEq] at stepped
      subst stepped
      refine .goesOn none _ stands (by rw [phase]; rfl) (by simp) fun key => ?_
      split_ifs
      · exact .inr rfl
      · exact .inl rfl
    | anchoring _ _ => simp [phase] at stepped
    | holding _ _ _ => simp [phase] at stepped
    | firing _ _ _ => simp [phase] at stepped
  | record key atMs =>
    cases stepped
    exact .records _
  | restart =>
    cases stepped
    exact .restarts

end Scheduler

/-! ## The invariant -/

/-- The occurrence an object was armed for. -/
def ScheduleState.armedForMs {σ : Type*} (nextAfter : σ → ℤ → ℤ) (object : ScheduleState σ) : ℤ :=
  nextAfter object.schedule object.anchorMs

/-- The fires of an occurrence through an object. -/
def firesOf {K : Type*} [DecidableEq K] (fires : List (ScheduledFire K)) (key : K) (id : ℕ)
    (occurrenceMs : ℤ) : List (ScheduledFire K) :=
  fires.filter fun fire => fire.key = key ∧ fire.id = id ∧ fire.occurrenceMs = occurrenceMs

/-- The fires a sweep issued. -/
def firesBy {K : Type*} (fires : List (ScheduledFire K)) (i : ℕ) : List (ScheduledFire K) :=
  fires.filter fun fire => fire.sweep = i

/-- A sweep of some time is at a fire, through an object of a package. -/
def FiringBy {K σ : Type*} (sweeps : ℕ → Option (SchedulerSweep K σ)) (i : ℕ) (key : K) (id : ℕ)
    (nowMs : ℤ) : Prop :=
  ∃ sweep schedule, sweeps i = some sweep ∧ sweep.phase = .firing key schedule id ∧
    sweep.nowMs = nowMs

section Firing

variable {K σ : Type*} {sweeps : ℕ → Option (SchedulerSweep K σ)} {i j : ℕ} {key other : K}
  {id id' : ℕ} {nowMs nowMs' : ℤ} {sweep : SchedulerSweep K σ}

theorem firingBy_of_phase {schedule : σ} (stands : sweeps i = some sweep)
    (phase : sweep.phase = .firing key schedule id) : FiringBy sweeps i key id sweep.nowMs :=
  ⟨sweep, schedule, stands, phase, rfl⟩

theorem FiringBy.eq (fires : FiringBy sweeps i key id nowMs)
    (firesToo : FiringBy sweeps i other id' nowMs') : key = other ∧ id = id' ∧ nowMs = nowMs' := by
  obtain ⟨sweep, schedule, stands, phase, rfl⟩ := fires
  obtain ⟨sweep', schedule', stands', phase', rfl⟩ := firesToo
  obtain rfl := Option.some.inj (stands.symm.trans stands')
  cases phase.symm.trans phase'
  exact ⟨rfl, rfl, rfl⟩

theorem not_firingBy_of_idle (stands : sweeps i = some sweep)
    (idle : sweep.phase.isFiring = false) : ¬FiringBy sweeps i key id nowMs := by
  rintro ⟨other, schedule, standsToo, phase, -⟩
  obtain rfl := Option.some.inj (stands.symm.trans standsToo)
  rw [phase] at idle
  cases idle

theorem firingBy_update_of_ne (differs : j ≠ i) (after : Option (SchedulerSweep K σ)) :
    FiringBy (Function.update sweeps i after) j key id nowMs ↔ FiringBy sweeps j key id nowMs := by
  unfold FiringBy
  rw [Function.update_of_ne differs]

/-- A sweep that is at no fire, before or after, changes nothing. -/
theorem firingBy_update_of_idle {after : Option (SchedulerSweep K σ)}
    (before : ∀ key id nowMs, ¬FiringBy sweeps i key id nowMs)
    (idle : ∀ other, after = some other → other.phase.isFiring = false) :
    FiringBy (Function.update sweeps i after) j key id nowMs ↔ FiringBy sweeps j key id nowMs := by
  by_cases same : j = i
  · subst same
    refine iff_of_false ?_ (before key id nowMs)
    rintro ⟨other, schedule, stands, phase, -⟩
    rw [Function.update_self] at stands
    have silent := idle other stands
    rw [phase] at silent
    cases silent
  · exact firingBy_update_of_ne same after

end Firing

/-- Of each package one fire at a time; each fire of an occurrence that is due and later than the
fires before it; and what is armed ahead of every fire that is done. -/
structure Timely {K σ : Type*} [DecidableEq K] (nextAfter : σ → ℤ → ℤ)
    (scheduler : Scheduler K σ) : Prop where
  ids : ∀ key id object, scheduler.objects key id = some object → id < scheduler.made key
  fireIds : ∀ fire ∈ scheduler.fires, fire.id < scheduler.made fire.key
  one : ∀ i j key id id' nowMs nowMs', FiringBy scheduler.sweeps i key id nowMs →
    FiringBy scheduler.sweeps j key id' nowMs' → i = j
  underWay : ∀ i key id nowMs, FiringBy scheduler.sweeps i key id nowMs →
    ∃ object, scheduler.objects key id = some object ∧ object.nextFireAtMs ≤ nowMs
  due : ∀ fire ∈ scheduler.fires, fire.occurrenceMs ≤ fire.atMs
  once : scheduler.fires.Pairwise fun newer older =>
    newer.key = older.key → older.atMs < newer.occurrenceMs
  ahead : ∀ key id object, scheduler.armed key = some id → scheduler.objects key id = some object →
    ∀ fire ∈ scheduler.fires, fire.key = key → fire.atMs < object.nextFireAtMs ∨
      ∃ i nowMs, FiringBy scheduler.sweeps i key id nowMs ∧ fire.atMs ≤ nowMs
  notBefore : ∀ key id object, scheduler.objects key id = some object →
    object.armedForMs nextAfter ≤ object.nextFireAtMs
  caughtUp : ∀ key id object, scheduler.objects key id = some object →
    (object.armedForMs nextAfter < object.nextFireAtMs ∨
      ∃ i nowMs, FiringBy scheduler.sweeps i key id nowMs) →
    (firesOf scheduler.fires key id (object.armedForMs nextAfter)).length = 1
  waiting : ∀ key id object, scheduler.objects key id = some object →
    object.nextFireAtMs ≤ object.armedForMs nextAfter →
    (∀ i nowMs, ¬FiringBy scheduler.sweeps i key id nowMs) →
    firesOf scheduler.fires key id (object.armedForMs nextAfter) = []

section Timely

open Scheduler

variable {K σ : Type*} [DecidableEq K] {nextAfter : σ → ℤ → ℤ}
  {maxFiresPerTick : ℕ} {scheduler next : Scheduler K σ}

/-- Where the fires under way stay, and nothing is armed but what was. -/
theorem Timely.congr (timely : Timely nextAfter scheduler)
    (objects : next.objects = scheduler.objects) (made : next.made = scheduler.made)
    (fires : next.fires = scheduler.fires)
    (firing : ∀ i key id nowMs,
      FiringBy next.sweeps i key id nowMs ↔ FiringBy scheduler.sweeps i key id nowMs)
    (kept : ∀ key, next.armed key = none ∨ next.armed key = scheduler.armed key) :
    Timely nextAfter next := by
  refine ⟨?_, ?_, ?_, ?_, ?_, ?_, ?_, ?_, ?_, ?_⟩
  · rw [objects, made]
    exact timely.ids
  · rw [fires, made]
    exact timely.fireIds
  · simp only [firing]
    exact timely.one
  · simp only [firing, objects]
    exact timely.underWay
  · rw [fires]
    exact timely.due
  · rw [fires]
    exact timely.once
  · intro key id object isArmed
    simp only [firing, objects, fires]
    obtain none | same := kept key
    · rw [none] at isArmed
      cases isArmed
    · exact timely.ahead key id object (same.symm.trans isArmed)
  · rw [objects]
    exact timely.notBefore
  · simp only [firing, objects, fires]
    exact timely.caughtUp
  · simp only [firing, objects, fires]
    exact timely.waiting

/-- The objects after one is put under a number. -/
theorem objects_putObject (scheduler : Scheduler K σ) (key other : K) (id id' : ℕ)
    (object : ScheduleState σ) :
    (scheduler.putObject key id object).objects other id' =
      if other = key ∧ id' = id then some object else scheduler.objects other id' := by
  unfold putObject
  by_cases sameKey : other = key
  · subst sameKey
    by_cases sameId : id' = id
    · simp [sameId]
    · simp [sameId]
  · simp [sameKey]

/-- A package that is armed anew is armed after its last fire. -/
theorem Timely.arms (timely : Timely nextAfter scheduler) {i : ℕ} {sweep after : SchedulerSweep K σ}
    (key : K) (schedule : σ) (anchorMs : ℤ) (lastFiredAtMs : Option ℤ)
    (stands : scheduler.sweeps i = some sweep) (idle : sweep.phase.isFiring = false)
    (idleAfter : after.phase.isFiring = false)
    (late : scheduler.FiredBefore key (nextAfter schedule anchorMs)) :
    Timely nextAfter
      ((scheduler.armFrom nextAfter key schedule anchorMs lastFiredAtMs).putSweep i
        (some after)) := by
  have firing : ∀ j other id nowMs,
      FiringBy (Function.update scheduler.sweeps i (some after)) j other id nowMs ↔
        FiringBy scheduler.sweeps j other id nowMs := fun j other id nowMs =>
    firingBy_update_of_idle (fun _ _ _ => not_firingBy_of_idle stands idle)
      (by rintro _ ⟨⟩; exact idleAfter)
  have objects := fun other id => objects_putObject scheduler key other (scheduler.made key) id
    ⟨schedule, nextAfter schedule anchorMs, lastFiredAtMs, anchorMs⟩
  have more : ∀ other, scheduler.made other ≤
      Function.update scheduler.made key (scheduler.made key + 1) other := by
    intro other
    by_cases same : other = key
    · subst same
      simp
    · exact Nat.le_of_eq (Function.update_of_ne same ..).symm
  -- The new object has a number no fire and no object has.
  have unused : ∀ fire ∈ scheduler.fires, ¬(fire.key = key ∧ fire.id = scheduler.made key) := by
    rintro fire issued ⟨rfl, same⟩
    exact absurd (timely.fireIds fire issued) (by omega)
  have old : ∀ {other id object}, scheduler.objects other id = some object →
      ¬(other = key ∧ id = scheduler.made key) := by
    rintro other id object isObject ⟨rfl, rfl⟩
    exact absurd (timely.ids _ _ _ isObject) (by omega)
  refine ⟨?_, ?_, ?_, ?_, timely.due, timely.once, ?_, ?_, ?_, ?_⟩
  · intro other id object isObject
    replace isObject := (objects other id).symm.trans isObject
    split_ifs at isObject with new
    · obtain ⟨rfl, rfl⟩ := new
      simp [putSweep, armFrom]
    · exact Nat.lt_of_lt_of_le (timely.ids other id object isObject) (more other)
  · exact fun fire issued => Nat.lt_of_lt_of_le (timely.fireIds fire issued) (more fire.key)
  · intro j j' other id id' nowMs nowMs' fires firesToo
    exact timely.one j j' other id id' nowMs nowMs' ((firing ..).mp fires) ((firing ..).mp firesToo)
  · intro j other id nowMs fires
    obtain ⟨object, isObject, isDue⟩ := timely.underWay j other id nowMs ((firing ..).mp fires)
    exact ⟨object, (objects other id).trans ((if_neg (old isObject)).trans isObject), isDue⟩
  · intro other id object isArmed isObject fire issued sameKey
    replace isObject := (objects other id).symm.trans isObject
    by_cases same : other = key
    · subst same
      obtain rfl : scheduler.made other = id := by simpa [putSweep, armFrom] using isArmed
      rw [if_pos ⟨rfl, rfl⟩] at isObject
      cases isObject
      exact .inl (late fire issued sameKey)
    · rw [if_neg fun new => same new.1] at isObject
      refine (timely.ahead other id object ((Function.update_of_ne same ..).symm.trans isArmed)
        isObject fire issued sameKey).imp_right ?_
      rintro ⟨j, nowMs, fires, before⟩
      exact ⟨j, nowMs, (firing ..).mpr fires, before⟩
  · intro other id object isObject
    replace isObject := (objects other id).symm.trans isObject
    split_ifs at isObject with new
    · cases isObject
      exact Int.le_refl _
    · exact timely.notBefore other id object isObject
  · intro other id object isObject cause
    replace isObject := (objects other id).symm.trans isObject
    split_ifs at isObject with new
    · cases isObject
      obtain jumped | ⟨j, nowMs, fires⟩ := cause
      · exact absurd jumped (Int.lt_irrefl _)
      · obtain ⟨object, isObject, -⟩ := timely.underWay j other id nowMs ((firing ..).mp fires)
        exact absurd new (old isObject)
    · refine timely.caughtUp other id object isObject (cause.imp_right ?_)
      rintro ⟨j, nowMs, fires⟩
      exact ⟨j, nowMs, (firing ..).mp fires⟩
  · intro other id object isObject still silent
    replace isObject := (objects other id).symm.trans isObject
    split_ifs at isObject with new
    · obtain ⟨rfl, rfl⟩ := new
      refine List.filter_eq_nil_iff.mpr fun fire issued same => unused fire issued ?_
      rw [decide_eq_true_iff] at same
      exact ⟨same.1, same.2.1⟩
    · exact timely.waiting other id object isObject still
        fun j nowMs fires => silent j nowMs ((firing ..).mpr fires)

/-- A fire is later than every fire of the package before it. -/
theorem Timely.issues (timely : Timely nextAfter scheduler) {i : ℕ} {sweep : SchedulerSweep K σ}
    {key : K} {schedule : σ} {id : ℕ} {object : ScheduleState σ}
    (stands : scheduler.sweeps i = some sweep) (holds : sweep.phase = .holding key schedule id)
    (isObject : scheduler.objects key id = some object) (due : object.nextFireAtMs ≤ sweep.nowMs)
    (isArmed : scheduler.armed key = some id) (alone : ¬scheduler.IsFiring key) :
    Timely nextAfter
      { scheduler.putSweep i (some { sweep with phase := .firing key schedule id }) with
        fires := ⟨i, key, id, object.nextFireAtMs, sweep.nowMs⟩ :: scheduler.fires } := by
  have quiet : ∀ j id' nowMs, ¬FiringBy scheduler.sweeps j key id' nowMs := by
    rintro j id' nowMs ⟨other, schedule', standsToo, phase, -⟩
    exact alone ⟨j, other, schedule', id', standsToo, phase⟩
  have idle : ∀ other id' nowMs, ¬FiringBy scheduler.sweeps i other id' nowMs := fun _ _ _ =>
    not_firingBy_of_idle stands (by rw [holds]; rfl)
  -- The fires under way are the old ones and the new one.
  have new : FiringBy (Function.update scheduler.sweeps i
      (some { sweep with phase := .firing key schedule id })) i key id sweep.nowMs :=
    ⟨_, schedule, Function.update_self .., rfl, rfl⟩
  have kept : ∀ {j other id' nowMs}, FiringBy scheduler.sweeps j other id' nowMs →
      FiringBy (Function.update scheduler.sweeps i
        (some { sweep with phase := .firing key schedule id })) j other id' nowMs := by
    intro j other id' nowMs fires
    refine (firingBy_update_of_ne ?_ _).mpr fires
    rintro rfl
    exact idle _ _ _ fires
  have split : ∀ {j other id' nowMs}, FiringBy (Function.update scheduler.sweeps i
      (some { sweep with phase := .firing key schedule id })) j other id' nowMs →
      (j = i ∧ key = other ∧ id = id' ∧ sweep.nowMs = nowMs) ∨
        FiringBy scheduler.sweeps j other id' nowMs := by
    intro j other id' nowMs fires
    by_cases same : j = i
    · subst same
      exact .inl ⟨rfl, new.eq fires⟩
    · exact .inr ((firingBy_update_of_ne same _).mp fires)
  have before : ∀ fire ∈ scheduler.fires, fire.key = key → fire.atMs < object.nextFireAtMs := by
    intro fire issued sameKey
    obtain early | ⟨j, nowMs, fires, -⟩ := timely.ahead key id object isArmed isObject fire issued
      sameKey
    · exact early
    · exact absurd fires (quiet _ _ _)
  refine ⟨timely.ids, ?_, ?_, ?_, ?_, ?_, ?_, timely.notBefore, ?_, ?_⟩
  · intro fire issued
    obtain rfl | earlier := List.mem_cons.mp issued
    · exact timely.ids key id object isObject
    · exact timely.fireIds fire earlier
  · intro j j' other id₁ id₂ nowMs nowMs' fires firesToo
    obtain ⟨rfl, rfl, -⟩ | old := split fires <;> obtain ⟨rfl, same, -⟩ | oldToo := split firesToo
    · rfl
    · exact absurd oldToo (quiet _ _ _)
    · subst same
      exact absurd old (quiet _ _ _)
    · exact timely.one j j' other id₁ id₂ nowMs nowMs' old oldToo
  · intro j other id' nowMs fires
    obtain ⟨rfl, rfl, rfl, rfl⟩ | old := split fires
    · exact ⟨object, isObject, due⟩
    · exact timely.underWay j other id' nowMs old
  · intro fire issued
    obtain rfl | earlier := List.mem_cons.mp issued
    · exact due
    · exact timely.due fire earlier
  · refine List.pairwise_cons.mpr ⟨fun older issued sameKey => ?_, timely.once⟩
    exact before older issued sameKey.symm
  · intro other id' object' isArmed' isObject' fire issued sameKey
    obtain rfl | earlier := List.mem_cons.mp issued
    · subst sameKey
      obtain rfl := Option.some.inj (isArmed.symm.trans isArmed')
      exact .inr ⟨i, sweep.nowMs, new, Int.le_refl _⟩
    · refine (timely.ahead other id' object' isArmed' isObject' fire earlier sameKey).imp_right ?_
      rintro ⟨j, nowMs, fires, notAfter⟩
      exact ⟨j, nowMs, kept fires, notAfter⟩
  · intro other id' object' isObject' cause
    dsimp only [firesOf]
    rw [List.filter_cons]
    by_cases same : key = other ∧ id = id'
    · obtain ⟨rfl, rfl⟩ := same
      obtain rfl := Option.some.inj (isObject.symm.trans isObject')
      by_cases jumped : object.armedForMs nextAfter < object.nextFireAtMs
      · -- The occurrence it was armed for has been fired.
        rw [if_neg (by simp; omega)]
        exact timely.caughtUp key id object isObject (.inl jumped)
      · have still := timely.notBefore key id object isObject
        rw [if_pos (by simp; omega), List.length_cons]
        have none := timely.waiting key id object isObject (Int.not_lt.mp jumped)
          fun j nowMs => quiet j id nowMs
        rw [firesOf] at none
        rw [none]
        rfl
    · rw [if_neg (by simp; tauto)]
      refine timely.caughtUp other id' object' isObject' (cause.imp_right ?_)
      rintro ⟨j, nowMs, fires⟩
      obtain ⟨-, sameKey, sameId, -⟩ | old := split fires
      · exact absurd ⟨sameKey, sameId⟩ same
      · exact ⟨j, nowMs, old⟩
  · intro other id' object' isObject' still silent
    by_cases same : key = other ∧ id = id'
    · obtain ⟨rfl, rfl⟩ := same
      exact absurd new (silent _ _)
    · dsimp only [firesOf]
      rw [List.filter_cons, if_neg (by simp; tauto)]
      exact timely.waiting other id' object' isObject' still
        fun j nowMs fires => silent j nowMs (kept fires)

/-- A fire that is done leaves the next one later than its time. -/
theorem Timely.advances (later : ∀ schedule atMs, atMs < nextAfter schedule atMs)
    (timely : Timely nextAfter scheduler) {i : ℕ} {sweep : SchedulerSweep K σ} {key : K}
    {schedule : σ} {id : ℕ} {object : ScheduleState σ} (stands : scheduler.sweeps i = some sweep)
    (fires : sweep.phase = .firing key schedule id)
    (isObject : scheduler.objects key id = some object) :
    Timely nextAfter
      ((scheduler.putObject key id { object with
        nextFireAtMs := nextAfter schedule sweep.nowMs
        lastFiredAtMs := some sweep.nowMs }).putSweep i
          (some { sweep with fired := sweep.fired + 1, phase := .scanning })) := by
  have own : FiringBy scheduler.sweeps i key id sweep.nowMs := firingBy_of_phase stands fires
  have ahead := later schedule sweep.nowMs
  obtain ⟨_, isObjectToo, due⟩ := timely.underWay i key id sweep.nowMs own
  obtain rfl := Option.some.inj (isObject.symm.trans isObjectToo)
  have firing : ∀ {j other id' nowMs}, FiringBy (Function.update scheduler.sweeps i
      (some { sweep with fired := sweep.fired + 1, phase := .scanning })) j other id' nowMs ↔
      j ≠ i ∧ FiringBy scheduler.sweeps j other id' nowMs := by
    intro j other id' nowMs
    by_cases same : j = i
    · subst same
      refine iff_of_false ?_ fun differs => differs.1 rfl
      rintro ⟨_, _, standsToo, phase, -⟩
      rw [Function.update_self, Option.some.injEq] at standsToo
      subst standsToo
      cases phase
    · rw [firingBy_update_of_ne same, and_iff_right same]
  have objects := fun other id' => objects_putObject scheduler key other id id' { object with
    nextFireAtMs := nextAfter schedule sweep.nowMs, lastFiredAtMs := some sweep.nowMs }
  have armedFor := timely.notBefore key id object isObject
  refine ⟨?_, timely.fireIds, ?_, ?_, timely.due, timely.once, ?_, ?_, ?_, ?_⟩
  · intro other id' object' isObject'
    replace isObject' := (objects other id').symm.trans isObject'
    split_ifs at isObject' with same
    · obtain ⟨rfl, rfl⟩ := same
      exact timely.ids _ _ _ isObject
    · exact timely.ids other id' object' isObject'
  · intro j j' other id₁ id₂ nowMs nowMs' firesFirst firesSecond
    exact timely.one j j' other id₁ id₂ nowMs nowMs' (firing.mp firesFirst).2
      (firing.mp firesSecond).2
  · intro j other id' nowMs firesToo
    obtain ⟨differs, old⟩ := firing.mp firesToo
    obtain ⟨object', isObject', isDue⟩ := timely.underWay j other id' nowMs old
    refine ⟨object', (objects other id').trans ((if_neg ?_).trans isObject'), isDue⟩
    rintro ⟨rfl, rfl⟩
    exact differs (timely.one _ _ _ _ _ _ _ old own)
  · intro other id' object' isArmed isObject' fire issued sameKey
    replace isObject' := (objects other id').symm.trans isObject'
    by_cases same : other = key ∧ id' = id
    · obtain ⟨rfl, rfl⟩ := same
      rw [if_pos ⟨rfl, rfl⟩] at isObject'
      cases isObject'
      left
      dsimp only
      obtain early | ⟨j, nowMs, old, notAfter⟩ :=
        timely.ahead other id' object isArmed isObject fire issued sameKey
      · omega
      · -- The fire under way is the one that is done now.
        obtain rfl := timely.one _ _ _ _ _ _ _ old own
        obtain ⟨-, -, rfl⟩ := old.eq own
        omega
    · rw [if_neg same] at isObject'
      refine (timely.ahead other id' object' isArmed isObject' fire issued sameKey).imp_right ?_
      rintro ⟨j, nowMs, old, notAfter⟩
      refine ⟨j, nowMs, firing.mpr ⟨?_, old⟩, notAfter⟩
      rintro rfl
      obtain ⟨sameKey, sameId, -⟩ := old.eq own
      exact same ⟨sameKey, sameId⟩
  · intro other id' object' isObject'
    replace isObject' := (objects other id').symm.trans isObject'
    split_ifs at isObject' with same
    · cases isObject'
      have kept : object.armedForMs nextAfter ≤ nextAfter schedule sweep.nowMs := by omega
      exact kept
    · exact timely.notBefore other id' object' isObject'
  · intro other id' object' isObject' cause
    replace isObject' := (objects other id').symm.trans isObject'
    split_ifs at isObject' with same
    · obtain ⟨rfl, rfl⟩ := same
      cases isObject'
      exact timely.caughtUp other id' object isObject (.inr ⟨i, sweep.nowMs, own⟩)
    · refine timely.caughtUp other id' object' isObject' (cause.imp_right ?_)
      rintro ⟨j, nowMs, firesToo⟩
      exact ⟨j, nowMs, (firing.mp firesToo).2⟩
  · intro other id' object' isObject' still silent
    replace isObject' := (objects other id').symm.trans isObject'
    split_ifs at isObject' with same
    · cases isObject'
      have jumped : object.armedForMs nextAfter < nextAfter schedule sweep.nowMs := by omega
      exact absurd still (Int.not_le.mpr jumped)
    · refine timely.waiting other id' object' isObject' still fun j nowMs old => ?_
      refine silent j nowMs (firing.mpr ⟨?_, old⟩)
      rintro rfl
      obtain ⟨sameKey, sameId, -⟩ := old.eq own
      exact same ⟨sameKey, sameId⟩

/-- A restart drops what is in memory. -/
theorem Timely.restarts (timely : Timely nextAfter scheduler) (recorded : K → Option ℤ)
    (started : ℕ) :
    Timely nextAfter
      { (initial recorded : Scheduler K σ) with
        made := scheduler.made, started := started, fires := scheduler.fires } := by
  have silent : ∀ i key id nowMs,
      ¬FiringBy (initial recorded : Scheduler K σ).sweeps i key id nowMs := by
    rintro i key id nowMs ⟨_, _, stands, -⟩
    cases stands
  refine ⟨nofun, timely.fireIds, fun i j key id id' nowMs nowMs' fires => ?_,
    fun i key id nowMs fires => ?_, timely.due, timely.once, nofun, nofun, nofun, nofun⟩
  · exact absurd fires (silent i key id nowMs)
  · exact absurd fires (silent i key id nowMs)

theorem timely_initial (recorded : K → Option ℤ) :
    Timely nextAfter (initial recorded : Scheduler K σ) := by
  refine ⟨nofun, nofun, ?_, ?_, nofun, .nil, nofun, nofun, nofun, nofun⟩
  · rintro i j key id id' nowMs nowMs' ⟨_, _, stands, -⟩
    cases stands
  · rintro i key id nowMs ⟨_, _, stands, -⟩
    cases stands

theorem Timely.move (later : ∀ schedule atMs, atMs < nextAfter schedule atMs)
    (timely : Timely nextAfter scheduler) (unstarted : scheduler.sweeps scheduler.started = none)
    (moved : Move nextAfter maxFiresPerTick scheduler next) : Timely nextAfter next := by
  cases moved with
  | starts nowMs =>
    refine timely.congr rfl rfl rfl (fun j key id atMs => ?_) fun _ => .inr rfl
    refine firingBy_update_of_idle ?_ (by rintro _ ⟨⟩; rfl)
    rintro key id atMs ⟨_, _, stands, -⟩
    rw [unstarted] at stands
    cases stands
  | goesOn after armed stands idle same kept =>
    refine timely.congr rfl rfl rfl (fun j key id atMs => ?_) kept
    exact firingBy_update_of_idle (fun _ _ _ => not_firingBy_of_idle stands idle)
      fun other isAfter => (same other isAfter).2
  | arms key schedule anchorMs lastFiredAtMs stands idle same idleAfter late =>
    exact timely.arms key schedule anchorMs lastFiredAtMs stands idle idleAfter late
  | issues stands holds isObject due capped isArmed alone =>
    exact timely.issues stands holds isObject due isArmed alone
  | advances stands fires isObject => exact timely.advances later stands fires isObject
  | records recorded =>
    exact timely.congr rfl rfl rfl (fun _ _ _ _ => Iff.rfl) fun _ => .inr rfl
  | restarts => exact timely.restarts _ _

end Timely

/-! ## The cap of a sweep -/

/-- A sweep has issued as many fires as it counts, and no more than its cap. -/
structure Capped {K σ : Type*} (maxFiresPerTick : ℕ) (scheduler : Scheduler K σ) : Prop where
  unstarted : ∀ i, scheduler.started ≤ i →
    scheduler.sweeps i = none ∧ firesBy scheduler.fires i = []
  bounded : ∀ i, (firesBy scheduler.fires i).length ≤ maxFiresPerTick
  counted : ∀ i sweep, scheduler.sweeps i = some sweep →
    (firesBy scheduler.fires i).length = sweep.fired + if sweep.phase.isFiring then 1 else 0

section Capped

open Scheduler

variable {K σ : Type*} [DecidableEq K] {nextAfter : σ → ℤ → ℤ} {maxFiresPerTick : ℕ}
  {scheduler next : Scheduler K σ}

omit [DecidableEq K] in
theorem Capped.lt_started (capped : Capped maxFiresPerTick scheduler) {i : ℕ}
    {sweep : SchedulerSweep K σ} (stands : scheduler.sweeps i = some sweep) :
    i < scheduler.started := by
  by_contra late
  rw [(capped.unstarted i (Nat.le_of_not_lt late)).1] at stands
  cases stands

omit [DecidableEq K] in
/-- Where a sweep goes on, or ends, with the number of fires it counts. -/
theorem Capped.goesOn (capped : Capped maxFiresPerTick scheduler) {i : ℕ}
    {sweep : SchedulerSweep K σ} {after : Option (SchedulerSweep K σ)}
    (stands : scheduler.sweeps i = some sweep)
    (same : ∀ other, after = some other →
      (other.fired + if other.phase.isFiring then 1 else 0) =
        sweep.fired + if sweep.phase.isFiring then 1 else 0)
    (sweeps : next.sweeps = Function.update scheduler.sweeps i after)
    (started : next.started = scheduler.started) (fires : next.fires = scheduler.fires) :
    Capped maxFiresPerTick next := by
  have before := capped.lt_started stands
  refine ⟨fun j late => ?_, fires ▸ capped.bounded, fun j other standsToo => ?_⟩
  · rw [started] at late
    rw [sweeps, fires, Function.update_of_ne (by omega)]
    exact capped.unstarted j late
  · rw [sweeps] at standsToo
    rw [fires]
    by_cases isSame : j = i
    · subst isSame
      rw [Function.update_self] at standsToo
      rw [capped.counted j sweep stands, same other standsToo]
    · rw [Function.update_of_ne isSame] at standsToo
      exact capped.counted j other standsToo

theorem Capped.move (capped : Capped maxFiresPerTick scheduler)
    (moved : Move nextAfter maxFiresPerTick scheduler next) : Capped maxFiresPerTick next := by
  cases moved with
  | starts nowMs =>
    refine ⟨fun j late => ?_, capped.bounded, fun j other stands => ?_⟩
    · have late' : scheduler.started + 1 ≤ j := late
      obtain ⟨free, silent⟩ := capped.unstarted j (by omega)
      exact ⟨(Function.update_of_ne (by omega) ..).trans free, silent⟩
    · by_cases same : j = scheduler.started
      · subst same
        replace stands := (Function.update_self ..).symm.trans stands
        cases stands
        exact congrArg List.length (capped.unstarted scheduler.started (Nat.le_refl _)).2
      · exact capped.counted j other ((Function.update_of_ne same ..).symm.trans stands)
  | goesOn after armed stands idle same kept =>
    refine capped.goesOn stands (fun other isAfter => ?_) rfl rfl rfl
    obtain ⟨sameFired, idleAfter⟩ := same other isAfter
    rw [sameFired, idle, idleAfter]
  | arms key schedule anchorMs lastFiredAtMs stands idle same idleAfter late =>
    refine capped.goesOn stands ?_ rfl rfl rfl
    rintro _ ⟨⟩
    rw [same, idle, idleAfter]
  | @issues i sweep key schedule id object stands holds isObject due under isArmed alone =>
    have counted := capped.counted i sweep stands
    rw [holds] at counted
    have own : ∀ j, firesBy (⟨i, key, id, object.nextFireAtMs, sweep.nowMs⟩ :: scheduler.fires) j =
        if i = j then ⟨i, key, id, object.nextFireAtMs, sweep.nowMs⟩ :: firesBy scheduler.fires j
        else firesBy scheduler.fires j := by
      intro j
      rw [firesBy, List.filter_cons]
      simp only [decide_eq_true_eq]
      rfl
    have before := capped.lt_started stands
    refine ⟨fun j late => ?_, fun j => ?_, fun j other standsToo => ?_⟩
    · have late' : scheduler.started ≤ j := late
      obtain ⟨free, silent⟩ := capped.unstarted j late
      refine ⟨(Function.update_of_ne (by omega) ..).trans free, ?_⟩
      exact (own j).trans ((if_neg (by omega)).trans silent)
    · dsimp only
      rw [own]
      split_ifs with same
      · subst same
        rw [List.length_cons, counted]
        exact under
      · exact capped.bounded j
    · dsimp only
      rw [own]
      by_cases same : i = j
      · subst same
        replace standsToo := (Function.update_self ..).symm.trans standsToo
        cases standsToo
        rw [if_pos rfl, List.length_cons, counted]
        rfl
      · rw [if_neg same]
        exact capped.counted j other
          ((Function.update_of_ne (Ne.symm same) ..).symm.trans standsToo)
  | advances stands fires isObject =>
    refine capped.goesOn stands ?_ rfl rfl rfl
    rintro _ ⟨⟩
    rw [fires]
    rfl
  | records recorded => exact ⟨capped.unstarted, capped.bounded, capped.counted⟩
  | restarts =>
    exact ⟨fun j late => ⟨rfl, (capped.unstarted j late).2⟩, capped.bounded, nofun⟩

end Capped

/-! ## Every occurrence once -/

/-- Each fire is of an occurrence that is due and later than the time of every fire of the package
before it; no sweep issues more than its cap; while no fire of a package is under way, what is armed
for it is later than all its fires; and of the occurrence something was armed for there is at most
one fire through it, and exactly one once the schedule has jumped forward. -/
structure FiresOnce {K σ : Type*} [DecidableEq K] (nextAfter : σ → ℤ → ℤ) (maxFiresPerTick : ℕ)
    (scheduler : Scheduler K σ) : Prop where
  due : ∀ fire ∈ scheduler.fires, fire.occurrenceMs ≤ fire.atMs
  once : scheduler.fires.Pairwise fun newer older =>
    newer.key = older.key → older.atMs < newer.occurrenceMs
  capped : ∀ sweep, (firesBy scheduler.fires sweep).length ≤ maxFiresPerTick
  ahead : ∀ key id object, scheduler.armed key = some id → scheduler.objects key id = some object →
    ¬scheduler.IsFiring key →
      ∀ fire ∈ scheduler.fires, fire.key = key → fire.atMs < object.nextFireAtMs
  catchUp : ∀ key id object, scheduler.objects key id = some object →
    (firesOf scheduler.fires key id (object.armedForMs nextAfter)).length ≤ 1
  caughtUp : ∀ key id object, scheduler.objects key id = some object →
    object.armedForMs nextAfter < object.nextFireAtMs →
      (firesOf scheduler.fires key id (object.armedForMs nextAfter)).length = 1

section Runs

open Scheduler

variable {K σ : Type*} [DecidableEq K] [DecidableEq σ] {nextAfter : σ → ℤ → ℤ}
  {maxFiresPerTick : ℕ} {scheduler next : Scheduler K σ}

/-- What a step that meets the condition keeps. -/
theorem Timely.step (later : ∀ schedule atMs, atMs < nextAfter schedule atMs)
    {action : SchedulerAction K σ} (timely : Timely nextAfter scheduler)
    (capped : Capped maxFiresPerTick scheduler)
    (meets : scheduler.Meets nextAfter maxFiresPerTick action)
    (stepped : scheduler.step nextAfter maxFiresPerTick action = some next) :
    Timely nextAfter next ∧ Capped maxFiresPerTick next := by
  have moved := move_of_step meets stepped
  exact ⟨timely.move later (capped.unstarted _ (Nat.le_refl _)).1 moved, capped.move moved⟩

theorem Timely.run (later : ∀ schedule atMs, atMs < nextAfter schedule atMs)
    {actions : List (SchedulerAction K σ)} (timely : Timely nextAfter scheduler)
    (capped : Capped maxFiresPerTick scheduler)
    (meets : scheduler.MeetsAll nextAfter maxFiresPerTick actions)
    (ran : scheduler.run nextAfter maxFiresPerTick actions = some next) :
    Timely nextAfter next ∧ Capped maxFiresPerTick next := by
  induction actions generalizing scheduler with
  | nil =>
    cases ran
    exact ⟨timely, capped⟩
  | cons action rest ih =>
    rw [Scheduler.run, List.foldlM_cons] at ran
    obtain ⟨middle, stepped, ran⟩ := Option.bind_eq_some_iff.mp ran
    obtain ⟨timelyNext, cappedNext⟩ := timely.step later capped meets.1 stepped
    exact ih timelyNext cappedNext (meets.2 middle stepped) ran

omit [DecidableEq K] [DecidableEq σ] in
theorem capped_initial (recorded : K → Option ℤ) :
    Capped maxFiresPerTick (initial recorded : Scheduler K σ) :=
  ⟨fun _ _ => ⟨rfl, rfl⟩, fun _ => Nat.zero_le _, nofun⟩

omit [DecidableEq σ] in
theorem Timely.firesOnce (timely : Timely nextAfter scheduler)
    (capped : Capped maxFiresPerTick scheduler) :
    FiresOnce nextAfter maxFiresPerTick scheduler where
  due := timely.due
  once := timely.once
  capped := capped.bounded
  ahead key id object isArmed isObject alone fire issued sameKey := by
    obtain early | ⟨i, nowMs, ⟨sweep, schedule, stands, phase, -⟩, -⟩ :=
      timely.ahead key id object isArmed isObject fire issued sameKey
    · exact early
    · exact absurd ⟨i, sweep, schedule, id, stands, phase⟩ alone
  catchUp key id object isObject := by
    by_cases cause : object.armedForMs nextAfter < object.nextFireAtMs ∨
        ∃ i nowMs, FiringBy scheduler.sweeps i key id nowMs
    · exact Nat.le_of_eq (timely.caughtUp key id object isObject cause)
    · rw [not_or, Int.not_lt] at cause
      rw [timely.waiting key id object isObject cause.1
        fun i nowMs fires => cause.2 ⟨i, nowMs, fires⟩]
      exact Nat.zero_le _
  caughtUp key id object isObject jumped := timely.caughtUp key id object isObject (.inl jumped)

/-! ### Sweeps one after the other -/

/-- One sweep at most, and it holds what is armed. -/
structure Sequential (scheduler : Scheduler K σ) : Prop where
  alone : ∀ i j sweep other, scheduler.sweeps i = some sweep → scheduler.sweeps j = some other →
    i = j
  holds : ∀ i sweep key schedule id, scheduler.sweeps i = some sweep →
    sweep.phase = .holding key schedule id → scheduler.armed key = some id

omit [DecidableEq K] [DecidableEq σ] in
/-- A sweep that is alone issues its fires as the condition has it. -/
theorem Sequential.meets (sequential : Sequential scheduler) (i : ℕ) :
    scheduler.Meets nextAfter maxFiresPerTick (.resume i) := by
  intro sweep key schedule id armed stands phase _ _ _
  refine ⟨sequential.holds i sweep key schedule id stands phase, ?_⟩
  rintro ⟨j, other, schedule', id', standsToo, firing⟩
  obtain rfl := sequential.alone i j sweep other stands standsToo
  obtain rfl := Option.some.inj (stands.symm.trans standsToo)
  cases phase.symm.trans firing

omit [DecidableEq K] [DecidableEq σ] in
/-- A step of the only sweep. -/
theorem Sequential.put (sequential : Sequential scheduler) {i : ℕ} {sweep : SchedulerSweep K σ}
    {after : Option (SchedulerSweep K σ)} (stands : scheduler.sweeps i = some sweep)
    (sweeps : next.sweeps = Function.update scheduler.sweeps i after)
    (holds : ∀ other key schedule id, after = some other → other.phase = .holding key schedule id →
      next.armed key = some id) : Sequential next := by
  have only : ∀ j other, next.sweeps j = some other → j = i ∧ after = some other := by
    intro j other standsToo
    rw [sweeps] at standsToo
    by_cases same : j = i
    · subst same
      rw [Function.update_self] at standsToo
      exact ⟨rfl, standsToo⟩
    · rw [Function.update_of_ne same] at standsToo
      exact absurd (sequential.alone j i other sweep standsToo stands) same
  refine ⟨fun j j' other other' first second => ?_, fun j other key schedule id isSweep phase => ?_⟩
  · exact (only j other first).1.trans (only j' other' second).1.symm
  · exact holds other key schedule id (only j other isSweep).2 phase

/-- Where a tick comes only when no sweep is under way, sweeps stay one after the other. -/
theorem Sequential.step {action : SchedulerAction K σ} (sequential : Sequential scheduler)
    (free : ∀ nowMs, action = .tick nowMs → ∀ i, scheduler.sweeps i = none)
    (stepped : scheduler.step nextAfter maxFiresPerTick action = some next) :
    Sequential next := by
  cases action with
  | tick nowMs =>
    cases stepped
    have only : ∀ j other, Function.update scheduler.sweeps scheduler.started
        (some { nowMs := nowMs }) j = some other →
          j = scheduler.started ∧ other = { nowMs := nowMs } := by
      intro j other stands
      by_cases same : j = scheduler.started
      · subst same
        rw [Function.update_self, Option.some.injEq] at stands
        exact ⟨rfl, stands.symm⟩
      · rw [Function.update_of_ne same, free nowMs rfl j] at stands
        cases stands
    refine ⟨fun i j sweep other first second => ?_, fun i sweep key schedule id stands phase => ?_⟩
    · exact (only i sweep first).1.trans (only j other second).1.symm
    · rw [(only i sweep stands).2] at phase
      cases phase
  | visit i key schedule =>
    obtain ⟨sweep, stands, stepped⟩ := Option.bind_eq_some_iff.mp stepped
    cases phase : sweep.phase with
    | scanning =>
      cases schedule with
      | none =>
        simp only [phase, Option.some.injEq] at stepped
        subst stepped
        refine sequential.put stands (congrArg sweeps (putSweep_self stands)).symm ?_
        rintro other key' schedule' id' ⟨⟩ holds
        cases phase.symm.trans holds
      | some schedule =>
        simp only [phase] at stepped
        unfold visitPackage at stepped
        cases isArmed : scheduler.armed key with
        | none =>
          simp only [isArmed, Option.some.injEq] at stepped
          subst stepped
          refine sequential.put stands rfl ?_
          rintro other key' schedule' id' ⟨⟩ ⟨⟩
        | some id =>
          simp only [isArmed] at stepped
          obtain ⟨existing, isObject, rfl⟩ := Option.map_eq_some_iff.mp stepped
          split_ifs
          · refine sequential.put stands rfl ?_
            rintro other key' schedule' id' ⟨⟩ ⟨⟩
            exact isArmed
          · refine sequential.put stands rfl ?_
            rintro other key' schedule' id' ⟨⟩ ⟨⟩
            exact Function.update_self ..
    | anchoring _ _ => simp [phase] at stepped
    | holding _ _ _ => simp [phase] at stepped
    | firing _ _ _ => simp [phase] at stepped
  | anchor i fails =>
    obtain ⟨sweep, stands, stepped⟩ := Option.bind_eq_some_iff.mp stepped
    cases phase : sweep.phase with
    | anchoring key schedule =>
      simp only [phase, Option.some.injEq] at stepped
      subst stepped
      refine sequential.put stands rfl ?_
      rintro other key' schedule' id' ⟨⟩ ⟨⟩
      exact Function.update_self ..
    | scanning => simp [phase] at stepped
    | holding _ _ _ => simp [phase] at stepped
    | firing _ _ _ => simp [phase] at stepped
  | resume i =>
    obtain ⟨sweep, stands, stepped⟩ := Option.bind_eq_some_iff.mp stepped
    cases phase : sweep.phase with
    | holding key schedule id =>
      simp only [phase] at stepped
      obtain ⟨object, isObject, rfl⟩ := Option.map_eq_some_iff.mp stepped
      unfold fireIfDue
      split_ifs
      · refine sequential.put stands rfl ?_
        rintro other key' schedule' id' ⟨⟩ ⟨⟩
      · refine sequential.put stands rfl ?_
        rintro other key' schedule' id' ⟨⟩ ⟨⟩
    | scanning => simp [phase] at stepped
    | anchoring _ _ => simp [phase] at stepped
    | firing _ _ _ => simp [phase] at stepped
  | advance i =>
    obtain ⟨sweep, stands, stepped⟩ := Option.bind_eq_some_iff.mp stepped
    cases phase : sweep.phase with
    | firing key schedule id =>
      simp only [phase] at stepped
      obtain ⟨object, isObject, rfl⟩ := Option.map_eq_some_iff.mp stepped
      refine sequential.put stands rfl ?_
      rintro other key' schedule' id' ⟨⟩ ⟨⟩
    | scanning => simp [phase] at stepped
    | anchoring _ _ => simp [phase] at stepped
    | holding _ _ _ => simp [phase] at stepped
  | finish i =>
    obtain ⟨sweep, stands, stepped⟩ := Option.bind_eq_some_iff.mp stepped
    cases phase : sweep.phase with
    | scanning =>
      simp only [phase, Option.some.injEq] at stepped
      subst stepped
      exact sequential.put stands rfl nofun
    | anchoring _ _ => simp [phase] at stepped
    | holding _ _ _ => simp [phase] at stepped
    | firing _ _ _ => simp [phase] at stepped
  | record key atMs =>
    cases stepped
    exact ⟨sequential.alone, sequential.holds⟩
  | restart =>
    cases stepped
    exact ⟨nofun, nofun⟩

omit [DecidableEq K] [DecidableEq σ] in
theorem sequential_initial (recorded : K → Option ℤ) :
    Sequential (initial recorded : Scheduler K σ) := ⟨nofun, nofun⟩

end Runs

/-- In a run whose steps all meet the condition, every occurrence is fired at most once, no sweep
exceeds its cap, and what came due before an arming is caught up with by one fire. -/
theorem firesOnce_of_run {K σ : Type*} [DecidableEq K] [DecidableEq σ] {nextAfter : σ → ℤ → ℤ}
    {maxFiresPerTick : ℕ} {recorded : K → Option ℤ} {actions : List (SchedulerAction K σ)}
    {scheduler : Scheduler K σ} (later : ∀ schedule atMs, atMs < nextAfter schedule atMs)
    (meets : (Scheduler.initial recorded).MeetsAll nextAfter maxFiresPerTick actions)
    (ran : (Scheduler.initial recorded).run nextAfter maxFiresPerTick actions = some scheduler) :
    FiresOnce nextAfter maxFiresPerTick scheduler := by
  obtain ⟨timely, capped⟩ := (timely_initial recorded).run later (capped_initial recorded) meets ran
  exact timely.firesOnce capped

/-! ## Two sweeps at one package -/

/-- A schedule that is due at every millisecond. -/
def everyMillisecond (_ : Unit) (atMs : ℤ) : ℤ := atMs + 1

theorem lt_everyMillisecond (schedule : Unit) (atMs : ℤ) : atMs < everyMillisecond schedule atMs :=
  Int.lt_add_one_of_le (Int.le_refl _)

/-- A sweep that arms a package from the record and fires it. -/
def catchUp : List (SchedulerAction Unit Unit) :=
  [.tick 5, .visit 0 () (some ()), .anchor 0 false, .resume 0]

/-- A sweep alone meets the condition. -/
theorem meetsAll_catchUp : (Scheduler.initial fun _ => some 0).MeetsAll everyMillisecond 1
    (catchUp ++ [.advance 0]) := by
  refine ⟨trivial, fun started first => ?_⟩
  have alone := (sequential_initial _).step (fun _ _ _ => rfl) first
  cases first
  refine ⟨fun _ _ _ _ isArmed => ?_, fun visited second => ?_⟩
  · cases (show none = some _ from isArmed)
  replace alone := alone.step (by rintro _ ⟨⟩) second
  cases (show some _ = some visited from second)
  refine ⟨fun _ _ _ _ _ fire issued => ?_, fun armed third => ?_⟩
  · exact absurd issued (List.not_mem_nil (a := fire))
  replace alone := alone.step (by rintro _ ⟨⟩) third
  exact ⟨alone.meets 0, fun fired fourth => ⟨trivial, fun _ _ => trivial⟩⟩

/-- After a restart with a fire on record, four occurrences later: one fire. -/
theorem firesOnce_catchUp : ∃ scheduler,
    (Scheduler.initial fun _ => some 0).run everyMillisecond 1 (catchUp ++ [.advance 0]) =
        some scheduler ∧
      scheduler.fires = [⟨0, (), 0, 1, 5⟩] ∧ FiresOnce everyMillisecond 1 scheduler := by
  have ran : (Scheduler.initial fun _ => some 0).run everyMillisecond 1
      (catchUp ++ [.advance 0]) = some _ := rfl
  exact ⟨_, ran, rfl, firesOnce_of_run lt_everyMillisecond meetsAll_catchUp ran⟩

/-- Two sweeps that overlap at a package fire one occurrence twice. -/
theorem overlapping_fire_twice :
    ¬∀ (nextAfter : Unit → ℤ → ℤ) (maxFiresPerTick : ℕ) (recorded : Unit → Option ℤ)
      (actions : List (SchedulerAction Unit Unit)) (scheduler : Scheduler Unit Unit),
      (∀ schedule atMs, atMs < nextAfter schedule atMs) →
      (Scheduler.initial recorded).run nextAfter maxFiresPerTick actions = some scheduler →
      FiresOnce nextAfter maxFiresPerTick scheduler := by
  intro always
  have once := (always everyMillisecond 1 (fun _ => some 0)
    (catchUp ++ [.tick 6, .visit 1 () (some ()), .resume 1]) _ lt_everyMillisecond rfl).once
  exact absurd once (by decide)

end MalloyPublisher.Materialization
