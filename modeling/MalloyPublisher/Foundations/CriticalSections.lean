import Mathlib.Logic.Function.Basic

/-!
# Critical sections

Callers each run a routine, step by step, while they hold one mutex. Steps of different callers can
come in any order the mutex allows. Whatever the order, a caller leaves the state that its routine,
run at once, makes of the state it found, and it found what the callers before it left.

## Main definitions

* `Routine` — a computation in steps, each of which sees the state it finds
* `Attempt` — a routine that may throw, with `Attempt.outcome` for what it comes to
* `Mutex`, `Mutex.Reachable` — callers at one mutex

## Main results

* `Attempt.outcome_bind`, `Attempt.outcome_tryCatch` — the outcome of a sequence and of a catch
* `Mutex.Reachable.left` — a caller that left ran at once, on what those before it left
* `Mutex.exists_left` — each caller may come first, and come to its end
-/

namespace MalloyPublisher.Foundations

/-- A computation in steps. Each step acts on the state and goes on by what it finds. -/
inductive Routine (σ ρ : Type)
  | done (result : ρ)
  | step (act : σ → σ) (next : σ → Routine σ ρ)

namespace Routine

variable {σ ρ α β : Type}

def bind : Routine σ α → (α → Routine σ β) → Routine σ β
  | done result, rest => rest result
  | step act next, rest => step act fun state => (next state).bind rest

instance : Monad (Routine σ) where
  pure := done
  bind := bind

/-- The routine run at once, with the state it leaves. -/
def run : Routine σ ρ → σ → σ × ρ
  | done result, state => (state, result)
  | step act next, state => (next state).run (act state)

/-- One step that acts on the state and reads it. -/
def atomically (act : σ → σ × α) : Routine σ α :=
  step (fun state => (act state).1) fun state => done (act state).2

theorem run_bind (routine : Routine σ α) (rest : α → Routine σ β) (state : σ) :
    (routine.bind rest).run state =
      (rest (routine.run state).2).run (routine.run state).1 := by
  induction routine generalizing state with
  | done result => rfl
  | step act next ih => exact ih state (act state)

end Routine

/-! ## Routines that may throw -/

/-- A routine that returns or throws. -/
abbrev Attempt (ε σ : Type) := ExceptT ε (Routine σ)

namespace Attempt

variable {ε σ α β : Type}

/-- The state an attempt leaves, and what it returns or throws. -/
def outcome (attempt : Attempt ε σ α) (state : σ) : σ × Except ε α := Routine.run attempt.run state

/-- One step that acts on the state and may throw. -/
def atomically (act : σ → σ × Except ε α) : Attempt ε σ α :=
  ExceptT.mk (Routine.atomically act)

variable (state : σ)

@[simp] theorem outcome_pure (result : α) :
    outcome (pure result : Attempt ε σ α) state = (state, .ok result) := rfl

@[simp] theorem outcome_throw (error : ε) :
    outcome (throw error : Attempt ε σ α) state = (state, .error error) := rfl

@[simp] theorem outcome_atomically (act : σ → σ × Except ε α) :
    outcome (atomically act) state = act state := rfl

/-- What comes after runs on what was left, unless it threw. -/
theorem outcome_bind (attempt : Attempt ε σ α) (rest : α → Attempt ε σ β) :
    outcome (attempt >>= rest) state =
      match outcome attempt state with
      | (next, .ok result) => outcome (rest result) next
      | (next, .error error) => (next, .error error) := by
  have ran := Routine.run_bind attempt.run (ExceptT.bindCont rest) state
  refine Eq.trans ran ?_
  unfold outcome
  rcases (Routine.run attempt.run state) with ⟨next, _ | _⟩ <;> rfl

/-- A handler runs on what was left. -/
theorem outcome_tryCatch (attempt : Attempt ε σ α) (handler : ε → Attempt ε σ α) :
    outcome (tryCatch attempt handler) state =
      match outcome attempt state with
      | (next, .ok result) => (next, .ok result)
      | (next, .error error) => outcome (handler error) next := by
  have ran := Routine.run_bind attempt.run
    (fun | .ok result => pure (.ok result) | .error error => (handler error).run) state
  refine Eq.trans ran ?_
  unfold outcome
  rcases (Routine.run attempt.run state) with ⟨next, _ | _⟩ <;> rfl

end Attempt

/-! ## Callers at a mutex -/

/-- Where a caller is. -/
inductive Caller (σ ρ : Type)
  | waiting
  | inside (found : σ) (rest : Routine σ ρ)
  | left (found left : σ) (result : ρ)

/-- The state, the callers, which of them holds the mutex, and those that have held it before, in
their order. -/
structure Mutex (ι σ ρ : Type) where
  state : σ
  callers : ι → Caller σ ρ
  holder : Option ι
  turns : List ι

namespace Mutex

variable {ι σ ρ : Type}

def start (state : σ) : Mutex ι σ ρ := ⟨state, fun _ => .waiting, none, []⟩

variable (routines : ι → Routine σ ρ)

section Steps

variable [DecidableEq ι]

/-- A caller takes the mutex, steps while it has it, or gives it back. -/
inductive Step : Mutex ι σ ρ → Mutex ι σ ρ → Prop
  | enter {mutex : Mutex ι σ ρ} {i : ι} (free : mutex.holder = none)
      (waits : mutex.callers i = .waiting) :
      Step mutex { mutex with
        callers := Function.update mutex.callers i (.inside mutex.state (routines i))
        holder := some i }
  | act {mutex : Mutex ι σ ρ} {i : ι} {found : σ} {act : σ → σ} {next : σ → Routine σ ρ}
      (inside : mutex.callers i = .inside found (.step act next)) :
      Step mutex { mutex with
        state := act mutex.state
        callers := Function.update mutex.callers i (.inside found (next mutex.state)) }
  | leave {mutex : Mutex ι σ ρ} {i : ι} {found : σ} {result : ρ}
      (inside : mutex.callers i = .inside found (.done result)) :
      Step mutex { mutex with
        callers := Function.update mutex.callers i (.left found mutex.state result)
        holder := none
        turns := mutex.turns ++ [i] }

/-- What the steps come to, in any order. -/
inductive Reachable (state : σ) : Mutex ι σ ρ → Prop
  | start : Reachable state (start state)
  | step {mutex next : Mutex ι σ ρ} (reached : Reachable state mutex)
      (steps : Step routines mutex next) : Reachable state next

end Steps

/-- What routines make of a state one after the other. -/
def serve (state : σ) (turns : List ι) : σ :=
  turns.foldl (fun state i => ((routines i).run state).1) state

/-- What holds after any steps. -/
structure Serial (state : σ) (mutex : Mutex ι σ ρ) : Prop where
  free : mutex.holder = none → mutex.state = serve routines state mutex.turns
  inside : ∀ i found rest, mutex.callers i = .inside found rest →
    mutex.holder = some i ∧ found = serve routines state mutex.turns ∧
      rest.run mutex.state = (routines i).run found
  left : ∀ i found left result, mutex.callers i = .left found left result →
    ∃ before after, mutex.turns = before ++ i :: after ∧ found = serve routines state before ∧
      (routines i).run found = (left, result)

variable {routines} {state : σ} {mutex next : Mutex ι σ ρ}

theorem serve_concat (turns : List ι) (i : ι) : serve routines state (turns ++ [i]) =
    ((routines i).run (serve routines state turns)).1 := by
  rw [serve, List.foldl_append]
  rfl

theorem serial_start : Serial routines state (start state : Mutex ι σ ρ) where
  free _ := rfl
  inside := nofun
  left := nofun

variable [DecidableEq ι]

theorem update_eq {callers : ι → Caller σ ρ} {i j : ι} {now caller : Caller σ ρ}
    (called : Function.update callers i now j = caller) :
    j = i ∧ caller = now ∨ j ≠ i ∧ callers j = caller := by
  by_cases same : j = i
  · subst same
    rw [Function.update_self] at called
    exact .inl ⟨rfl, called.symm⟩
  · rw [Function.update_of_ne same] at called
    exact .inr ⟨same, called⟩

/-- Each step keeps the callers in the order of their turns. -/
theorem Serial.step (serial : Serial routines state mutex) (steps : Step routines mutex next) :
    Serial routines state next := by
  cases steps with
  | @enter i free waits =>
    refine ⟨nofun, fun j found rest called => ?_, fun j found left result called => ?_⟩
    · obtain ⟨rfl, same⟩ | ⟨other, called⟩ := update_eq called
      · cases same
        exact ⟨rfl, serial.free free, rfl⟩
      · have held := (serial.inside j found rest called).1
        rw [free] at held
        cases held
    · obtain ⟨rfl, same⟩ | ⟨other, called⟩ := update_eq called
      · cases same
      · exact serial.left j found left result called
  | @act i found act rest inside =>
    obtain ⟨held, first, runs⟩ := serial.inside _ _ _ inside
    refine ⟨fun free => ?_, fun j found' rest' called => ?_, fun j found' left result called => ?_⟩
    · rw [held] at free
      cases free
    · obtain ⟨rfl, same⟩ | ⟨other, called⟩ := update_eq called
      · cases same
        exact ⟨held, first, runs⟩
      · have held' := (serial.inside j found' rest' called).1
        exact absurd (Option.some.inj (held'.symm.trans held)) other
    · obtain ⟨rfl, same⟩ | ⟨other, called⟩ := update_eq called
      · cases same
      · exact serial.left j found' left result called
  | @leave i found result inside =>
    obtain ⟨held, first, runs⟩ := serial.inside _ _ _ inside
    refine ⟨fun _ => ?_, fun j found' rest called => ?_, fun j found' left result' called => ?_⟩
    · rw [serve_concat, ← first]
      exact congrArg Prod.fst runs
    · obtain ⟨rfl, same⟩ | ⟨other, called⟩ := update_eq called
      · cases same
      · have held' := (serial.inside j found' rest called).1
        exact absurd (Option.some.inj (held'.symm.trans held)) other
    · obtain ⟨rfl, same⟩ | ⟨other, called⟩ := update_eq called
      · cases same
        exact ⟨mutex.turns, [], rfl, first, runs.symm⟩
      · obtain ⟨before, after, turns, found, ran⟩ := serial.left j found' left result' called
        exact ⟨before, after ++ [i], by rw [turns, List.append_assoc]; rfl, found, ran⟩

theorem Reachable.serial (reached : Reachable routines state mutex) :
    Serial routines state mutex := by
  induction reached with
  | start => exact serial_start
  | step _ steps ih => exact ih.step steps

/-- A caller that left ran as if at once, on what the callers before it left. -/
theorem Reachable.left {i : ι} {found left : σ} {result : ρ}
    (reached : Reachable routines state mutex)
    (isLeft : mutex.callers i = .left found left result) :
    ∃ before after, mutex.turns = before ++ i :: after ∧ found = serve routines state before ∧
      (routines i).run found = (left, result) :=
  reached.serial.left i found left result isLeft

/-- A caller that is inside can come to its end. -/
theorem Reachable.finish {i : ι} {found : σ} {rest : Routine σ ρ}
    (reached : Reachable routines state mutex) (inside : mutex.callers i = .inside found rest) :
    ∃ next, Reachable routines state next ∧
      next.callers i = .left found (rest.run mutex.state).1 (rest.run mutex.state).2 := by
  induction rest generalizing mutex with
  | done result => exact ⟨_, reached.step (.leave inside), Function.update_self ..⟩
  | step act next ih => exact ih mutex.state (reached.step (.act inside)) (Function.update_self ..)

/-- Each caller may come first. -/
theorem exists_left (routines : ι → Routine σ ρ) (state : σ) (i : ι) :
    ∃ mutex, Reachable routines state mutex ∧ mutex.callers i =
      .left state ((routines i).run state).1 ((routines i).run state).2 :=
  (Reachable.start.step (.enter rfl rfl)).finish (Function.update_self ..)

end Mutex

end MalloyPublisher.Foundations
