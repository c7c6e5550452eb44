import Mathlib.Data.List.Perm.Basic

/-!
# The package-load pool

Packages are loaded on worker threads. A job waits in a queue until a worker is found for it; the
worker is chosen at once, but its message is posted only after an await of the worker's `ready`, and
until then nothing says that the worker is taken.

Promises, workers and jobs are numbered in the order in which they are made. A worker's side is what
it may send: a worker can answer any message it has not answered, fail, or exit at any time.

## Main definitions

* `Pool` — the tables of the pool, with what it posted and what it settled
* `Pool.step` — the pool after an event
* `Pool.run` — the pool after a sequence of events

-/

namespace MalloyPublisher.PackageLoad

/-! ## The tables -/

/-- The promise of a worker's handshake. -/
inductive Ready
  | pending
  | resolved
  | rejected
deriving DecidableEq

structure PoolWorker where
  ready : Ready := .pending
  inFlight : List ℕ := []
  exited : Bool := false
  /-- The load-package messages posted to it that it has not answered. -/
  outstanding : List ℕ := []
deriving DecidableEq

/-- A job for which a worker is chosen, at the await of the worker's handshake. -/
structure Dispatch where
  worker : ℕ
  promise : ℕ
deriving DecidableEq

structure JobContext where
  jobId : ℕ
  worker : ℕ
  promise : ℕ
deriving DecidableEq

inductive Outcome
  | result (jobId : ℕ)
  | error (jobId : ℕ)
  | timedOut
  | exited
  | notReady
  | shutdown
deriving DecidableEq

structure Settlement where
  promise : ℕ
  outcome : Outcome
deriving DecidableEq

structure Pool where
  maxWorkers : ℕ
  workers : List ℕ := []
  worker : ℕ → PoolWorker := fun _ => {}
  nextWorkerId : ℕ := 0
  queue : List ℕ := []
  dispatching : List Dispatch := []
  jobs : List JobContext := []
  nextJobId : ℕ := 0
  shuttingDown : Bool := false
  /-- How many promises `loadPackage` has returned. -/
  promises : ℕ := 0
  /-- The jobs for which a load-package message was posted, the oldest first. -/
  sent : List JobContext := []
  settled : List Settlement := []

namespace Pool

def modifyWorker (pool : Pool) (w : ℕ) (change : PoolWorker → PoolWorker) : Pool :=
  { pool with worker := fun i => if i = w then change (pool.worker i) else pool.worker i }

def settle (pool : Pool) (promise : ℕ) (outcome : Outcome) : Pool :=
  { pool with settled := pool.settled ++ [⟨promise, outcome⟩] }

/-! ## Dispatch -/

/-- An idle worker, or a new one if there is room. -/
def findIdleOrSpawnable (pool : Pool) : Option (ℕ × Pool) :=
  let alive := pool.workers.filter fun w => !(pool.worker w).exited
  match alive.find? fun w => (pool.worker w).inFlight.isEmpty with
  | some idle => some (idle, pool)
  | none =>
    if alive.length < pool.maxWorkers then
      some (pool.nextWorkerId + 1, { pool with
        nextWorkerId := pool.nextWorkerId + 1
        workers := pool.workers ++ [pool.nextWorkerId + 1] })
    else none

/-- The job at the head of the queue is for this worker. -/
def assign (pool : Pool) (w promise : ℕ) (rest : List ℕ) : Pool :=
  { pool with queue := rest, dispatching := pool.dispatching ++ [⟨w, promise⟩] }

/-- The loop of `tryDispatch`, on what is left of the queue. -/
def drain : List ℕ → Pool → Pool
  | [], pool => pool
  | promise :: rest, pool =>
    match pool.findIdleOrSpawnable with
    | none => pool
    | some (w, pool) => drain rest (pool.assign w promise rest)

def tryDispatch (pool : Pool) : Pool :=
  if pool.shuttingDown then pool else pool.drain pool.queue

/-- A new promise, at the end of the queue. -/
def submit (pool : Pool) : Pool :=
  { pool with queue := pool.queue ++ [pool.promises], promises := pool.promises + 1 }

/-- A new promise, rejected at once. -/
def decline (pool : Pool) : Pool :=
  { pool with promises := pool.promises + 1 }.settle pool.promises .shutdown

def loadPackage (pool : Pool) : Pool :=
  if pool.shuttingDown then pool.decline else pool.submit.tryDispatch

/-- The handshake failed. -/
def refuse (pool : Pool) (dispatch : Dispatch) : Pool :=
  { pool with dispatching := pool.dispatching.erase dispatch }.settle dispatch.promise .notReady

/-- Register the job and post its message. -/
def post (pool : Pool) (dispatch : Dispatch) : Pool :=
  let jobId := pool.nextJobId + 1
  let context : JobContext := ⟨jobId, dispatch.worker, dispatch.promise⟩
  { pool with
    dispatching := pool.dispatching.erase dispatch
    nextJobId := jobId
    jobs := pool.jobs ++ [context]
    sent := pool.sent ++ [context] }.modifyWorker dispatch.worker fun pw =>
      { pw with inFlight := pw.inFlight ++ [jobId], outstanding := pw.outstanding ++ [jobId] }

/-- `dispatchToWorker` after its await. -/
def dispatchToWorker (pool : Pool) (dispatch : Dispatch) : Option Pool :=
  match (pool.worker dispatch.worker).ready with
  | .pending => none
  | .rejected => some (pool.refuse dispatch).tryDispatch
  | .resolved => some (pool.post dispatch)

/-! ## What workers send -/

/-- Settle a worker's handshake, unless it is settled. -/
def settleReady (pool : Pool) (w : ℕ) (ready : Ready) : Pool :=
  pool.modifyWorker w fun pw => if pw.ready = .pending then { pw with ready := ready } else pw

/-- A worker answers a message. -/
def answered (pool : Pool) (w jobId : ℕ) : Pool :=
  pool.modifyWorker w fun pw =>
    { pw with outstanding := pw.outstanding.filter fun id => id != jobId }

/-- Take a job out of the tables and settle its promise. -/
def finish (pool : Pool) (w : ℕ) (context : JobContext) (outcome : Outcome) : Pool :=
  ({ pool with jobs := pool.jobs.filter fun job => job.jobId != context.jobId }.modifyWorker w
    fun pw => { pw with inFlight := pw.inFlight.filter fun id => id != context.jobId }).settle
      context.promise outcome

def job (pool : Pool) (jobId : ℕ) : Option JobContext :=
  pool.jobs.find? fun job => job.jobId == jobId

/-- `completeJob` and `errorJob`. -/
def completeJob (pool : Pool) (w jobId : ℕ) (outcome : Outcome) : Pool :=
  match pool.job jobId with
  | none => pool
  | some context => (pool.finish w context outcome).tryDispatch

def failJob (pool : Pool) (outcome : Outcome) (jobId : ℕ) : Pool :=
  match pool.job jobId with
  | none => pool
  | some context => pool.finish context.worker context outcome

/-- The exit handler, up to its call of `tryDispatch`. What a worker has not answered by its exit it
never answers. -/
def exitWorker (pool : Pool) (w : ℕ) : Pool :=
  let marked := (pool.modifyWorker w fun pw => { pw with exited := true }).settleReady w .rejected
  let failed := (marked.worker w).inFlight.foldl (failJob · .exited) marked
  { failed with workers := failed.workers.erase w }.modifyWorker w fun pw =>
    { pw with inFlight := [], outstanding := [] }

def shutdown (pool : Pool) : Pool :=
  if pool.shuttingDown then pool
  else { pool with
    shuttingDown := true
    queue := []
    settled := pool.settled ++ pool.queue.map fun promise => ⟨promise, .shutdown⟩ }

end Pool

/-! ## Events -/

inductive Event
  | loadPackage
  | resume (dispatch : Dispatch)
  | ready (worker : ℕ)
  | result (worker jobId : ℕ)
  | error (worker jobId : ℕ)
  | workerError (worker : ℕ)
  | exit (worker : ℕ)
  | spawnTimeout (worker : ℕ)
  | jobTimeout (jobId : ℕ)
  | shutdown
deriving DecidableEq

namespace Pool

/-- The pool after an event, if it can happen. A job's timer runs as long as the job is in the
tables, and a worker's as long as its handshake is open. A termination that a timer asks for is an
exit, which comes later. -/
def step (pool : Pool) : Event → Option Pool
  | .loadPackage => some pool.loadPackage
  | .resume dispatch =>
    if dispatch ∈ pool.dispatching then pool.dispatchToWorker dispatch else none
  | .ready w => if w ∈ pool.workers then some (pool.settleReady w .resolved) else none
  | .result w jobId =>
    if w ∈ pool.workers ∧ jobId ∈ (pool.worker w).outstanding then
      some ((pool.answered w jobId).completeJob w jobId (.result jobId))
    else none
  | .error w jobId =>
    if w ∈ pool.workers ∧ jobId ∈ (pool.worker w).outstanding then
      some ((pool.answered w jobId).completeJob w jobId (.error jobId))
    else none
  | .workerError w => if w ∈ pool.workers then some (pool.settleReady w .rejected) else none
  | .exit w => if w ∈ pool.workers then some (pool.exitWorker w).tryDispatch else none
  | .spawnTimeout w =>
    if w ∈ pool.workers ∧ (pool.worker w).ready = .pending then
      some (pool.settleReady w .rejected)
    else none
  | .jobTimeout jobId =>
    if (pool.job jobId).isSome then some (pool.failJob .timedOut jobId) else none
  | .shutdown => some pool.shutdown

/-- The pool after a sequence of events. -/
def run (pool : Pool) (events : List Event) : Option Pool :=
  events.foldlM step pool

end Pool

end MalloyPublisher.PackageLoad
