import MalloyPublisher.PackageLoad.Ledger

/-!
# One job per worker

A worker is chosen for a job before it is marked as busy, so that two jobs submitted in one tick are
chosen the same worker, and a job can be posted to a worker that exited in between. In a run in
which neither happens, every worker has one job at a time and every job is settled once.

## Main definitions

* `Pool.Settles` — a promise is settled, or its await is about to fail
* `OneJob` — the promise the pool makes, of one state

## Main results

* `Exclusive.move` — what orderly moves keep
* `oneJob_of_runOrderly` — after an orderly run the pool keeps its promise
* `sameTick_shares_worker` — two jobs submitted in one tick share a worker
-/

namespace MalloyPublisher.PackageLoad

variable {pool next : Pool}

/-! ## What is kept in orderly runs -/

/-- What orderly moves keep. -/
structure Exclusive (pool : Pool) : Prop where
  single : ∀ w, (pool.dispatching.countP fun dispatch => dispatch.worker == w) +
    (pool.worker w).outstanding.length ≤ 1
  gone : ∀ w, (pool.worker w).exited = true →
    (pool.worker w).outstanding = [] ∧ (pool.worker w).inFlight = []
  refused : ∀ dispatch ∈ pool.dispatching, (pool.worker dispatch.worker).exited = true →
    (pool.worker dispatch.worker).ready = .rejected

namespace Exclusive

theorem start (maxWorkers : ℕ) : Exclusive { maxWorkers } where
  single _ := by simp
  gone _ := by simp
  refused _ := by simp

theorem assigns (inv : Exclusive pool) (books : Ledger pool) {w promise : ℕ} {rest : List ℕ}
    (alive : w ∈ pool.workers) (alone : pool.engaged w = false) :
    Exclusive (pool.assign w promise rest) :=
  { inv with
    single := fun other => by
      have before := inv.single other
      simp only [Pool.engaged, Bool.or_eq_false_iff, Bool.not_eq_false', List.isEmpty_iff,
        List.any_eq_false] at alone
      simp only [Pool.assign, List.countP_append, List.countP_singleton]
      split_ifs with same
      · obtain rfl := beq_iff_eq.mp same
        rw [List.countP_eq_zero.mpr alone.1, alone.2]
        simp
      · exact before
    refused := fun dispatch pending exited => by
      simp only [Pool.assign, List.mem_append, List.mem_singleton] at pending exited
      obtain pending | rfl := pending
      · exact inv.refused dispatch pending exited
      · rw [((books.alive w).mp alive).2.2] at exited
        cases exited }

theorem countP_erase {dispatch : Dispatch} (pending : dispatch ∈ pool.dispatching) (w : ℕ) :
    (pool.dispatching.countP fun other => other.worker == w) =
      ((pool.dispatching.erase dispatch).countP fun other => other.worker == w) +
        if dispatch.worker = w then 1 else 0 := by
  have split := (List.perm_cons_erase pending).countP_eq fun other => other.worker == w
  simpa only [List.countP_cons, beq_iff_eq] using split

theorem refuses (inv : Exclusive pool) {dispatch : Dispatch}
    (pending : dispatch ∈ pool.dispatching) : Exclusive (pool.refuse dispatch) :=
  { inv with
    single := fun w => by
      have before := inv.single w
      rw [countP_erase pending w] at before
      simp only [Pool.refuse, Pool.settle]
      omega
    refused := fun other left => inv.refused other (List.mem_of_mem_erase left) }

theorem posts (inv : Exclusive pool) {dispatch : Dispatch} (pending : dispatch ∈ pool.dispatching)
    (ready : (pool.worker dispatch.worker).ready = .resolved) :
    Exclusive (pool.post dispatch) where
  single w := by
    have before := inv.single w
    rw [countP_erase pending w] at before
    simp only [Pool.post, Pool.modifyWorker]
    by_cases same : w = dispatch.worker
    · subst same
      simp only [if_true, List.length_append, List.length_singleton] at before ⊢
      omega
    · simp only [same, if_false]
      omega
  gone w exited := by
    by_cases same : w = dispatch.worker
    · subst same
      simp only [Pool.post, Pool.modifyWorker, if_true] at exited
      cases ready.symm.trans (inv.refused dispatch pending exited)
    · simp only [Pool.post, Pool.modifyWorker, same, if_false] at exited ⊢
      exact inv.gone w exited
  refused other left := by
    have before := inv.refused other (List.mem_of_mem_erase left)
    simp only [Pool.post, Pool.modifyWorker]
    split_ifs <;> exact before

theorem readies (inv : Exclusive pool) (books : Ledger pool) {w : ℕ} (ready : Ready)
    (alive : w ∈ pool.workers) : Exclusive (pool.settleReady w ready) where
  single other := by
    have before := inv.single other
    simp only [Pool.settleReady, Pool.modifyWorker]
    split_ifs <;> exact before
  gone other := by
    have before := inv.gone other
    simp only [Pool.settleReady, Pool.modifyWorker]
    split_ifs <;> exact before
  refused other pending := by
    have before := inv.refused other pending
    have live := ((books.alive w).mp alive).2.2
    simp only [Pool.settleReady, Pool.modifyWorker]
    split_ifs with same open_handshake
    · intro exited
      rw [same, live] at exited
      cases exited
    · exact before
    · exact before

theorem answers (inv : Exclusive pool) (w jobId : ℕ) : Exclusive (pool.answered w jobId) where
  single other := by
    have before := inv.single other
    have fewer := List.length_filter_le (fun id => id != jobId) (pool.worker other).outstanding
    simp only [Pool.answered, Pool.modifyWorker]
    split_ifs
    · simp only
      omega
    · exact before
  gone other exited := by
    simp only [Pool.answered, Pool.modifyWorker] at exited ⊢
    split_ifs at exited ⊢
    · simpa [(inv.gone other exited).1] using (inv.gone other exited).2
    · exact inv.gone other exited
  refused other pending := by
    have before := inv.refused other pending
    simp only [Pool.answered, Pool.modifyWorker]
    split_ifs <;> exact before

theorem finishes (inv : Exclusive pool) (job : JobContext) (outcome : Outcome) :
    Exclusive (pool.finish job.worker job outcome) where
  single w := by
    have before := inv.single w
    simp only [Pool.finish, Pool.settle, Pool.modifyWorker]
    split_ifs <;> exact before
  gone w exited := by
    simp only [Pool.finish, Pool.settle, Pool.modifyWorker] at exited ⊢
    split_ifs at exited ⊢
    · simpa [(inv.gone w exited).2] using (inv.gone w exited).1
    · exact inv.gone w exited
  refused other pending := by
    have before := inv.refused other pending
    simp only [Pool.finish, Pool.settle, Pool.modifyWorker]
    split_ifs <;> exact before

theorem leaves (inv : Exclusive pool) {w : ℕ} (alone : (pool.worker w).ready = .resolved →
      ∀ dispatch ∈ pool.dispatching, dispatch.worker ≠ w) : Exclusive (pool.leave w) where
  single other := by
    have before := inv.single other
    by_cases same : other = w
    · simp only [Pool.leave, Pool.modifyWorker, same, if_true, List.length_nil] at before ⊢
      omega
    · simp only [Pool.leave, Pool.modifyWorker, same, if_false]
      exact before
  gone other exited := by
    by_cases same : other = w
    · simp [Pool.leave, Pool.modifyWorker, same]
    · simp only [Pool.leave, Pool.modifyWorker, same, if_false] at exited ⊢
      exact inv.gone other exited
  refused other pending exited := by
    by_cases same : other.worker = w
    · simp only [Pool.leave, Pool.modifyWorker, same, if_true]
      cases ready : (pool.worker w).ready with
      | pending => rfl
      | resolved => exact absurd same (alone ready other pending)
      | rejected => rfl
    · simp only [Pool.leave, Pool.modifyWorker, same, if_false] at exited ⊢
      exact inv.refused other pending exited

theorem move (inv : Exclusive pool) (books : Ledger pool) (moved : Move true pool next) :
    Exclusive next := by
  cases moved with
  | submits _ => exact { inv with }
  | declines => exact { inv with }
  | spawns _ => exact { inv with }
  | assigns _ alive alone => exact inv.assigns books alive (alone rfl)
  | refuses pending => exact inv.refuses pending
  | posts pending ready => exact inv.posts pending ready
  | readies ready alive => exact inv.readies books ready alive
  | answers w jobId => exact inv.answers w jobId
  | finishes _ _ => exact inv.finishes _ _
  | leaves _ _ alone => exact inv.leaves (alone rfl)
  | shutsDown =>
    unfold Pool.shutdown
    split_ifs
    · exact inv
    · exact { inv with }

theorem moves (inv : Exclusive pool) (books : Ledger pool)
    (moved : Relation.ReflTransGen (Move true) pool next) : Exclusive next := by
  induction moved with
  | refl => exact inv
  | tail before last ih => exact ih.move (books.moves before) last

end Exclusive

/-! ## Jobs wait only while the pool is full -/

/-- While a job waits there are as many workers as there may be. -/
def Pool.FullIfWaiting (pool : Pool) : Prop :=
  pool.queue ≠ [] → pool.workers.length = pool.maxWorkers

theorem fullIfWaiting_tryDispatch (books : Ledger pool) : pool.tryDispatch.FullIfWaiting :=
  fun waits => (books.waits_tryDispatch waits).2

theorem fullIfWaiting_completeJob (full : pool.FullIfWaiting) (books : Ledger pool) {w jobId : ℕ}
    {outcome : Outcome} (posted : ∃ job ∈ pool.sent, job.jobId = jobId ∧ job.worker = w)
    (own : ∀ other, outcome = .result other ∨ outcome = .error other → jobId = other) :
    (pool.completeJob w jobId outcome).FullIfWaiting := by
  unfold Pool.completeJob
  cases found : pool.job jobId with
  | none => exact full
  | some job =>
    obtain ⟨registered, rfl⟩ := mem_of_job found
    obtain ⟨other, sent, sameId, rfl⟩ := posted
    obtain rfl := books.eq_of_jobId sent (books.registered.subset registered) sameId
    exact fullIfWaiting_tryDispatch (books.finishes registered own)

theorem fullIfWaiting_step (full : pool.FullIfWaiting) (books : Ledger pool) {event : Event}
    (stepped : pool.step event = some next) : next.FullIfWaiting := by
  cases event with
  | loadPackage =>
    cases stepped
    unfold Pool.loadPackage
    split_ifs with down
    · exact full
    · exact fullIfWaiting_tryDispatch (books.submits (eq_false_of_ne_true down))
  | resume dispatch =>
    simp only [Pool.step] at stepped
    split_ifs at stepped with pending
    unfold Pool.dispatchToWorker at stepped
    cases ready : (pool.worker dispatch.worker).ready with
    | pending => simp [ready] at stepped
    | rejected =>
      simp only [ready, Option.some.injEq] at stepped
      exact stepped ▸ fullIfWaiting_tryDispatch (books.refuses pending)
    | resolved =>
      simp only [ready, Option.some.injEq] at stepped
      exact stepped ▸ full
  | ready w | workerError w | spawnTimeout w =>
    simp only [Pool.step] at stepped
    split_ifs at stepped
    exact Option.some.inj stepped ▸ full
  | result w jobId | error w jobId =>
    simp only [Pool.step] at stepped
    split_ifs at stepped with posted
    cases stepped
    have answered : (pool.answered w jobId).FullIfWaiting := full
    exact fullIfWaiting_completeJob answered (books.answers w jobId)
      (books.outstanding w jobId posted.2) (by simp)
  | exit w =>
    simp only [Pool.step] at stepped
    split_ifs at stepped with alive
    cases stepped
    have left : Relation.ReflTransGen (Move false) pool (pool.exitWorker w) :=
      books.moves_exitWorker alive fun ordered => absurd ordered Bool.false_ne_true
    exact fullIfWaiting_tryDispatch (books.moves left)
  | jobTimeout jobId =>
    simp only [Pool.step] at stepped
    split_ifs at stepped
    cases stepped
    intro waits
    rw [queue_failJob] at waits
    rw [workers_failJob]
    exact (full waits).trans (maxWorkers_failJob jobId _).symm
  | shutdown =>
    cases stepped
    unfold Pool.shutdown
    split_ifs
    · exact full
    · exact fun waits => absurd rfl waits

/-! ## The promise of the pool -/

/-- The pool after a sequence of orderly events. -/
def Pool.runOrderly (pool : Pool) (events : List Event) : Option Pool :=
  events.foldlM (fun pool event => if pool.orderly event then pool.step event else none) pool

/-- A promise is settled, or the await of its dispatch is about to fail. -/
def Pool.Settles (pool : Pool) (promise : ℕ) : Prop :=
  (∃ ending ∈ pool.settled, ending.promise = promise) ∨
    ∃ dispatch ∈ pool.dispatching, dispatch.promise = promise ∧
      (pool.worker dispatch.worker).ready = .rejected

/-- One job per worker, and every job settled once. -/
structure OneJob (pool : Pool) : Prop where
  oneMessage : ∀ w, (pool.worker w).outstanding.length ≤ 1
  alive : ∀ w, w ∈ pool.workers ↔
    0 < w ∧ w ≤ pool.nextWorkerId ∧ (pool.worker w).exited = false
  capacity : pool.workers.length ≤ pool.maxWorkers
  waits : pool.queue ≠ [] → (∀ w ∈ pool.workers, (pool.worker w).inFlight ≠ []) ∨
    pool.workers.length = pool.maxWorkers
  /-- Nothing is posted to a worker that has exited. -/
  notPosted : ∀ w, (pool.worker w).exited = true → (pool.worker w).outstanding = []
  settledOnce : (pool.settled.map Settlement.promise).Nodup
  /-- Every promise is sent with one job, and is settled with the answer to that job or without. -/
  ids : (pool.sent.map JobContext.jobId).Nodup ∧ (pool.sent.map JobContext.promise).Nodup
  own : ∀ ending ∈ pool.settled, ∀ jobId,
    ending.outcome = .result jobId ∨ ending.outcome = .error jobId →
      ∃ job ∈ pool.sent, job.jobId = jobId ∧ job.promise = ending.promise
  exited : ∀ w, (pool.worker w).exited = true →
    (∀ job ∈ pool.sent, job.worker = w → pool.Settles job.promise) ∧
      ∀ dispatch ∈ pool.dispatching, dispatch.worker = w → pool.Settles dispatch.promise
  /-- When the pool has shut down and its workers are gone, all promises settle. -/
  down : pool.shuttingDown = true → pool.workers = [] →
    ∀ promise < pool.promises, pool.Settles promise

theorem Ledger.settledOnce (books : Ledger pool) :
    (pool.settled.map Settlement.promise).Nodup := by
  refine List.nodup_iff_count_le_one.mpr fun promise => ?_
  have placed := books.promises promise
  have bounded := Ledger.count_le_one pool.promises promise
  omega

theorem Exclusive.settles (inv : Exclusive pool) (books : Ledger pool) {w : ℕ}
    (exited : (pool.worker w).exited = true) :
    (∀ job ∈ pool.sent, job.worker = w → pool.Settles job.promise) ∧
      ∀ dispatch ∈ pool.dispatching, dispatch.worker = w → pool.Settles dispatch.promise := by
  constructor
  · rintro job sent rfl
    refine .inl ((books.ended job sent).resolve_left fun registered => ?_)
    have listed := (books.inFlight job.worker job.jobId).mpr ⟨job, registered, rfl, rfl⟩
    rw [(inv.gone job.worker exited).2] at listed
    cases listed
  · rintro dispatch pending rfl
    exact .inr ⟨dispatch, pending, rfl, inv.refused dispatch pending exited⟩

theorem Exclusive.oneJob (inv : Exclusive pool) (books : Ledger pool)
    (full : pool.FullIfWaiting) : OneJob pool where
  oneMessage w := by
    have single := inv.single w
    omega
  alive := books.alive
  capacity := books.capacity
  waits waiting := .inr (full waiting)
  notPosted w exited := (inv.gone w exited).1
  settledOnce := books.settledOnce
  ids := ⟨books.ids, books.once⟩
  own := books.own
  exited _ exited := inv.settles books exited
  down down empty promise issued := by
    have gone : ∀ w, 0 < w ∧ w ≤ pool.nextWorkerId → (pool.worker w).exited = true := by
      intro w spawned
      have alive := books.alive w
      rw [empty] at alive
      simpa [spawned] using alive
    have placed := books.promises promise
    rw [books.down down, List.count_nil, List.count_eq_one_of_mem List.nodup_range
      (List.mem_range.mpr issued)] at placed
    have somewhere : 0 < (pool.dispatching.map Dispatch.promise).count promise ∨
        0 < (pool.jobs.map JobContext.promise).count promise ∨
        0 < (pool.settled.map Settlement.promise).count promise := by omega
    simp only [List.count_pos_iff, List.mem_map] at somewhere
    obtain ⟨dispatch, pending, rfl⟩ | ⟨job, registered, rfl⟩ | ended := somewhere
    · exact (inv.settles books (gone _ (books.chosen dispatch pending))).2 dispatch pending rfl
    · have sent := books.registered.subset registered
      exact (inv.settles books (gone _ (books.spawned job sent))).1 job sent rfl
    · exact .inl ended

theorem exclusive_runOrderly {events : List Event} (inv : Exclusive pool) (books : Ledger pool)
    (full : pool.FullIfWaiting) (run : pool.runOrderly events = some next) :
    Exclusive next ∧ Ledger next ∧ next.FullIfWaiting := by
  induction events generalizing pool with
  | nil =>
    cases run
    exact ⟨inv, books, full⟩
  | cons event events ih =>
    obtain ⟨between, stepped, run⟩ := Option.bind_eq_some_iff.mp run
    simp only at stepped
    split_ifs at stepped with orderly
    have moved : Relation.ReflTransGen (Move true) pool between :=
      moves_of_step books (fun _ => orderly) stepped
    exact ih (inv.moves books moved) (books.moves moved) (fullIfWaiting_step full books stepped) run

/-- In an orderly run every worker has one job at a time, and every job is settled once. -/
theorem oneJob_of_runOrderly {maxWorkers : ℕ} {events : List Event}
    (run : Pool.runOrderly { maxWorkers } events = some next) : OneJob next := by
  have empty : ({ maxWorkers } : Pool).FullIfWaiting := fun waits => absurd rfl waits
  obtain ⟨inv, books, full⟩ :=
    exclusive_runOrderly (Exclusive.start maxWorkers) (Ledger.start maxWorkers) empty run
  exact inv.oneJob books full

/-- A job that waits for the one before it, a worker that exits and one that takes its place. -/
def orderlyRun : List Event :=
  [.loadPackage, .ready 1, .resume ⟨1, 0⟩, .loadPackage, .result 1 1, .resume ⟨1, 1⟩, .exit 1,
    .loadPackage, .ready 2, .resume ⟨2, 2⟩, .jobTimeout 3, .shutdown, .exit 2]

theorem oneJob_orderlyRun : ∃ next, Pool.runOrderly { maxWorkers := 1 } orderlyRun = some next ∧
    next.settled = [⟨0, .result 1⟩, ⟨1, .exited⟩, ⟨2, .timedOut⟩] ∧ OneJob next := by
  have counted : (Pool.runOrderly { maxWorkers := 1 } orderlyRun).map Pool.settled =
      some [⟨0, .result 1⟩, ⟨1, .exited⟩, ⟨2, .timedOut⟩] := by decide
  obtain ⟨next, run, settled⟩ := Option.map_eq_some_iff.mp counted
  exact ⟨next, run, settled, oneJob_of_runOrderly run⟩

/-- Two jobs submitted in one tick. -/
def sameTick : List Event :=
  [.loadPackage, .loadPackage, .ready 1, .resume ⟨1, 0⟩, .resume ⟨1, 1⟩]

theorem sameTick_shares_worker : ¬ ∀ (maxWorkers : ℕ) (events : List Event) (next : Pool),
    Pool.run { maxWorkers } events = some next → OneJob next := by
  intro oneJob
  have counted : (Pool.run { maxWorkers := 2 } sameTick).map
      (fun pool => (pool.worker 1).outstanding.length) = some 2 := by decide
  obtain ⟨next, run, posted⟩ := Option.map_eq_some_iff.mp counted
  have single := (oneJob 2 sameTick next run).oneMessage 1
  omega

end MalloyPublisher.PackageLoad
