import MalloyPublisher.Foundations.KeyedRecord
import MalloyPublisher.PackageLoad.Pool

/-!
# The books of the package-load pool

What holds after any sequence of events: every promise stands in one place, be it the queue, an
await, the table of jobs or the list of what is settled; a worker's jobs in flight are the jobs that
name it; and jobs wait only while there are as many workers as there may be.

## Main definitions

* `Pool.orderly` — an event chooses no worker that has a job already, and no worker exits between
  its handshake and the message of a job it was chosen for
* `Move` — what an event does, move by move
* `Ledger` — what every move keeps

## Main results

* `Ledger.move` — every move keeps the books in order
* `moves_of_step` — an event is a sequence of moves
-/

namespace MalloyPublisher.PackageLoad

open Foundations

namespace Pool

/-- A worker has a job coming or a message to answer. -/
def engaged (pool : Pool) (w : ℕ) : Bool :=
  (pool.dispatching.any fun dispatch => dispatch.worker == w) ||
    !(pool.worker w).outstanding.isEmpty

/-- What `tryDispatch` hands out, if anything, is one job for a worker that has none. -/
def dispatchesAlone (pool : Pool) : Bool :=
  pool.shuttingDown || pool.queue.isEmpty ||
    pool.findIdleOrSpawnable.all fun (w, _) => pool.queue.length == 1 && !pool.engaged w

/-- An event chooses no worker that has a job already, and a worker whose handshake is done exits
only while no dispatch to it is pending. -/
def orderly (pool : Pool) : Event → Bool
  | .loadPackage => pool.shuttingDown || pool.submit.dispatchesAlone
  | .resume dispatch =>
    (pool.worker dispatch.worker).ready != .rejected || (pool.refuse dispatch).dispatchesAlone
  | .result w jobId =>
    let answered := pool.answered w jobId
    (answered.job jobId).all fun context =>
      (answered.finish w context (.result jobId)).dispatchesAlone
  | .error w jobId =>
    let answered := pool.answered w jobId
    (answered.job jobId).all fun context =>
      (answered.finish w context (.error jobId)).dispatchesAlone
  | .exit w =>
    ((pool.worker w).ready != .resolved ||
      !pool.dispatching.any fun dispatch => dispatch.worker == w) &&
      (pool.exitWorker w).dispatchesAlone
  | _ => true

/-- A new worker. -/
def spawn (pool : Pool) : Pool :=
  { pool with
    nextWorkerId := pool.nextWorkerId + 1
    workers := pool.workers ++ [pool.nextWorkerId + 1] }

/-- A worker without jobs is gone. -/
def leave (pool : Pool) (w : ℕ) : Pool :=
  { pool with workers := pool.workers.erase w }.modifyWorker w fun pw =>
    { ready := if pw.ready = Ready.pending then Ready.rejected else pw.ready
      exited := true, inFlight := [], outstanding := [] }

end Pool

/-! ## Moves -/

/-- What an event does, move by move; where it is to be orderly, only orderly moves. -/
inductive Move (orderly : Bool) (pool : Pool) : Pool → Prop
  | submits (up : pool.shuttingDown = false) : Move orderly pool pool.submit
  | declines : Move orderly pool pool.decline
  | spawns (room : pool.workers.length < pool.maxWorkers) : Move orderly pool pool.spawn
  | assigns {w promise : ℕ} {rest : List ℕ} (waits : pool.queue = promise :: rest)
      (alive : w ∈ pool.workers) (alone : orderly = true → pool.engaged w = false) :
      Move orderly pool (pool.assign w promise rest)
  | refuses {dispatch : Dispatch} (pending : dispatch ∈ pool.dispatching) :
      Move orderly pool (pool.refuse dispatch)
  | posts {dispatch : Dispatch} (pending : dispatch ∈ pool.dispatching)
      (ready : (pool.worker dispatch.worker).ready = .resolved) :
      Move orderly pool (pool.post dispatch)
  | readies {w : ℕ} (ready : Ready) (alive : w ∈ pool.workers) :
      Move orderly pool (pool.settleReady w ready)
  | answers (w jobId : ℕ) : Move orderly pool (pool.answered w jobId)
  | finishes {context : JobContext} {outcome : Outcome} (registered : context ∈ pool.jobs)
      (own : ∀ jobId, outcome = .result jobId ∨ outcome = .error jobId → context.jobId = jobId) :
      Move orderly pool (pool.finish context.worker context outcome)
  | leaves {w : ℕ} (alive : w ∈ pool.workers) (idle : ∀ job ∈ pool.jobs, job.worker ≠ w)
      (alone : orderly = true → (pool.worker w).ready = .resolved →
        ∀ dispatch ∈ pool.dispatching, dispatch.worker ≠ w) : Move orderly pool (pool.leave w)
  | shutsDown : Move orderly pool pool.shutdown

/-- What every move keeps. -/
structure Ledger (pool : Pool) : Prop where
  fresh : ∀ w, pool.nextWorkerId < w → pool.worker w = {}
  alive : ∀ w, w ∈ pool.workers ↔
    0 < w ∧ w ≤ pool.nextWorkerId ∧ (pool.worker w).exited = false
  distinct : pool.workers.Nodup
  capacity : pool.workers.length ≤ pool.maxWorkers
  chosen : ∀ dispatch ∈ pool.dispatching,
    0 < dispatch.worker ∧ dispatch.worker ≤ pool.nextWorkerId
  /-- Every promise stands in one place. -/
  promises : ∀ promise, pool.queue.count promise +
    (pool.dispatching.map Dispatch.promise).count promise +
    (pool.jobs.map JobContext.promise).count promise +
    (pool.settled.map Settlement.promise).count promise =
      (List.range pool.promises).count promise
  numbered : ∀ job ∈ pool.sent, job.jobId ≤ pool.nextJobId
  spawned : ∀ job ∈ pool.sent, 0 < job.worker ∧ job.worker ≤ pool.nextWorkerId
  ids : (pool.sent.map JobContext.jobId).Nodup
  once : (pool.sent.map JobContext.promise).Nodup
  registered : pool.jobs.Sublist pool.sent
  inFlight : ∀ w jobId, jobId ∈ (pool.worker w).inFlight ↔
    ∃ job ∈ pool.jobs, job.jobId = jobId ∧ job.worker = w
  outstanding : ∀ w, ∀ jobId ∈ (pool.worker w).outstanding,
    ∃ job ∈ pool.sent, job.jobId = jobId ∧ job.worker = w
  ended : ∀ job ∈ pool.sent, job ∈ pool.jobs ∨ ∃ ending ∈ pool.settled, ending.promise = job.promise
  own : ∀ ending ∈ pool.settled, ∀ jobId,
    ending.outcome = .result jobId ∨ ending.outcome = .error jobId →
      ∃ job ∈ pool.sent, job.jobId = jobId ∧ job.promise = ending.promise
  down : pool.shuttingDown = true → pool.queue = []

namespace Ledger

variable {orderly : Bool} {pool next : Pool}

theorem start (maxWorkers : ℕ) : Ledger { maxWorkers } where
  fresh _ _ := rfl
  alive w := by simp; omega
  distinct := List.nodup_nil
  capacity := Nat.zero_le _
  chosen _ := by simp
  promises := by simp
  numbered _ := by simp
  spawned _ := by simp
  ids := List.nodup_nil
  once := List.nodup_nil
  registered := List.Sublist.refl _
  inFlight w jobId := by simp
  outstanding w := by simp
  ended _ := by simp
  own _ := by simp
  down _ := rfl

/-- A job is the only one under its id. -/
theorem perm_cons_filter (inv : Ledger pool) {job : JobContext} (registered : job ∈ pool.jobs) :
    pool.jobs.Perm (job :: pool.jobs.filter fun other => other.jobId != job.jobId) := by
  have distinct : (pool.jobs.map JobContext.jobId).Nodup := (inv.registered.map _).nodup inv.ids
  have single : pool.jobs.filter (fun other => other.jobId == job.jobId) = [job] :=
    filter_eq_singleton distinct registered (by simp) (by simp)
  have parts := List.filter_append_perm (fun other => other.jobId == job.jobId) pool.jobs
  rw [single] at parts
  exact parts.symm

theorem submits (inv : Ledger pool) (up : pool.shuttingDown = false) : Ledger pool.submit :=
  { inv with
    promises := fun promise => by
      have placed := inv.promises promise
      simp only [Pool.submit, List.range_succ, List.count_append, List.count_singleton, beq_iff_eq]
      omega
    down := fun down => by simp [Pool.submit, up] at down }

/-- Of the jobs that are not in the tables it is known how they ended, whatever else ends. -/
theorem ended_append (inv : Ledger pool) (more : List Settlement) : ∀ job ∈ pool.sent,
    job ∈ pool.jobs ∨ ∃ ending ∈ pool.settled ++ more, ending.promise = job.promise :=
  fun job sent => (inv.ended job sent).imp_right fun ⟨ending, settled, same⟩ =>
    ⟨ending, List.mem_append_left _ settled, same⟩

theorem own_append (inv : Ledger pool) {more : List Settlement} (own : ∀ ending ∈ more, ∀ jobId,
      ending.outcome = .result jobId ∨ ending.outcome = .error jobId →
        ∃ job ∈ pool.sent, job.jobId = jobId ∧ job.promise = ending.promise) :
    ∀ ending ∈ pool.settled ++ more, ∀ jobId,
      ending.outcome = .result jobId ∨ ending.outcome = .error jobId →
        ∃ job ∈ pool.sent, job.jobId = jobId ∧ job.promise = ending.promise :=
  fun ending settled => (List.mem_append.mp settled).elim (inv.own ending) (own ending)

theorem declines (inv : Ledger pool) : Ledger pool.decline :=
  { inv with
    promises := fun promise => by
      have placed := inv.promises promise
      simp only [Pool.decline, Pool.settle, List.range_succ, List.map_append, List.count_append, List.map_cons,
        List.map_nil, List.count_singleton, beq_iff_eq]
      omega
    ended := inv.ended_append _
    own := inv.own_append (by simp) }

theorem spawns (inv : Ledger pool) (room : pool.workers.length < pool.maxWorkers) :
    Ledger pool.spawn :=
  { inv with
    fresh := fun w later => inv.fresh w (by simp only [Pool.spawn] at later; omega)
    alive := fun w => by
      have before := inv.alive w
      have unspawned := congrArg PoolWorker.exited (inv.fresh (pool.nextWorkerId + 1) (by omega))
      by_cases same : w = pool.nextWorkerId + 1
      · subst same
        simp [Pool.spawn, unspawned]
      · simp only [Pool.spawn, List.mem_append, List.mem_singleton, same, or_false, before]
        constructor
        · rintro ⟨positive, bounded, live⟩
          exact ⟨positive, by omega, live⟩
        · rintro ⟨positive, bounded, live⟩
          exact ⟨positive, by omega, live⟩
    distinct := by
      refine List.Nodup.append inv.distinct (List.nodup_singleton _) ?_
      rintro w listed fresh
      have bounded := ((inv.alive w).mp listed).2.1
      have same := List.mem_singleton.mp fresh
      omega
    capacity := by
      simp only [Pool.spawn, List.length_append, List.length_singleton]
      omega
    chosen := fun dispatch pending =>
      (inv.chosen dispatch pending).imp_right Nat.le_succ_of_le
    spawned := fun job sent => (inv.spawned job sent).imp_right Nat.le_succ_of_le }

theorem assigns (inv : Ledger pool) {w promise : ℕ} {rest : List ℕ}
    (waits : pool.queue = promise :: rest) (alive : w ∈ pool.workers) :
    Ledger (pool.assign w promise rest) :=
  { inv with
    chosen := fun dispatch pending => by
      simp only [Pool.assign, List.mem_append, List.mem_singleton] at pending
      obtain pending | rfl := pending
      · exact inv.chosen dispatch pending
      · have live := (inv.alive w).mp alive
        exact ⟨live.1, live.2.1⟩
    promises := fun other => by
      have placed := inv.promises other
      simp only [Pool.assign, waits, List.count_cons, List.map_append, List.count_append,
        List.map_cons, List.map_nil, List.count_nil] at placed ⊢
      omega
    down := fun down => by simp [inv.down down] at waits }

theorem count_erase {dispatch : Dispatch} (pending : dispatch ∈ pool.dispatching) (promise : ℕ) :
    (pool.dispatching.map Dispatch.promise).count promise =
      ((pool.dispatching.erase dispatch).map Dispatch.promise).count promise +
        if dispatch.promise = promise then 1 else 0 := by
  have split := ((List.perm_cons_erase pending).map Dispatch.promise).count_eq promise
  simpa only [List.map_cons, List.count_cons, beq_iff_eq] using split

theorem refuses (inv : Ledger pool) {dispatch : Dispatch}
    (pending : dispatch ∈ pool.dispatching) : Ledger (pool.refuse dispatch) :=
  { inv with
    chosen := fun other left => inv.chosen other (List.mem_of_mem_erase left)
    promises := fun promise => by
      have placed := inv.promises promise
      rw [count_erase pending promise] at placed
      simp only [Pool.refuse, Pool.settle, List.map_append, List.count_append, List.map_cons,
        List.map_nil, List.count_singleton, beq_iff_eq]
      omega
    ended := inv.ended_append _
    own := inv.own_append (by simp) }

theorem count_le_one (promises promise : ℕ) : (List.range promises).count promise ≤ 1 :=
  List.nodup_iff_count_le_one.mp List.nodup_range promise

/-- A promise whose dispatch is pending was not sent with any job. -/
theorem promise_ne (inv : Ledger pool) {dispatch : Dispatch} (pending : dispatch ∈ pool.dispatching)
    {job : JobContext} (sent : job ∈ pool.sent) : job.promise ≠ dispatch.promise := by
  intro same
  have placed := inv.promises dispatch.promise
  have bounded := count_le_one pool.promises dispatch.promise
  have chosen : 0 < (pool.dispatching.map Dispatch.promise).count dispatch.promise :=
    List.count_pos_iff.mpr (List.mem_map_of_mem pending)
  obtain registered | ⟨ending, settled, ended⟩ := inv.ended job sent
  · have listed : 0 < (pool.jobs.map JobContext.promise).count dispatch.promise :=
      List.count_pos_iff.mpr (same ▸ List.mem_map_of_mem registered)
    omega
  · have done : 0 < (pool.settled.map Settlement.promise).count dispatch.promise :=
      List.count_pos_iff.mpr (same ▸ ended ▸ List.mem_map_of_mem settled)
    omega

theorem posts (inv : Ledger pool) {dispatch : Dispatch} (pending : dispatch ∈ pool.dispatching) :
    Ledger (pool.post dispatch) where
  fresh w later := by
    have bounded := (inv.chosen dispatch pending).2
    have other : w ≠ dispatch.worker := by
      rintro rfl
      simp only [Pool.post, Pool.modifyWorker] at later
      omega
    simp only [Pool.post, Pool.modifyWorker, other, if_false]
    exact inv.fresh w later
  alive w := by
    have before := inv.alive w
    simp only [Pool.post, Pool.modifyWorker]
    split_ifs <;> exact before
  distinct := inv.distinct
  capacity := inv.capacity
  chosen other left := inv.chosen other (List.mem_of_mem_erase left)
  promises promise := by
    have placed := inv.promises promise
    rw [count_erase pending promise] at placed
    simp only [Pool.post, Pool.modifyWorker, List.map_append, List.count_append, List.map_cons,
      List.map_nil, List.count_singleton, beq_iff_eq]
    omega
  numbered job sent := by
    simp only [Pool.post, Pool.modifyWorker, List.mem_append, List.mem_singleton] at sent ⊢
    obtain sent | rfl := sent
    · exact Nat.le_succ_of_le (inv.numbered job sent)
    · exact Nat.le_refl _
  spawned job sent := by
    simp only [Pool.post, Pool.modifyWorker, List.mem_append, List.mem_singleton] at sent ⊢
    obtain sent | rfl := sent
    · exact inv.spawned job sent
    · exact inv.chosen dispatch pending
  ids := by
    simp only [Pool.post, Pool.modifyWorker, List.map_append, List.map_cons, List.map_nil]
    refine List.Nodup.append inv.ids (List.nodup_singleton _) ?_
    rintro jobId listed fresh
    obtain ⟨job, sent, rfl⟩ := List.mem_map.mp listed
    have bounded := inv.numbered job sent
    have same := List.mem_singleton.mp fresh
    omega
  once := by
    simp only [Pool.post, Pool.modifyWorker, List.map_append, List.map_cons, List.map_nil]
    refine List.Nodup.append inv.once (List.nodup_singleton _) ?_
    rintro promise listed fresh
    obtain ⟨job, sent, rfl⟩ := List.mem_map.mp listed
    exact inv.promise_ne pending sent (List.mem_singleton.mp fresh)
  registered := inv.registered.append_right _
  inFlight w jobId := by
    have before := inv.inFlight w jobId
    simp only [Pool.post, Pool.modifyWorker, List.mem_append, List.mem_singleton]
    split_ifs with same
    · subst same
      simp only [List.mem_append, List.mem_singleton, before]
      constructor
      · rintro (⟨job, registered, rfl, at_worker⟩ | rfl)
        · exact ⟨job, .inl registered, rfl, at_worker⟩
        · exact ⟨_, .inr rfl, rfl, rfl⟩
      · rintro ⟨job, registered | rfl, rfl, at_worker⟩
        · exact .inl ⟨job, registered, rfl, at_worker⟩
        · exact .inr rfl
    · rw [before]
      constructor
      · rintro ⟨job, registered, rfl, at_worker⟩
        exact ⟨job, .inl registered, rfl, at_worker⟩
      · rintro ⟨job, registered | rfl, rfl, at_worker⟩
        · exact ⟨job, registered, rfl, at_worker⟩
        · exact absurd at_worker.symm same
  outstanding w jobId posted := by
    have before := inv.outstanding w jobId
    simp only [Pool.post, Pool.modifyWorker, List.mem_append, List.mem_singleton] at posted ⊢
    split_ifs at posted with same
    · simp only [List.mem_append, List.mem_singleton] at posted
      obtain posted | rfl := posted
      · obtain ⟨job, sent, rfl, at_worker⟩ := before posted
        exact ⟨job, .inl sent, rfl, at_worker⟩
      · exact ⟨_, .inr rfl, rfl, same.symm⟩
    · obtain ⟨job, sent, rfl, at_worker⟩ := before posted
      exact ⟨job, .inl sent, rfl, at_worker⟩
  ended job sent := by
    simp only [Pool.post, Pool.modifyWorker, List.mem_append, List.mem_singleton] at sent ⊢
    obtain sent | rfl := sent
    · exact (inv.ended job sent).imp_left .inl
    · exact .inl (.inr rfl)
  own ending settled jobId outcome := by
    obtain ⟨job, sent, rfl, same⟩ := inv.own ending settled jobId outcome
    exact ⟨job, List.mem_append_left _ sent, rfl, same⟩
  down := inv.down

theorem readies (inv : Ledger pool) {w : ℕ} (ready : Ready) (alive : w ∈ pool.workers) :
    Ledger (pool.settleReady w ready) :=
  { inv with
    fresh := fun other later => by
      have bounded := ((inv.alive w).mp alive).2.1
      have away : other ≠ w := by
        rintro rfl
        simp only [Pool.settleReady, Pool.modifyWorker] at later
        omega
      simp only [Pool.settleReady, Pool.modifyWorker, away, if_false]
      exact inv.fresh other later
    alive := fun other => by
      have before := inv.alive other
      simp only [Pool.settleReady, Pool.modifyWorker]
      split_ifs <;> exact before
    inFlight := fun other => by
      have before := inv.inFlight other
      simp only [Pool.settleReady, Pool.modifyWorker]
      split_ifs <;> exact before
    outstanding := fun other => by
      have before := inv.outstanding other
      simp only [Pool.settleReady, Pool.modifyWorker]
      split_ifs <;> exact before }

theorem answers (inv : Ledger pool) (w jobId : ℕ) : Ledger (pool.answered w jobId) :=
  { inv with
    fresh := fun other later => by
      have before := inv.fresh other later
      simp only [Pool.answered, Pool.modifyWorker, before]
      split_ifs <;> rfl
    alive := fun other => by
      have before := inv.alive other
      simp only [Pool.answered, Pool.modifyWorker]
      split_ifs <;> exact before
    inFlight := fun other => by
      have before := inv.inFlight other
      simp only [Pool.answered, Pool.modifyWorker]
      split_ifs <;> exact before
    outstanding := fun other id posted => by
      refine inv.outstanding other id ?_
      simp only [Pool.answered, Pool.modifyWorker] at posted
      split_ifs at posted with same
      · exact List.mem_of_mem_filter posted
      · exact posted }

theorem eq_of_jobId (inv : Ledger pool) {job other : JobContext} (sent : job ∈ pool.sent)
    (sentOther : other ∈ pool.sent) (same : job.jobId = other.jobId) : job = other :=
  List.inj_on_of_nodup_map inv.ids sent sentOther same

theorem finishes (inv : Ledger pool) {job : JobContext} {outcome : Outcome}
    (registered : job ∈ pool.jobs)
    (own : ∀ jobId, outcome = .result jobId ∨ outcome = .error jobId → job.jobId = jobId) :
    Ledger (pool.finish job.worker job outcome) :=
  { inv with
    fresh := fun w later => by
      have before := inv.fresh w later
      simp only [Pool.finish, Pool.settle, Pool.modifyWorker, before]
      split_ifs <;> rfl
    alive := fun w => by
      have before := inv.alive w
      simp only [Pool.finish, Pool.settle, Pool.modifyWorker]
      split_ifs <;> exact before
    promises := fun promise => by
      have placed := inv.promises promise
      have split := ((inv.perm_cons_filter registered).map JobContext.promise).count_eq promise
      rw [List.map_cons, List.count_cons] at split
      rw [split] at placed
      simp only [Pool.finish, Pool.settle, Pool.modifyWorker, List.map_append, List.count_append,
        List.map_cons, List.map_nil, List.count_singleton]
      omega
    registered := List.filter_sublist.trans inv.registered
    inFlight := fun w jobId => by
      have before := inv.inFlight w jobId
      simp only [Pool.finish, Pool.settle, Pool.modifyWorker, List.mem_filter, bne_iff_ne]
      split_ifs with same
      · simp only [List.mem_filter, bne_iff_ne, before]
        constructor
        · rintro ⟨⟨other, registered, rfl, at_worker⟩, away⟩
          exact ⟨other, ⟨registered, away⟩, rfl, at_worker⟩
        · rintro ⟨other, ⟨registered, away⟩, rfl, at_worker⟩
          exact ⟨⟨other, registered, rfl, at_worker⟩, away⟩
      · rw [before]
        constructor
        · rintro ⟨other, listed, rfl, at_worker⟩
          refine ⟨other, ⟨listed, fun sameId => same ?_⟩, rfl, at_worker⟩
          rw [← at_worker, inv.eq_of_jobId (inv.registered.subset listed)
            (inv.registered.subset registered) sameId]
        · rintro ⟨other, ⟨listed, away⟩, rfl, at_worker⟩
          exact ⟨other, listed, rfl, at_worker⟩
    outstanding := fun w => by
      have before := inv.outstanding w
      simp only [Pool.finish, Pool.settle, Pool.modifyWorker]
      split_ifs <;> exact before
    ended := fun other sent => by
      by_cases same : other.jobId = job.jobId
      · have itself := inv.eq_of_jobId sent (inv.registered.subset registered) same
        exact .inr ⟨⟨job.promise, outcome⟩, List.mem_append_right _ (List.mem_singleton_self _),
          congrArg JobContext.promise itself.symm⟩
      · refine (inv.ended_append _ other sent).imp_left fun listed => ?_
        exact List.mem_filter.mpr ⟨listed, bne_iff_ne.mpr same⟩
    own := by
      refine inv.own_append fun ending settled jobId outcomes => ?_
      cases List.mem_singleton.mp settled
      exact ⟨job, inv.registered.subset registered, own jobId outcomes, rfl⟩ }

theorem leaves (inv : Ledger pool) {w : ℕ} (alive : w ∈ pool.workers)
    (idle : ∀ job ∈ pool.jobs, job.worker ≠ w) : Ledger (pool.leave w) :=
  { inv with
    fresh := fun other later => by
      have bounded := ((inv.alive w).mp alive).2.1
      have away : other ≠ w := by
        rintro rfl
        simp only [Pool.leave, Pool.modifyWorker] at later
        omega
      simp only [Pool.leave, Pool.modifyWorker, away, if_false]
      exact inv.fresh other later
    alive := fun other => by
      have before := inv.alive other
      simp only [Pool.leave, Pool.modifyWorker, inv.distinct.mem_erase_iff]
      split_ifs with same
      · simp [same]
      · simpa [same] using before
    distinct := inv.distinct.erase w
    capacity := Nat.le_trans List.length_erase_le inv.capacity
    inFlight := fun other jobId => by
      by_cases same : other = w
      · subst same
        simp only [Pool.leave, Pool.modifyWorker, if_true, List.not_mem_nil, false_iff]
        rintro ⟨job, registered, -, at_worker⟩
        exact idle job registered at_worker
      · simp only [Pool.leave, Pool.modifyWorker, same, if_false]
        exact inv.inFlight other jobId
    outstanding := fun other jobId posted => by
      by_cases same : other = w
      · simp only [Pool.leave, Pool.modifyWorker, same, if_true] at posted
        cases posted
      · simp only [Pool.leave, Pool.modifyWorker, same, if_false] at posted
        exact inv.outstanding other jobId posted }

theorem shutsDown (inv : Ledger pool) : Ledger pool.shutdown := by
  unfold Pool.shutdown
  split_ifs with down
  · exact inv
  · exact { inv with
      promises := fun promise => by
        have placed := inv.promises promise
        have same : (pool.queue.map fun promise => Settlement.mk promise .shutdown).map
            Settlement.promise = pool.queue := by
          simp [Function.comp_def]
        simp only [List.map_append, List.count_append, same, List.count_nil]
        omega
      ended := inv.ended_append _
      own := by
        refine inv.own_append fun ending settled jobId outcomes => ?_
        obtain ⟨promise, -, rfl⟩ := List.mem_map.mp settled
        simp at outcomes
      down := fun _ => rfl }

theorem move (inv : Ledger pool) (moved : Move orderly pool next) : Ledger next := by
  cases moved with
  | submits up => exact inv.submits up
  | declines => exact inv.declines
  | spawns room => exact inv.spawns room
  | assigns waits alive _ => exact inv.assigns waits alive
  | refuses pending => exact inv.refuses pending
  | posts pending _ => exact inv.posts pending
  | readies ready alive => exact inv.readies ready alive
  | answers w jobId => exact inv.answers w jobId
  | finishes registered own => exact inv.finishes registered own
  | leaves alive idle _ => exact inv.leaves alive idle
  | shutsDown => exact inv.shutsDown

theorem moves (inv : Ledger pool) (moved : Relation.ReflTransGen (Move orderly) pool next) :
    Ledger next := by
  induction moved with
  | refl => exact inv
  | tail _ last ih => exact ih.move last

end Ledger

/-! ## An event, move by move -/

section Steps

variable {orderly : Bool} {pool next : Pool}

theorem Ledger.alive_eq (inv : Ledger pool) :
    pool.workers.filter (fun w => !(pool.worker w).exited) = pool.workers := by
  refine List.filter_eq_self.mpr fun w listed => ?_
  simp [((inv.alive w).mp listed).2.2]

/-- A worker that is found is idle, or new. -/
theorem Ledger.found (inv : Ledger pool) {w : ℕ} (found : pool.findIdleOrSpawnable = some (w, next)) :
    next = pool ∧ w ∈ pool.workers ∨
      next = pool.spawn ∧ w = pool.nextWorkerId + 1 ∧ pool.workers.length < pool.maxWorkers := by
  unfold Pool.findIdleOrSpawnable at found
  simp only [inv.alive_eq] at found
  cases idle : pool.workers.find? fun w => (pool.worker w).inFlight.isEmpty with
  | some other =>
    simp only [idle, Option.some.injEq, Prod.mk.injEq] at found
    exact .inl ⟨found.2.symm, found.1 ▸ List.mem_of_find?_eq_some idle⟩
  | none =>
    simp only [idle] at found
    split_ifs at found with room
    cases found
    exact .inr ⟨rfl, rfl, room⟩

/-- Where none is found, there are as many as there may be. -/
theorem Ledger.full (inv : Ledger pool) (none : pool.findIdleOrSpawnable = none) :
    (∀ w ∈ pool.workers, (pool.worker w).inFlight ≠ []) ∧
      pool.workers.length = pool.maxWorkers := by
  unfold Pool.findIdleOrSpawnable at none
  simp only [inv.alive_eq] at none
  cases idle : pool.workers.find? fun w => (pool.worker w).inFlight.isEmpty with
  | some other => simp [idle] at none
  | none =>
    simp only [idle] at none
    split_ifs at none with room
    refine ⟨fun w listed => ?_, Nat.le_antisymm inv.capacity (Nat.le_of_not_lt room)⟩
    simpa using List.find?_eq_none.mp idle w listed

/-- The first job goes to the worker that is found. -/
theorem Ledger.moves_assign (inv : Ledger pool) {w promise : ℕ} {rest : List ℕ}
    (waits : pool.queue = promise :: rest) (found : pool.findIdleOrSpawnable = some (w, next))
    (alone : orderly = true → pool.engaged w = false) :
    Relation.ReflTransGen (Move orderly) pool (next.assign w promise rest) := by
  obtain ⟨rfl, listed⟩ | ⟨rfl, rfl, room⟩ := inv.found found
  · exact .single (.assigns waits listed alone)
  · have spawned : Relation.ReflTransGen (Move orderly) pool pool.spawn := .single (.spawns room)
    exact spawned.tail (.assigns waits (by simp [Pool.spawn]) alone)

theorem Ledger.moves_drain (inv : Ledger pool) (queue : List ℕ) (same : pool.queue = queue)
    (alone : orderly = true → queue ≠ [] → ∀ w next,
      pool.findIdleOrSpawnable = some (w, next) →
        queue.length = 1 ∧ pool.engaged w = false) :
    Relation.ReflTransGen (Move orderly) pool (pool.drain queue) := by
  induction queue generalizing pool with
  | nil => exact .refl
  | cons promise rest ih =>
    rw [Pool.drain]
    cases found : pool.findIdleOrSpawnable with
    | none => exact .refl
    | some at_worker =>
      obtain ⟨w, between⟩ := at_worker
      have assigned := inv.moves_assign same found fun careful =>
        (alone careful (List.cons_ne_nil _ _) w _ found).2
      refine assigned.trans (ih (inv.moves assigned) rfl fun careful more => ?_)
      have short := (alone careful (List.cons_ne_nil _ _) w _ found).1
      exact absurd (List.length_eq_zero_iff.mp (Nat.succ.inj short)) more

theorem Ledger.moves_tryDispatch (inv : Ledger pool)
    (alone : orderly = true → pool.dispatchesAlone = true) :
    Relation.ReflTransGen (Move orderly) pool pool.tryDispatch := by
  unfold Pool.tryDispatch
  split_ifs with down
  · exact .refl
  · refine inv.moves_drain _ rfl fun careful waits w next found => ?_
    simpa [Pool.dispatchesAlone, down, waits, found] using alone careful

/-- What a drained queue still holds waits for a worker. -/
theorem Ledger.drained (inv : Ledger pool) (queue : List ℕ) (same : pool.queue = queue) :
    (pool.drain queue).queue = [] ∨ (pool.drain queue).findIdleOrSpawnable = none := by
  induction queue generalizing pool with
  | nil => exact .inl same
  | cons promise rest ih =>
    rw [Pool.drain]
    cases found : pool.findIdleOrSpawnable with
    | none => exact .inr found
    | some at_worker =>
      obtain ⟨w, between⟩ := at_worker
      have assigned : Relation.ReflTransGen (Move false) pool (between.assign w promise rest) :=
        inv.moves_assign same found nofun
      exact ih (inv.moves assigned) rfl

/-- While a job waits, every worker has one and there is no room for another. -/
theorem Ledger.waits_tryDispatch (inv : Ledger pool) (waits : pool.tryDispatch.queue ≠ []) :
    (∀ w ∈ pool.tryDispatch.workers, (pool.tryDispatch.worker w).inFlight ≠ []) ∧
      pool.tryDispatch.workers.length = pool.tryDispatch.maxWorkers := by
  have dispatched : Relation.ReflTransGen (Move false) pool pool.tryDispatch :=
    inv.moves_tryDispatch nofun
  refine (inv.moves dispatched).full ?_
  unfold Pool.tryDispatch at waits ⊢
  split_ifs at waits ⊢ with down
  · exact absurd (inv.down down) waits
  · exact (inv.drained _ rfl).resolve_left waits

theorem mem_of_job {jobId : ℕ} {job : JobContext} (found : pool.job jobId = some job) :
    job ∈ pool.jobs ∧ job.jobId = jobId :=
  ⟨List.mem_of_find?_eq_some found, by simpa using List.find?_some found⟩

theorem moves_failJob {outcome : Outcome} (jobId : ℕ)
    (out_of_band : ∀ jobId, outcome ≠ .result jobId ∧ outcome ≠ .error jobId) :
    Relation.ReflTransGen (Move orderly) pool (pool.failJob outcome jobId) := by
  unfold Pool.failJob
  cases found : pool.job jobId with
  | none => exact .refl
  | some job =>
    exact .single (.finishes (mem_of_job found).1 fun other outcomes =>
      (outcomes.elim (out_of_band other).1 (out_of_band other).2).elim)

/-- A worker's answer settles the job it is for, which is a job of that worker. -/
theorem Ledger.moves_completeJob (inv : Ledger pool) {w jobId : ℕ} {outcome : Outcome}
    (posted : ∃ job ∈ pool.sent, job.jobId = jobId ∧ job.worker = w)
    (own : ∀ other, outcome = .result other ∨ outcome = .error other → jobId = other)
    (alone : orderly = true → ((pool.job jobId).all fun job =>
      (pool.finish w job outcome).dispatchesAlone) = true) :
    Relation.ReflTransGen (Move orderly) pool (pool.completeJob w jobId outcome) := by
  unfold Pool.completeJob
  cases found : pool.job jobId with
  | none => exact .refl
  | some job =>
    obtain ⟨registered, rfl⟩ := mem_of_job found
    obtain ⟨other, sent, sameId, rfl⟩ := posted
    obtain rfl := inv.eq_of_jobId sent (inv.registered.subset registered) sameId
    have finished : Relation.ReflTransGen (Move orderly) pool
        (pool.finish other.worker other outcome) := .single (.finishes registered own)
    refine finished.trans ((inv.moves finished).moves_tryDispatch fun careful => ?_)
    simpa [found] using alone careful

/-- Whether a worker is marked as exited makes no difference to the failing of a job. -/
theorem failJob_modifyWorker {change : PoolWorker → PoolWorker}
    (apart : ∀ pw ids, change { pw with inFlight := ids } = { change pw with inFlight := ids })
    (keeps : ∀ pw, (change pw).inFlight = pw.inFlight) (w jobId : ℕ) (outcome : Outcome) :
    (pool.modifyWorker w change).failJob outcome jobId =
      (pool.failJob outcome jobId).modifyWorker w change := by
  unfold Pool.failJob Pool.job Pool.modifyWorker
  cases pool.jobs.find? fun job => job.jobId == jobId with
  | none => rfl
  | some job =>
    simp only [Pool.finish, Pool.settle, Pool.modifyWorker, Pool.mk.injEq, true_and, and_true]
    funext i
    split_ifs
    · rw [keeps]
      exact (apart (pool.worker i) _).symm
    · rfl
    · rfl
    · rfl

theorem jobs_failJob (jobId : ℕ) (outcome : Outcome) :
    (pool.failJob outcome jobId).jobs = pool.jobs.filter fun job => job.jobId != jobId := by
  unfold Pool.failJob
  cases found : pool.job jobId with
  | none =>
    refine (List.filter_eq_self.mpr fun job listed => ?_).symm
    simpa using List.find?_eq_none.mp found job listed
  | some job =>
    obtain ⟨-, rfl⟩ := mem_of_job found
    rfl

theorem mem_jobs_foldl {jobIds : List ℕ} {outcome : Outcome} {job : JobContext}
    (left : job ∈ (jobIds.foldl (Pool.failJob · outcome) pool).jobs) :
    job ∈ pool.jobs ∧ job.jobId ∉ jobIds := by
  induction jobIds generalizing pool with
  | nil => exact ⟨left, List.not_mem_nil⟩
  | cons jobId jobIds ih =>
    obtain ⟨left, later⟩ := ih left
    rw [jobs_failJob, List.mem_filter, bne_iff_ne] at left
    exact ⟨left.1, by simp [left.2, later]⟩

theorem foldl_failJob_modifyWorker {change : PoolWorker → PoolWorker}
    (apart : ∀ pw ids, change { pw with inFlight := ids } = { change pw with inFlight := ids })
    (keeps : ∀ pw, (change pw).inFlight = pw.inFlight) (w : ℕ) (jobIds : List ℕ)
    (outcome : Outcome) :
    jobIds.foldl (Pool.failJob · outcome) (pool.modifyWorker w change) =
      (jobIds.foldl (Pool.failJob · outcome) pool).modifyWorker w change := by
  induction jobIds generalizing pool with
  | nil => rfl
  | cons jobId jobIds ih =>
    rw [List.foldl_cons, failJob_modifyWorker apart keeps, ih, List.foldl_cons]

/-- A worker that exits fails its jobs and is gone. -/
theorem exitWorker_eq (pool : Pool) (w : ℕ) : pool.exitWorker w =
    ((pool.worker w).inFlight.foldl (Pool.failJob · .exited) pool).leave w := by
  let mark (pw : PoolWorker) : PoolWorker :=
    { pw with
      exited := true
      ready := if pw.ready = Ready.pending then Ready.rejected else pw.ready }
  have marked : (pool.modifyWorker w fun pw => { pw with exited := true }).settleReady w .rejected =
      pool.modifyWorker w mark := by
    simp only [Pool.settleReady, Pool.modifyWorker, Pool.mk.injEq, true_and, and_true]
    funext i
    split_ifs <;> simp_all [mark]
  have own : ((pool.modifyWorker w mark).worker w).inFlight = (pool.worker w).inFlight := by
    simp [Pool.modifyWorker, mark]
  have moved := @foldl_failJob_modifyWorker pool mark (fun _ _ => rfl) (fun _ => rfl) w
    (pool.worker w).inFlight .exited
  unfold Pool.exitWorker
  simp only [marked, own, moved]
  simp only [Pool.leave, Pool.modifyWorker, Pool.mk.injEq, true_and, and_true]
  funext i
  split_ifs <;> simp_all [mark]

theorem moves_foldl_failJob (jobIds : List ℕ) : Relation.ReflTransGen (Move orderly) pool
    (jobIds.foldl (Pool.failJob · .exited) pool) := by
  induction jobIds generalizing pool with
  | nil => exact .refl
  | cons jobId jobIds ih => exact (moves_failJob jobId (by simp)).trans ih

theorem dispatching_failJob (jobId : ℕ) (outcome : Outcome) :
    (pool.failJob outcome jobId).dispatching = pool.dispatching := by
  unfold Pool.failJob
  cases pool.job jobId <;> rfl

theorem workers_failJob (jobId : ℕ) (outcome : Outcome) :
    (pool.failJob outcome jobId).workers = pool.workers := by
  unfold Pool.failJob
  cases pool.job jobId <;> rfl

theorem queue_failJob (jobId : ℕ) (outcome : Outcome) :
    (pool.failJob outcome jobId).queue = pool.queue := by
  unfold Pool.failJob
  cases pool.job jobId <;> rfl

theorem maxWorkers_failJob (jobId : ℕ) (outcome : Outcome) :
    (pool.failJob outcome jobId).maxWorkers = pool.maxWorkers := by
  unfold Pool.failJob
  cases pool.job jobId <;> rfl

theorem ready_failJob (jobId w : ℕ) (outcome : Outcome) :
    ((pool.failJob outcome jobId).worker w).ready = (pool.worker w).ready := by
  unfold Pool.failJob
  cases pool.job jobId with
  | none => rfl
  | some job =>
    simp only [Pool.finish, Pool.settle, Pool.modifyWorker]
    split_ifs <;> rfl

/-- The failing of jobs leaves what it does not read of them as it is. -/
theorem foldl_failJob_eq {α : Type*} (read : Pool → α) {outcome : Outcome}
    (same : ∀ (pool : Pool) jobId, read (pool.failJob outcome jobId) = read pool)
    (jobIds : List ℕ) : read (jobIds.foldl (Pool.failJob · outcome) pool) = read pool := by
  induction jobIds generalizing pool with
  | nil => rfl
  | cons jobId jobIds ih => exact ih.trans (same pool jobId)

theorem Ledger.moves_exitWorker (inv : Ledger pool) {w : ℕ} (alive : w ∈ pool.workers)
    (alone : orderly = true → (pool.worker w).ready = .resolved →
      ∀ dispatch ∈ pool.dispatching, dispatch.worker ≠ w) :
    Relation.ReflTransGen (Move orderly) pool (pool.exitWorker w) := by
  rw [exitWorker_eq]
  refine (moves_foldl_failJob _).tail (.leaves ?_ ?_ ?_)
  · rw [foldl_failJob_eq Pool.workers fun _ jobId => workers_failJob jobId _]
    exact alive
  · intro job left at_worker
    obtain ⟨registered, failed⟩ := mem_jobs_foldl left
    exact failed ((inv.inFlight w job.jobId).mpr ⟨job, registered, rfl, at_worker⟩)
  · intro careful resolved
    rw [foldl_failJob_eq Pool.dispatching fun _ jobId => dispatching_failJob jobId _]
    refine alone careful (Eq.trans ?_ resolved)
    exact (foldl_failJob_eq (fun pool => (pool.worker w).ready)
      (fun _ jobId => ready_failJob jobId w _) _).symm

/-- An event is a sequence of moves, orderly ones if it is orderly. -/
theorem moves_of_step (inv : Ledger pool) {event : Event}
    (careful : orderly = true → pool.orderly event = true)
    (stepped : pool.step event = some next) : Relation.ReflTransGen (Move orderly) pool next := by
  cases event with
  | loadPackage =>
    cases stepped
    unfold Pool.loadPackage
    split_ifs with down
    · exact .single .declines
    · have up := eq_false_of_ne_true down
      have submitted : Relation.ReflTransGen (Move orderly) pool pool.submit :=
        .single (.submits up)
      refine submitted.trans ((inv.submits up).moves_tryDispatch fun ordered => ?_)
      simpa [Pool.orderly, up] using careful ordered
  | resume dispatch =>
    simp only [Pool.step] at stepped
    split_ifs at stepped with pending
    unfold Pool.dispatchToWorker at stepped
    cases ready : (pool.worker dispatch.worker).ready with
    | pending => simp [ready] at stepped
    | rejected =>
      simp only [ready, Option.some.injEq] at stepped
      subst stepped
      have refused : Relation.ReflTransGen (Move orderly) pool (pool.refuse dispatch) :=
        .single (.refuses pending)
      refine refused.trans ((inv.refuses pending).moves_tryDispatch fun ordered => ?_)
      simpa [Pool.orderly, ready] using careful ordered
    | resolved =>
      simp only [ready, Option.some.injEq] at stepped
      subst stepped
      exact .single (.posts pending ready)
  | ready w | workerError w =>
    simp only [Pool.step] at stepped
    split_ifs at stepped with alive
    exact Option.some.inj stepped ▸ .single (.readies _ alive)
  | result w jobId | error w jobId =>
    simp only [Pool.step] at stepped
    split_ifs at stepped with posted
    cases stepped
    have answered : Relation.ReflTransGen (Move orderly) pool (pool.answered w jobId) :=
      .single (.answers w jobId)
    exact answered.trans ((inv.answers w jobId).moves_completeJob
      (inv.outstanding w jobId posted.2) (by simp) careful)
  | exit w =>
    simp only [Pool.step] at stepped
    split_ifs at stepped with alive
    cases stepped
    have left : Relation.ReflTransGen (Move orderly) pool (pool.exitWorker w) := by
      refine inv.moves_exitWorker alive fun ordered resolved => ?_
      have apart := (Bool.and_eq_true_iff.mp (careful ordered)).1
      simpa [resolved] using apart
    refine left.trans ((inv.moves left).moves_tryDispatch fun ordered => ?_)
    exact (Bool.and_eq_true_iff.mp (careful ordered)).2
  | spawnTimeout w =>
    simp only [Pool.step] at stepped
    split_ifs at stepped with alive
    exact Option.some.inj stepped ▸ .single (.readies _ alive.1)
  | jobTimeout jobId =>
    simp only [Pool.step] at stepped
    split_ifs at stepped with listed
    exact Option.some.inj stepped ▸ moves_failJob jobId (by simp)
  | shutdown =>
    cases stepped
    exact .single .shutsDown

end Steps

end MalloyPublisher.PackageLoad
