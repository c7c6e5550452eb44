import Mathlib.Data.List.Basic

/-!
# A generation of connections

An environment's connections are made as they are looked up and released together. Those that are
not left to the engine are built behind promises, one a name: some at once, and a proxied one when
its tunnel is open. A promise that is rejected is dropped, so that the next lookup tries again.

The release takes the promises of the moment, closes what they build and then the tunnels, and
clears the caches. A lookup that begins meanwhile and finds no promise for its name makes one that
the release does not know of.

A lookup runs on its own between its awaits, and so do the builds, the attach runs and the release.
What closes a connection or a tunnel does not fail. The engine's own connections are closed by its
shutdown.

## Main definitions

* `Promise` — a build, with the connection and the tunnel that it opened
* `State.step` — what happens to the caches, the lookups and the release
* `State.buildsLate` — a connection is built behind a promise that the release does not know of
* `Cached` — a name has one promise that is not dropped, and the cache has it

## Main results

* `Cached.build`, `Cached.setPromise`, `Cached.connect`, `Cached.evict` — what a promise comes to
  keeps the caches so
-/

namespace MalloyPublisher.Connections

/-- The builds that are not left to the engine. -/
inductive Wrapper
  | duckLake
  | proxy
  | snowflakeJwt
  | azureDuckDB
deriving DecidableEq

/-- What is known of a connection beside its config. -/
structure Metadata where
  isDuckLake : Bool
  proxy : Bool
  /-- It is a postgres connection with a host and a port. -/
  tunnelable : Bool
  hasSnowflakePrivateKey : Bool
  hasAzureAttachment : Bool
  attachesDatabases : Bool

structure Generation where
  metadata : String → Option Metadata
  isUpdateConnectionRequest : Bool

def Metadata.wrapper (metadata : Metadata) : Option Wrapper :=
  if metadata.isDuckLake then some .duckLake
  else if metadata.proxy then some .proxy
  else if metadata.hasSnowflakePrivateKey then some .snowflakeJwt
  else if metadata.hasAzureAttachment then some .azureDuckDB
  else none

namespace Generation

def getMetadataForLookup (generation : Generation) (name : Option String) : Option Metadata :=
  (name.filter (· ≠ "")).bind generation.metadata

/-- How a name is built, where it is not left to the engine. -/
def wrapper (generation : Generation) (name : String) : Option Wrapper :=
  (generation.getMetadataForLookup (some name)).bind Metadata.wrapper

def attachesDatabases (generation : Generation) (name : Option String) : Bool :=
  (generation.getMetadataForLookup name).any Metadata.attachesDatabases

/-! ## Promises and lookups -/

inductive Build
  /-- The tunnel is being opened. -/
  | dialing
  | opened
  /-- The connection could not be built, and the tunnel is being closed. -/
  | closing
  | built
  /-- It failed, and what drops it has not run. -/
  | rejected
  | evicted
deriving DecidableEq

inductive Resource
  | absent
  | live
  | closed
deriving DecidableEq

structure Promise where
  name : String
  wrapper : Wrapper
  build : Build
  connection : Resource
  tunnel : Resource
  /-- The release had taken the promises when this one was made. It is not read. -/
  late : Bool

/-- The object that databases are attached to: one that a promise built or one of the engine's. -/
inductive Target
  | made (promise : ℕ)
  | own (number : ℕ)
deriving DecidableEq

inductive AttachPhase
  | running
  | attached
  | rejected
  | evicted
deriving DecidableEq

structure AttachRun where
  target : Target
  phase : AttachPhase

/-- The await at which a lookup stands. -/
inductive Stage
  | awaitingBuild
  /-- The engine's own lookup. -/
  | awaitingBase
  /-- The databases of a DuckLake session are listed. -/
  | listing
  | attachingDuckLake
  | awaitingAttach
  /-- The settings of a session. -/
  | pinning
  | resolved
  | failed
deriving DecidableEq

structure Lookup where
  name : Option String
  connectionPromise : Option ℕ := none
  attachPromise : Option ℕ := none
  stage : Stage

/-- The release awaits the end of what it closes: first the connections, those of the engine among
them, then the tunnels. -/
inductive Release
  | idle
  | closing (promises : List ℕ) (isShutDown : Bool)
  | draining (endpoints : List ℕ)
  | finished
deriving DecidableEq

/-- Promises, lookups and attach runs are numbered as they are made. A number that has not been
given is that of something that is over. -/
structure State where
  cache : Wrapper → String → Option ℕ := fun _ _ => none
  proxyEndpoints : String → Option ℕ := fun _ => none
  attachPromises : Target → Option ℕ := fun _ => none
  promises : ℕ → Promise := fun _ =>
    { name := "", wrapper := .duckLake, build := .evicted, connection := .absent, tunnel := .absent,
      late := false }
  made : ℕ := 0
  runs : ℕ → AttachRun := fun _ => { target := .own 0, phase := .evicted }
  started : ℕ := 0
  lookups : ℕ → Lookup := fun _ => { name := none, stage := .resolved }
  asked : ℕ := 0
  release : Release := .idle

inductive Event
  /-- A name is looked up. Where it is built at once, its constructor may throw. -/
  | lookupConnection (name : Option String) (constructs : Bool)
  /-- The engine's lookup returns an object, or fails. -/
  | baseReturned (lookup : ℕ) (object : Option ℕ) (isDuckDB : Bool)
  /-- A lookup goes on. What it awaited may have failed or, of a list, not have what it looks
  for. -/
  | goOn (lookup : ℕ) (ok : Bool)
  | dialed (promise : ℕ) (opens : Bool)
  /-- The tunnel is open, and the connection is built. -/
  | connect (promise : ℕ) (constructs : Bool)
  | tunnelClosed (promise : ℕ)
  | evict (promise : ℕ)
  | attachSettled (run : ℕ) (ok : Bool)
  | evictAttach (run : ℕ)
  | releaseConnections
  | shutDown
  /-- The release has closed what a promise built, or found it rejected. -/
  | connectionSettled (promise : ℕ)
  | collectEndpoints
  | endpointClosed (promise : ℕ)
  | clear

/-! ## What happens -/

namespace State

def begin (state : State) (lookup : Lookup) : State :=
  { state with
    lookups := Function.update state.lookups state.asked lookup
    asked := state.asked + 1 }

/-- A lookup comes to its next await. -/
def put (state : State) (l : ℕ) (lookup : Lookup) : State :=
  { state with lookups := Function.update state.lookups l lookup }

def setPromise (state : State) (p : ℕ) (promise : Promise) : State :=
  { state with promises := Function.update state.promises p promise }

/-- A promise to build a connection of a name. -/
def build (state : State) (wrapper : Wrapper) (name : String) : State :=
  { state with
    cache := Function.update state.cache wrapper
      (Function.update (state.cache wrapper) name (some state.made))
    promises := Function.update state.promises state.made
      { name, wrapper
        build := if wrapper = .proxy then .dialing else .built
        connection := if wrapper = .proxy then .absent else .live
        tunnel := .absent
        late := state.release ≠ .idle }
    made := state.made + 1 }

end State

variable (generation : Generation)

/-- Whether a build is begun: a proxied one has checks before it, and others are done at once. -/
def starts (wrapper : Wrapper) (name : String) (constructs : Bool) : Bool :=
  if wrapper = .proxy then (generation.metadata name).any Metadata.tunnelable else constructs

namespace State

/-- A lookup up to its first await. -/
def lookupConnection (state : State) (name : Option String) (constructs : Bool) : State :=
  match name.bind fun name => (generation.wrapper name).map fun wrapper => (name, wrapper) with
  | none => state.begin { name, stage := .awaitingBase }
  | some (key, wrapper) =>
    match state.cache wrapper key with
    | some promise =>
      state.begin { name, connectionPromise := some promise, stage := .awaitingBuild }
    | none =>
      if generation.starts wrapper key constructs then
        (state.build wrapper key).begin
          { name, connectionPromise := some state.made, stage := .awaitingBuild }
      else state.begin { name, stage := .failed }

/-- Attach the databases of a name to a session, once. -/
def attachOnce (state : State) (l : ℕ) (lookup : Lookup) (target : Target) : State :=
  if generation.attachesDatabases lookup.name then
    match state.attachPromises target with
    | some run => state.put l { lookup with attachPromise := some run, stage := .awaitingAttach }
    | none =>
      let awaiting := { lookup with attachPromise := some state.started, stage := .awaitingAttach }
      { state.put l awaiting with
        attachPromises := Function.update state.attachPromises target (some state.started)
        runs := Function.update state.runs state.started { target, phase := .running }
        started := state.started + 1 }
  else state.put l { lookup with stage := .pinning }

/-- A lookup goes on with what its promise built. -/
def afterBuild (state : State) (l : ℕ) (lookup : Lookup) (p : ℕ) : State :=
  match (state.promises p).wrapper with
  | .duckLake =>
    if generation.isUpdateConnectionRequest then
      state.put l { lookup with stage := .attachingDuckLake }
    else state.put l { lookup with stage := .listing }
  | .proxy | .snowflakeJwt => state.put l { lookup with stage := .resolved }
  | .azureDuckDB => state.attachOnce generation l lookup (.made p)

/-- A lookup goes on, where what it awaits has settled. The handler that drops a rejected promise
is older than any await of it. -/
def goOn (state : State) (l : ℕ) (ok : Bool) : Option State :=
  let lookup := state.lookups l
  let next (stage : Stage) : Option State := some (state.put l { lookup with stage })
  match lookup.stage with
  | .awaitingBuild =>
    lookup.connectionPromise.bind fun p =>
      match (state.promises p).build with
      | .built => some (state.afterBuild generation l lookup p)
      | .evicted => next .failed
      | _ => none
  | .awaitingBase => none
  | .listing => next (if ok then .pinning else .attachingDuckLake)
  | .attachingDuckLake => next (if ok then .pinning else .failed)
  | .awaitingAttach =>
    lookup.attachPromise.bind fun run =>
      match (state.runs run).phase with
      | .attached => next .pinning
      | .evicted => next .failed
      | _ => none
  | .pinning => next (if ok then .resolved else .failed)
  | .resolved | .failed => none

def baseReturned (state : State) (l : ℕ) (object : Option ℕ) (isDuckDB : Bool) : State :=
  let lookup := state.lookups l
  match object with
  | none => state.put l { lookup with stage := .failed }
  | some object =>
    if isDuckDB then state.attachOnce generation l lookup (.own object)
    else state.put l { lookup with stage := .resolved }

/-- The connection of an open tunnel is built, and then the tunnel is registered. -/
def connect (state : State) (p : ℕ) (constructs : Bool) : State :=
  let promise := state.promises p
  if constructs then
    { state.setPromise p { promise with build := .built, connection := .live } with
      proxyEndpoints := Function.update state.proxyEndpoints promise.name (some p) }
  else state.setPromise p { promise with build := .closing }

/-- A rejected promise is dropped from the cache, unless another has taken its place. -/
def evict (state : State) (p : ℕ) : State :=
  let promise := state.promises p
  let kept := if state.cache .proxy promise.name = some p then none
    else state.cache .proxy promise.name
  { state.setPromise p { promise with build := .evicted } with
    cache := Function.update state.cache .proxy
      (Function.update (state.cache .proxy) promise.name kept) }

def evictAttach (state : State) (run : ℕ) : State :=
  let attach := state.runs run
  let kept := if state.attachPromises attach.target = some run then none
    else state.attachPromises attach.target
  { state with
    runs := Function.update state.runs run { attach with phase := .evicted }
    attachPromises := Function.update state.attachPromises attach.target kept }

/-- The promises that are in the caches. -/
def cached (state : State) : List ℕ :=
  (List.range state.made).filter fun p =>
    state.cache (state.promises p).wrapper (state.promises p).name = some p

/-- The tunnels that are registered. -/
def endpoints (state : State) : List ℕ :=
  (List.range state.made).filter fun p => state.proxyEndpoints (state.promises p).name = some p

/-- The release goes on to what a promise built, where the promise has settled. -/
def connectionSettled (state : State) (p : ℕ) (rest : List ℕ) (isShutDown : Bool) : Option State :=
  match (state.promises p).build with
  | .built => some { state.setPromise p { state.promises p with connection := .closed } with
      release := .closing rest isShutDown }
  | .evicted => some { state with release := .closing rest isShutDown }
  | _ => none

/-- What happens to the generation, if it can. -/
def step (state : State) : Event → Option State
  | .lookupConnection name constructs =>
    if state.release = .finished then none
    else some (state.lookupConnection generation name constructs)
  | .baseReturned l object isDuckDB =>
    if (state.lookups l).stage = .awaitingBase then
      some (state.baseReturned generation l object isDuckDB)
    else none
  | .goOn l ok => state.goOn generation l ok
  | .dialed p opens =>
    if (state.promises p).build = .dialing then
      some (state.setPromise p (if opens then
        { state.promises p with build := .opened, tunnel := .live }
        else { state.promises p with build := .rejected }))
    else none
  | .connect p constructs =>
    if (state.promises p).build = .opened then some (state.connect p constructs) else none
  | .tunnelClosed p =>
    if (state.promises p).build = .closing then
      some (state.setPromise p { state.promises p with build := .rejected, tunnel := .closed })
    else none
  | .evict p => if (state.promises p).build = .rejected then some (state.evict p) else none
  | .attachSettled run ok =>
    if (state.runs run).phase = .running then
      let phase := if ok then .attached else .rejected
      some { state with
        runs := Function.update state.runs run { state.runs run with phase := phase } }
    else none
  | .evictAttach run =>
    if (state.runs run).phase = .rejected then some (state.evictAttach run) else none
  | .releaseConnections =>
    if state.release = .idle then some { state with release := .closing state.cached false }
    else none
  | .shutDown =>
    match state.release with
    | .closing promises false => some { state with release := .closing promises true }
    | _ => none
  | .connectionSettled p =>
    match state.release with
    | .closing promises isShutDown =>
      if p ∈ promises then state.connectionSettled p (promises.filter (· ≠ p)) isShutDown else none
    | _ => none
  | .collectEndpoints =>
    if state.release = .closing [] true then
      some { state with release := .draining state.endpoints }
    else none
  | .endpointClosed p =>
    match state.release with
    | .draining endpoints =>
      if p ∈ endpoints then
        some { state.setPromise p { state.promises p with tunnel := .closed } with
          release := .draining (endpoints.filter (· ≠ p)) }
      else none
    | _ => none
  | .clear =>
    if state.release = .draining [] then
      some { state with
        cache := fun _ _ => none, proxyEndpoints := fun _ => none, release := .finished }
    else none

def run (state : State) (events : List Event) : Option State :=
  events.foldlM (State.step generation) state

/-- A connection is built behind a promise that the release does not know of: one that is begun
while it runs, for a name that has none. -/
def buildsLate (state : State) : Event → Bool
  | .lookupConnection name constructs =>
    state.release ≠ .idle && name.any fun name => (generation.wrapper name).any fun wrapper =>
      wrapper ≠ .proxy && constructs && (state.cache wrapper name).isNone
  | .connect p constructs => (state.promises p).late && constructs
  | _ => false

end State

/-! ## The promises of the caches -/

section Caches

variable {generation} {state next : State} {p : ℕ} {promise : Promise}

/-- What a promise opened is told by how far it is. -/
structure Promise.Consistent (promise : Promise) : Prop where
  connection : promise.connection ≠ .absent ↔ promise.build = .built
  tunnel : promise.tunnel = .live → promise.wrapper = .proxy ∧
    (promise.build = .opened ∨ promise.build = .closing ∨ promise.build = .built)
  direct : promise.wrapper ≠ .proxy → promise.build = .built ∨ promise.build = .evicted

/-- A name has one promise that is not dropped, and it is in the cache until the release is over. -/
structure Cached (generation : Generation) (state : State) : Prop where
  consistent : ∀ p, (state.promises p).Consistent
  numbered : ∀ p, state.made ≤ p → (state.promises p).build = .evicted
  wrapper : ∀ p, (state.promises p).build ≠ .evicted →
    generation.wrapper (state.promises p).name = some (state.promises p).wrapper
  alone : ∀ p q, (state.promises p).build ≠ .evicted → (state.promises q).build ≠ .evicted →
    (state.promises p).name = (state.promises q).name → p = q
  cached : state.release ≠ .finished → ∀ p, (state.promises p).build ≠ .evicted →
    state.cache (state.promises p).wrapper (state.promises p).name = some p
  taken : ∀ wrapper name p, state.cache wrapper name = some p →
    (state.promises p).build ≠ .evicted ∧ (state.promises p).wrapper = wrapper ∧
      (state.promises p).name = name
  registered : state.release ≠ .finished → ∀ p, (state.promises p).build = .built →
    (state.promises p).wrapper = .proxy →
      state.proxyEndpoints (state.promises p).name = some p
  endpoint : ∀ name p, state.proxyEndpoints name = some p → (state.promises p).build = .built

theorem Cached.congr (cached : Cached generation state) (cache : next.cache = state.cache)
    (proxyEndpoints : next.proxyEndpoints = state.proxyEndpoints)
    (promises : next.promises = state.promises) (made : next.made = state.made)
    (release : next.release ≠ .finished → state.release ≠ .finished) : Cached generation next where
  consistent := promises ▸ cached.consistent
  numbered := promises ▸ made ▸ cached.numbered
  wrapper := promises ▸ cached.wrapper
  alone := promises ▸ cached.alone
  cached unfinished := promises ▸ cache ▸ cached.cached (release unfinished)
  taken := promises ▸ cache ▸ cached.taken
  registered unfinished := promises ▸ proxyEndpoints ▸ cached.registered (release unfinished)
  endpoint := promises ▸ proxyEndpoints ▸ cached.endpoint

@[simp] theorem promises_build_self (state : State) (wrapper : Wrapper) (name : String) :
    (state.build wrapper name).promises state.made =
      { name, wrapper
        build := if wrapper = .proxy then .dialing else .built
        connection := if wrapper = .proxy then .absent else .live
        tunnel := .absent
        late := state.release ≠ .idle } := Function.update_self ..

theorem promises_build_of_ne {q : ℕ} (other : q ≠ state.made) (wrapper : Wrapper) (name : String) :
    (state.build wrapper name).promises q = state.promises q := Function.update_of_ne other ..

theorem cache_build (state : State) (wrapper other : Wrapper) (name key : String) :
    (state.build wrapper name).cache other key =
      if other = wrapper ∧ key = name then some state.made else state.cache other key := by
  unfold State.build
  by_cases same : other = wrapper
  · subst same
    simp [Function.update_apply]
  · simp [same]

/-- A new promise is for a name that has none. -/
theorem Cached.build (cached : Cached generation state) {wrapper : Wrapper} {name : String}
    (isWrapper : generation.wrapper name = some wrapper) (unfinished : state.release ≠ .finished)
    (uncached : state.cache wrapper name = none) :
    Cached generation (state.build wrapper name) := by
  have free : ∀ p, (state.promises p).build ≠ .evicted → (state.promises p).name ≠ name := by
    rintro p kept rfl
    have same := Option.some.inj ((cached.wrapper p kept).symm.trans isWrapper)
    have found := cached.cached unfinished p kept
    rw [same, uncached] at found
    cases found
  have old : ∀ p, (state.promises p).build ≠ .evicted → p ≠ state.made := by
    rintro p kept rfl
    exact kept (cached.numbered _ (Nat.le_refl _))
  refine ⟨fun p => ?_, fun p later => ?_, fun p => ?_, fun p q => ?_, fun _ p => ?_,
    fun other key p => ?_, fun _ p => ?_, fun key p registered => ?_⟩
  · rcases eq_or_ne p state.made with rfl | other
    · rw [promises_build_self]
      constructor <;> grind
    · exact promises_build_of_ne other .. ▸ cached.consistent p
  · rw [promises_build_of_ne (Nat.ne_of_gt later)]
    exact cached.numbered p (Nat.le_of_succ_le later)
  · rcases eq_or_ne p state.made with rfl | other
    · exact fun _ => promises_build_self .. ▸ isWrapper
    · exact promises_build_of_ne other .. ▸ cached.wrapper p
  · rcases eq_or_ne p state.made with rfl | otherP
    · rcases eq_or_ne q state.made with rfl | otherQ
      · exact fun _ _ _ => rfl
      · rw [promises_build_self, promises_build_of_ne otherQ]
        exact fun _ kept same => absurd same.symm (free q kept)
    · rcases eq_or_ne q state.made with rfl | otherQ
      · rw [promises_build_self, promises_build_of_ne otherP]
        exact fun kept _ same => absurd same (free p kept)
      · rw [promises_build_of_ne otherP, promises_build_of_ne otherQ]
        exact cached.alone p q
  · rw [cache_build]
    rcases eq_or_ne p state.made with rfl | other
    · simp
    · rw [promises_build_of_ne other]
      intro kept
      rw [if_neg fun same => free p kept same.2]
      exact cached.cached unfinished p kept
  · rw [cache_build]
    split_ifs with same
    · rintro ⟨⟩
      simp [same]
      split_ifs <;> simp
    · intro taken
      have kept := cached.taken other key p taken
      rwa [promises_build_of_ne (old p kept.1)]
  · rcases eq_or_ne p state.made with rfl | other
    · rw [promises_build_self]
      intro built isProxy
      exact absurd isProxy (by simpa using built)
    · rw [promises_build_of_ne other]
      exact cached.registered unfinished p
  · have built := cached.endpoint key p registered
    rwa [promises_build_of_ne (old p (by simp [built]))]

@[simp] theorem promises_setPromise_self (state : State) (p : ℕ) (promise : Promise) :
    (state.setPromise p promise).promises p = promise := Function.update_self ..

theorem promises_setPromise_of_ne {q : ℕ} (other : q ≠ p) (promise : Promise) :
    (state.setPromise p promise).promises q = state.promises q := Function.update_of_ne other ..

/-- A promise goes on to another stage of its build, and no other promise does. -/
structure GoesOn (before after : ℕ → Promise) (p : ℕ) : Prop where
  others : ∀ q, q ≠ p → after q = before q
  name : (after p).name = (before p).name
  wrapper : (after p).wrapper = (before p).wrapper
  late : (after p).late = (before p).late
  pending : (before p).build ≠ .evicted
  built : (before p).build = .built → (after p).build = .built
  consistent : (after p).Consistent

namespace GoesOn

variable {before after : ℕ → Promise}

theorem name_eq (goesOn : GoesOn before after p) (q : ℕ) : (after q).name = (before q).name := by
  rcases eq_or_ne q p with rfl | other
  · exact goesOn.name
  · rw [goesOn.others q other]

theorem wrapper_eq (goesOn : GoesOn before after p) (q : ℕ) :
    (after q).wrapper = (before q).wrapper := by
  rcases eq_or_ne q p with rfl | other
  · exact goesOn.wrapper
  · rw [goesOn.others q other]

theorem late_eq (goesOn : GoesOn before after p) (q : ℕ) : (after q).late = (before q).late := by
  rcases eq_or_ne q p with rfl | other
  · exact goesOn.late
  · rw [goesOn.others q other]

theorem kept (goesOn : GoesOn before after p) {q : ℕ} (kept : (after q).build ≠ .evicted) :
    (before q).build ≠ .evicted := by
  rcases eq_or_ne q p with rfl | other
  · exact goesOn.pending
  · rwa [← goesOn.others q other]

end GoesOn

/-- A promise that is not dropped keeps its place in the cache. -/
theorem Cached.goesOn (cached : Cached generation state)
    (goesOn : GoesOn state.promises next.promises p) (made : next.made = state.made)
    (release : next.release ≠ .finished → state.release ≠ .finished)
    (kept : ∀ wrapper name q, next.cache wrapper name = some q →
      state.cache wrapper name = some q ∧ (next.promises q).build ≠ .evicted)
    (cache : ∀ q, (next.promises q).build ≠ .evicted → ∀ wrapper name,
      state.cache wrapper name = some q → next.cache wrapper name = some q)
    (registered : next.release ≠ .finished → ∀ q, (next.promises q).build = .built →
      (next.promises q).wrapper = .proxy → next.proxyEndpoints (next.promises q).name = some q)
    (endpoint : ∀ name q, next.proxyEndpoints name = some q →
      state.proxyEndpoints name = some q ∨ (next.promises q).build = .built) :
    Cached generation next where
  consistent q := by
    rcases eq_or_ne q p with rfl | other
    · exact goesOn.consistent
    · exact goesOn.others q other ▸ cached.consistent q
  numbered q later := by
    have dropped := cached.numbered q (made ▸ later)
    have other : q ≠ p := fun same => goesOn.pending (same ▸ dropped)
    rw [goesOn.others q other, dropped]
  wrapper q kept := by
    rw [goesOn.name_eq, goesOn.wrapper_eq]
    exact cached.wrapper q (goesOn.kept kept)
  alone q r keptQ keptR := by
    rw [goesOn.name_eq, goesOn.name_eq]
    exact cached.alone q r (goesOn.kept keptQ) (goesOn.kept keptR)
  cached unfinished q keptQ := by
    rw [goesOn.name_eq, goesOn.wrapper_eq]
    exact cache q keptQ _ _ (cached.cached (release unfinished) q (goesOn.kept keptQ))
  taken wrapper name q found := by
    obtain ⟨found, keptQ⟩ := kept wrapper name q found
    rw [goesOn.name_eq, goesOn.wrapper_eq]
    exact ⟨keptQ, (cached.taken wrapper name q found).2⟩
  registered := registered
  endpoint name q found := by
    refine (endpoint name q found).elim (fun found => ?_) id
    have built := cached.endpoint name q found
    rcases eq_or_ne q p with rfl | other
    · exact goesOn.built built
    · rwa [goesOn.others q other]

theorem goesOn_setPromise {promise : Promise} (name : promise.name = (state.promises p).name)
    (wrapper : promise.wrapper = (state.promises p).wrapper)
    (late : promise.late = (state.promises p).late) (pending : (state.promises p).build ≠ .evicted)
    (built : (state.promises p).build = .built → promise.build = .built)
    (consistent : promise.Consistent) :
    GoesOn state.promises (state.setPromise p promise).promises p where
  others _ other := promises_setPromise_of_ne other promise
  name := (promises_setPromise_self state p promise).symm ▸ name
  wrapper := (promises_setPromise_self state p promise).symm ▸ wrapper
  late := (promises_setPromise_self state p promise).symm ▸ late
  pending := pending
  built := (promises_setPromise_self state p promise).symm ▸ built
  consistent := (promises_setPromise_self state p promise).symm ▸ consistent

/-- A promise goes on and is not dropped. -/
theorem Cached.setPromise (cached : Cached generation state) {promise : Promise}
    (goesOn : GoesOn state.promises (state.setPromise p promise).promises p)
    (kept : promise.build ≠ .evicted)
    (built : promise.build = .built → (state.promises p).build = .built) :
    Cached generation (state.setPromise p promise) := by
  have alike : ∀ q, (state.promises q).build ≠ .evicted →
      ((state.setPromise p promise).promises q).build ≠ .evicted := by
    intro q keptQ
    rcases eq_or_ne q p with rfl | other
    · rwa [promises_setPromise_self]
    · rwa [goesOn.others q other]
  refine cached.goesOn goesOn rfl id
    (fun _ _ q found => ⟨found, alike q (cached.taken _ _ q found).1⟩)
    (fun _ _ _ _ found => found) (fun unfinished q isBuilt isProxy => ?_)
    fun _ _ found => Or.inl found
  rw [goesOn.wrapper_eq] at isProxy
  rw [goesOn.name_eq]
  refine cached.registered unfinished q ?_ isProxy
  rcases eq_or_ne q p with rfl | other
  · exact built (by rwa [promises_setPromise_self] at isBuilt)
  · rwa [goesOn.others q other] at isBuilt

theorem Cached.connect (cached : Cached generation state)
    (opened : (state.promises p).build = .opened)
    (goesOn : GoesOn state.promises (state.connect p true).promises p) :
    Cached generation (state.connect p true) := by
  have self : ((state.connect p true).promises p).build = .built :=
    congrArg Promise.build (promises_setPromise_self ..)
  have alike : ∀ q, (state.promises q).build ≠ .evicted →
      ((state.connect p true).promises q).build ≠ .evicted := by
    intro q keptQ
    rcases eq_or_ne q p with rfl | other
    · rw [self]
      exact nofun
    · rwa [goesOn.others q other]
  refine cached.goesOn goesOn rfl id
    (fun _ _ q found => ⟨found, alike q (cached.taken _ _ q found).1⟩)
    (fun _ _ _ _ found => found) (fun unfinished q isBuilt isProxy => ?_)
    fun name q found => ?_
  rotate_left
  · have found : Function.update state.proxyEndpoints (state.promises p).name (some p) name =
        some q := found
    rcases eq_or_ne name (state.promises p).name with rfl | other
    · rw [Function.update_self] at found
      exact Or.inr (Option.some.inj found ▸ self)
    · rw [Function.update_of_ne other] at found
      exact Or.inl found
  rw [goesOn.name_eq]
  show Function.update state.proxyEndpoints (state.promises p).name (some p) _ = _
  rcases eq_or_ne q p with rfl | other
  · exact Function.update_self ..
  · rw [goesOn.others q other] at isBuilt isProxy
    have apart : (state.promises q).name ≠ (state.promises p).name := fun same =>
      other (cached.alone q p (by simp [isBuilt]) (by simp [opened]) same)
    rw [Function.update_of_ne apart]
    exact cached.registered unfinished q isBuilt isProxy

/-- What is dropped leaves the cache, and nothing else does. -/
theorem Cached.evict (cached : Cached generation state)
    (rejected : (state.promises p).build = .rejected)
    (goesOn : GoesOn state.promises (state.evict p).promises p) :
    Cached generation (state.evict p) := by
  have self : ((state.evict p).promises p).build = .evicted :=
    congrArg Promise.build (promises_setPromise_self ..)
  have isProxy : (state.promises p).wrapper = .proxy := by
    by_contra direct
    rcases (cached.consistent p).direct direct with built | evicted
    · cases rejected.symm.trans built
    · cases rejected.symm.trans evicted
  have cache : ∀ wrapper name, (state.evict p).cache wrapper name =
      if state.cache wrapper name = some p then none else state.cache wrapper name := by
    intro wrapper name
    by_cases here : wrapper = .proxy ∧ name = (state.promises p).name
    · obtain ⟨rfl, rfl⟩ := here
      simp [State.evict]
    · have elsewhere : state.cache wrapper name ≠ some p := fun found =>
        have taken := (cached.taken wrapper name p found).2
        here ⟨taken.1.symm.trans isProxy, taken.2.symm⟩
      rw [if_neg elsewhere]
      rcases eq_or_ne wrapper .proxy with rfl | other
      · have otherName : name ≠ (state.promises p).name := fun same => here ⟨rfl, same⟩
        simp [State.evict, otherName]
      · simp [State.evict, other]
  refine cached.goesOn goesOn rfl id (fun wrapper name _ found => ?_)
    (fun q keptQ wrapper name found => ?_) (fun unfinished q isBuilt isProxy => ?_)
    fun _ _ found => Or.inl found
  · rw [cache] at found
    split_ifs at found with here
    have other : _ ≠ p := fun same => here (same ▸ found)
    rw [goesOn.others _ other]
    exact ⟨found, (cached.taken wrapper name _ found).1⟩
  · have other : q ≠ p := fun same => keptQ (same ▸ self)
    rw [cache, found, if_neg fun same => other (Option.some.inj same)]
  · have other : q ≠ p := fun same => by
      rw [same, self] at isBuilt
      cases isBuilt
    rw [goesOn.others q other] at isBuilt isProxy ⊢
    exact cached.registered unfinished q isBuilt isProxy

end Caches

end Generation

end MalloyPublisher.Connections
