import Mathlib.Data.List.Basic

/-!
# A build into storage that fails

A source is built into a storage destination on a session of its own: the destination is attached,
the source is federated, for a proxied Postgres through a tunnel, and the table is created or
replaced and described. Any step may throw. Whatever happens the session is released and the tunnel
is closed, and the question is what becomes of the table and of the tag on a Snowflake session.

A statement that throws has had no effect: the destination's statements are transactions. What the
incremental plan does to the table is one transaction as well.

## Main definitions

* `Script` — which steps of a build throw, and with what
* `buildSourceIntoStorage` — the build
* `LeavesNothing` — what a build promises
* `Script.Harmless` — the builds that keep it

## Main results

* `ends_body` — the ways what is tried ends
* `leavesNothing_iff` — a build keeps its promise exactly when it is harmless
-/

namespace MalloyPublisher.Materialization.StorageBuild

/-! ## What a build meets -/

inductive FederatedSourceType
  | bigquery | snowflake | postgres
deriving DecidableEq

/-- What the incremental plan does. -/
inductive Planned (Rows : Type)
  /-- It throws, with the table as it was or advanced. -/
  | throws (error : String) (advanced : Option Rows)
  /-- It leaves the table to be rebuilt. -/
  | declined
  /-- It has refreshed the table, or found nothing to apply. -/
  | refreshed (advanced : Option Rows)

/-- The steps of a build, with the error of each that throws. -/
structure Script (Rows : Type) where
  sourceType : FederatedSourceType
  isDucklake : Bool
  /-- The destination and the source are of types that a build knows, and a session can be made. -/
  refused : Option String
  limits : Option String
  attach : Option String
  inlining : Option String
  pin : Option String
  /-- What federation does before a tunnel, or all of it for a warehouse. -/
  federation : Option String
  proxied : Bool
  openProxy : Option String
  attachString : Option String
  attachSource : Option String
  /-- There is a tag to set, and setting it throws or not. -/
  tag : Option (Option String)
  incremental : Option (Planned Rows)
  describeAdvanced : Option String
  read : Option String
  create : Option String
  describe : Option String
  drop : Option String
  afterSeed : Option String
  cost : Option String
  clear : Option String
  /-- The parts of releasing a session. -/
  close : Option String
  disconnect : Option String
  remove : Option String
  /-- The rows of the whole source. -/
  fresh : Rows

inductive Event
  | opened | disposed | tunnelOpened | tunnelClosed | federated
  | tagSet | tagCleared | dropFailed
deriving DecidableEq

/-- The table at the target, what has happened, and the two variables the end of a build reads. -/
structure World (Rows : Type) where
  table : Option Rows
  trace : List Event := []
  federatedHandle : Option String := none
  federatedClose : Bool := false

/-- A part of a build: it comes to a value or throws, and leaves a world either way. -/
abbrev Build (Rows α : Type) := ExceptT String (StateM (World Rows)) α

section Build

variable {Rows : Type}

/-- A step that throws or does nothing. -/
def step (failure : Option String) : Build Rows Unit :=
  match failure with
  | some error => throw error
  | none => pure ()

def record (event : Event) : Build Rows Unit :=
  modify fun world => { world with trace := world.trace ++ [event] }

def setTable (table : Option Rows) : Build Rows Unit :=
  modify fun world => { world with table := table }

/-- A step whose error is logged. -/
def quietly (part : Build Rows Unit) : Build Rows Unit := tryCatch part fun _ => pure ()

/-! ## The build -/

def createTableAndDescribe (script : Script Rows) : Build Rows Unit := do
  step script.create
  setTable (some script.fresh)
  tryCatch (step script.describe) fun describeErr => do
    tryCatch (do step script.drop; setTable none) fun _ => record .dropFailed
    throw describeErr

/-- Federation of a Postgres source; the answer tells whether there is a tunnel to close. -/
def federatePostgres (script : Script Rows) : Build Rows Bool := do
  step script.federation
  if script.proxied then
    step script.openProxy
    record .tunnelOpened
    tryCatch (do step script.attachString; step script.attachSource) fun error => do
      record .tunnelClosed
      throw error
    pure true
  else
    step script.attachString
    step script.attachSource
    pure false

def federateSourceForPassthrough (script : Script Rows) : Build Rows Bool :=
  match script.sourceType with
  | .bigquery | .snowflake => do
    step script.federation
    pure false
  | .postgres => federatePostgres script

def tagSnowflakeSession (script : Script Rows) : Build Rows Unit :=
  if script.sourceType = .snowflake then
    match script.tag with
    | none => pure ()
    | some failure => quietly do
      step failure
      record .tagSet
  else pure ()

def clearSnowflakeSessionTag (script : Script Rows) (handle : Option String) : Build Rows Unit :=
  if script.sourceType = .snowflake ∧ handle.isSome then quietly do
    record .tagCleared
    step script.clear
  else pure ()

def dispose (script : Script Rows) : Build Rows Unit := do
  record .disposed
  quietly (step script.close)
  quietly (step script.disconnect)
  quietly (step script.remove)

/-- The table that a delta has been applied to. -/
def advance (advanced : Option Rows) : Build Rows Unit :=
  modify fun world => { world with table := world.table.map fun rows => advanced.getD rows }

/-- The plan's chance to refresh the table in place; the answer tells whether it has. -/
def planInPlace (script : Script Rows) : Build Rows Bool :=
  match script.incremental with
  | none | some .declined => pure false
  | some (.throws error advanced) => do
    advance advanced
    throw error
  | some (.refreshed advanced) => do
    advance advanced
    pure true

/-- The whole source is read and the table created, and the plan notes where it reaches. -/
def rebuild (script : Script Rows) : Build Rows Unit := do
  step script.read
  createTableAndDescribe script
  if script.incremental.isSome then step script.afterSeed
  quietly (step script.cost)

/-- What is tried; the answer tells whether the table has been refreshed in place. -/
def body (script : Script Rows) : Build Rows Bool := do
  step script.limits
  step script.attach
  if script.isDucklake then step script.inlining
  step script.pin
  let tunnel ← federateSourceForPassthrough script
  record .federated
  modify fun world => { world with federatedClose := tunnel }
  tagSnowflakeSession script
  if ← planInPlace script then
    step script.describeAdvanced
    pure true
  else
    rebuild script
    pure false

/-- What is done in the end. -/
def release (script : Script Rows) : Build Rows Unit := do
  clearSnowflakeSessionTag script (← get).federatedHandle
  dispose script
  if (← get).federatedClose then record .tunnelClosed

def buildSourceIntoStorage (script : Script Rows) : Build Rows Bool := do
  step script.refused
  record .opened
  let outcome ← tryCatch (Except.ok <$> body script) fun error => pure (.error error)
  release script
  match outcome with
  | .ok refreshed => pure refreshed
  | .error error => throw error

/-- A build over what stood at the target before. -/
def build (script : Script Rows) (prior : Option Rows) : Except String Bool × World Rows :=
  (buildSourceIntoStorage script).run.run { table := prior }

end Build

/-! ## How the parts end -/

section Ends

variable {Rows : Type} (script : Script Rows) (world : World Rows)

/-- A part of a build that is run from a world. -/
def runFrom {α : Type} (part : Build Rows α) : Except String α × World Rows := part.run.run world

@[simp] theorem runFrom_pure {α : Type} (value : α) :
    runFrom world (pure value : Build Rows α) = (.ok value, world) := rfl

@[simp] theorem runFrom_throw {α : Type} (error : String) :
    runFrom world (throw error : Build Rows α) = (.error error, world) := rfl

theorem runFrom_bind {α β : Type} (part : Build Rows α) (next : α → Build Rows β) :
    runFrom world (part >>= next) =
      match runFrom world part with
      | (.ok value, world) => runFrom world (next value)
      | (.error error, world) => (.error error, world) := by
  change (ExceptT.run (part >>= next)).run world = _
  rw [ExceptT.run_bind, StateT.run_bind]
  unfold runFrom
  cases ends : part.run.run world with
  | mk outcome later => cases outcome <;> rfl

theorem runFrom_map {α β : Type} (part : Build Rows α) (f : α → β) :
    runFrom world (f <$> part) =
      match runFrom world part with
      | (.ok value, world) => (.ok (f value), world)
      | (.error error, world) => (.error error, world) := by
  rw [map_eq_pure_bind, runFrom_bind]
  rfl

theorem runFrom_tryCatch {α : Type} (part : Build Rows α) (handler : String → Build Rows α) :
    runFrom world (tryCatch part handler) =
      match runFrom world part with
      | (.ok value, world) => (.ok value, world)
      | (.error error, world) => runFrom world (handler error) := by
  change (ExceptT.run (ExceptT.tryCatch part handler)).run world = _
  unfold runFrom ExceptT.tryCatch
  rw [ExceptT.run_mk, StateT.run_bind]
  cases ends : part.run.run world with
  | mk outcome later =>
    have same : StateT.run part world = (outcome, later) := ends
    rw [same]
    cases outcome <;> rfl

@[simp] theorem runFrom_record (event : Event) :
    runFrom world (record event) = (.ok (), { world with trace := world.trace ++ [event] }) := rfl

@[simp] theorem runFrom_setTable (table : Option Rows) :
    runFrom world (setTable table) = (.ok (), { world with table := table }) := rfl

@[simp] theorem runFrom_step_none : runFrom world (step none : Build Rows Unit) = (.ok (), world) := rfl

@[simp] theorem runFrom_step_some (error : String) :
    runFrom world (step (some error) : Build Rows Unit) = (.error error, world) := rfl

/-- A step whose error is logged changes what it changes, and does not throw. -/
theorem runFrom_quietly_step (failure : Option String) :
    runFrom world (quietly (step failure) : Build Rows Unit) = (.ok (), world) := by
  cases failure <;> rfl

/-- Federation goes through a tunnel. -/
def Script.tunnels (script : Script Rows) : Bool := script.sourceType = .postgres && script.proxied

def Script.federationSucceeds (script : Script Rows) : Bool :=
  script.federation.isNone && (script.sourceType != .postgres ||
    (!script.proxied || script.openProxy.isNone) && script.attachString.isNone &&
      script.attachSource.isNone)

/-- A tunnel that federation has opened. -/
def Script.tunnelEvents (script : Script Rows) : List Event :=
  if script.tunnels then [.tunnelOpened] else []

/-- Federation that fails closes the tunnel it has opened. -/
theorem runFrom_federate :
    (script.federationSucceeds = true ∧ runFrom world (federateSourceForPassthrough script) =
      (.ok script.tunnels, { world with trace := world.trace ++ script.tunnelEvents })) ∨
    (script.federationSucceeds = false ∧ ∃ error events,
      (events = [] ∨ events = [.tunnelOpened, .tunnelClosed]) ∧
      runFrom world (federateSourceForPassthrough script) =
        (.error error, { world with trace := world.trace ++ events })) := by
  cases early : script.federation with
  | some error =>
    refine .inr ⟨by simp [Script.federationSucceeds, early], error, [], .inl rfl, ?_⟩
    unfold federateSourceForPassthrough federatePostgres
    cases script.sourceType <;> simp [runFrom_bind, runFrom_map, early]
  | none =>
    cases kind : script.sourceType with
    | bigquery =>
      refine .inl ⟨by simp [Script.federationSucceeds, early, kind], ?_⟩
      simp [federateSourceForPassthrough, kind, early, runFrom_map, Script.tunnelEvents,
        Script.tunnels]
    | snowflake =>
      refine .inl ⟨by simp [Script.federationSucceeds, early, kind], ?_⟩
      simp [federateSourceForPassthrough, kind, early, runFrom_map, Script.tunnelEvents,
        Script.tunnels]
    | postgres =>
      have same : runFrom world (federateSourceForPassthrough script) =
          runFrom world (federatePostgres script) := by
        rw [federateSourceForPassthrough, kind]
      rw [same, federatePostgres, early]
      cases proxied : script.proxied <;> cases opens : script.openProxy <;>
        cases text : script.attachString <;> cases attached : script.attachSource <;>
          simp [Script.federationSucceeds, Script.tunnelEvents, Script.tunnels, kind, early, proxied,
            opens, text, attached, runFrom_bind, runFrom_map, runFrom_tryCatch]

/-- The tag, where it is set. -/
def Script.tagEvents (script : Script Rows) : List Event :=
  if script.sourceType = .snowflake ∧ script.tag = some none then [.tagSet] else []

theorem runFrom_tagSnowflakeSession : runFrom world (tagSnowflakeSession script) =
    (.ok (), { world with trace := world.trace ++ script.tagEvents }) := by
  unfold tagSnowflakeSession Script.tagEvents
  by_cases snowflake : script.sourceType = .snowflake
  · cases isTag : script.tag with
    | none => simp [snowflake]
    | some failure => cases failure <;> simp [snowflake, quietly, runFrom_bind, runFrom_tryCatch]
  · simp [snowflake]

/-- The table is created and described, and dropped again where it cannot be described. -/
theorem runFrom_createTableAndDescribe : runFrom world (createTableAndDescribe script) =
    match script.create, script.describe, script.drop with
    | some error, _, _ => (.error error, world)
    | none, none, _ => (.ok (), { world with table := some script.fresh })
    | none, some error, none => (.error error, { world with table := none })
    | none, some error, some _ =>
      (.error error,
        { world with table := some script.fresh, trace := world.trace ++ [.dropFailed] }) := by
  unfold createTableAndDescribe
  cases script.create <;> cases script.describe <;> cases script.drop <;>
    simp [runFrom_bind, runFrom_tryCatch]

/-- The steps before federation. -/
def Script.prepares (script : Script Rows) : Bool :=
  script.limits.isNone && script.attach.isNone && (!script.isDucklake || script.inlining.isNone) &&
    script.pin.isNone

/-- The source is federated onto the session. -/
def Script.federates (script : Script Rows) : Bool := script.prepares && script.federationSucceeds

/-- The plan leaves the table to be rebuilt. -/
def Script.declines (script : Script Rows) : Bool :=
  match script.incremental with
  | none | some .declined => true
  | _ => false

/-- The table is created or replaced. -/
def Script.replaces (script : Script Rows) : Bool :=
  script.federates && script.declines && script.read.isNone && script.create.isNone

/-- The world once the source is federated. -/
def Script.federated (script : Script Rows) (world : World Rows) : World Rows :=
  { world with
    trace := world.trace ++ script.tunnelEvents ++ [.federated] ++ script.tagEvents
    federatedClose := script.tunnels }

/-- The ways in which what is tried ends. -/
inductive Ends (script : Script Rows) (world : World Rows) : Except String Bool → World Rows → Prop
  /-- The source has not been federated, and a tunnel that was opened has been closed. -/
  | early (error : String) (events : List Event) (notFederated : script.federates = false)
      (paired : events = [] ∨ events = [.tunnelOpened, .tunnelClosed]) :
      Ends script world (.error error) { world with trace := world.trace ++ events }
  /-- The plan has thrown, or the table it has refreshed is described or not. -/
  | planned (outcome : Except String Bool) (advanced : Option Rows)
      (federates : script.federates = true)
      (isPlan : script.incremental = some (.refreshed advanced) ∨
        ∃ error, script.incremental = some (.throws error advanced)) :
      Ends script world outcome
        { script.federated world with table := world.table.map fun rows => advanced.getD rows }
  /-- The table has not been replaced. -/
  | kept (error : String) (federates : script.federates = true)
      (notReplaced : script.replaces = false) :
      Ends script world (.error error) (script.federated world)
  /-- The new table could not be described, and has been dropped. -/
  | dropped (error : String) (replaces : script.replaces = true)
      (undescribed : script.describe = some error) (drops : script.drop = none) :
      Ends script world (.error error) { script.federated world with table := none }
  /-- The new table could not be described, nor dropped. -/
  | stranded (error later : String) (replaces : script.replaces = true)
      (undescribed : script.describe = some error) (drops : script.drop = some later) :
      Ends script world (.error error)
        { script.federated world with
          table := some script.fresh
          trace := (script.federated world).trace ++ [.dropFailed] }
  /-- The plan could not note where the new table reaches. -/
  | unnoted (error : String) (replaces : script.replaces = true) (described : script.describe = none)
      (plans : script.incremental.isSome = true) (fails : script.afterSeed = some error) :
      Ends script world (.error error)
        { script.federated world with table := some script.fresh }
  | built (replaces : script.replaces = true) (described : script.describe = none)
      (noted : script.incremental.isSome = true → script.afterSeed = none) :
      Ends script world (.ok false) { script.federated world with table := some script.fresh }

/-- What is done once the source is federated. -/
def afterFederation (script : Script Rows) : Build Rows Bool := do
  tagSnowflakeSession script
  if ← planInPlace script then
    step script.describeAdvanced
    pure true
  else
    rebuild script
    pure false

/-- The steps before federation throw, or leave everything as it is. -/
theorem runFrom_body :
    (script.prepares = true ∧ runFrom world (body script) =
      runFrom world (do
        let tunnel ← federateSourceForPassthrough script
        record .federated
        modify fun world => { world with federatedClose := tunnel }
        afterFederation script)) ∨
    (script.prepares = false ∧ ∃ error, runFrom world (body script) = (.error error, world)) := by
  unfold body Script.prepares afterFederation
  cases limits : script.limits with
  | some error => exact .inr ⟨by simp, error, by simp [runFrom_bind]⟩
  | none =>
    cases attach : script.attach with
    | some error => exact .inr ⟨by simp, error, by simp [runFrom_bind]⟩
    | none =>
      cases lake : script.isDucklake with
      | false =>
        cases pin : script.pin with
        | some error => exact .inr ⟨by simp, error, by simp [runFrom_bind]⟩
        | none => exact .inl ⟨by simp, by simp [runFrom_bind]⟩
      | true =>
        cases inlining : script.inlining with
        | some error => exact .inr ⟨by simp, error, by simp [runFrom_bind]⟩
        | none =>
          cases pin : script.pin with
          | some error => exact .inr ⟨by simp, error, by simp [runFrom_bind]⟩
          | none => exact .inl ⟨by simp, by simp [runFrom_bind]⟩

@[simp] theorem runFrom_modify (change : World Rows → World Rows) :
    runFrom world (modify change : Build Rows Unit) = (.ok (), change world) := rfl

@[simp] theorem runFrom_advance (advanced : Option Rows) :
    runFrom world (advance advanced) =
      (.ok (), { world with table := world.table.map fun rows => advanced.getD rows }) := rfl

/-- The ways in which a build ends whose plan has declined. -/
theorem ends_rebuild (federates : script.federates = true) (declines : script.declines = true) :
    Ends script world
      (runFrom (script.federated world) (do rebuild script; pure false)).1
      (runFrom (script.federated world) (do rebuild script; pure false)).2 := by
  simp only [runFrom_bind, rebuild]
  cases read : script.read with
  | some error => exact .kept error federates (by simp [Script.replaces, read])
  | none =>
    simp only [runFrom_step_none, runFrom_createTableAndDescribe]
    cases create : script.create with
    | some error => exact .kept error federates (by simp [Script.replaces, create])
    | none =>
      have replaces : script.replaces = true := by
        simp [Script.replaces, federates, declines, read, create]
      cases describe : script.describe with
      | some error =>
        cases drop : script.drop with
        | none => exact .dropped error replaces describe drop
        | some later => exact .stranded error later replaces describe drop
      | none =>
        cases plans : script.incremental.isSome with
        | false =>
          have noted : script.incremental.isSome = true → script.afterSeed = none := by simp [plans]
          simpa [runFrom_quietly_step] using .built replaces describe noted
        | true =>
          cases seed : script.afterSeed with
          | some error => simpa using .unnoted error replaces describe plans seed
          | none =>
            simpa [runFrom_bind, runFrom_quietly_step] using .built replaces describe fun _ => seed

/-- The ways in which a build ends that has federated its source. -/
theorem ends_afterFederation (federates : script.federates = true) {later : World Rows}
    (isLater : later = { world with
      trace := world.trace ++ script.tunnelEvents ++ [.federated], federatedClose := script.tunnels }) :
    Ends script world (runFrom later (afterFederation script)).1
      (runFrom later (afterFederation script)).2 := by
  have tagged : runFrom later (tagSnowflakeSession script) = (.ok (), script.federated world) := by
    rw [runFrom_tagSnowflakeSession, isLater]
    rfl
  have rest : runFrom later (afterFederation script) =
      runFrom (script.federated world) (do
        if ← planInPlace script then
          step script.describeAdvanced
          pure true
        else
          rebuild script
          pure false) := by
    rw [afterFederation, runFrom_bind, tagged]
  rw [rest, runFrom_bind]
  cases isPlan : script.incremental with
  | none =>
    have plan : runFrom (script.federated world) (planInPlace script) =
        (.ok false, script.federated world) := by
      rw [planInPlace, isPlan]
      rfl
    rw [plan]
    exact ends_rebuild script world federates (by rw [Script.declines, isPlan])
  | some planned =>
    cases planned with
    | declined =>
      have plan : runFrom (script.federated world) (planInPlace script) =
          (.ok false, script.federated world) := by
        rw [planInPlace, isPlan]
        rfl
      rw [plan]
      exact ends_rebuild script world federates (by rw [Script.declines, isPlan])
    | throws error advanced =>
      have plan : runFrom (script.federated world) (planInPlace script) =
          (.error error, { script.federated world with
            table := world.table.map fun rows => advanced.getD rows }) := by
        rw [planInPlace, isPlan]
        rfl
      rw [plan]
      exact .planned _ advanced federates (.inr ⟨error, isPlan⟩)
    | refreshed advanced =>
      have plan : runFrom (script.federated world) (planInPlace script) =
          (.ok true, { script.federated world with
            table := world.table.map fun rows => advanced.getD rows }) := by
        rw [planInPlace, isPlan]
        rfl
      rw [plan]
      cases described : script.describeAdvanced <;>
        simpa [runFrom_map, described] using .planned _ advanced federates (.inl isPlan)

theorem ends_body : Ends script world (runFrom world (body script)).1
    (runFrom world (body script)).2 := by
  rcases runFrom_body script world with ⟨prepares, same⟩ | ⟨notPrepared, error, same⟩
  · rw [same, runFrom_bind]
    rcases runFrom_federate script world with ⟨succeeds, federated⟩ | ⟨fails, error, events, paired, failed⟩
    · rw [federated]
      have federates : script.federates = true := by rw [Script.federates, prepares, succeeds]; rfl
      simp only [runFrom_bind, runFrom_record, runFrom_modify]
      exact ends_afterFederation script world federates rfl
    · rw [failed]
      refine .early error events ?_ paired
      rw [Script.federates, fails, Bool.and_false]
  · rw [same]
    have noEvents : Ends script world (.error error) { world with trace := world.trace ++ [] } :=
      .early error [] (by rw [Script.federates, notPrepared]; rfl) (.inl rfl)
    simpa using noEvents

@[simp] theorem runFrom_get : runFrom world (get : Build Rows (World Rows)) = (.ok world, world) := rfl

/-- Releasing a session does not throw. -/
theorem runFrom_dispose : runFrom world (dispose script) =
    (.ok (), { world with trace := world.trace ++ [.disposed] }) := by
  simp [dispose, runFrom_bind, runFrom_quietly_step]

/-- What the end of a build adds, where no handle has been noted. -/
theorem runFrom_release (noHandle : world.federatedHandle = none) :
    runFrom world (release script) = (.ok (), { world with
      trace := world.trace ++ [.disposed] ++
        if world.federatedClose then [.tunnelClosed] else [] }) := by
  have clear : clearSnowflakeSessionTag script world.federatedHandle = pure () := by
    simp [clearSnowflakeSessionTag, noHandle]
  cases closes : world.federatedClose <;>
    simp [release, runFrom_bind, clear, runFrom_dispose, closes]

/-- No way of ending notes a handle. -/
theorem Ends.federatedHandle_eq {outcome : Except String Bool} {later : World Rows}
    (ends : Ends script world outcome later) : later.federatedHandle = world.federatedHandle := by
  cases ends <;> rfl

/-- A build that is not refused tries, and then releases. -/
theorem build_eq (prior : Option Rows) (accepted : script.refused = none) :
    build script prior =
      let tried := runFrom { table := prior, trace := [.opened] } (body script)
      (tried.1, { tried.2 with
        trace := tried.2.trace ++ [.disposed] ++
          if tried.2.federatedClose then [.tunnelClosed] else [] }) := by
  have ends := ends_body script ({ table := prior, trace := [.opened] } : World Rows)
  have noHandle := ends.federatedHandle_eq
  change runFrom { table := prior } (buildSourceIntoStorage script) = _
  simp only [buildSourceIntoStorage, accepted, runFrom_bind, runFrom_step_none, runFrom_record,
    runFrom_tryCatch, runFrom_map, List.nil_append]
  cases tried : runFrom ({ table := prior, trace := [.opened] } : World Rows) (body script) with
  | mk outcome later =>
    rw [tried] at noHandle
    cases outcome <;> simp [runFrom_release script later noHandle]

end Ends

/-! ## What a build promises -/

section Promise

variable {Rows : Type}

/-- The rows an incremental plan may have brought a table to. -/
def Script.advanced (script : Script Rows) : Option Rows :=
  match script.incremental with
  | some (.throws _ advanced) | some (.refreshed advanced) => advanced
  | _ => none

/-- What a build leaves: the session is released and a tunnel closed, a tag is cleared before the
release, and if the build throws, a table that stood before has its old rows or the new ones, and
one that did not stand is there only if it could not be dropped. -/
structure LeavesNothing (script : Script Rows) (prior : Option Rows)
    (ended : Except String Bool × World Rows) : Prop where
  disposed : .opened ∈ ended.2.trace → .disposed ∈ ended.2.trace
  tunnel : .tunnelOpened ∈ ended.2.trace → .tunnelClosed ∈ ended.2.trace
  tag : script.sourceType = .snowflake → .federated ∈ ended.2.trace →
    [.tagCleared, .disposed].Sublist ended.2.trace
  kept : ∀ error, ended.1 = .error error → ∀ old, prior = some old →
    ∃ rows, ended.2.table = some rows ∧
      (rows = old ∨ rows = script.fresh ∨ script.advanced = some rows)
  nothing : ∀ error, ended.1 = .error error → prior = none →
    ended.2.table = none ∨ .dropFailed ∈ ended.2.trace

/-- The builds that keep the promise: no Snowflake source is federated, a table that stood before is
not replaced by one that cannot be described but can be dropped, and one that did not stand is not
created by a build that then cannot note where it reaches. -/
structure Script.Harmless (script : Script Rows) (prior : Option Rows) : Prop where
  untagged : script.sourceType = .snowflake → script.refused = none → script.federates = false
  described : script.refused = none → script.replaces = true → script.describe.isSome = true →
    script.drop = none → prior = none
  noted : script.refused = none → script.replaces = true → script.describe = none →
    script.incremental.isSome = true → script.afterSeed.isSome = true → prior.isSome = true

variable {script : Script Rows} {prior : Option Rows} {outcome : Except String Bool}
  {extra : List Event}

/-- What a build that has federated its source and is over has seen. -/
def Script.trace (script : Script Rows) (extra : List Event) : List Event :=
  [.opened] ++ script.tunnelEvents ++ [.federated] ++ script.tagEvents ++ extra ++ [.disposed] ++
    if script.tunnels then [.tunnelClosed] else []

/-- What such a build may have seen. -/
theorem mem_trace {event : Event} (member : event ∈ script.trace extra) :
    event ∈ [Event.opened, .federated, .tagSet, .disposed] ∨ event ∈ extra ∨
      (event = .tunnelOpened ∨ event = .tunnelClosed) ∧ script.tunnels = true := by
  have tag : event ∈ script.tagEvents → event = .tagSet := by
    unfold Script.tagEvents
    split_ifs <;> simp
  have tunnel : event ∈ script.tunnelEvents → event = .tunnelOpened ∧ script.tunnels = true := by
    unfold Script.tunnelEvents
    split_ifs with tunnels <;> simp [tunnels]
  have close : event ∈ (if script.tunnels then [Event.tunnelClosed] else []) →
      event = .tunnelClosed ∧ script.tunnels = true := by
    split_ifs with tunnels <;> simp [tunnels]
  simp only [Script.trace, List.mem_append, List.mem_singleton] at member
  rcases member with (((((opened | opens) | federated) | tagged) | inExtra) | disposed) | closes
  · simp [opened]
  · exact .inr (.inr ⟨.inl (tunnel opens).1, (tunnel opens).2⟩)
  · simp [federated]
  · simp [tag tagged]
  · exact .inr (.inl inExtra)
  · simp [disposed]
  · exact .inr (.inr ⟨.inr (close closes).1, (close closes).2⟩)

/-- A build that has federated its source keeps its promise if the source is no Snowflake and the
table is as it should be. -/
theorem leavesNothing_federated {world : World Rows}
    (isExtra : extra = [] ∨ extra = [.dropFailed]) (isTrace : world.trace = script.trace extra) :
    LeavesNothing script prior (outcome, world) ↔
      script.sourceType ≠ .snowflake ∧ ∀ error, outcome = .error error →
        (∀ old, prior = some old → ∃ rows, world.table = some rows ∧
          (rows = old ∨ rows = script.fresh ∨ script.advanced = some rows)) ∧
        (prior = none → world.table = none ∨ .dropFailed ∈ extra) := by
  have notCleared : .tagCleared ∉ script.trace extra := by
    intro member
    rcases mem_trace member with own | inExtra | ⟨isTunnel, -⟩
    · simp at own
    · rcases isExtra with rfl | rfl <;> simp at inExtra
    · simp at isTunnel
  have dropFailed : .dropFailed ∈ script.trace extra ↔ .dropFailed ∈ extra := by
    constructor
    · intro member
      rcases mem_trace member with own | inExtra | ⟨isTunnel, -⟩
      · simp at own
      · exact inExtra
      · simp at isTunnel
    · intro inExtra
      simp [Script.trace, inExtra]
  rw [← isTrace] at notCleared dropFailed
  have parts : Event.opened ∈ world.trace ∧ .federated ∈ world.trace ∧ .disposed ∈ world.trace := by
    simp [isTrace, Script.trace]
  constructor
  · intro leaves
    refine ⟨fun snowflake => ?_, fun error fails => ⟨leaves.kept error fails, fun absent => ?_⟩⟩
    · have cleared := (leaves.tag snowflake parts.2.1).subset
        (List.mem_cons_self : Event.tagCleared ∈ [.tagCleared, .disposed])
      exact notCleared cleared
    · exact (leaves.nothing error fails absent).imp_right dropFailed.mp
  · rintro ⟨notSnowflake, table⟩
    refine ⟨fun _ => parts.2.2, fun opened => ?_, fun snowflake => absurd snowflake
      notSnowflake, fun error fails => (table error fails).1, fun error fails absent =>
        ((table error fails).2 absent).imp_right dropFailed.mpr⟩
    rw [isTrace] at opened ⊢
    rcases mem_trace opened with own | inExtra | ⟨-, tunnels⟩
    · simp at own
    · rcases isExtra with rfl | rfl <;> simp at inExtra
    · simp [Script.trace, tunnels]

/-- A build keeps its promise exactly when it is harmless. -/
theorem leavesNothing_iff (script : Script Rows) (prior : Option Rows) :
    LeavesNothing script prior (build script prior) ↔ script.Harmless prior := by
  cases refused : script.refused with
  | some error =>
    have ended : build script prior = (.error error, { table := prior }) := by
      change runFrom { table := prior } (buildSourceIntoStorage script) = _
      simp [buildSourceIntoStorage, refused, runFrom_bind]
    rw [ended]
    refine iff_of_true ⟨by simp, by simp, by simp, ?_, ?_⟩ ⟨?_, ?_, ?_⟩
    · rintro _ - old rfl
      exact ⟨old, rfl, .inl rfl⟩
    · rintro _ - rfl
      exact .inl rfl
    all_goals simp [refused]
  | none =>
    rw [build_eq script prior refused]
    have ends := ends_body script ({ table := prior, trace := [.opened] } : World Rows)
    generalize runFrom ({ table := prior, trace := [.opened] } : World Rows) (body script) = tried
      at ends ⊢
    obtain ⟨outcome, later⟩ := tried
    have same : ∀ extra, (script.federated { table := prior, trace := [.opened] }).trace ++ extra ++
        [.disposed] ++ (if script.tunnels then [.tunnelClosed] else []) = script.trace extra := by
      intro extra
      simp [Script.trace, Script.federated]
    have plain : (script.federated { table := prior, trace := [.opened] }).trace ++ [.disposed] ++
        (if script.tunnels then [.tunnelClosed] else []) = script.trace [] := by
      rw [← same [], List.append_nil]
    have federated : script.replaces = true → script.federates = true := by
      intro replaces
      simp only [Script.replaces, Bool.and_eq_true] at replaces
      exact replaces.1.1.1
    have untagged : script.Harmless prior → script.federates = true →
        script.sourceType ≠ .snowflake := by
      intro harmless federates snowflake
      rw [harmless.untagged snowflake refused] at federates
      cases federates
    cases ends with
    | early error events notFederated paired =>
      have notReplaced : script.replaces = false := by simp [Script.replaces, notFederated]
      refine iff_of_true ⟨by simp, ?_, ?_, ?_, ?_⟩ ⟨fun _ _ => notFederated, ?_, ?_⟩
      · rcases paired with rfl | rfl <;> simp
      · rcases paired with rfl | rfl <;> simp
      · rintro _ - old rfl
        exact ⟨old, rfl, .inl rfl⟩
      · rintro _ - rfl
        exact .inl rfl
      all_goals simp [notReplaced]
    | planned outcome advanced federates isPlan =>
      have notReplaced : script.replaces = false := by
        rcases isPlan with isPlan | ⟨error, isPlan⟩ <;>
          simp [Script.replaces, Script.declines, isPlan]
      have isAdvanced : script.advanced = advanced := by
        rcases isPlan with isPlan | ⟨error, isPlan⟩ <;> simp [Script.advanced, isPlan]
      rw [leavesNothing_federated (.inl rfl) plain]
      constructor
      · rintro ⟨notSnowflake, -⟩
        exact ⟨fun snowflake => absurd snowflake notSnowflake, by simp [notReplaced],
          by simp [notReplaced]⟩
      · intro harmless
        refine ⟨untagged harmless federates, fun error _ => ⟨?_, ?_⟩⟩
        · rintro old rfl
          refine ⟨advanced.getD old, rfl, ?_⟩
          cases advanced with
          | none => exact .inl rfl
          | some rows => exact .inr (.inr isAdvanced)
        · rintro rfl
          exact .inl rfl
    | kept error federates notReplaced =>
      rw [leavesNothing_federated (.inl rfl) plain]
      constructor
      · rintro ⟨notSnowflake, -⟩
        exact ⟨fun snowflake => absurd snowflake notSnowflake, by simp [notReplaced],
          by simp [notReplaced]⟩
      · intro harmless
        refine ⟨untagged harmless federates, fun error _ => ⟨?_, ?_⟩⟩
        · rintro old rfl
          exact ⟨old, rfl, .inl rfl⟩
        · rintro rfl
          exact .inl rfl
    | dropped error replaces undescribed drops =>
      rw [leavesNothing_federated (.inl rfl) plain]
      constructor
      · rintro ⟨notSnowflake, table⟩
        refine ⟨fun snowflake => absurd snowflake notSnowflake, fun _ _ _ _ => ?_, ?_⟩
        · by_contra stood
          obtain ⟨old, isOld⟩ := Option.ne_none_iff_exists'.mp stood
          obtain ⟨rows, there, -⟩ := (table error rfl).1 old isOld
          cases there
        · simp [undescribed]
      · intro harmless
        have absent := harmless.described refused replaces (by simp [undescribed]) drops
        refine ⟨untagged harmless (federated replaces), fun error _ => ⟨?_, fun _ => .inl rfl⟩⟩
        rw [absent]
        rintro old ⟨⟩
    | stranded error later replaces undescribed drops =>
      rw [leavesNothing_federated (.inr rfl) (same [.dropFailed])]
      constructor
      · rintro ⟨notSnowflake, -⟩
        exact ⟨fun snowflake => absurd snowflake notSnowflake, by simp [drops],
          by simp [undescribed]⟩
      · intro harmless
        exact ⟨untagged harmless (federated replaces), fun error _ =>
          ⟨fun old _ => ⟨script.fresh, rfl, .inr (.inl rfl)⟩, fun _ => .inr (by simp)⟩⟩
    | unnoted error replaces described plans fails =>
      rw [leavesNothing_federated (.inl rfl) plain]
      constructor
      · rintro ⟨notSnowflake, table⟩
        refine ⟨fun snowflake => absurd snowflake notSnowflake, by simp [described],
          fun _ _ _ _ _ => ?_⟩
        by_contra absent
        rcases (table error rfl).2 (by simpa using absent) with there | dropped
        · cases there
        · cases dropped
      · intro harmless
        have stood := harmless.noted refused replaces described plans (by simp [fails])
        refine ⟨untagged harmless (federated replaces), fun error _ =>
          ⟨fun old _ => ⟨script.fresh, rfl, .inr (.inl rfl)⟩, fun absent => ?_⟩⟩
        rw [absent] at stood
        cases stood
    | built replaces described noted =>
      rw [leavesNothing_federated (.inl rfl) plain]
      constructor
      · rintro ⟨notSnowflake, -⟩
        refine ⟨fun snowflake => absurd snowflake notSnowflake, by simp [described],
          fun _ _ _ plans fails => ?_⟩
        rw [noted plans] at fails
        cases fails
      · intro harmless
        exact ⟨untagged harmless (federated replaces), fun error fails => by cases fails⟩

/-- A Postgres source whose new table cannot be described, and can be dropped. -/
def undescribed : Script ℕ where
  sourceType := .postgres
  isDucklake := true
  refused := none
  limits := none
  attach := none
  inlining := none
  pin := none
  federation := none
  proxied := false
  openProxy := none
  attachString := none
  attachSource := none
  tag := none
  incremental := none
  describeAdvanced := none
  read := none
  create := none
  describe := some "connection lost"
  drop := none
  afterSeed := none
  cost := none
  clear := none
  close := none
  disconnect := none
  remove := none
  fresh := 2

/-- The table that stood before is gone. -/
theorem replaced_table_is_dropped :
    ¬ ∀ (script : Script ℕ) (prior : Option ℕ), LeavesNothing script prior (build script prior) := by
  intro promised
  have ended : build undescribed (some 1) =
      (.error "connection lost",
        { table := none, trace := [.opened, .federated, .disposed] }) := rfl
  have leaves := promised undescribed (some 1)
  rw [ended] at leaves
  obtain ⟨rows, there, -⟩ := leaves.kept "connection lost" rfl 1 rfl
  cases there

end Promise

end MalloyPublisher.Materialization.StorageBuild
