import MalloyPublisher.Connections.ConnectionShape

/-!
# Storage destinations

A storage destination is checked when it is declared, and attached when something is first built
into it. What the attach demands is checked at the declaration too, so that a destination that is
accepted can be attached. Both checks ask whether the host's credentials may be used, and for a
destination they may be where a connection may not use them.

## Main definitions

* `validateStorageDestinations` — the destinations that are accepted, and why others are not
* `checkAttach` — the configuration checks of an attach
* `Agree` — declaration, load and attach come to the same

## Main results

* `checkAttach_of_checkDestination` — what is accepted can be attached
* `destinations_agree_iff` — the checks agree unless a destination is to use the host's credentials
  where no connection may
-/

namespace MalloyPublisher.Connections

open Foundations

/-! ## The declaration -/

def DECLARABLE_STORAGE_DESTINATION_TYPES : List String := ["ducklake"]

structure RejectedStorageDestination where
  name : Option String
  reason : String

/-- What `validateStorageDestinations` returns. -/
structure SortedDestinations where
  accepted : List ApiConnection
  rejected : List RejectedStorageDestination

section Declaration

variable (machine : Machine) (others : ApiConnection → Except Refusal Unit)

/-- The credentials of a destination, where it names any; S3 goes first. -/
def checkStorageCredentials (name : String) (destination : ApiConnection) : Except Refusal Unit :=
  match destination.ducklakeConnection.bind DucklakeConnection.storage with
  | none => .ok ()
  | some storage =>
    match storage.s3Connection, storage.gcsConnection with
    | some s3, _ =>
      ((resolveCloudStorageCredentials machine.policy
        { name := name, type := "s3", s3Connection := some s3 }
        .storageDestination).mapError .credentials).map fun _ => ()
    | none, some gcs =>
      ((resolveCloudStorageCredentials machine.policy
        { name := name, type := "gcs", gcsConnection := some gcs }
        .connection).mapError .credentials).map fun _ => ()
    | none, none => .ok ()

/-- What is tried of a destination that has a name and a type. -/
def checkDestination (name : String) (destination : ApiConnection) : Except Refusal Unit :=
  match validateConnectionShape machine others destination with
  | .error refusal => .error refusal
  | .ok () => checkStorageCredentials machine name destination

/-- One round of the loop: the name of the destination, or why it is rejected. -/
def verdict (seen : List String) : Option ApiConnection →
    Except RejectedStorageDestination (String × ApiConnection)
  | none => .error ⟨none, "the entry is not an object."⟩
  | some destination =>
    match destination.name with
    | .string name =>
      if name = "" then .error ⟨none, "the \"name\" field is missing or not a string."⟩
      else if !(match destination.type with
          | .string type => type ≠ "" && DECLARABLE_STORAGE_DESTINATION_TYPES.contains type
          | _ => false) then
        .error ⟨some name, "the type \"" ++ destination.type.text ++
          "\" is not a supported destination type (supported: " ++
            ", ".intercalate DECLARABLE_STORAGE_DESTINATION_TYPES ++ ")."⟩
      else if name = "duckdb" then
        .error ⟨some name, "the name \"duckdb\" is reserved for per-package sandboxes."⟩
      else if seen.contains name then
        .error ⟨some name, "an earlier entry already uses this name."⟩
      else
        match checkDestination machine others name destination with
        | .error refusal => .error ⟨some name, refusal.message⟩
        | .ok () => .ok (name, { destination with resource := none })
    | _ => .error ⟨none, "the \"name\" field is missing or not a string."⟩

/-- The loop, with the names that are taken. -/
def sortDestinations (seen : List String) : List (Option ApiConnection) → SortedDestinations
  | [] => ⟨[], []⟩
  | entry :: entries =>
    match verdict machine others seen entry with
    | .ok (name, body) =>
      let later := sortDestinations (name :: seen) entries
      ⟨body :: later.accepted, later.rejected⟩
    | .error rejection =>
      let later := sortDestinations seen entries
      ⟨later.accepted, rejection :: later.rejected⟩

def validateStorageDestinations (destinations : List (Option ApiConnection)) : SortedDestinations :=
  sortDestinations machine others [] destinations

/-! ## The attach -/

/-- The checks of `attachCloudStorage`. -/
def checkCloudStorage (attachedDb : AttachedDatabase) : Except Refusal CloudStorageCredentials :=
  (resolveCloudStorageCredentials machine.policy attachedDb .connection).mapError .credentials

/-- The checks of `attachDuckLakeWithMode`. -/
def checkAttach (dbName : String) (ducklakeConfig : DucklakeConnection) : Except Refusal Unit :=
  if (ducklakeConfig.catalog.bind DucklakeCatalog.postgresConnection).isNone then
    .error (.config ("PostgreSQL connection configuration is required for DuckLake catalog: " ++
      dbName))
  else
    match ducklakeConfig.storage, present (ducklakeConfig.storage.bind DucklakeStorage.bucketUrl) with
    | some storage, true =>
      match storage.s3Connection, storage.gcsConnection with
      | some s3, _ =>
        (checkCloudStorage machine
          { name := dbName ++ "_storage", type := "s3", s3Connection := some s3 }).map fun _ => ()
      | none, some gcs =>
        (checkCloudStorage machine
          { name := dbName ++ "_storage", type := "gcs", gcsConnection := some gcs }).map fun _ => ()
      | none, none => .ok ()
    | _, _ => .error (.config ("Storage bucketUrl is required for DuckLake: " ++ dbName))

end Declaration

/-! ## What is asked for -/

def SortedDestinations.append (first second : SortedDestinations) : SortedDestinations :=
  ⟨first.accepted ++ second.accepted, first.rejected ++ second.rejected⟩

section Asked

variable (machine : Machine) (others : ApiConnection → Except Refusal Unit)

/-- A name that a destination of a list is accepted under. -/
def Taken (destinations : List (Option ApiConnection)) (name : String) : Prop :=
  ∃ destination ∈ (validateStorageDestinations machine others destinations).accepted,
    destination.name = .string name

/-- A destination that is to use the host's credentials, with nothing else in its way. -/
structure UsesHost (destination : ApiConnection) (ducklake : DucklakeConnection)
    (catalog : DucklakeCatalog) (storage : DucklakeStorage) (s3 : S3Connection) : Prop where
  type : destination.type = .string "ducklake"
  proxy : destination.proxy = none
  sslmode : present (destination.postgresConnection.bind PostgresConnection.sslmode) = false
  isDucklake : destination.ducklakeConnection = some ducklake
  isCatalog : ducklake.catalog = some catalog
  postgres : catalog.postgresConnection.isSome
  isStorage : ducklake.storage = some storage
  bucketUrl : present storage.bucketUrl = true
  isS3 : storage.s3Connection = some s3
  usesChain : s3.usesChain = true
  chain : s3.notTextChain = false
  static : s3.hasStaticCredential = false
  metadataSchema : isMetadataSchema catalog.metadataSchema = true

/-- What the same settings come to on a connection: they are refused when a DuckLake or a DuckDB is
loaded, and when they are attached. -/
structure RefusedElsewhere (s3 : S3Connection) : Prop where
  /-- On a DuckLake that is otherwise complete. -/
  loadDucklake : ∀ connection ducklake storage, connection.type = .string "ducklake" →
    connection.ducklakeConnection = some ducklake → ducklake.storage = some storage →
      storage.s3Connection = some s3 →
        ∃ refusal, validateConnectionShape machine others connection = .error refusal
  /-- On a database that is attached to a DuckDB. -/
  loadDuckdb : ∀ connection attached attachedDb, connection.type = .string "duckdb" →
    connection.duckdbConnection = some attached → attachedDb ∈ attached →
      attachedDb.database.type = "s3" → attachedDb.database.s3Connection = some s3 →
        ∃ refusal, validateConnectionShape machine others connection = .error refusal
  attach : ∀ attachedDb : AttachedDatabase, attachedDb.type = "s3" →
    attachedDb.s3Connection = some s3 →
      ∃ refusal, checkCloudStorage machine attachedDb = .error refusal

/-- Declaration, load and attach come to the same for a list of destinations. -/
structure Agree (destinations : List (Option ApiConnection)) : Prop where
  /-- What is accepted can be attached. -/
  accepted : ∀ destination ∈ (validateStorageDestinations machine others destinations).accepted,
    ∃ ducklake, destination.ducklakeConnection = some ducklake ∧
      ∀ dbName, checkAttach machine dbName ducklake = .ok ()
  /-- What is refused for its credentials cannot be attached. -/
  rejected : ∀ destination ducklake name message, some destination ∈ destinations →
    destination.type = .string "ducklake" →
      checkDestination machine others name destination = .error (.credentials message) →
        destination.ducklakeConnection = some ducklake →
          ∀ dbName, ∃ refusal, checkAttach machine dbName ducklake = .error refusal
  /-- A destination may use the host's credentials where a connection may not. -/
  host : machine.policy = .destinationsOnly →
    ∀ destination ducklake catalog storage s3, some destination ∈ destinations →
      UsesHost destination ducklake catalog storage s3 →
        (∀ name, checkDestination machine others name destination = .ok ()) ∧
          ∀ dbName, checkAttach machine dbName ducklake = .ok ()
  /-- A connection may not. -/
  elsewhere : machine.policy = .destinationsOnly →
    ∀ s3 : S3Connection, s3.usesChain = true → RefusedElsewhere machine others s3
  /-- A verdict depends on the entry and on the names that are taken before it. -/
  apart : ∀ before entry after before' after', destinations = before ++ entry :: after →
    (∀ name, Taken machine others before name ↔ Taken machine others before' name) →
      ∃ own later later', own.accepted.length + own.rejected.length = 1 ∧
        validateStorageDestinations machine others (before ++ entry :: after) =
          ((validateStorageDestinations machine others before).append own).append later ∧
        validateStorageDestinations machine others (before' ++ entry :: after') =
          ((validateStorageDestinations machine others before').append own).append later'

end Asked

/-! ## The loop -/

section Loop

variable {machine : Machine} {others : ApiConnection → Except Refusal Unit}
  {destination body : ApiConnection} {name : String} {seen seen' : List String}

/-- The names that are taken after a list. -/
def takenNames (machine : Machine) (others : ApiConnection → Except Refusal Unit)
    (seen : List String) : List (Option ApiConnection) → List String
  | [] => seen
  | entry :: entries =>
    match verdict machine others seen entry with
    | .ok (name, _) => takenNames machine others (name :: seen) entries
    | .error _ => takenNames machine others seen entries

theorem sortDestinations_append (before entries : List (Option ApiConnection)) :
    sortDestinations machine others seen (before ++ entries) =
      (sortDestinations machine others seen before).append
        (sortDestinations machine others (takenNames machine others seen before) entries) := by
  induction before generalizing seen with
  | nil => rfl
  | cons entry before ih =>
    rw [List.cons_append, sortDestinations, sortDestinations, takenNames]
    cases verdict machine others seen entry with
    | error rejection =>
      dsimp only
      rw [ih]
      rfl
    | ok accepted =>
      dsimp only
      rw [ih]
      rfl

/-- What a destination that is accepted has passed. -/
theorem of_verdict_eq_ok {entry : Option ApiConnection}
    (accepts : verdict machine others seen entry = .ok (name, body)) :
    ∃ destination, entry = some destination ∧ destination.name = .string name ∧
      destination.type = .string "ducklake" ∧ body = { destination with resource := none } ∧
      checkDestination machine others name destination = .ok () := by
  cases entry with
  | none => cases accepts
  | some destination =>
    rw [verdict] at accepts
    split at accepts
    · next text isName =>
      split_ifs at accepts with empty type reserved taken
      split at accepts
      · cases accepts
      · next check =>
        cases accepts
        refine ⟨destination, rfl, isName, ?_, rfl, check⟩
        revert type
        cases destination.type with
        | string type => simp [DECLARABLE_STORAGE_DESTINATION_TYPES]
        | _ => simp
    · cases accepts

theorem mem_takenNames {entries : List (Option ApiConnection)} :
    name ∈ takenNames machine others seen entries ↔
      name ∈ seen ∨ ∃ destination ∈ (sortDestinations machine others seen entries).accepted,
        destination.name = .string name := by
  induction entries generalizing seen with
  | nil => simp [takenNames, sortDestinations]
  | cons entry entries ih =>
    rw [takenNames, sortDestinations]
    cases isVerdict : verdict machine others seen entry with
    | error rejection => exact ih
    | ok accepted =>
      obtain ⟨own, body⟩ := accepted
      obtain ⟨destination, -, isName, -, rfl, -⟩ := of_verdict_eq_ok isVerdict
      dsimp only
      simp only [ih, List.mem_cons, exists_eq_or_imp, isName, Json.string.injEq]
      rw [or_assoc, or_left_comm, eq_comm]

/-- A verdict asks of the names that are taken only whether its own is one. -/
theorem verdict_congr {entry : Option ApiConnection} (same : ∀ name, name ∈ seen ↔ name ∈ seen') :
    verdict machine others seen entry = verdict machine others seen' entry := by
  have contains : ∀ name, seen.contains name = seen'.contains name := by
    intro name
    rw [Bool.eq_iff_iff, List.contains_iff_mem, List.contains_iff_mem]
    exact same name
  cases entry with
  | none => rfl
  | some destination => simp only [verdict, contains]

end Loop

/-! ## Each check -/

section Checks

variable {machine : Machine} {others : ApiConnection → Except Refusal Unit}
  {destination : ApiConnection} {ducklake : DucklakeConnection} {name dbName : String}

theorem mapError_map_eq_ok {A : Type} {result : Except String A} :
    (result.mapError Refusal.credentials).map (fun _ => ()) = .ok () ↔ ∃ value, result = .ok value := by
  cases result <;> simp [Except.mapError, Except.map]

/-- The storage names no credentials, or credentials that pass. -/
def DucklakeStorage.HasCredentials (storage : DucklakeStorage) (policy : S3CredentialChainPolicy)
    (origin : Origin) : Prop :=
  match storage.s3Connection, storage.gcsConnection with
  | some s3, _ =>
    s3.Shaped policy origin ∧
      (s3.usesChain = true ∨ present s3.accessKeyId = true ∧ present s3.secretAccessKey = true)
  | none, some gcs => present gcs.keyId = true ∧ present gcs.secret = true
  | none, none => True

section HasCredentials

variable {storage : DucklakeStorage} {policy : S3CredentialChainPolicy} {origin origin' : Origin}

theorem DucklakeStorage.HasCredentials.shaped (credentials : storage.HasCredentials policy origin) :
    ∀ s3, storage.s3Connection = some s3 → s3.Shaped policy origin := by
  intro s3 isS3
  rw [DucklakeStorage.HasCredentials, isS3] at credentials
  exact credentials.1

/-- Credentials depend on where they come from only on their face. -/
theorem DucklakeStorage.HasCredentials.of_shaped
    (credentials : storage.HasCredentials policy origin)
    (shaped : ∀ s3, storage.s3Connection = some s3 → s3.Shaped policy origin') :
    storage.HasCredentials policy origin' := by
  unfold DucklakeStorage.HasCredentials at credentials ⊢
  cases isS3 : storage.s3Connection with
  | some s3 =>
    rw [isS3] at credentials
    exact ⟨shaped s3 isS3, credentials.2⟩
  | none =>
    rw [isS3] at credentials
    cases isGcs : storage.gcsConnection with
    | some gcs =>
      rw [isGcs] at credentials
      exact credentials
    | none => trivial

end HasCredentials

theorem checkStorageCredentials_eq_ok {storage : DucklakeStorage}
    (isStorage : destination.ducklakeConnection.bind DucklakeConnection.storage = some storage) :
    checkStorageCredentials machine name destination = .ok () ↔
      storage.HasCredentials machine.policy .storageDestination := by
  rw [checkStorageCredentials, isStorage, DucklakeStorage.HasCredentials]
  dsimp only
  cases storage.s3Connection with
  | some s3 => exact mapError_map_eq_ok.trans resolve_s3_isOk
  | none =>
    cases storage.gcsConnection with
    | some gcs => exact mapError_map_eq_ok.trans resolve_gcs_isOk
    | none => simp

theorem checkAttach_eq_ok :
    checkAttach machine dbName ducklake = .ok () ↔
      (ducklake.catalog.bind DucklakeCatalog.postgresConnection).isSome ∧
        ∃ storage, ducklake.storage = some storage ∧ present storage.bucketUrl = true ∧
          storage.HasCredentials machine.policy .connection := by
  rw [checkAttach]
  cases ducklake.catalog.bind DucklakeCatalog.postgresConnection with
  | none => simp
  | some postgres =>
    cases ducklake.storage with
    | none => simp
    | some storage =>
      cases bucketUrl : present storage.bucketUrl with
      | false => simp [bucketUrl]
      | true =>
        simp only [Option.isNone_some, Bool.false_eq_true, if_false, Option.bind_some, bucketUrl,
          Option.isSome_some, Option.some.injEq, exists_eq_left', true_and,
          DucklakeStorage.HasCredentials]
        cases storage.s3Connection with
        | some s3 => exact mapError_map_eq_ok.trans resolve_s3_isOk
        | none =>
          cases storage.gcsConnection with
          | some gcs => exact mapError_map_eq_ok.trans resolve_gcs_isOk
          | none => simp

/-- A DuckLake that passes the check of its shape. -/
structure DucklakeConnection.Shaped (ducklake : DucklakeConnection)
    (policy : S3CredentialChainPolicy) (catalog : DucklakeCatalog) (storage : DucklakeStorage) :
    Prop where
  isCatalog : ducklake.catalog = some catalog
  postgres : catalog.postgresConnection.isSome
  isStorage : ducklake.storage = some storage
  bucketUrl : present storage.bucketUrl = true
  s3 : ∀ s3, storage.s3Connection = some s3 → s3.Shaped policy .connection
  metadataSchema : isMetadataSchema catalog.metadataSchema = true

theorem elim_validateS3ProviderShape_eq_ok {policy : S3CredentialChainPolicy}
    {s3Connection : Option S3Connection} :
    (s3Connection.elim (.ok ()) fun s3 => validateS3ProviderShape policy s3 name .connection) =
        .ok () ↔ ∀ s3, s3Connection = some s3 → s3.Shaped policy .connection := by
  cases s3Connection with
  | none => simp
  | some s3 => simp [validateS3ProviderShape_eq_ok]

theorem validateDucklake_eq_ok {policy : S3CredentialChainPolicy}
    (isDucklake : destination.ducklakeConnection = some ducklake) :
    validateDucklake policy destination = .ok () ↔
      ∃ catalog storage, ducklake.Shaped policy catalog storage := by
  constructor
  · intro passes
    rw [validateDucklake, isDucklake] at passes
    dsimp only at passes
    split at passes
    · next catalog postgres isCatalog isPostgres =>
      split at passes
      · next storage isStorage bucketUrl =>
        split at passes
        · cases passes
        · next shape =>
          split_ifs at passes with metadataSchema
          rw [isCatalog, Option.bind_some] at isPostgres
          rw [isStorage, Option.bind_some] at bucketUrl
          exact ⟨catalog, storage, isCatalog, by rw [isPostgres]; rfl, isStorage, bucketUrl,
            elim_validateS3ProviderShape_eq_ok.mp shape, metadataSchema⟩
      · cases passes
    · cases passes
  · rintro ⟨catalog, storage, isCatalog, postgres, isStorage, bucketUrl, s3, metadataSchema⟩
    obtain ⟨isPostgres, same⟩ := Option.isSome_iff_exists.mp postgres
    have shape : (storage.s3Connection.elim (.ok ()) fun s3 =>
        validateS3ProviderShape policy s3 destination.name.text .connection) = .ok () :=
      elim_validateS3ProviderShape_eq_ok.mpr s3
    simp only [validateDucklake, isDucklake, isCatalog, Option.bind_some, same, isStorage,
      bucketUrl, shape, metadataSchema, if_true]

/-- A DuckLake has no proxy. -/
theorem validateConnectionShape_ducklake (type : destination.type = .string "ducklake") :
    validateConnectionShape machine others destination = .ok () ↔
      destination.proxy = none ∧
        present (destination.postgresConnection.bind PostgresConnection.sslmode) = false ∧
        validateDucklake machine.policy destination = .ok () := by
  have branch : validateConnectionType machine others destination =
      validateDucklake machine.policy destination := by
    rw [validateConnectionType, type]
    rfl
  rw [validateConnectionShape]
  cases destination.proxy with
  | none =>
    cases present (destination.postgresConnection.bind PostgresConnection.sslmode) <;> simp [branch]
  | some proxy =>
    have refused : ∃ refusal, validateProxy machine destination proxy = .error refusal := by
      by_cases ssh : proxy.type = "ssh"
      · simp [validateProxy, ssh, type]
      · simp [validateProxy, ssh]
    obtain ⟨refusal, isRefusal⟩ := refused
    simp [isRefusal]

end Checks

/-! ## The checks together -/

section Together

variable {machine : Machine} {others : ApiConnection → Except Refusal Unit}
  {destination : ApiConnection} {ducklake : DucklakeConnection} {name : String}

/-- What is accepted can be attached: a destination's credentials are checked as a connection's are
on their face, and whether they are complete does not depend on where they come from. -/
theorem checkAttach_of_checkDestination (type : destination.type = .string "ducklake")
    (checks : checkDestination machine others name destination = .ok ()) :
    ∃ ducklake, destination.ducklakeConnection = some ducklake ∧
      ∀ dbName, checkAttach machine dbName ducklake = .ok () := by
  rw [checkDestination] at checks
  split at checks
  · cases checks
  · next shape =>
    obtain ⟨-, -, shape⟩ := (validateConnectionShape_ducklake type).mp shape
    obtain ⟨ducklake, isDucklake⟩ : ∃ ducklake, destination.ducklakeConnection = some ducklake := by
      cases isDucklake : destination.ducklakeConnection with
      | none => simp [validateDucklake, isDucklake] at shape
      | some ducklake => exact ⟨ducklake, rfl⟩
    obtain ⟨catalog, storage, shaped⟩ := (validateDucklake_eq_ok isDucklake).mp shape
    refine ⟨ducklake, isDucklake, fun dbName => checkAttach_eq_ok.mpr ⟨?_, storage,
      shaped.isStorage, shaped.bucketUrl, ?_⟩⟩
    · rw [shaped.isCatalog]
      exact shaped.postgres
    · have credentials := (checkStorageCredentials_eq_ok (by
        rw [isDucklake, Option.bind_some, shaped.isStorage])).mp checks
      exact credentials.of_shaped shaped.s3

theorem validateProxiedPostgres_ne_credentials {proxy : ConnectionProxy}
    {postgres : PostgresConnection} {message : String} :
    validateProxiedPostgres machine name proxy postgres ≠ .error (.credentials message) := by
  rw [validateProxiedPostgres]
  split_ifs <;> simp

theorem validateProxy_ne_credentials {proxy : ConnectionProxy} {message : String} :
    validateProxy machine destination proxy ≠ .error (.credentials message) := by
  rw [validateProxy]
  split_ifs
  any_goals simp
  cases destination.postgresConnection with
  | none => simp
  | some postgres =>
    dsimp only
    split_ifs
    · exact validateProxiedPostgres_ne_credentials
    · simp

/-- Only storage credentials are refused as such. -/
theorem validateConnectionShape_ne_credentials {storage : DucklakeStorage} {message : String}
    (type : destination.type = .string "ducklake")
    (isDucklake : destination.ducklakeConnection = some ducklake)
    (isStorage : ducklake.storage = some storage)
    (s3 : ∀ s3, storage.s3Connection = some s3 → s3.Shaped machine.policy .connection) :
    validateConnectionShape machine others destination ≠ .error (.credentials message) := by
  have branch : validateConnectionType machine others destination =
      validateDucklake machine.policy destination := by
    rw [validateConnectionType, type]
    rfl
  have ducklakeBranch :
      validateDucklake machine.policy destination ≠ .error (.credentials message) := by
    have shape : (storage.s3Connection.elim (.ok ()) fun s3 =>
        validateS3ProviderShape machine.policy s3 destination.name.text .connection) = .ok () :=
      elim_validateS3ProviderShape_eq_ok.mpr s3
    rw [validateDucklake, isDucklake]
    dsimp only
    split
    · split
      · next storage' isStorage' _ =>
        rw [isStorage] at isStorage'
        cases isStorage'
        rw [shape]
        dsimp only
        split_ifs <;> simp
      · simp
    · simp
  rw [validateConnectionShape]
  cases destination.proxy with
  | some proxy =>
    dsimp only
    cases isProxy : validateProxy machine destination proxy with
    | error refusal =>
      intro same
      cases same
      exact validateProxy_ne_credentials isProxy
    | ok => exact branch ▸ ducklakeBranch
  | none =>
    dsimp only
    split_ifs
    · simp
    · exact branch ▸ ducklakeBranch

theorem not_credentials_of_checkAttach {dbName message : String}
    (type : destination.type = .string "ducklake")
    (isDucklake : destination.ducklakeConnection = some ducklake)
    (attaches : checkAttach machine dbName ducklake = .ok ()) :
    checkDestination machine others name destination ≠ .error (.credentials message) := by
  obtain ⟨-, storage, isStorage, -, credentials⟩ := checkAttach_eq_ok.mp attaches
  intro refused
  rw [checkDestination] at refused
  split at refused
  · next refusal isRefusal =>
    cases refused
    exact validateConnectionShape_ne_credentials type isDucklake isStorage credentials.shaped
      isRefusal
  · have permitted := credentials.of_shaped fun s3 isS3 =>
      (credentials.shaped s3 isS3).storageDestination
    rw [(checkStorageCredentials_eq_ok (by rw [isDucklake, Option.bind_some, isStorage])).mpr
      permitted] at refused
    cases refused

/-! ### The host's credentials -/

theorem not_shaped_of_usesChain {s3 : S3Connection} (policy : machine.policy = .destinationsOnly)
    (usesChain : s3.usesChain = true) : ¬s3.Shaped machine.policy .connection := by
  intro shaped
  have permitted := (shaped.host usesChain).1
  rw [policy] at permitted
  cases permitted

theorem exists_error_of_ne_ok {E : Type} {result : Except E Unit} (fails : result ≠ .ok ()) :
    ∃ error, result = .error error := by
  cases result with
  | error error => exact ⟨error, rfl⟩
  | ok => exact absurd rfl fails

theorem firstRefusal_eq_ok {A : Type} {check : A → Except Refusal Unit} {items : List A} :
    firstRefusal check items = .ok () ↔ ∀ item ∈ items, check item = .ok () := by
  induction items with
  | nil => simp [firstRefusal]
  | cons item items ih =>
    rw [firstRefusal]
    cases isCheck : check item with
    | error refusal => simp [isCheck]
    | ok => simp [ih, isCheck]

theorem refusedElsewhere {s3 : S3Connection} (policy : machine.policy = .destinationsOnly)
    (usesChain : s3.usesChain = true) : RefusedElsewhere machine others s3 where
  loadDucklake connection ducklake storage type isDucklake isStorage isS3 := by
    refine exists_error_of_ne_ok fun passes => ?_
    obtain ⟨-, -, shape⟩ := (validateConnectionShape_ducklake type).mp passes
    obtain ⟨catalog, storage', shaped⟩ := (validateDucklake_eq_ok isDucklake).mp shape
    have same := isStorage.symm.trans shaped.isStorage
    cases same
    exact not_shaped_of_usesChain policy usesChain (shaped.s3 s3 isS3)
  loadDuckdb connection attached attachedDb type isDuckdb member isType isS3 := by
    refine exists_error_of_ne_ok fun passes => ?_
    have branch : validateConnectionType machine others connection =
        validateDuckdb machine.policy connection := by
      rw [validateConnectionType, type]
      rfl
    have passes' : validateDuckdb machine.policy connection = .ok () := by
      rw [validateConnectionShape, branch] at passes
      split at passes
      · split at passes
        · cases passes
        · exact passes
      · split_ifs at passes
        exact passes
    rw [validateDuckdb, isDuckdb] at passes'
    dsimp only at passes'
    split at passes'
    · cases passes'
    · split_ifs at passes'
      have own := firstRefusal_eq_ok.mp passes' attachedDb member
      rw [if_pos isType, isS3, Option.elim_some] at own
      refine not_shaped_of_usesChain policy usesChain ?_
      cases shape : validateS3ProviderShape machine.policy s3
          (attachedDb.name.getD connection.name.text) .connection with
      | error message => simp [shape, Except.mapError] at own
      | ok => exact validateS3ProviderShape_eq_ok.mp shape
  attach attachedDb isType isS3 := by
    have other : attachedDb.type ≠ "gcs" := isType ▸ by decide
    obtain ⟨message, isMessage⟩ : ∃ message, validateS3ProviderShape machine.policy s3
        attachedDb.name .connection = .error message := by
      refine exists_error_of_ne_ok fun shape => ?_
      exact not_shaped_of_usesChain policy usesChain (validateS3ProviderShape_eq_ok.mp shape)
    refine ⟨.credentials message, ?_⟩
    rw [checkCloudStorage, resolveCloudStorageCredentials, if_neg other, if_pos isType, isS3]
    dsimp only
    rw [isMessage]
    rfl

/-- Under this policy a destination is refused the host's credentials at its declaration. -/
theorem checkDestination_of_usesHost {catalog : DucklakeCatalog} {storage : DucklakeStorage}
    {s3 : S3Connection} (policy : machine.policy = .destinationsOnly)
    (uses : UsesHost destination ducklake catalog storage s3) :
    checkDestination machine others name destination ≠ .ok () := by
  obtain ⟨refusal, isRefusal⟩ :=
    (@refusedElsewhere machine others s3 policy uses.usesChain).loadDucklake destination ducklake
      storage uses.type uses.isDucklake uses.isStorage uses.isS3
  rw [checkDestination, isRefusal]
  simp

end Together

/-! ## Main results -/

section Main

variable {machine : Machine} {others : ApiConnection → Except Refusal Unit}

/-- What is accepted of a list has passed its checks. -/
theorem checkDestination_of_mem_accepted {seen : List String}
    {entries : List (Option ApiConnection)} {body : ApiConnection}
    (member : body ∈ (sortDestinations machine others seen entries).accepted) :
    ∃ destination name, some destination ∈ entries ∧ destination.type = .string "ducklake" ∧
      body = { destination with resource := none } ∧
      checkDestination machine others name destination = .ok () := by
  induction entries generalizing seen with
  | nil => cases member
  | cons entry entries ih =>
    rw [sortDestinations] at member
    cases isVerdict : verdict machine others seen entry with
    | error rejection =>
      rw [isVerdict] at member
      obtain ⟨destination, name, isEntry, rest⟩ := ih member
      exact ⟨destination, name, List.mem_cons_of_mem _ isEntry, rest⟩
    | ok accepted =>
      obtain ⟨name, own⟩ := accepted
      rw [isVerdict] at member
      obtain ⟨destination, rfl, -, type, isBody, checks⟩ := of_verdict_eq_ok isVerdict
      rcases List.mem_cons.mp member with rfl | later
      · exact ⟨destination, name, List.mem_cons_self, type, isBody, checks⟩
      · obtain ⟨destination, name, isEntry, rest⟩ := ih later
        exact ⟨destination, name, List.mem_cons_of_mem _ isEntry, rest⟩

/-- What the verdict on an entry adds, whatever follows. -/
theorem sortDestinations_cons_eq (seen : List String) (entry : Option ApiConnection) :
    ∃ own : SortedDestinations, own.accepted.length + own.rejected.length = 1 ∧
      ∀ seen', (∀ name, name ∈ seen' ↔ name ∈ seen) → ∀ after, ∃ later,
        sortDestinations machine others seen' (entry :: after) = own.append later := by
  cases isVerdict : verdict machine others seen entry with
  | error rejection =>
    refine ⟨⟨[], [rejection]⟩, rfl, fun seen' same after => ?_⟩
    refine ⟨sortDestinations machine others seen' after, ?_⟩
    rw [sortDestinations, verdict_congr same, isVerdict]
    rfl
  | ok accepted =>
    refine ⟨⟨[accepted.2], []⟩, rfl, fun seen' same after => ?_⟩
    refine ⟨sortDestinations machine others (accepted.1 :: seen') after, ?_⟩
    rw [sortDestinations, verdict_congr same, isVerdict]
    rfl

/-- Declaration, load and attach come to the same, but for a destination that is to use the host's
credentials where connections may not. -/
theorem destinations_agree_iff (machine : Machine) (others : ApiConnection → Except Refusal Unit)
    (destinations : List (Option ApiConnection)) :
    Agree machine others destinations ↔
      (machine.policy = .destinationsOnly →
        ∀ destination ducklake catalog storage s3, some destination ∈ destinations →
          ¬UsesHost destination ducklake catalog storage s3) := by
  constructor
  · intro agree policy destination ducklake catalog storage s3 member uses
    exact checkDestination_of_usesHost policy uses
      ((agree.host policy destination ducklake catalog storage s3 member uses).1 "")
  · intro without
    refine ⟨?_, ?_, ?_, fun policy s3 usesChain => refusedElsewhere policy usesChain, ?_⟩
    · intro body member
      obtain ⟨destination, name, -, type, rfl, checks⟩ := checkDestination_of_mem_accepted member
      obtain ⟨ducklake, isDucklake, attaches⟩ := checkAttach_of_checkDestination type checks
      exact ⟨ducklake, isDucklake, attaches⟩
    · intro destination ducklake name message _ type refused isDucklake dbName
      exact exists_error_of_ne_ok fun attaches =>
        not_credentials_of_checkAttach type isDucklake attaches refused
    · intro policy destination ducklake catalog storage s3 member uses
      exact absurd uses (without policy destination ducklake catalog storage s3 member)
    · intro before entry after before' after' _ same
      obtain ⟨own, one, adds⟩ :=
        @sortDestinations_cons_eq machine others (takenNames machine others [] before) entry
      obtain ⟨later, isLater⟩ := adds _ (fun _ => Iff.rfl) after
      obtain ⟨later', isLater'⟩ := adds (takenNames machine others [] before') (by
        intro name
        rw [mem_takenNames, mem_takenNames]
        exact or_congr_right (same name).symm) after'
      refine ⟨own, later, later', one, ?_, ?_⟩
      · rw [validateStorageDestinations, sortDestinations_append, isLater]
        simp [SortedDestinations.append, validateStorageDestinations]
      · rw [validateStorageDestinations, sortDestinations_append, isLater']
        simp [SortedDestinations.append, validateStorageDestinations]

/-- A DuckLake in a bucket that is read with the host's credentials. -/
def hosted : ApiConnection where
  name := .string "lake"
  type := .string "ducklake"
  ducklakeConnection := some {
    catalog := some { postgresConnection := some {} }
    storage := some {
      bucketUrl := some "s3://bucket"
      s3Connection := some { provider := .string "credential_chain" } } }

/-- It is rejected where only destinations may use the host's credentials. -/
theorem hosted_is_rejected :
    (validateStorageDestinations ⟨.destinationsOnly, false, fun _ => false, fun _ => false⟩
      (fun _ => .ok ()) [some hosted]).accepted = [] ∧
      ¬Agree ⟨.destinationsOnly, false, fun _ => false, fun _ => false⟩ (fun _ => .ok ())
        [some hosted] := by
  refine ⟨rfl, fun agree => ?_⟩
  have uses : UsesHost hosted _ _ _ _ :=
    ⟨rfl, rfl, rfl, rfl, rfl, rfl, rfl, by decide, rfl, by decide, rfl, rfl, rfl⟩
  have checks := (agree.host rfl hosted _ _ _ _ List.mem_cons_self uses).1 "lake"
  exact checkDestination_of_usesHost rfl uses checks

end Main

end MalloyPublisher.Connections
