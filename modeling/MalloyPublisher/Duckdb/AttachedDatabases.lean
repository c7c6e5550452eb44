import MalloyPublisher.Duckdb.DatabaseFiles
import Mathlib.Data.List.Infix

/-!
# The databases attached to a DuckDB session

A DuckDB connection lists databases to attach. For each a secret with its credentials is written
where its type has one, and the database is attached under its name where its type is a catalog. The
engine folds the names of secrets and of aliases; the check for a database that is attached compares
exactly, and what the engine then says of an alias that exists is passed over.

## Main definitions

* `attachDatabasesToDuckDB` — the entries of a list, one after another
* `ReadsOwn` — every entry reads its own database with its own credentials, and a further run
  changes nothing
* `KeptApart` — the secrets and aliases of the entries are apart for the engine

## Main results

* `secrets_attached`, `denotes_attached` — what a run leaves under a secret and under an alias
* `readsOwn_iff` — a run that returns leaves every entry its own exactly where they are kept apart
-/

namespace MalloyPublisher.Duckdb

/-! ## Sessions -/

/-- How the engine reads names. -/
structure Engine where
  /-- The folded identifier that a text stands for without quotes, if a statement with it parses. -/
  unquoted : String → Option String
  /-- The folded identifier of a quoted text. -/
  quoted : String → String
  /-- What is answered to a statement that does not parse. -/
  syntaxError : String → String
  /-- The catalogs that a session opens with. -/
  own : List String

/-- A database that is attached: the name it is shown under, its folded alias and what it reads. -/
structure Attachment (δ : Type*) where
  shown : String
  key : String
  database : δ

/-- The secrets, by folded name, and what is attached beside the session's own catalogs. -/
structure Session (κ δ : Type*) where
  secrets : String → Option κ
  databases : List (Attachment δ)

def Session.fresh {κ δ : Type*} : Session κ δ where
  secrets := fun _ => none
  databases := []

inductive AttachedType
  | bigquery
  | snowflake
  | postgres
  | gcs
  | s3
  | azure
  deriving DecidableEq, Repr

/-- An entry of the list. No type stands for one that is not supported. -/
structure AttachedDatabase (κ δ : Type*) where
  name : String
  type : Option AttachedType
  credentials : κ
  database : δ
  /-- Whether an Azure entry reads through a signed URL, without a secret. -/
  sasToken : Bool
  /-- What fails before anything is written: its config, an extension. -/
  refusal : Option String
  /-- What else than the alias fails when it is attached: a test query, the database. -/
  attachRefusal : Option String

section Engine

variable {κ δ : Type*} (engine : Engine) (session : Session κ δ)

def Engine.ownKeys : List String := engine.own.map engine.quoted

/-- `CREATE OR REPLACE SECRET`. -/
def createSecret (name : String) (credentials : κ) : Session κ δ × Option String :=
  match engine.unquoted name with
  | none => (session, some (engine.syntaxError name))
  | some key =>
    ({ session with secrets := Function.update session.secrets key (some credentials) }, none)

def doesSecretExistInDuckDB (name : String) : Bool :=
  ((engine.unquoted name).bind session.secrets).isSome

/-- `DETACH`, of which an error is caught. The session's own catalogs stay. -/
def detach (name : String) : Session κ δ :=
  match engine.unquoted name with
  | none => session
  | some key =>
    { session with databases := session.databases.filter fun attached => attached.key ≠ key }

/-- What is answered where the alias exists. -/
def existsError (name : String) : String :=
  "Failed to attach database: database with name \"" ++ name ++ "\" " ++ "already exists"

/-- `ATTACH`, under an alias as it is read. -/
def attach (name : String) (read : Option String) (database : δ) : Session κ δ × Option String :=
  match read with
  | none => (session, some (engine.syntaxError name))
  | some key =>
    if key ∈ engine.ownKeys ∨ key ∈ session.databases.map Attachment.key then
      (session, some (existsError name))
    else
      ({ session with databases := session.databases ++ [⟨name, key, database⟩] }, none)

/-- The exact comparison with the names that are shown. -/
def isDatabaseAttached (name : String) : Bool :=
  name ∈ engine.own ∨ name ∈ session.databases.map Attachment.shown

end Engine

/-! ## The handlers -/

/-- Every UTF-16 unit that is no letter, digit or underscore becomes an underscore. -/
def sanitizeSecretName (name : String) : String :=
  "secret_" ++ String.ofList (name.toList.flatMap fun c =>
    if c.isAlphanum || c == '_' then [c] else if c.val < 0x10000 then ['_'] else ['_', '_'])

section Handlers

variable {κ δ : Type*} (engine : Engine) (session : Session κ δ) (attachedDb : AttachedDatabase κ δ)

/-- Write the secret, then attach. -/
def attachUnderSecret (secretName : String) : Session κ δ × Option String :=
  match attachedDb.refusal with
  | some error => (session, some error)
  | none =>
    match createSecret engine session secretName attachedDb.credentials with
    | (written, some error) => (written, some error)
    | (written, none) =>
      match attachedDb.attachRefusal with
      | some error => (written, some error)
      | none =>
        attach engine written attachedDb.name (engine.unquoted attachedDb.name) attachedDb.database

def attachBigQuery : Session κ δ × Option String :=
  attachUnderSecret engine session attachedDb (sanitizeSecretName ("bigquery_" ++ attachedDb.name))

def attachSnowflake : Session κ δ × Option String :=
  attachUnderSecret engine session attachedDb (attachedDb.name ++ "_secret")

def attachPostgres : Session κ δ × Option String :=
  match attachedDb.refusal with
  | some error => (session, some error)
  | none =>
    if attachedDb.name = "" then (session, some "Attached database name is required")
    else
      match attachedDb.attachRefusal with
      | some error => (session, some error)
      | none =>
        attach engine session attachedDb.name (some (engine.quoted attachedDb.name))
          attachedDb.database

/-- Write the secret. Where there is one of the name, what is attached by the name of the entry is
detached first. -/
def refreshSecret (secretName : String) : Session κ δ × Option String :=
  match attachedDb.refusal with
  | some error => (session, some error)
  | none =>
    let refreshed :=
      if doesSecretExistInDuckDB engine session secretName then
        detach engine session attachedDb.name
      else session
    createSecret engine refreshed secretName attachedDb.credentials

def attachCloudStorage (type : String) : Session κ δ × Option String :=
  refreshSecret engine session attachedDb (sanitizeSecretName (type ++ "_" ++ attachedDb.name))

def attachAzureStorage : Session κ δ × Option String :=
  if attachedDb.sasToken then (session, attachedDb.refusal)
  else refreshSecret engine session attachedDb (sanitizeSecretName ("azure_" ++ attachedDb.name))

/-- The handler of a type. -/
def handle : AttachedType → Session κ δ × Option String
  | .bigquery => attachBigQuery engine session attachedDb
  | .snowflake => attachSnowflake engine session attachedDb
  | .postgres => attachPostgres engine session attachedDb
  | .gcs => attachCloudStorage engine session attachedDb "gcs"
  | .s3 => attachCloudStorage engine session attachedDb "s3"
  | .azure => attachAzureStorage engine session attachedDb

/-- The errors that count as an alias that exists. -/
def isAlreadyAttached (error : String) : Bool := "already exists".toList <:+: error.toList

/-- One round of the loop. -/
def attachEntry : Session κ δ × Option String :=
  if isDatabaseAttached engine session attachedDb.name then (session, none)
  else
    match attachedDb.type with
    | none =>
      (session, some ("Failed to attach database " ++ attachedDb.name ++ ": Unsupported type"))
    | some type =>
      match handle engine session attachedDb type with
      | (after, none) => (after, none)
      | (after, some error) =>
        if isAlreadyAttached error then (after, none)
        else (after, some ("Failed to attach database " ++ attachedDb.name ++ ": " ++ error))

/-- Attach the entries in their order, up to the first that fails. -/
def attachDatabasesToDuckDB : Session κ δ → List (AttachedDatabase κ δ) →
    Session κ δ × Option String
  | session, [] => (session, none)
  | session, attachedDb :: later =>
    match attachEntry engine session attachedDb with
    | (after, none) => attachDatabasesToDuckDB after later
    | (after, some error) => (after, some error)

end Handlers

/-! ## What a query can see -/

section Seen

variable {κ δ : Type*} (engine : Engine)

/-- The name under which the secret of an entry is written, where its type has one. -/
def secretName (attachedDb : AttachedDatabase κ δ) : Option String :=
  match attachedDb.type with
  | some .bigquery => some (sanitizeSecretName ("bigquery_" ++ attachedDb.name))
  | some .snowflake => some (attachedDb.name ++ "_secret")
  | some .gcs => some (sanitizeSecretName ("gcs_" ++ attachedDb.name))
  | some .s3 => some (sanitizeSecretName ("s3_" ++ attachedDb.name))
  | some .azure =>
    if attachedDb.sasToken then none else some (sanitizeSecretName ("azure_" ++ attachedDb.name))
  | some .postgres => none
  | none => none

def secretKey (attachedDb : AttachedDatabase κ δ) : Option String :=
  (secretName attachedDb).bind engine.unquoted

/-- The types that attach a catalog. -/
def AttachedDatabase.isCatalog (attachedDb : AttachedDatabase κ δ) : Bool :=
  attachedDb.type = some .bigquery ∨ attachedDb.type = some .snowflake ∨
    attachedDb.type = some .postgres

/-- The folded alias of an entry that attaches a catalog. -/
def aliasKey (attachedDb : AttachedDatabase κ δ) : Option String :=
  match attachedDb.type with
  | some .bigquery => engine.unquoted attachedDb.name
  | some .snowflake => engine.unquoted attachedDb.name
  | some .postgres =>
    if attachedDb.name = "" then none else some (engine.quoted attachedDb.name)
  | _ => none

/-- The database that is read under a folded alias, other than the session's own. -/
def Session.denotes (session : Session κ δ) (key : String) : Option δ :=
  if key ∈ engine.ownKeys then none
  else (session.databases.find? fun attached => attached.key = key).map Attachment.database

/-- Every entry has its credentials under a secret of its own, and its database under its alias. A
further run changes neither secrets nor what aliases denote. -/
structure ReadsOwn (entries : List (AttachedDatabase κ δ)) (session : Session κ δ) : Prop where
  secrets : ∀ attachedDb ∈ entries, ∀ name, secretName attachedDb = some name →
    ∃ key, engine.unquoted name = some key ∧ session.secrets key = some attachedDb.credentials
  apart : entries.Pairwise fun attachedDb other =>
    ∀ key, secretKey engine attachedDb = some key → secretKey engine other ≠ some key
  aliases : ∀ attachedDb ∈ entries, attachedDb.isCatalog = true →
    ∃ key, aliasKey engine attachedDb = some key ∧
      session.denotes engine key = some attachedDb.database
  again : ∀ key,
    (attachDatabasesToDuckDB engine session entries).1.secrets key = session.secrets key ∧
    (attachDatabasesToDuckDB engine session entries).1.denotes engine key =
      session.denotes engine key

/-- An entry that attaches a catalog under a key, if the key is free. -/
def attachesUnder (key : String) (attachedDb : AttachedDatabase κ δ) : Bool :=
  aliasKey engine attachedDb = some key ∧ attachedDb.name ∉ engine.own ∧
    attachedDb.refusal = none ∧ attachedDb.attachRefusal = none

/-- An entry that has a secret only, and whose name stands for a key. -/
def detachesUnder (key : String) (attachedDb : AttachedDatabase κ δ) : Bool :=
  (secretKey engine attachedDb).isSome ∧ attachedDb.isCatalog = false ∧
    engine.unquoted attachedDb.name = some key

/-- For the engine the entries are apart: secrets can be written and have names of their own, an
alias is none of the session's catalogs and no other database is attached under it first, and one
that the name of an entry with a secret only stands for is attached after that entry. -/
structure KeptApart (entries : List (AttachedDatabase κ δ)) : Prop where
  secrets : ∀ attachedDb ∈ entries, ∀ name, secretName attachedDb = some name →
    (engine.unquoted name).isSome ∧ attachedDb.name ∉ engine.own ∧ attachedDb.refusal = none
  apart : entries.Pairwise fun attachedDb other =>
    ∀ key, secretKey engine attachedDb = some key → secretKey engine other ≠ some key
  aliases : ∀ attachedDb ∈ entries, attachedDb.isCatalog = true →
    ∃ key, aliasKey engine attachedDb = some key ∧ key ∉ engine.ownKeys ∧
      (entries.find? (attachesUnder engine key)).map AttachedDatabase.database =
        some attachedDb.database
  attachedAfter : ∀ before attachedDb after, entries = before ++ attachedDb :: after →
    ∀ key ∉ engine.ownKeys, detachesUnder engine key attachedDb = true →
      (∃ other ∈ entries, attachesUnder engine key other = true) →
        ∃ other ∈ after, attachesUnder engine key other = true

end Seen

/-! ## One entry -/

section Step

variable {κ δ : Type*} {engine : Engine} {session : Session κ δ} {attachedDb : AttachedDatabase κ δ}
  {key : String}

/-- What is read under a folded alias beside the session's own catalogs. -/
def Session.lookup (session : Session κ δ) (key : String) : Option δ :=
  (session.databases.find? fun attached => attached.key = key).map Attachment.database

theorem denotes_of_notMem (foreign : key ∉ engine.ownKeys) :
    session.denotes engine key = session.lookup key := if_neg foreign

theorem denotes_of_mem (isOwn : key ∈ engine.ownKeys) : session.denotes engine key = none :=
  if_pos isOwn

theorem secrets_createSecret (name : String) (credentials : κ) :
    (createSecret engine session name credentials).1.secrets key =
      if engine.unquoted name = some key then some credentials else session.secrets key := by
  unfold createSecret
  split
  · next silent => simp [silent]
  · next read reads =>
    rw [reads]
    by_cases same : read = key
    · simp [same]
    · rw [if_neg (by simpa using same)]
      exact Function.update_of_ne (Ne.symm same) _ _

@[simp] theorem databases_createSecret (name : String) (credentials : κ) :
    (createSecret engine session name credentials).1.databases = session.databases := by
  unfold createSecret
  split <;> rfl

@[simp] theorem secrets_attach (name : String) (read : Option String) (database : δ) :
    (attach engine session name read database).1.secrets = session.secrets := by
  unfold attach
  split
  · rfl
  · split_ifs <;> rfl

@[simp] theorem secrets_detach (name : String) :
    (detach engine session name).secrets = session.secrets := by
  unfold detach
  split <;> rfl

theorem secrets_attachUnderSecret (name : String) :
    (attachUnderSecret engine session attachedDb name).1.secrets key =
      if engine.unquoted name = some key ∧ attachedDb.refusal = none then
        some attachedDb.credentials
      else session.secrets key := by
  have written : (createSecret engine session name attachedDb.credentials).1.secrets key =
      if engine.unquoted name = some key then some attachedDb.credentials
      else session.secrets key := secrets_createSecret name attachedDb.credentials
  unfold attachUnderSecret
  cases attachedDb.refusal with
  | some error => simp
  | none =>
    simp only [and_true]
    rw [← written]
    cases createSecret engine session name attachedDb.credentials with
    | mk after error => cases error <;> cases attachedDb.attachRefusal <;> simp

theorem secrets_refreshSecret (name : String) :
    (refreshSecret engine session attachedDb name).1.secrets key =
      if engine.unquoted name = some key ∧ attachedDb.refusal = none then
        some attachedDb.credentials
      else session.secrets key := by
  unfold refreshSecret
  cases attachedDb.refusal with
  | some error => simp
  | none =>
    rw [secrets_createSecret]
    split_ifs <;> simp_all

theorem secrets_handle {type : AttachedType} (isType : attachedDb.type = some type) :
    (handle engine session attachedDb type).1.secrets key =
      if secretKey engine attachedDb = some key ∧ attachedDb.refusal = none then
        some attachedDb.credentials
      else session.secrets key := by
  cases type with
  | bigquery =>
    rw [handle, attachBigQuery, secrets_attachUnderSecret, secretKey, secretName, isType]
    rfl
  | snowflake =>
    rw [handle, attachSnowflake, secrets_attachUnderSecret, secretKey, secretName, isType]
    rfl
  | gcs =>
    rw [handle, attachCloudStorage, secrets_refreshSecret, secretKey, secretName, isType]
    rfl
  | s3 =>
    rw [handle, attachCloudStorage, secrets_refreshSecret, secretKey, secretName, isType]
    rfl
  | azure =>
    rw [handle, attachAzureStorage, secretKey, secretName, isType]
    by_cases signed : attachedDb.sasToken = true
    · simp [signed]
    · simp only [signed, if_false, Bool.false_eq_true]
      exact secrets_refreshSecret _
  | postgres =>
    rw [handle, attachPostgres, secretKey, secretName, isType]
    cases attachedDb.refusal with
    | some error => simp
    | none => cases attachedDb.attachRefusal <;> split_ifs <;> simp_all

/-- Only the entry's own secret is written, unless the entry is passed over or refused. -/
theorem secrets_attachEntry :
    (attachEntry engine session attachedDb).1.secrets key =
      if isDatabaseAttached engine session attachedDb.name = false ∧
          secretKey engine attachedDb = some key ∧ attachedDb.refusal = none then
        some attachedDb.credentials
      else session.secrets key := by
  unfold attachEntry
  cases shown : isDatabaseAttached engine session attachedDb.name with
  | true => simp
  | false =>
    cases isType : attachedDb.type with
    | none => simp [secretKey, secretName, isType]
    | some type =>
      have written : (handle engine session attachedDb type).1.secrets key = _ :=
        secrets_handle isType
      simp only [Bool.false_eq_true, if_false, true_and]
      rw [← written]
      cases handle engine session attachedDb type with
      | mk after error =>
        cases error with
        | none => rfl
        | some error => dsimp only; split_ifs <;> rfl

/-- An alias that is free is attached. -/
theorem lookup_attach (foreign : key ∉ engine.ownKeys) (name : String) (read : Option String)
    (database : δ) :
    (attach engine session name read database).1.lookup key =
      if read = some key then (session.lookup key).or (some database) else session.lookup key := by
  unfold attach
  split
  · simp
  · next found =>
    split_ifs with taken same same
    · obtain rfl := Option.some.inj same
      have attached := taken.resolve_left foreign
      obtain ⟨entry, isListed, hasKey⟩ := List.mem_map.mp attached
      have denoted : (session.lookup found).isSome := by
        rw [Session.lookup, Option.isSome_map, List.find?_isSome]
        exact ⟨entry, isListed, by simpa using hasKey⟩
      obtain ⟨read, isRead⟩ := Option.isSome_iff_exists.mp denoted
      simp [isRead]
    · rfl
    · obtain rfl := Option.some.inj same
      rw [Session.lookup, Session.lookup, List.find?_append]
      cases session.databases.find? fun attached => attached.key = found <;> simp
    · rw [Option.some.injEq] at same
      simp [Session.lookup, List.find?_append, same]

theorem lookup_detach (name : String) :
    (detach engine session name).lookup key =
      if engine.unquoted name = some key then none else session.lookup key := by
  unfold detach
  split
  · next silent => simp [silent]
  · next read reads =>
    rw [reads, Session.lookup, List.find?_filter]
    split_ifs with same
    · obtain rfl := Option.some.inj same
      simp
    · rw [Option.some.injEq] at same
      rw [Session.lookup]
      congr 2
      funext attached
      by_cases isKey : attached.key = key
      · simp [isKey, Ne.symm same]
      · simp [isKey]

/-- The databases come from entries of a list that attach under their keys. -/
def Session.From (engine : Engine) (entries : List (AttachedDatabase κ δ))
    (session : Session κ δ) : Prop :=
  ∀ attached ∈ session.databases, ∃ attachedDb ∈ entries,
    attachesUnder engine attached.key attachedDb = true ∧ attached.shown = attachedDb.name ∧
      attached.database = attachedDb.database

theorem attachesUnder_iff : attachesUnder engine key attachedDb = true ↔
    aliasKey engine attachedDb = some key ∧ attachedDb.name ∉ engine.own ∧
      attachedDb.refusal = none ∧ attachedDb.attachRefusal = none := by
  rw [attachesUnder, decide_eq_true_iff]

theorem detachesUnder_iff : detachesUnder engine key attachedDb = true ↔
    (secretKey engine attachedDb).isSome ∧ attachedDb.isCatalog = false ∧
      engine.unquoted attachedDb.name = some key := by
  rw [detachesUnder, decide_eq_true_iff]

theorem isCatalog_of_aliasKey (hasAlias : aliasKey engine attachedDb = some key) :
    attachedDb.isCatalog = true := by
  rw [AttachedDatabase.isCatalog, decide_eq_true_iff]
  unfold aliasKey at hasAlias
  split at hasAlias
  · next isType => exact .inl isType
  · next isType => exact .inr (.inl isType)
  · next isType => exact .inr (.inr isType)
  · cases hasAlias

theorem isDatabaseAttached_eq_false_iff {name : String} :
    isDatabaseAttached engine session name = false ↔
      name ∉ engine.own ∧ name ∉ session.databases.map Attachment.shown := by
  simp [isDatabaseAttached]

/-- The secret of an entry can be written, if its type has one. -/
def CanWrite (engine : Engine) (attachedDb : AttachedDatabase κ δ) : Prop :=
  ∀ name, secretName attachedDb = some name →
    (engine.unquoted name).isSome ∧ attachedDb.name ∉ engine.own ∧ attachedDb.refusal = none

theorem lookup_attachUnderSecret {name : String} (foreign : key ∉ engine.ownKeys)
    (named : secretName attachedDb = some name) (writes : CanWrite engine attachedDb)
    (hasAlias : aliasKey engine attachedDb = engine.unquoted attachedDb.name) :
    (attachUnderSecret engine session attachedDb name).1.lookup key =
      if attachesUnder engine key attachedDb then
        (session.lookup key).or (some attachedDb.database)
      else session.lookup key := by
  obtain ⟨reads, foreignName, accepted⟩ := writes name named
  obtain ⟨read, reads⟩ := Option.isSome_iff_exists.mp reads
  simp only [attachUnderSecret, accepted, createSecret, reads]
  cases refused : attachedDb.attachRefusal with
  | some error => simp [attachesUnder, refused]; rfl
  | none =>
    simp only [lookup_attach foreign, attachesUnder, hasAlias, accepted, refused, foreignName]
    simp
    rfl

theorem lookup_refreshSecret {name : String} (accepted : attachedDb.refusal = none) :
    (refreshSecret engine session attachedDb name).1.lookup key =
      if doesSecretExistInDuckDB engine session name = true ∧
          engine.unquoted attachedDb.name = some key then none
      else session.lookup key := by
  have kept : ∀ before : Session κ δ, (createSecret engine before name
      attachedDb.credentials).1.lookup key = before.lookup key := fun before => by
    rw [Session.lookup, databases_createSecret, Session.lookup]
  simp only [refreshSecret, accepted]
  rw [kept]
  by_cases found : doesSecretExistInDuckDB engine session name = true
  · simp only [found, if_true, true_and]
    exact lookup_detach _
  · simp [found]

/-- What an entry leaves of what is read under a key. -/
def turn (engine : Engine) (session : Session κ δ) (key : String)
    (attachedDb : AttachedDatabase κ δ) : Option δ :=
  if detachesUnder engine key attachedDb = true ∧
      ((secretKey engine attachedDb).bind session.secrets).isSome then none
  else if attachesUnder engine key attachedDb then
    (session.lookup key).or (some attachedDb.database)
  else session.lookup key

theorem turn_of_isCatalog (isCatalog : attachedDb.isCatalog = true) :
    turn engine session key attachedDb =
      if attachesUnder engine key attachedDb then
        (session.lookup key).or (some attachedDb.database)
      else session.lookup key := by
  rw [turn, if_neg]
  rintro ⟨detaches, -⟩
  rw [detachesUnder_iff, isCatalog] at detaches
  exact absurd detaches.2.1 nofun

/-- An entry with a secret only. -/
theorem lookup_refreshSecret_eq_turn {name : String} (named : secretName attachedDb = some name)
    (writes : CanWrite engine attachedDb) (noCatalog : attachedDb.isCatalog = false) :
    (refreshSecret engine session attachedDb name).1.lookup key =
      turn engine session key attachedDb := by
  obtain ⟨reads, -, accepted⟩ := writes name named
  have noAlias : attachesUnder engine key attachedDb = false := by
    rw [Bool.eq_false_iff, Ne, attachesUnder_iff]
    rintro ⟨hasAlias, -⟩
    rw [isCatalog_of_aliasKey hasAlias] at noCatalog
    cases noCatalog
  have own : secretKey engine attachedDb = engine.unquoted name := by rw [secretKey, named]; rfl
  rw [lookup_refreshSecret accepted, turn, noAlias, doesSecretExistInDuckDB, own]
  by_cases found : ((engine.unquoted name).bind session.secrets).isSome <;>
    simp [detachesUnder, own, reads, noCatalog, found]

theorem lookup_handle {type : AttachedType} (isType : attachedDb.type = some type)
    (foreign : key ∉ engine.ownKeys) (writes : CanWrite engine attachedDb)
    (foreignName : attachedDb.name ∉ engine.own) :
    (handle engine session attachedDb type).1.lookup key =
      turn engine session key attachedDb := by
  cases type with
  | bigquery =>
    rw [turn_of_isCatalog (by simp [AttachedDatabase.isCatalog, isType])]
    exact lookup_attachUnderSecret foreign (by simp [secretName, isType]) writes
      (by simp [aliasKey, isType])
  | snowflake =>
    rw [turn_of_isCatalog (by simp [AttachedDatabase.isCatalog, isType])]
    exact lookup_attachUnderSecret foreign (by simp [secretName, isType]) writes
      (by simp [aliasKey, isType])
  | gcs =>
    exact lookup_refreshSecret_eq_turn (by simp [secretName, isType]) writes
      (by simp [AttachedDatabase.isCatalog, isType])
  | s3 =>
    exact lookup_refreshSecret_eq_turn (by simp [secretName, isType]) writes
      (by simp [AttachedDatabase.isCatalog, isType])
  | azure =>
    by_cases signed : attachedDb.sasToken = true
    · simp [handle, attachAzureStorage, signed, turn, detachesUnder, attachesUnder, secretKey,
        secretName, aliasKey, isType]
    · rw [handle, attachAzureStorage, if_neg signed]
      exact lookup_refreshSecret_eq_turn (by simp [secretName, isType, signed]) writes
        (by simp [AttachedDatabase.isCatalog, isType])
  | postgres =>
    rw [turn_of_isCatalog (by simp [AttachedDatabase.isCatalog, isType]), handle, attachPostgres]
    cases refused : attachedDb.refusal with
    | some error => simp [attachesUnder, refused]
    | none =>
      by_cases nameless : attachedDb.name = ""
      · simp [attachesUnder, aliasKey, isType, nameless]
      · cases failed : attachedDb.attachRefusal with
        | some error => simp [attachesUnder, failed, nameless]
        | none =>
          simp only [nameless, if_false, lookup_attach foreign]
          simp [attachesUnder, aliasKey, isType, nameless, foreignName, refused, failed]

/-- One entry: what is read under a key takes the entry's turn. -/
theorem lookup_attachEntry {entries : List (AttachedDatabase κ δ)}
    (names : (entries.map AttachedDatabase.name).Nodup) (listed : attachedDb ∈ entries)
    (comes : session.From engine entries) (foreign : key ∉ engine.ownKeys)
    (writes : CanWrite engine attachedDb) :
    (attachEntry engine session attachedDb).1.lookup key =
      turn engine session key attachedDb := by
  unfold attachEntry
  cases shown : isDatabaseAttached engine session attachedDb.name with
  | true =>
    rw [isDatabaseAttached, decide_eq_true_iff] at shown
    rw [if_pos rfl]
    obtain isOwn | isShown := shown
    · -- An entry named like one of the session's own catalogs does nothing.
      have silent : secretName attachedDb = none := by
        rw [Option.eq_none_iff_forall_ne_some]
        exact fun name named => (writes name named).2.1 isOwn
      simp [turn, detachesUnder, attachesUnder, secretKey, silent, isOwn]
    · -- What is shown under its name is its own.
      obtain ⟨attached, isListed, isNamed⟩ := List.mem_map.mp isShown
      obtain ⟨source, fromList, attaches, sameShown, sameDatabase⟩ := comes attached isListed
      obtain rfl : source = attachedDb :=
        List.inj_on_of_nodup_map names fromList listed (sameShown.symm.trans isNamed)
      have hasAlias := (attachesUnder_iff.mp attaches).1
      rw [turn_of_isCatalog (isCatalog_of_aliasKey hasAlias)]
      split_ifs with attachesKey
      · have sameKey : attached.key = key :=
          Option.some.inj (hasAlias.symm.trans (attachesUnder_iff.mp attachesKey).1)
        have found : (session.lookup key).isSome := by
          rw [Session.lookup, Option.isSome_map, List.find?_isSome]
          exact ⟨attached, isListed, by simpa using sameKey⟩
        obtain ⟨read, isRead⟩ := Option.isSome_iff_exists.mp found
        simp [isRead]
      · rfl
  | false =>
    rw [if_neg (by simp)]
    rw [isDatabaseAttached_eq_false_iff] at shown
    cases isType : attachedDb.type with
    | none =>
      simp [turn, detachesUnder, attachesUnder, secretKey, secretName, aliasKey, isType]
    | some type =>
      rw [← lookup_handle isType foreign writes shown.1]
      dsimp only
      cases handle engine session attachedDb type with
      | mk after error =>
        cases error with
        | none => rfl
        | some error => dsimp only; split_ifs <;> rfl

theorem mem_attach {name : String} {read : Option String} {database : δ} {attached : Attachment δ}
    (listed : attached ∈ (attach engine session name read database).1.databases) :
    attached ∈ session.databases ∨
      read = some attached.key ∧ attached.shown = name ∧ attached.database = database := by
  unfold attach at listed
  split at listed
  · exact .inl listed
  · split_ifs at listed
    · exact .inl listed
    · obtain before | added := List.mem_append.mp listed
      · exact .inl before
      · obtain rfl := List.mem_singleton.mp added
        exact .inr ⟨rfl, rfl, rfl⟩

theorem mem_refreshSecret {name : String} {attached : Attachment δ}
    (listed : attached ∈ (refreshSecret engine session attachedDb name).1.databases) :
    attached ∈ session.databases := by
  unfold refreshSecret at listed
  cases refused : attachedDb.refusal with
  | some error => simpa [refused] using listed
  | none =>
    simp only [refused, databases_createSecret] at listed
    split_ifs at listed
    · unfold detach at listed
      split at listed
      · exact listed
      · exact (List.mem_filter.mp listed).1
    · exact listed

theorem mem_attachUnderSecret {name : String} {attached : Attachment δ}
    (listed : attached ∈ (attachUnderSecret engine session attachedDb name).1.databases) :
    attached ∈ session.databases ∨
      engine.unquoted attachedDb.name = some attached.key ∧ attachedDb.refusal = none ∧
        attachedDb.attachRefusal = none ∧ attached.shown = attachedDb.name ∧
        attached.database = attachedDb.database := by
  have kept : (createSecret engine session name attachedDb.credentials).1.databases =
      session.databases := databases_createSecret name attachedDb.credentials
  unfold attachUnderSecret at listed
  cases refused : attachedDb.refusal with
  | some error => exact .inl (by simpa [refused] using listed)
  | none =>
    simp only [refused] at listed
    cases created : createSecret engine session name attachedDb.credentials with
    | mk written error =>
      rw [created] at kept listed
      cases error with
      | some error => exact .inl (kept ▸ listed)
      | none =>
        cases failed : attachedDb.attachRefusal with
        | some error =>
          simp only [failed] at listed
          exact .inl (kept ▸ listed)
        | none =>
          simp only [failed] at listed
          obtain before | ⟨read, sameShown, sameDatabase⟩ := mem_attach listed
          · exact .inl (kept ▸ before)
          · exact .inr ⟨read, rfl, rfl, sameShown, sameDatabase⟩

theorem mem_handle {type : AttachedType} (isType : attachedDb.type = some type)
    (foreignName : attachedDb.name ∉ engine.own) {attached : Attachment δ}
    (listed : attached ∈ (handle engine session attachedDb type).1.databases) :
    attached ∈ session.databases ∨
      attachesUnder engine attached.key attachedDb = true ∧ attached.shown = attachedDb.name ∧
        attached.database = attachedDb.database := by
  have underSecret : ∀ name,
      attached ∈ (attachUnderSecret engine session attachedDb name).1.databases →
      aliasKey engine attachedDb = engine.unquoted attachedDb.name →
      attached ∈ session.databases ∨
        attachesUnder engine attached.key attachedDb = true ∧ attached.shown = attachedDb.name ∧
          attached.database = attachedDb.database := by
    intro name among hasAlias
    obtain before | ⟨read, accepted, attaches, same⟩ := mem_attachUnderSecret among
    · exact .inl before
    · exact .inr ⟨attachesUnder_iff.mpr ⟨hasAlias.trans read, foreignName, accepted, attaches⟩,
        same⟩
  cases type with
  | bigquery => exact underSecret _ listed (by simp [aliasKey, isType])
  | snowflake => exact underSecret _ listed (by simp [aliasKey, isType])
  | gcs => exact .inl (mem_refreshSecret listed)
  | s3 => exact .inl (mem_refreshSecret listed)
  | azure =>
    by_cases signed : attachedDb.sasToken = true
    · rw [handle, attachAzureStorage, if_pos signed] at listed
      exact .inl listed
    · rw [handle, attachAzureStorage, if_neg signed] at listed
      exact .inl (mem_refreshSecret listed)
  | postgres =>
    rw [handle, attachPostgres] at listed
    cases refused : attachedDb.refusal with
    | some error => exact .inl (by simpa [refused] using listed)
    | none =>
      by_cases nameless : attachedDb.name = ""
      · exact .inl (by simpa [refused, nameless] using listed)
      · cases failed : attachedDb.attachRefusal with
        | some error => exact .inl (by simpa [refused, nameless, failed] using listed)
        | none =>
          simp only [refused, nameless, failed, if_false] at listed
          obtain before | ⟨read, same⟩ := mem_attach listed
          · exact .inl before
          · have hasAlias : aliasKey engine attachedDb = some attached.key := by
              simpa [aliasKey, isType, nameless] using read
            exact .inr ⟨attachesUnder_iff.mpr ⟨hasAlias, foreignName, refused, failed⟩, same⟩

theorem mem_attachEntry {attached : Attachment δ}
    (listed : attached ∈ (attachEntry engine session attachedDb).1.databases) :
    attached ∈ session.databases ∨
      attachesUnder engine attached.key attachedDb = true ∧ attached.shown = attachedDb.name ∧
        attached.database = attachedDb.database := by
  unfold attachEntry at listed
  cases shown : isDatabaseAttached engine session attachedDb.name with
  | true => exact .inl (by simpa [shown] using listed)
  | false =>
    rw [if_neg (by simp [shown])] at listed
    cases isType : attachedDb.type with
    | none => exact .inl (by simpa [isType] using listed)
    | some type =>
      apply mem_handle isType (isDatabaseAttached_eq_false_iff.mp shown).1
      simp only [isType] at listed
      cases handled : handle engine session attachedDb type with
      | mk after error =>
        rw [handled] at listed
        cases error with
        | none => exact listed
        | some error =>
          dsimp only at listed
          split_ifs at listed <;> exact listed

theorem Session.From.attachEntry {entries : List (AttachedDatabase κ δ)}
    (comes : session.From engine entries) (listed : attachedDb ∈ entries) :
    (Duckdb.attachEntry engine session attachedDb).1.From engine entries := by
  intro attached isAttached
  obtain before | added := mem_attachEntry isAttached
  · exact comes attached before
  · exact ⟨attachedDb, listed, added⟩

/-! ## Errors that are passed over -/

def isTolerated : Option String → Bool
  | none => true
  | some error => isAlreadyAttached error

theorem isAlreadyAttached_existsError (name : String) :
    isAlreadyAttached (existsError name) = true := by
  have ends : ∀ front back : String, back.toList <:+: (front ++ back).toList := by
    intro front back
    rw [String.toList_append]
    exact (List.suffix_append _ _).isInfix
  exact decide_eq_true (ends _ _)

/-- Whether an error of a handler is passed over does not depend on the session. -/
theorem isTolerated_attach (name : String) (read : Option String) (database : δ) :
    isTolerated (attach engine session name read database).2 =
      (read.isSome || isAlreadyAttached (engine.syntaxError name)) := by
  unfold attach
  split
  · rfl
  · split_ifs
    · exact isAlreadyAttached_existsError name
    · rfl

theorem createSecret_snd (name : String) (credentials : κ) :
    (createSecret engine session name credentials).2 =
      if (engine.unquoted name).isSome then none else some (engine.syntaxError name) := by
  unfold createSecret
  split
  · next silent => simp [silent]
  · next read reads => simp [reads]

theorem isTolerated_attachUnderSecret (other : Session κ δ) (name : String) :
    isTolerated (attachUnderSecret engine session attachedDb name).2 =
      isTolerated (attachUnderSecret engine other attachedDb name).2 := by
  unfold attachUnderSecret
  cases attachedDb.refusal with
  | some error => rfl
  | none =>
    have same : (createSecret engine session name attachedDb.credentials).2 =
        (createSecret engine other name attachedDb.credentials).2 := by
      rw [createSecret_snd, createSecret_snd]
    dsimp only
    cases created : createSecret engine session name attachedDb.credentials with
    | mk written error =>
      cases createdToo : createSecret engine other name attachedDb.credentials with
      | mk writtenToo errorToo =>
        rw [created, createdToo] at same
        obtain rfl : error = errorToo := same
        cases error with
        | some error => rfl
        | none =>
          cases attachedDb.attachRefusal with
          | some error => rfl
          | none => exact (isTolerated_attach _ _ _).trans (isTolerated_attach _ _ _).symm

theorem isTolerated_refreshSecret (other : Session κ δ) (name : String) :
    isTolerated (refreshSecret engine session attachedDb name).2 =
      isTolerated (refreshSecret engine other attachedDb name).2 := by
  unfold refreshSecret
  cases attachedDb.refusal with
  | some error => rfl
  | none => rw [createSecret_snd, createSecret_snd]

theorem isTolerated_handle (other : Session κ δ) (type : AttachedType) :
    isTolerated (handle engine session attachedDb type).2 =
      isTolerated (handle engine other attachedDb type).2 := by
  cases type with
  | bigquery => exact isTolerated_attachUnderSecret other _
  | snowflake => exact isTolerated_attachUnderSecret other _
  | gcs => exact isTolerated_refreshSecret other _
  | s3 => exact isTolerated_refreshSecret other _
  | azure =>
    simp only [handle, attachAzureStorage]
    split_ifs
    · rfl
    · exact isTolerated_refreshSecret other _
  | postgres =>
    simp only [handle, attachPostgres]
    cases attachedDb.refusal with
    | some error => rfl
    | none =>
      dsimp only
      split_ifs
      · rfl
      · cases attachedDb.attachRefusal with
        | some error => rfl
        | none => exact (isTolerated_attach _ _ _).trans (isTolerated_attach _ _ _).symm

/-- An entry that is not passed over is passed by where its handler's error is. -/
theorem attachEntry_snd_eq_none_iff :
    (attachEntry engine session attachedDb).2 = none ↔
      isDatabaseAttached engine session attachedDb.name = true ∨
        ∃ type, attachedDb.type = some type ∧
          isTolerated (handle engine session attachedDb type).2 = true := by
  unfold attachEntry
  cases shown : isDatabaseAttached engine session attachedDb.name with
  | true => simp
  | false =>
    cases isType : attachedDb.type with
    | none => simp
    | some type =>
      simp only [Bool.false_eq_true, if_false, false_or, Option.some.injEq, exists_eq_left']
      cases handle engine session attachedDb type with
      | mk after error =>
        cases error with
        | none => simp [isTolerated]
        | some error =>
          dsimp only
          split_ifs with passed <;> simp [isTolerated, passed]

end Step

/-! ## Runs -/

section Runs

variable {κ δ : Type*} {engine : Engine} {session : Session κ δ}
  {entries later : List (AttachedDatabase κ δ)} {attachedDb : AttachedDatabase κ δ} {key : String}

/-- The session after a list of entries of which none fails. -/
def attachAll (engine : Engine) (session : Session κ δ) (later : List (AttachedDatabase κ δ)) :
    Session κ δ :=
  later.foldl (fun before attachedDb => (attachEntry engine before attachedDb).1) session

/-- An entry that does not fail, whatever the session. -/
def Settles (engine : Engine) (attachedDb : AttachedDatabase κ δ) : Prop :=
  ∀ session : Session κ δ, (attachEntry engine session attachedDb).2 = none

/-- No entry is shown yet. -/
def Unshown (session : Session κ δ) (later : List (AttachedDatabase κ δ)) : Prop :=
  ∀ attachedDb ∈ later, attachedDb.name ∉ session.databases.map Attachment.shown

theorem Unshown.attachEntry (names : ((attachedDb :: later).map AttachedDatabase.name).Nodup)
    (unshown : Unshown session (attachedDb :: later)) :
    Unshown (Duckdb.attachEntry engine session attachedDb).1 later := by
  intro other isLater isShown
  obtain ⟨attached, listed, isNamed⟩ := List.mem_map.mp isShown
  obtain before | ⟨-, sameShown, -⟩ := mem_attachEntry listed
  · exact unshown other (List.mem_cons_of_mem _ isLater)
      (List.mem_map.mpr ⟨attached, before, isNamed⟩)
  · apply (List.nodup_cons.mp names).1
    rw [← sameShown, isNamed]
    exact List.mem_map_of_mem isLater

theorem attachDatabases_of_settles (settled : ∀ attachedDb ∈ later, Settles engine attachedDb) :
    attachDatabasesToDuckDB engine session later = (attachAll engine session later, none) := by
  induction later generalizing session with
  | nil => rfl
  | cons attachedDb later ih =>
    have passed := settled attachedDb List.mem_cons_self session
    rw [attachDatabasesToDuckDB]
    cases stepped : attachEntry engine session attachedDb with
    | mk after error =>
      rw [stepped] at passed
      obtain rfl : error = none := passed
      rw [attachAll, List.foldl_cons, stepped]
      exact ih fun other member => settled other (List.mem_cons_of_mem _ member)

theorem settles_of_attachEntry (isFresh : attachedDb.name ∉ session.databases.map Attachment.shown)
    (passed : (attachEntry engine session attachedDb).2 = none) : Settles engine attachedDb := by
  intro other
  rw [attachEntry_snd_eq_none_iff] at passed ⊢
  obtain shown | ⟨type, isType, tolerated⟩ := passed
  · left
    rw [isDatabaseAttached, decide_eq_true_iff] at shown ⊢
    exact .inl (shown.resolve_right isFresh)
  · exact .inr ⟨type, isType, (isTolerated_handle session type).trans tolerated⟩

/-- Where a first run returns, no entry fails, in no session. -/
theorem settles_of_returns (names : (later.map AttachedDatabase.name).Nodup)
    (unshown : Unshown session later)
    (returns : (attachDatabasesToDuckDB engine session later).2 = none) :
    ∀ attachedDb ∈ later, Settles engine attachedDb := by
  induction later generalizing session with
  | nil => simp
  | cons attachedDb later ih =>
    rw [attachDatabasesToDuckDB] at returns
    cases stepped : attachEntry engine session attachedDb with
    | mk after error =>
      rw [stepped] at returns
      cases error with
      | some error => cases returns
      | none =>
        have fresh : Unshown (attachEntry engine session attachedDb).1 later :=
          unshown.attachEntry names
        rw [stepped] at fresh
        have rest := ih (List.nodup_cons.mp names).2 fresh returns
        have first : Settles engine attachedDb :=
          settles_of_attachEntry (unshown _ List.mem_cons_self) (congrArg Prod.snd stepped)
        intro other member
        obtain rfl | isLater := List.mem_cons.mp member
        · exact first
        · exact rest other isLater

/-! ### Secrets -/

theorem secrets_attachAll_of_ne
    (silent : ∀ attachedDb ∈ later, secretKey engine attachedDb ≠ some key) :
    (attachAll engine session later).secrets key = session.secrets key := by
  induction later generalizing session with
  | nil => rfl
  | cons attachedDb later ih =>
    rw [attachAll, List.foldl_cons]
    refine (ih fun other member => silent other (List.mem_cons_of_mem _ member)).trans ?_
    rw [secrets_attachEntry, if_neg]
    exact fun written => silent attachedDb List.mem_cons_self written.2.1

/-- What is in a secret was written by an entry, or before. -/
theorem exists_of_secrets_attachAll (held : ((attachAll engine session later).secrets key).isSome) :
    (session.secrets key).isSome ∨ ∃ attachedDb ∈ later, secretKey engine attachedDb = some key ∧
      attachedDb.refusal = none ∧ attachedDb.name ∉ engine.own := by
  induction later generalizing session with
  | nil => exact .inl held
  | cons attachedDb later ih =>
    rw [attachAll, List.foldl_cons] at held
    obtain before | ⟨other, member, writes⟩ := ih held
    · rw [secrets_attachEntry] at before
      split_ifs at before with written
      · exact .inr ⟨attachedDb, List.mem_cons_self, written.2.1, written.2.2,
          (isDatabaseAttached_eq_false_iff.mp written.1).1⟩
      · exact .inl before
    · exact .inr ⟨other, List.mem_cons_of_mem _ member, writes⟩

/-- Where the secrets are apart, each holds the credentials of its entry. -/
theorem secrets_attached (names : (later.map AttachedDatabase.name).Nodup)
    (unshown : Unshown session later) (writes : ∀ attachedDb ∈ later, CanWrite engine attachedDb)
    (apart : later.Pairwise fun attachedDb other =>
      ∀ key, secretKey engine attachedDb = some key → secretKey engine other ≠ some key)
    (listed : attachedDb ∈ later) (own : secretKey engine attachedDb = some key) :
    (attachAll engine session later).secrets key = some attachedDb.credentials := by
  induction later generalizing session with
  | nil => cases listed
  | cons first later ih =>
    obtain ⟨differs, apart⟩ := List.pairwise_cons.mp apart
    rw [attachAll, List.foldl_cons]
    obtain rfl | isLater := List.mem_cons.mp listed
    · refine (secrets_attachAll_of_ne fun other member => differs other member key own).trans ?_
      obtain ⟨name, named, -⟩ := Option.bind_eq_some_iff.mp own
      obtain ⟨-, foreign, accepted⟩ := writes attachedDb List.mem_cons_self name named
      rw [secrets_attachEntry, if_pos]
      exact ⟨isDatabaseAttached_eq_false_iff.mpr ⟨foreign, unshown _ List.mem_cons_self⟩, own,
        accepted⟩
    · exact ih (List.nodup_cons.mp names).2 (unshown.attachEntry names)
        (fun other member => writes other (List.mem_cons_of_mem _ member)) apart isLater

/-- Where every entry has its credentials, a run changes no secret. -/
theorem secrets_attachAll_of_held (held : ∀ attachedDb ∈ later, ∀ key,
      secretKey engine attachedDb = some key →
        session.secrets key = some attachedDb.credentials) :
    (attachAll engine session later).secrets = session.secrets := by
  induction later generalizing session with
  | nil => rfl
  | cons attachedDb later ih =>
    have same : (attachEntry engine session attachedDb).1.secrets = session.secrets := by
      funext key
      rw [secrets_attachEntry]
      split_ifs with written
      · exact (held attachedDb List.mem_cons_self key written.2.1).symm
      · rfl
    rw [attachAll, List.foldl_cons]
    refine (ih fun other member key own => ?_).trans same
    rw [same]
    exact held other (List.mem_cons_of_mem _ member) key own

/-! ### Aliases -/

/-- In a run without a secret of its own written before, nothing is detached: the first entry that
attaches under a key that is free has it. -/
theorem lookup_attached (names : (entries.map AttachedDatabase.name).Nodup)
    (sublist : ∀ attachedDb ∈ later, attachedDb ∈ entries)
    (comes : session.From engine entries) (foreign : key ∉ engine.ownKeys)
    (writes : ∀ attachedDb ∈ later, CanWrite engine attachedDb)
    (unwritten : ∀ attachedDb ∈ later, ∀ secret, secretKey engine attachedDb = some secret →
      session.secrets secret = none)
    (apart : later.Pairwise fun attachedDb other =>
      ∀ key, secretKey engine attachedDb = some key → secretKey engine other ≠ some key) :
    (attachAll engine session later).lookup key =
      (session.lookup key).or
        ((later.find? (attachesUnder engine key)).map AttachedDatabase.database) := by
  induction later generalizing session with
  | nil => simp [attachAll]
  | cons attachedDb later ih =>
    obtain ⟨differs, apart⟩ := List.pairwise_cons.mp apart
    have isListed := sublist attachedDb List.mem_cons_self
    have fresh : (secretKey engine attachedDb).bind session.secrets = none := by
      rw [Option.bind_eq_none_iff]
      exact unwritten attachedDb List.mem_cons_self
    have stepped := lookup_attachEntry names isListed comes foreign
      (writes attachedDb List.mem_cons_self)
    rw [turn, fresh] at stepped
    have rest := ih (fun other member => sublist other (List.mem_cons_of_mem _ member))
      (comes.attachEntry isListed)
      (fun other member => writes other (List.mem_cons_of_mem _ member))
      (fun other member secret own => by
        rw [secrets_attachEntry, if_neg]
        · exact unwritten other (List.mem_cons_of_mem _ member) secret own
        · exact fun written => differs other member secret written.2.1 own) apart
    rw [attachAll, List.foldl_cons]
    refine rest.trans ?_
    rw [stepped, List.find?_cons]
    cases attachesUnder engine key attachedDb with
    | true =>
      simp only [Option.isSome_none, Bool.false_eq_true, and_false, if_false, if_true]
      rw [Option.or_assoc, Option.some_or]
      rfl
    | false => simp

/-! ### A further run -/

/-- What an entry leaves of what is read under a key, where its secret exists. -/
def turnAgain (engine : Engine) (key : String) (read : Option δ)
    (attachedDb : AttachedDatabase κ δ) : Option δ :=
  if detachesUnder engine key attachedDb then none
  else if attachesUnder engine key attachedDb then read.or (some attachedDb.database)
  else read

theorem lookup_again (names : (entries.map AttachedDatabase.name).Nodup)
    (sublist : ∀ attachedDb ∈ later, attachedDb ∈ entries)
    (comes : session.From engine entries) (foreign : key ∉ engine.ownKeys)
    (writes : ∀ attachedDb ∈ later, CanWrite engine attachedDb)
    (held : ∀ attachedDb ∈ entries, ∀ secret, secretKey engine attachedDb = some secret →
      session.secrets secret = some attachedDb.credentials) :
    (attachAll engine session later).lookup key =
      later.foldl (turnAgain engine key) (session.lookup key) := by
  induction later generalizing session with
  | nil => rfl
  | cons attachedDb later ih =>
    have isListed := sublist attachedDb List.mem_cons_self
    have same : (attachEntry engine session attachedDb).1.secrets = session.secrets :=
      @secrets_attachAll_of_held _ _ engine session [attachedDb] fun other member =>
        held other (List.mem_singleton.mp member ▸ isListed)
    have stepped := lookup_attachEntry names isListed comes foreign
      (writes attachedDb List.mem_cons_self)
    have turned : turn engine session key attachedDb =
        turnAgain engine key (session.lookup key) attachedDb := by
      rw [turn, turnAgain]
      congr 1
      refine propext (and_iff_left_of_imp fun detaches => ?_)
      obtain ⟨secret, own⟩ := Option.isSome_iff_exists.mp (detachesUnder_iff.mp detaches).1
      rw [own, Option.bind_some, held attachedDb isListed secret own]
      rfl
    rw [attachAll, List.foldl_cons, List.foldl_cons, ← turned, ← stepped]
    exact ih (fun other member => sublist other (List.mem_cons_of_mem _ member))
      (comes.attachEntry isListed)
      (fun other member => writes other (List.mem_cons_of_mem _ member)) (same ▸ held)

/-- Under a key that every detaching entry is followed by an attaching one for, a run through ends
as it began. -/
theorem foldl_turnAgain {database read : Option δ}
    (one : ∀ attachedDb ∈ later, attachesUnder engine key attachedDb = true →
      some attachedDb.database = database)
    (attachedAfter : ∀ before attachedDb after, later = before ++ attachedDb :: after →
      detachesUnder engine key attachedDb = true →
        ∃ other ∈ after, attachesUnder engine key other = true)
    (start : read = database ∨
      read = none ∧ ∃ other ∈ later, attachesUnder engine key other = true) :
    later.foldl (turnAgain engine key) read = database := by
  induction later generalizing read with
  | nil => simpa using start
  | cons first later ih =>
    have afterLater : ∀ before attachedDb after, later = before ++ attachedDb :: after →
        detachesUnder engine key attachedDb = true →
          ∃ other ∈ after, attachesUnder engine key other = true := by
      intro before attachedDb after split
      exact attachedAfter (first :: before) attachedDb after (by rw [split]; rfl)
    rw [List.foldl_cons]
    apply ih (fun attachedDb member => one attachedDb (List.mem_cons_of_mem _ member)) afterLater
    rw [turnAgain]
    split_ifs with detaches attaches
    · exact .inr ⟨rfl, attachedAfter [] first later rfl detaches⟩
    · left
      have same := one first List.mem_cons_self attaches
      obtain rfl | ⟨rfl, -⟩ := start
      · rw [← same, Option.some_or]
      · exact same
    · refine start.imp_right fun ⟨silent, other, member, attachesToo⟩ => ⟨silent, other, ?_,
        attachesToo⟩
      obtain rfl | isLater := List.mem_cons.mp member
      · exact absurd attachesToo attaches
      · exact isLater

theorem foldl_turnAgain_none
    (silent : ∀ attachedDb ∈ later, attachesUnder engine key attachedDb = false) :
    later.foldl (turnAgain engine key) (none : Option δ) = none := by
  induction later with
  | nil => rfl
  | cons first later ih =>
    have kept : turnAgain engine key (none : Option δ) first = none := by
      rw [turnAgain, silent first List.mem_cons_self]
      simp
    rw [List.foldl_cons, kept]
    exact ih fun other member => silent other (List.mem_cons_of_mem _ member)

end Runs

/-! ## Entries apart -/

section Apart

variable {κ δ : Type*} {engine : Engine} {entries : List (AttachedDatabase κ δ)}

theorem eq_of_secretKey {key : String} {attachedDb other : AttachedDatabase κ δ}
    (apart : entries.Pairwise fun attachedDb other =>
      ∀ key, secretKey engine attachedDb = some key → secretKey engine other ≠ some key)
    (listed : attachedDb ∈ entries) (listedToo : other ∈ entries)
    (own : secretKey engine attachedDb = some key) (shared : secretKey engine other = some key) :
    attachedDb = other := by
  induction entries with
  | nil => cases listed
  | cons first later ih =>
    obtain ⟨differs, apart⟩ := List.pairwise_cons.mp apart
    obtain rfl | isLater := List.mem_cons.mp listed <;>
      obtain rfl | isLaterToo := List.mem_cons.mp listedToo
    · rfl
    · exact absurd shared (differs other isLaterToo key own)
    · exact absurd own (differs attachedDb isLater key shared)
    · exact ih apart isLater isLaterToo

theorem from_fresh : (Session.fresh : Session κ δ).From engine entries := nofun

theorem unshown_fresh : Unshown (Session.fresh : Session κ δ) entries :=
  fun _ _ => List.not_mem_nil

theorem From.attachAll {later : List (AttachedDatabase κ δ)} {session : Session κ δ}
    (comes : session.From engine entries) (sublist : ∀ attachedDb ∈ later, attachedDb ∈ entries) :
    (Duckdb.attachAll engine session later).From engine entries := by
  induction later generalizing session with
  | nil => exact comes
  | cons first later ih =>
    exact ih (comes.attachEntry (sublist first List.mem_cons_self))
      fun other member => sublist other (List.mem_cons_of_mem _ member)

/-- What an alias denotes after the first run. -/
theorem denotes_attached (names : (entries.map AttachedDatabase.name).Nodup)
    (writes : ∀ attachedDb ∈ entries, CanWrite engine attachedDb)
    (apart : entries.Pairwise fun attachedDb other =>
      ∀ key, secretKey engine attachedDb = some key → secretKey engine other ≠ some key)
    {key : String} (foreign : key ∉ engine.ownKeys) :
    (attachAll engine .fresh entries).denotes engine key =
      (entries.find? (attachesUnder engine key)).map AttachedDatabase.database := by
  rw [denotes_of_notMem foreign]
  exact lookup_attached names (fun _ => id) from_fresh foreign writes (fun _ _ _ _ => rfl) apart

/-- What it denotes after a further run. -/
theorem denotes_again (names : (entries.map AttachedDatabase.name).Nodup)
    (writes : ∀ attachedDb ∈ entries, CanWrite engine attachedDb)
    (apart : entries.Pairwise fun attachedDb other =>
      ∀ key, secretKey engine attachedDb = some key → secretKey engine other ≠ some key)
    {key : String} (foreign : key ∉ engine.ownKeys) :
    (attachAll engine (attachAll engine .fresh entries) entries).denotes engine key =
      entries.foldl (turnAgain engine key)
        ((attachAll engine .fresh entries).denotes engine key) := by
  rw [denotes_of_notMem foreign, denotes_of_notMem foreign]
  exact lookup_again names (fun _ => id) (From.attachAll from_fresh fun _ => id) foreign writes
    fun _ listed _ own => secrets_attached names unshown_fresh writes apart listed own

theorem KeptApart.readsOwn (kept : KeptApart engine entries)
    (names : (entries.map AttachedDatabase.name).Nodup)
    (settled : ∀ attachedDb ∈ entries, Settles engine attachedDb) :
    ReadsOwn engine entries (attachAll engine .fresh entries) := by
  have held : ∀ attachedDb ∈ entries, ∀ key, secretKey engine attachedDb = some key →
      (attachAll engine .fresh entries).secrets key = some attachedDb.credentials :=
    fun _ listed _ own => secrets_attached names unshown_fresh kept.secrets kept.apart listed own
  refine ⟨?_, kept.apart, ?_, ?_⟩
  · intro attachedDb listed name named
    obtain ⟨reads, -⟩ := kept.secrets attachedDb listed name named
    obtain ⟨key, reads⟩ := Option.isSome_iff_exists.mp reads
    have own : secretKey engine attachedDb = some key := by
      rw [secretKey, named, Option.bind_some, reads]
    exact ⟨key, reads, held attachedDb listed key own⟩
  · intro attachedDb listed isCatalog
    obtain ⟨key, hasAlias, foreign, first⟩ := kept.aliases attachedDb listed isCatalog
    exact ⟨key, hasAlias, (denotes_attached names kept.secrets kept.apart foreign).trans first⟩
  · intro key
    rw [attachDatabases_of_settles settled]
    refine ⟨congrFun (secrets_attachAll_of_held held) key, ?_⟩
    by_cases foreign : key ∈ engine.ownKeys
    · rw [denotes_of_mem foreign, denotes_of_mem foreign]
    rw [denotes_again names kept.secrets kept.apart foreign]
    by_cases attached : ∃ other ∈ entries, attachesUnder engine key other = true
    · -- All that attach under the key have the database of the first.
      refine foldl_turnAgain (fun attachedDb listed attaches => ?_)
        (fun before attachedDb after split detaches =>
          kept.attachedAfter before attachedDb after split key foreign detaches attached) (.inl rfl)
      have hasAlias := (attachesUnder_iff.mp attaches).1
      obtain ⟨read, hasAliasToo, -, first⟩ :=
        kept.aliases attachedDb listed (isCatalog_of_aliasKey hasAlias)
      obtain rfl : read = key := Option.some.inj (hasAliasToo.symm.trans hasAlias)
      rw [denotes_attached names kept.secrets kept.apart foreign, first]
    · push Not at attached
      have silent : (attachAll engine .fresh entries).denotes engine key = none := by
        rw [denotes_attached names kept.secrets kept.apart foreign, Option.map_eq_none_iff,
          List.find?_eq_none]
        exact fun other listed => attached other listed
      rw [silent]
      exact foldl_turnAgain_none fun other listed => by simpa using attached other listed

theorem ReadsOwn.keptApart (reads : ReadsOwn engine entries (attachAll engine .fresh entries))
    (names : (entries.map AttachedDatabase.name).Nodup)
    (settled : ∀ attachedDb ∈ entries, Settles engine attachedDb) :
    KeptApart engine entries := by
  have writes : ∀ attachedDb ∈ entries, CanWrite engine attachedDb := by
    intro attachedDb listed name named
    obtain ⟨key, read, held⟩ := reads.secrets attachedDb listed name named
    have own : secretKey engine attachedDb = some key := by
      rw [secretKey, named, Option.bind_some, read]
    -- Only an entry with this secret writes it, and there is no other.
    obtain before | ⟨other, listedToo, shared, accepted, foreign⟩ :=
      exists_of_secrets_attachAll (Option.isSome_of_eq_some held)
    · cases before
    · obtain rfl := eq_of_secretKey reads.apart listed listedToo own shared
      exact ⟨Option.isSome_of_eq_some read, foreign, accepted⟩
  refine ⟨writes, reads.apart, ?_, ?_⟩
  · intro attachedDb listed isCatalog
    obtain ⟨key, hasAlias, denotes⟩ := reads.aliases attachedDb listed isCatalog
    have foreign : key ∉ engine.ownKeys := by
      intro isOwn
      rw [denotes_of_mem isOwn] at denotes
      cases denotes
    rw [denotes_attached names writes reads.apart foreign] at denotes
    exact ⟨key, hasAlias, foreign, denotes⟩
  · intro before attachedDb after split key foreign detaches attached
    by_contra silent
    push Not at silent
    have same := (reads.again key).2
    rw [attachDatabases_of_settles settled, denotes_again names writes reads.apart foreign] at same
    have lost : entries.foldl (turnAgain engine key)
        ((attachAll engine .fresh entries).denotes engine key) = none := by
      rw [split, List.foldl_append, List.foldl_cons, turnAgain, if_pos detaches]
      exact foldl_turnAgain_none fun other listed => by simpa using silent other listed
    rw [lost, denotes_attached names writes reads.apart foreign, eq_comm, Option.map_eq_none_iff,
      List.find?_eq_none] at same
    obtain ⟨other, listed, attaches⟩ := attached
    exact same other listed attaches

end Apart

/-- A run that returns leaves every entry its own secret, credentials and database, which a further
run does not change, exactly where the entries are kept apart. -/
theorem readsOwn_iff {κ δ : Type*} {engine : Engine} {entries : List (AttachedDatabase κ δ)}
    (names : (entries.map AttachedDatabase.name).Nodup)
    (returns : (attachDatabasesToDuckDB engine .fresh entries).2 = none) :
    ReadsOwn engine entries (attachDatabasesToDuckDB engine .fresh entries).1 ↔
      KeptApart engine entries := by
  have settled := settles_of_returns names unshown_fresh returns
  rw [attachDatabases_of_settles settled]
  exact ⟨fun reads => reads.keptApart names settled, fun kept => kept.readsOwn names settled⟩

/-! ## Two buckets with one secret -/

/-- An engine that folds to lower case, with the catalog of a connection. -/
def foldingEngine (connectionName : String) : Engine where
  unquoted name :=
    if name.toList.all fun c => c.isAlphanum || c == '_' then some name.toLower else none
  quoted := String.toLower
  syntaxError name := "Parser Error: syntax error at or near " ++ name
  own := [connectionName]

/-- An entry that is refused nothing. -/
def entry (type : AttachedType) (name : String) (credentials : ℕ) :
    AttachedDatabase ℕ ℕ where
  name := name
  type := some type
  credentials := credentials
  database := credentials
  sasToken := false
  refusal := none
  attachRefusal := none

/-- A bucket and a catalog of different names read their own. -/
theorem readsOwn_lake :
    ReadsOwn (foldingEngine "duck") [entry .s3 "lake" 1, entry .postgres "crm" 2]
      (attachDatabasesToDuckDB (foldingEngine "duck") .fresh
        [entry .s3 "lake" 1, entry .postgres "crm" 2]).1 := by
  have read : (foldingEngine "duck").unquoted "lake" = some "lake" := by decide +kernel
  have quoted : (foldingEngine "duck").quoted "crm" = "crm" := by decide +kernel
  refine (readsOwn_iff (by decide) (by decide +kernel)).mpr ⟨?_, ?_, ?_, ?_⟩
  · intro attachedDb listed name named
    obtain rfl | rfl : attachedDb = entry .s3 "lake" 1 ∨ attachedDb = entry .postgres "crm" 2 := by
      simpa using listed
    · obtain rfl := Option.some.inj named
      decide +kernel
    · cases named
  · simp [secretKey, secretName, entry]
  · intro attachedDb listed isCatalog
    obtain rfl | rfl : attachedDb = entry .s3 "lake" 1 ∨ attachedDb = entry .postgres "crm" 2 := by
      simpa using listed
    · exact absurd isCatalog (by decide)
    · exact ⟨"crm", by decide +kernel, by decide +kernel, by decide +kernel⟩
  · intro before attachedDb after split key foreign detaches ⟨other, listed, attaches⟩
    -- Only the bucket may detach, and only the catalog is attached.
    have hasAlias := (attachesUnder_iff.mp attaches).1
    obtain rfl | rfl : other = entry .s3 "lake" 1 ∨ other = entry .postgres "crm" 2 := by
      simpa using listed
    · cases hasAlias
    · obtain rfl : "crm" = key := by simpa [aliasKey, entry, quoted] using hasAlias
      have member : attachedDb ∈ [entry .s3 "lake" 1, entry .postgres "crm" 2] := by
        rw [split]
        exact List.mem_append_right _ List.mem_cons_self
      obtain ⟨-, noCatalog, sameName⟩ := detachesUnder_iff.mp detaches
      obtain rfl | rfl : attachedDb = entry .s3 "lake" 1 ∨
          attachedDb = entry .postgres "crm" 2 := by
        simpa using member
      · rw [show (entry .s3 "lake" 1).name = "lake" from rfl, read] at sameName
        exact absurd sameName (by decide)
      · exact absurd noCatalog (by decide)

/-- Two buckets whose names differ in a dash and an underscore share a secret, in a connection that
is accepted. -/
theorem buckets_shareSecret :
    ¬∀ (connection : DeclaredConnection) (entries : List (AttachedDatabase ℕ ℕ)),
      connection.attachedNames = entries.map (fun attachedDb => attachedDb.name.toList) →
      connection.type = some .duckdb → checkConnection connection = .ok () →
      (entries.map AttachedDatabase.name).Nodup →
      (attachDatabasesToDuckDB (foldingEngine (String.ofList connection.name)) .fresh
        entries).2 = none →
      ReadsOwn (foldingEngine (String.ofList connection.name)) entries
        (attachDatabasesToDuckDB (foldingEngine (String.ofList connection.name)) .fresh
          entries).1 := by
  intro always
  have reads := always
    { name := "duck".toList, type := some .duckdb, attachedNames := ["a-b".toList, "a_b".toList],
      checks := .ok () }
    [entry .s3 "a-b" 1, entry .s3 "a_b" 2] (by decide) rfl (by decide) (by decide)
    (by decide +kernel)
  have shared : secretKey (foldingEngine "duck") (entry .s3 "a-b" 1) = some "secret_s3_a_b" ∧
      secretKey (foldingEngine "duck") (entry .s3 "a_b" 2) = some "secret_s3_a_b" := by
    decide +kernel
  exact List.rel_of_pairwise_cons reads.apart List.mem_cons_self _ shared.1 shared.2

end MalloyPublisher.Duckdb
