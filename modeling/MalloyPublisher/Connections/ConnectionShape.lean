import MalloyPublisher.Connections.CloudCredentials

/-!
# The shape of a connection

A connection is checked when it is loaded, before anything is dialed or attached. A proxy opens a
tunnel to an explicit host and port, and only for Postgres. Storage credentials are checked on their
face only: what fails here fails the whole environment.

## Main definitions

* `validateConnectionShape` — the check
* `Refusal` — what it throws, apart for storage credentials and for the rest
-/

namespace MalloyPublisher.Connections

open Foundations

/-! ## Connections -/

structure PostgresConnection where
  host : Option String := none
  port : Option ℕ := none
  databaseName : Option String := none
  userName : Option String := none
  password : Option String := none
  connectionString : Option String := none
  sslmode : Option String := none

structure DucklakeCatalog where
  postgresConnection : Option PostgresConnection := none
  metadataSchema : Json := .undefined

structure DucklakeStorage where
  bucketUrl : Option String := none
  s3Connection : Option S3Connection := none
  gcsConnection : Option GcsConnection := none

structure DucklakeConnection where
  catalog : Option DucklakeCatalog := none
  storage : Option DucklakeStorage := none

structure SshProxy where
  hostKey : Option String := none

structure ConnectionProxy where
  type : String
  ssh : Option SshProxy := none

/-- An attached database with the name of the service account it asks to act as. -/
structure DuckdbAttachment where
  name : Option String
  database : AttachedDatabase
  impersonateServiceAccount : Option String := none

/-- What the checks read of a connection. -/
structure ApiConnection where
  name : Json
  type : Json
  resource : Option String := none
  proxy : Option ConnectionProxy := none
  postgresConnection : Option PostgresConnection := none
  /-- The attached databases of a `duckdbConnection`, where it is given. -/
  duckdbConnection : Option (List DuckdbAttachment) := none
  ducklakeConnection : Option DucklakeConnection := none

/-- What a check throws. -/
inductive Refusal
  | config (message : String)
  | credentials (message : String)

def Refusal.message : Refusal → String
  | .config message | .credentials message => message

/-- What the checks ask of the machine they run on. -/
structure Machine where
  policy : S3CredentialChainPolicy
  /-- `NODE_EXTRA_CA_CERTS` points at a file that exists. -/
  caBundle : Bool
  /-- `parseHostKeys` finds a key. -/
  hasHostKey : String → Bool
  /-- `decodeURI(encodeURIComponent(name)) === name`. -/
  carriesName : String → Bool

/-! ## Checks -/

def PROXIED_SSLMODES : List String := ["disable", "no-verify", "verify-ca", "verify-full"]

def validateProxiedPostgres (machine : Machine) (name : String) (proxy : ConnectionProxy)
    (postgres : PostgresConnection) : Except Refusal Unit :=
  if (proxy.ssh.bind SshProxy.hostKey).any fun key => key ≠ "" && !machine.hasHostKey key then
    .error (.config ("Connection proxy on '" ++ name ++ "' has a hostKey with no usable host-key line" ++
      " (only blanks/comments). Provide an OpenSSH known_hosts line or base64 blob, or omit" ++
      " hostKey to connect unpinned (which the tunnel refuses unless" ++
      " PUBLISHER_ALLOW_UNVERIFIED_SSH_HOST_KEY is set)."))
  else if postgres.sslmode.any fun mode => !PROXIED_SSLMODES.contains mode then
    .error (.config ("Connection proxy on '" ++ name ++ "' has unsupported sslmode '" ++
      postgres.sslmode.getD "" ++ "' (expected " ++ " | ".intercalate PROXIED_SSLMODES ++ ")."))
  else if postgres.sslmode = some "verify-ca" && !machine.caBundle then
    .error (.config ("Connection proxy on '" ++ name ++ "' uses sslmode 'verify-ca' but no readable" ++
      " CA bundle is available (NODE_EXTRA_CA_CERTS is unset or points at a missing file)." ++
      " Add the CA bundle to the image or use sslmode 'no-verify'."))
  else if postgres.databaseName.any fun dbName => dbName ≠ "" && !machine.carriesName dbName then
    .error (.config ("Connection proxy on '" ++ name ++ "' has a database name with characters that can't" ++
      " be carried over a proxied connection (" ++ postgres.databaseName.getD "" ++
      "). Use a database name without URI-reserved characters (; , / ? : @ & = + $ #)."))
  else .ok ()

def validateProxy (machine : Machine) (connection : ApiConnection) (proxy : ConnectionProxy) :
    Except Refusal Unit :=
  let name := connection.name.text
  if proxy.type ≠ "ssh" then
    .error (.config ("Connection '" ++ name ++ "' has an unsupported proxy type '" ++ proxy.type ++
      "'. Only 'ssh' is supported."))
  else if connection.type ≠ .string "postgres" then
    .error (.config ("Connection proxy is not supported for type '" ++ connection.type.text ++
      "' (only 'postgres' today)."))
  else if proxy.ssh.isNone then
    .error (.config ("Connection proxy on '" ++ name ++
      "' has type 'ssh' but no 'ssh' config object."))
  else if (connection.postgresConnection.bind PostgresConnection.connectionString).any (· ≠ "") then
    .error (.config ("Connection proxy on '" ++ name ++ "' does not support the connectionString form; " ++
      "provide discrete host and port instead (the tunnel forwards to an explicit endpoint)."))
  else
    match connection.postgresConnection with
    | some postgres =>
      if present postgres.host && postgres.port.any (· ≠ 0) then
        validateProxiedPostgres machine name proxy postgres
      else .error (.config ("Connection proxy on '" ++ name ++ "' requires explicit host and port on the " ++
        "postgres connection; the connectionString form is not supported with a proxy."))
    | none => .error (.config ("Connection proxy on '" ++ name ++ "' requires explicit host and port on the " ++
        "postgres connection; the connectionString form is not supported with a proxy."))

/-- `/^[A-Za-z_][A-Za-z0-9_]*$/`. -/
def isPlainIdentifier (text : String) : Bool :=
  match text.toList with
  | [] => false
  | c :: rest => (c.isAlpha || c = '_') && rest.all fun d => d.isAlphanum || d = '_'

/-- A `metadataSchema` that is absent, or an identifier. -/
def isMetadataSchema : Json → Bool
  | .undefined => true
  | .string schema => isPlainIdentifier schema
  | _ => false

/-- The branch of `validateConnectionShape` for DuckLakes. -/
def validateDucklake (policy : S3CredentialChainPolicy) (connection : ApiConnection) :
    Except Refusal Unit :=
  let name := connection.name.text
  match connection.ducklakeConnection with
  | none => .error (.config "DuckLake connection configuration is missing.")
  | some ducklake =>
    match ducklake.catalog, ducklake.catalog.bind DucklakeCatalog.postgresConnection with
    | some catalog, some _ =>
      match ducklake.storage, present (ducklake.storage.bind DucklakeStorage.bucketUrl) with
      | some storage, true =>
        match storage.s3Connection.elim (.ok ()) fun s3 =>
            validateS3ProviderShape policy s3 name .connection with
        | .error message => .error (.credentials message)
        | .ok () =>
          if isMetadataSchema catalog.metadataSchema then .ok ()
          else .error (.config ("DuckLake catalog metadataSchema must be a plain identifier " ++
            "([A-Za-z_][A-Za-z0-9_]*), got '" ++ catalog.metadataSchema.text ++
            "' for connection: " ++ name))
      | _, _ => .error (.config ("Storage bucketUrl is required for DuckLake: " ++ name))
    | _, _ => .error (.config ("PostgreSQL connection configuration is required for DuckLake catalog: " ++
        name))

def firstRefusal {A : Type} (check : A → Except Refusal Unit) : List A → Except Refusal Unit
  | [] => .ok ()
  | item :: items =>
    match check item with
    | .error refusal => .error refusal
    | .ok () => firstRefusal check items

/-- The branch of `validateConnectionShape` for DuckDBs. -/
def validateDuckdb (policy : S3CredentialChainPolicy) (connection : ApiConnection) :
    Except Refusal Unit :=
  let name := connection.name.text
  match connection.duckdbConnection with
  | none => .error (.config "DuckDB connection configuration is missing.")
  | some attached =>
    match firstRefusal (fun attachedDb : DuckdbAttachment =>
        if attachedDb.database.type = "bigquery" && present attachedDb.impersonateServiceAccount then
          .error (.config ("Attached database '" ++ attachedDb.name.getD "undefined" ++
            "' on DuckDB connection '" ++ name ++ "' sets impersonateServiceAccount, which " ++
            "is not supported on attached databases: DuckDB's BIGQUERY " ++
            "secret authenticates with a service account key, not a " ++
            "token. Use serviceAccountKeyJson for attached BigQuery " ++
            "databases."))
        else .ok ()) attached with
    | .error refusal => .error refusal
    | .ok () =>
      if attached.isEmpty then
        .error (.config ("DuckDB connection \"" ++ name ++ "\" has no attached databases. Add at least " ++
          "one foreign database (BigQuery, Snowflake, Postgres, GCS, S3, Azure) to " ++
          "attachedDatabases, or remove this connection entirely — each package already gets a " ++
          "per-package DuckDB sandbox named \"duckdb\" automatically."))
      else
        firstRefusal (fun attachedDb : DuckdbAttachment =>
          if attachedDb.database.type = "s3" then
            attachedDb.database.s3Connection.elim (.ok ()) fun s3 =>
              (validateS3ProviderShape policy s3 (attachedDb.name.getD name) .connection).mapError
                .credentials
          else .ok ()) attached

section Shape

variable (machine : Machine) (others : ApiConnection → Except Refusal Unit)

/-- The branch of a connection's type; `others` stands for those that read nothing here. -/
def validateConnectionType (connection : ApiConnection) : Except Refusal Unit :=
  match connection.type with
  | .string "postgres" | .string "mysql" => .ok ()
  | .string "duckdb" => validateDuckdb machine.policy connection
  | .string "ducklake" => validateDucklake machine.policy connection
  | _ => others connection

def validateConnectionShape (connection : ApiConnection) : Except Refusal Unit :=
  match connection.proxy with
  | some proxy =>
    match validateProxy machine connection proxy with
    | .error refusal => .error refusal
    | .ok () => validateConnectionType machine others connection
  | none =>
    if present (connection.postgresConnection.bind PostgresConnection.sslmode) then
      .error (.config ("Connection '" ++ connection.name.text ++ "' sets postgresConnection.sslmode " ++
        "but has no proxy; sslmode is only supported for proxied connections (direct connections " ++
        "use the deployment PGSSLMODE)."))
    else validateConnectionType machine others connection

end Shape

end MalloyPublisher.Connections
