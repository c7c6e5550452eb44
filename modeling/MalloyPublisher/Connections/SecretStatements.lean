import MalloyPublisher.Connections.CloudCredentials
import MalloyPublisher.Foundations.SqlTokens

/-!
# The secrets DuckDB is given

Before a database or a bucket is attached, DuckDB is given a secret with its credentials. The
statement that creates one lists clauses between parentheses, each a keyword and a value; most
values are written with their quotes doubled, and a few as they are.

## Main definitions

* `secretSQL` — a statement with its clauses
* `buildCloudStorageSecretSQL`, `attachBigQuery`, `attachSnowflake`, `federateBigQuery`,
  `federateSnowflake` — the statements of each kind of connection
* `Configuration.carried` — the clauses a configuration is meant to come to
* `Configuration.Regular` — the configurations whose fields all find their place

## Main results

* `read_secretSQL` — a statement of readable clauses is read as them
* `secrets_carry` — a regular configuration's secret carries its fields, each in one literal
-/

namespace MalloyPublisher.Connections

open Foundations

/-! ## Clauses -/

/-- How the value of a clause is written. -/
inductive Written
  | word (text : String)
  /-- Between quotes, with its own quotes doubled. -/
  | escaped (text : String)
  /-- Between quotes as it is. -/
  | bare (text : String)

def Written.text : Written → List Char
  | .word text => text.toList
  | .escaped text => quoted '\'' text.toList
  | .bare text => '\'' :: (text.toList ++ ['\''])

/-- What the value is meant to be read as. -/
def Written.token : Written → SqlToken
  | .word text => .word text.toList
  | .escaped text | .bare text => .literal text.toList

structure Clause where
  keyword : String
  value : Written

def Clause.text (clause : Clause) : List Char := clause.keyword.toList ++ ' ' :: clause.value.text

/-- The blanks before a statement, before each clause, before the closing parenthesis, and behind
the statement. -/
structure Layout where
  before : List Char
  indent : List Char
  after : List Char
  behind : List Char

/-- A statement that is written over the lines of a template with a margin. -/
def template (margin : ℕ) : Layout where
  before := '\n' :: List.replicate margin ' '
  indent := '\n' :: List.replicate (margin + 3) ' '
  after := '\n' :: List.replicate margin ' '
  behind := '\n' :: List.replicate (margin - 3) ' '

/-- `CREATE OR REPLACE SECRET`, a name and clauses. -/
def secretSQL (layout : Layout) (name : List Char) (clauses : List Clause) : List Char :=
  layout.before ++ "CREATE OR REPLACE SECRET ".toList ++ (name ++ (" (".toList ++ layout.indent ++
    ((',' :: layout.indent).intercalate (clauses.map Clause.text) ++
      (layout.after ++ ");".toList ++ layout.behind))))

def sanitizeSecretName (name : String) : List Char :=
  "secret_".toList ++ name.toList.flatMap fun c =>
    if c.isAlphanum || c = '_' then [c] else (codeUnits c).map fun _ => '_'

/-! ## Cloud storage -/

def DEFAULT_S3_CREDENTIAL_CHAIN : String := "env;web_identity;instance"

/-- The chain a secret names: what is given without the blanks around it, or the default. -/
def chainOf (chain : Json) : String :=
  match chain with
  | .string chain =>
    let trimmed := String.ofList (trim chain.toList)
    if trimmed = "" then DEFAULT_S3_CREDENTIAL_CHAIN else trimmed
  | _ => DEFAULT_S3_CREDENTIAL_CHAIN

def regionOf (region : Option String) : String :=
  if present region then region.getD "" else "us-east-1"

def buildCloudStorageSecretSQL (secretName : List Char) (credentials : CloudStorageCredentials) :
    List Char :=
  let keys : List Clause :=
    [⟨"KEY_ID", .escaped credentials.accessKeyId⟩, ⟨"SECRET", .escaped credentials.secretAccessKey⟩]
  let endpoint : List Clause :=
    [⟨"ENDPOINT", .escaped (credentials.endpoint.getD "")⟩, ⟨"URL_STYLE", .escaped "path"⟩]
  match credentials.type with
  | .gcs => secretSQL (template 9) secretName (⟨"TYPE", .word "gcs"⟩ :: keys)
  | .s3 =>
    let region : Clause := ⟨"REGION", .bare (regionOf credentials.region)⟩
    if credentials.provider = .string "credential_chain" then
      secretSQL (template 12) secretName
        ([⟨"TYPE", .word "s3"⟩, ⟨"PROVIDER", .word "credential_chain"⟩,
          ⟨"CHAIN", .escaped (chainOf credentials.chain)⟩, ⟨"REFRESH", .escaped "auto"⟩, region] ++
          if present credentials.endpoint then endpoint else [])
    else if present credentials.endpoint then
      secretSQL (template 12) secretName
        (⟨"TYPE", .word "s3"⟩ :: (keys ++ region :: endpoint))
    else if present credentials.sessionToken then
      secretSQL (template 12) secretName
        (⟨"TYPE", .word "s3"⟩ :: (keys ++
          [region, ⟨"SESSION_TOKEN", .escaped (credentials.sessionToken.getD "")⟩]))
    else secretSQL (template 12) secretName (⟨"TYPE", .word "s3"⟩ :: (keys ++ [region]))

/-- The secret of an attached bucket. -/
def attachCloudStorage (policy : S3CredentialChainPolicy) (attachedDb : AttachedDatabase) :
    Except String (List Char) :=
  (resolveCloudStorageCredentials policy attachedDb .connection).map
    (buildCloudStorageSecretSQL (sanitizeSecretName (attachedDb.type ++ "_" ++ attachedDb.name)))

/-! ## BigQuery -/

structure BigqueryConnection where
  defaultProjectId : Option String := none
  serviceAccountKeyJson : Option String := none
  impersonateServiceAccount : Option String := none

/-- `keyData[field]`. -/
def member (field : String) : Json → Except String Json
  | .undefined => .error ("Cannot read properties of undefined (reading '" ++ field ++ "')")
  | .null => .error ("Cannot read properties of null (reading '" ++ field ++ "')")
  | .object fields => .ok ((fields.lookup field).getD .undefined)
  | _ => .ok .undefined

def requiredKeyFields : List String := ["type", "project_id", "private_key", "client_email"]

/-- The project of a service account, and its key. What a key is parsed to is a parameter. -/
def serviceAccount (parse : String → Except String Json) (name : String)
    (config : BigqueryConnection) : Except String (Json × String) := do
  if present config.serviceAccountKeyJson then
    let key := config.serviceAccountKeyJson.getD ""
    let keyData ← parse key
    requiredKeyFields.forM fun field => do
      let value ← member field keyData
      if value.truthy then pure ()
      else throw ("Invalid service account key: missing \"" ++ field ++ "\" field")
    let type ← member "type" keyData
    if type = .string "service_account" then
      let projectId ← member "project_id" keyData
      pure (projectId, key)
    else throw "Invalid service account key: incorrect \"type\" field"
  else throw ("BigQuery project_id and service account key required for: " ++ name)

/-- The statement of a service account. -/
def bigQuerySecretSQL (secretName : List Char) (account : Json × String) : List Char :=
  secretSQL (template 6) secretName
    [⟨"TYPE", .word "BIGQUERY"⟩, ⟨"SCOPE", .bare ("bq://" ++ account.1.text)⟩,
      ⟨"SERVICE_ACCOUNT_JSON", .escaped account.2⟩]

def attachBigQuery (parse : String → Except String Json) (name : String)
    (bigqueryConnection : Option BigqueryConnection) : Except String (List Char) :=
  match bigqueryConnection with
  | none => .error ("BigQuery connection configuration missing for: " ++ name)
  | some config =>
    (serviceAccount parse name config).map
      (bigQuerySecretSQL (sanitizeSecretName ("bigquery_" ++ name)))

def federateBigQuery (parse : String → Except String Json) (name : String)
    (bigqueryConnection : Option BigqueryConnection) : Except String (List Char) :=
  match bigqueryConnection with
  | none => .error ("BigQuery connection configuration missing for: " ++ name)
  | some bq =>
    if present bq.impersonateServiceAccount then
      .error ("BigQuery connection '" ++ name ++ "' uses impersonateServiceAccount, " ++
        "which cannot federate through DuckDB: the DuckDB BIGQUERY secret " ++
        "authenticates with a service account key, not a token. Federated " ++
        "builds from this source require serviceAccountKeyJson.")
    else
      (serviceAccount parse name bq).map
        (bigQuerySecretSQL (sanitizeSecretName ("bigquery_" ++ name)))

/-! ## Snowflake -/

structure SnowflakeConnection where
  account : Option String := none
  username : Option String := none
  password : Option String := none
  privateKey : Option String := none
  privateKeyPass : Option String := none
  database : Option String := none
  warehouse : Option String := none
  schema : Option String := none
  role : Option String := none

/-- A field that is given, as the value of a clause. -/
def given (keyword : String) (field : Option String) : List Clause :=
  if present field then [⟨keyword, .escaped (field.getD "")⟩] else []

/-- A field in a template, given or not. -/
def interpolated (field : Option String) : String :=
  if present field then field.getD "" else "undefined"

def attachSnowflake (name : String) (snowflakeConnection : Option SnowflakeConnection) :
    Except String (List Char) :=
  match snowflakeConnection with
  | none => .error ("Snowflake connection configuration missing for: " ++ name)
  | some config =>
    if present config.account = false then
      .error ("Snowflake account is required for: " ++ name)
    else if present config.username = false then
      .error ("Snowflake username is required for: " ++ name)
    else if present config.password = false then
      .error ("Snowflake password is required for: " ++ name)
    else
      .ok (secretSQL ⟨[], '\n' :: List.replicate 6 ' ', '\n' :: List.replicate 3 ' ', []⟩
        (name ++ "_secret").toList
        [⟨"TYPE", .word "snowflake"⟩, ⟨"ACCOUNT", .escaped (config.account.getD "")⟩,
          ⟨"USER", .escaped (config.username.getD "")⟩,
          ⟨"PASSWORD", .escaped (config.password.getD "")⟩,
          ⟨"DATABASE", .escaped (interpolated config.database)⟩,
          ⟨"WAREHOUSE", .escaped (interpolated config.warehouse)⟩])

/-- How a private key is normalised is a parameter. -/
def federateSnowflake (normalizeSnowflakePrivateKey : String → Except String String) (name : String)
    (snowflakeConnection : Option SnowflakeConnection) : Except String (List Char) :=
  match snowflakeConnection with
  | none => .error ("Snowflake connection configuration missing for: " ++ name)
  | some sf =>
    if present sf.account = false then .error ("Snowflake account is required for: " ++ name)
    else if present sf.username = false then
      .error ("Snowflake username is required for: " ++ name)
    else if present sf.privateKey = false ∧ present sf.password = false then
      .error ("Snowflake privateKey or password is required for: " ++ name)
    else do
      let credential ← if present sf.privateKey then do
          let privateKey ← normalizeSnowflakePrivateKey (sf.privateKey.getD "")
          pure (⟨"AUTH_TYPE", .escaped "key_pair"⟩ :: ⟨"PRIVATE_KEY", .escaped privateKey⟩ ::
            given "PRIVATE_KEY_PASSWORD" sf.privateKeyPass)
        else pure [⟨"PASSWORD", .escaped (sf.password.getD "")⟩]
      pure (secretSQL ⟨[], '\n' :: List.replicate 3 ' ', ['\n'], []⟩
        (sanitizeSecretName ("snowflake_" ++ name))
        ([⟨"TYPE", .word "snowflake"⟩, ⟨"ACCOUNT", .escaped (sf.account.getD "")⟩,
          ⟨"USER", .escaped (sf.username.getD "")⟩] ++ credential ++
          given "DATABASE" sf.database ++ given "WAREHOUSE" sf.warehouse ++
          given "SCHEMA" sf.schema ++ given "ROLE" sf.role))

/-! ## What is read -/

/-- The tokens of a statement with clauses. -/
def secretTokens (name : List Char) (clauses : List (String × SqlToken)) : List SqlToken :=
  [.word "CREATE".toList, .word "OR".toList, .word "REPLACE".toList, .word "SECRET".toList,
    .word name, .symbol '('] ++
  ([SqlToken.symbol ','].intercalate
    (clauses.map fun clause => [.word clause.1.toList, clause.2]) ++ [.symbol ')', .symbol ';'])

/-- The keyword of a clause, and what its value is meant to be read as. -/
def Clause.meant (clause : Clause) : String × SqlToken := (clause.keyword, clause.value.token)

/-- A value that is read as it is meant. -/
def Written.Readable : Written → Prop
  | .word text => SqlDialect.isWord text.toList = true
  | .escaped _ => True
  | .bare text => '\'' ∉ text.toList

structure Clause.Readable (clause : Clause) : Prop where
  keyword : SqlDialect.isWord clause.keyword.toList = true
  value : clause.value.Readable

/-- Blanks at every place. -/
structure Layout.Blank (layout : Layout) : Prop where
  before : layout.before.all isSpace = true
  indent : layout.indent.all isSpace = true
  after : layout.after.all isSpace = true ∧ layout.after ≠ []
  behind : layout.behind.all isSpace = true

section Read

variable {layout : Layout} {name : List Char} {clauses : List Clause}

open SqlDialect (Breaks breaks_cons doubling closed_piece closed_blanks)

theorem Written.Readable.lexes {value : Written} (readable : value.Readable) :
    doubling.reader.Lexes Breaks value.text [value.token] := by
  cases value with
  | word text => exact SqlDialect.lexes_isWord readable
  | escaped text => exact (SqlDialect.lexes_quoted _).mono fun rest => Breaks.ends
  | bare text => exact (SqlDialect.lexes_bare readable).mono fun rest => Breaks.ends

theorem Clause.Readable.lexes {clause : Clause} (readable : clause.Readable) :
    doubling.reader.Lexes Breaks clause.text [.word clause.keyword.toList, clause.value.token] := by
  have blank : doubling.reader.Closed [' '] [] := closed_blanks rfl
  have keyword := (SqlDialect.lexes_isWord readable.keyword).append_closed blank fun rest =>
    breaks_cons (by decide)
  have whole := keyword.append_lexes readable.value.lexes
  simpa [Clause.text] using whole

/-- A statement of readable clauses is read as its name and what its clauses mean. -/
theorem read_secretSQL (blank : layout.Blank) (isName : SqlDialect.isWord name = true)
    (readable : ∀ clause ∈ clauses, clause.Readable) :
    doubling.read (secretSQL layout name clauses) =
      some (secretTokens name (clauses.map Clause.meant)) := by
  have opening : doubling.reader.Closed "CREATE OR REPLACE SECRET ".toList
      [.word "CREATE".toList, .word "OR".toList, .word "REPLACE".toList, .word "SECRET".toList] :=
    closed_piece (by decide +kernel) (by decide +kernel)
  have parenthesis : doubling.reader.Closed " (".toList [.symbol '('] :=
    closed_piece (by decide +kernel) (by decide +kernel)
  have closing : doubling.reader.Closed ");".toList [.symbol ')', .symbol ';'] :=
    closed_piece (by decide +kernel) (by decide +kernel)
  have mark : doubling.reader.Closed [','] [.symbol ','] :=
    closed_piece (by decide +kernel) (by decide +kernel)
  have comma : doubling.reader.Closed (',' :: layout.indent) [.symbol ','] :=
    mark.append (closed_blanks blank.indent)
  have within : doubling.reader.Closed layout.indent [] := closed_blanks blank.indent
  have before : doubling.reader.Closed layout.before [] := closed_blanks blank.before
  have after : doubling.reader.Closed layout.after [] := closed_blanks blank.after.1
  have behind : doubling.reader.Closed layout.behind [] := closed_blanks blank.behind
  have all : doubling.reader.Lexes Breaks ((',' :: layout.indent).intercalate (clauses.map Clause.text))
      ([SqlToken.symbol ','].intercalate
        (clauses.map fun clause => [.word clause.keyword.toList, clause.value.token])) :=
    Reader.Lexes.intercalate comma (fun rest => breaks_cons (by decide))
      fun clause member => (readable clause member).lexes
  -- from the end of the statement to its beginning
  have fromClauses := all.read_append ((after.append closing).append behind).read (by
    obtain ⟨blanks, some⟩ := blank.after
    obtain ⟨c, rest, shape⟩ := List.exists_cons_of_ne_nil some
    rw [shape, List.all_cons, Bool.and_eq_true] at blanks
    rw [shape]
    exact breaks_cons (SqlDialect.isBreak_of_isSpace blanks.1))
  have fromName := (SqlDialect.lexes_isWord isName).read_append
    ((parenthesis.append within).read_eq_some.mpr fromClauses) (by
      have shape : " (".toList = ' ' :: ['('] := by decide +kernel
      rw [shape]
      exact breaks_cons (by decide))
  have whole := (before.append opening).read_eq_some.mpr fromName
  rw [secretTokens, List.map_map]
  simpa [secretSQL, Function.comp_def, Clause.meant] using whole

theorem isWord_sanitizeSecretName (name : String) :
    SqlDialect.isWord (sanitizeSecretName name) = true := by
  refine SqlDialect.isWord_append (by decide +kernel) ?_
  rw [List.all_eq_true]
  intro c member
  obtain ⟨d, -, inside⟩ := List.mem_flatMap.mp member
  split_ifs at inside with plain
  · cases List.mem_singleton.mp inside
    simp only [Char.isAlphanum, Bool.or_eq_true, decide_eq_true_eq] at plain
    rcases plain with (alpha | digit) | rfl
    · simp [isWordChar, isWordStart, alpha]
    · simp [isWordChar, digit]
    · decide
  · obtain ⟨unit, -, rfl⟩ := List.mem_map.mp inside
    decide

theorem blank_template (margin : ℕ) : (template margin).Blank := by
  have spaces : ∀ count, (List.replicate count ' ').all isSpace = true := by
    intro count
    rw [List.all_eq_true]
    intro c member
    rw [List.eq_of_mem_replicate member]
    rfl
  have lines : ∀ count, ('\n' :: List.replicate count ' ').all isSpace = true := fun count => by
    rw [List.all_cons, spaces]
    rfl
  exact ⟨lines _, lines _, ⟨lines _, List.cons_ne_nil _ _⟩, lines _⟩

end Read

/-! ## What a configuration comes to -/

/-- What the statements need of the runtime: how a text is parsed, and how a key is normalised. -/
structure Runtime where
  parse : String → Except String Json
  normalizeSnowflakePrivateKey : String → Except String String

/-- A connection that DuckDB is given a secret for. -/
inductive Configuration
  | cloudStorage (policy : S3CredentialChainPolicy) (attachedDb : AttachedDatabase)
  | attachBigQuery (name : String) (connection : Option BigqueryConnection)
  | attachSnowflake (name : String) (connection : Option SnowflakeConnection)
  | federateBigQuery (name : String) (connection : Option BigqueryConnection)
  | federateSnowflake (name : String) (connection : Option SnowflakeConnection)

namespace Configuration

/-- The statement a configuration is attached or federated with. -/
def statement (runtime : Runtime) : Configuration → Except String (List Char)
  | cloudStorage policy attachedDb => attachCloudStorage policy attachedDb
  | attachBigQuery name connection => Connections.attachBigQuery runtime.parse name connection
  | attachSnowflake name connection => Connections.attachSnowflake name connection
  | federateBigQuery name connection => Connections.federateBigQuery runtime.parse name connection
  | federateSnowflake name connection =>
    Connections.federateSnowflake runtime.normalizeSnowflakePrivateKey name connection

def secretName : Configuration → List Char
  | cloudStorage _ attachedDb => sanitizeSecretName (attachedDb.type ++ "_" ++ attachedDb.name)
  | attachBigQuery name _ | federateBigQuery name _ => sanitizeSecretName ("bigquery_" ++ name)
  | attachSnowflake name _ => (name ++ "_secret").toList
  | federateSnowflake name _ => sanitizeSecretName ("snowflake_" ++ name)

end Configuration

/-- A clause for a field that is supplied. -/
def supplied (keyword : String) (field : Option String) : List (String × SqlToken) :=
  if present field then [(keyword, .literal (field.getD "").toList)] else []

/-- A field that has to be supplied. -/
def required (keyword : String) (field : Option String) : String × SqlToken :=
  (keyword, .literal (field.getD "").toList)

/-- The fields of an S3 connection: the region and the chain have defaults, and an endpoint comes
with its style. -/
def S3Connection.carried (s3 : S3Connection) : List (String × SqlToken) :=
  ("TYPE", .word "s3".toList) ::
    ((if s3.usesChain then
        [("PROVIDER", .word "credential_chain".toList), ("CHAIN", .literal (chainOf s3.chain).toList),
          ("REFRESH", .literal "auto".toList)]
      else [required "KEY_ID" s3.accessKeyId, required "SECRET" s3.secretAccessKey]) ++
    [("REGION", .literal (regionOf s3.region).toList)] ++
    (if present s3.endpoint then
        [required "ENDPOINT" s3.endpoint, ("URL_STYLE", .literal "path".toList)]
      else []) ++
    supplied "SESSION_TOKEN" s3.sessionToken)

def GcsConnection.carried (gcs : GcsConnection) : List (String × SqlToken) :=
  [("TYPE", .word "gcs".toList), required "KEY_ID" gcs.keyId, required "SECRET" gcs.secret]

/-- The fields of a service account: its project, and its key. -/
def BigqueryConnection.carried (runtime : Runtime) (name : String) (config : BigqueryConnection) :
    List (String × SqlToken) :=
  match serviceAccount runtime.parse name config with
  | .ok account =>
    [("TYPE", .word "BIGQUERY".toList), ("SCOPE", .literal ("bq://" ++ account.1.text).toList),
      ("SERVICE_ACCOUNT_JSON", .literal account.2.toList)]
  | .error _ => []

/-- The credential of a Snowflake connection: its key, if it has one, and else its password. -/
def SnowflakeConnection.credential (runtime : Runtime) (config : SnowflakeConnection) :
    List (String × SqlToken) :=
  if present config.privateKey then
    match runtime.normalizeSnowflakePrivateKey (config.privateKey.getD "") with
    | .ok key =>
      ("AUTH_TYPE", .literal "key_pair".toList) :: ("PRIVATE_KEY", .literal key.toList) ::
        supplied "PRIVATE_KEY_PASSWORD" config.privateKeyPass
    | .error _ => []
  else [required "PASSWORD" config.password]

def SnowflakeConnection.carried (runtime : Runtime) (config : SnowflakeConnection) :
    List (String × SqlToken) :=
  [("TYPE", .word "snowflake".toList), required "ACCOUNT" config.account,
    required "USER" config.username] ++ config.credential runtime ++
    supplied "DATABASE" config.database ++ supplied "WAREHOUSE" config.warehouse ++
    supplied "SCHEMA" config.schema ++ supplied "ROLE" config.role

namespace Configuration

/-- The clauses a configuration is meant to come to. -/
def carried (runtime : Runtime) : Configuration → List (String × SqlToken)
  | cloudStorage _ attachedDb =>
    if attachedDb.type = "gcs" then (attachedDb.gcsConnection.map GcsConnection.carried).getD []
    else (attachedDb.s3Connection.map S3Connection.carried).getD []
  | attachBigQuery name connection | federateBigQuery name connection =>
    (connection.map (BigqueryConnection.carried runtime name)).getD []
  | attachSnowflake _ connection | federateSnowflake _ connection =>
    (connection.map (SnowflakeConnection.carried runtime)).getD []

/-- The configurations whose fields all find their place. A region and a project are written as they
are. A key pair's secret has a place for an endpoint or for a session token. The secret of an
attached Snowflake database always has a database and a warehouse, and it has no place for a schema,
a role or a key; its name is written as it is. -/
def Regular (runtime : Runtime) : Configuration → Prop
  | cloudStorage _ attachedDb => attachedDb.type ≠ "gcs" → ∀ s3 ∈ attachedDb.s3Connection,
      '\'' ∉ (s3.region.getD "").toList ∧
        (s3.usesChain = false → present s3.endpoint = true → present s3.sessionToken = false)
  | attachBigQuery name connection | federateBigQuery name connection =>
    ∀ config ∈ connection, ∀ account, serviceAccount runtime.parse name config = .ok account →
      '\'' ∉ account.1.text.toList
  | attachSnowflake name connection =>
    SqlDialect.isWord (name ++ "_secret").toList = true ∧ ∀ config ∈ connection,
      present config.database = true ∧ present config.warehouse = true ∧
      present config.schema = false ∧ present config.role = false ∧
      present config.privateKey = false
  | federateSnowflake _ _ => True

end Configuration

/-! ## What each carries -/

section Carry

variable {runtime : Runtime} {name : String} {statement : List Char}

open SqlDialect (doubling)

theorem readable_word {keyword text : String} (isKeyword : SqlDialect.isWord keyword.toList = true)
    (isText : SqlDialect.isWord text.toList = true) : (Clause.mk keyword (.word text)).Readable :=
  ⟨isKeyword, isText⟩

theorem readable_escaped {keyword text : String}
    (isKeyword : SqlDialect.isWord keyword.toList = true) :
    (Clause.mk keyword (.escaped text)).Readable := ⟨isKeyword, trivial⟩

theorem readable_bare {keyword text : String} (isKeyword : SqlDialect.isWord keyword.toList = true)
    (free : '\'' ∉ text.toList) : (Clause.mk keyword (.bare text)).Readable := ⟨isKeyword, free⟩

theorem regionOf_free {region : Option String} (free : '\'' ∉ (region.getD "").toList) :
    '\'' ∉ (regionOf region).toList := by
  unfold regionOf
  split_ifs
  · exact free
  · decide +kernel

/-- The secret of a GCS bucket. -/
theorem gcs_carries {gcs : GcsConnection} {secretName : List Char}
    (isName : SqlDialect.isWord secretName = true) :
    doubling.read (buildCloudStorageSecretSQL secretName {
        type := .gcs, accessKeyId := gcs.keyId.getD "", secretAccessKey := gcs.secret.getD "" }) =
      some (secretTokens secretName gcs.carried) := by
  refine read_secretSQL (blank_template 9) isName ?_
  simp only [List.forall_mem_cons]
  exact ⟨readable_word (by decide +kernel) (by decide +kernel), readable_escaped (by decide +kernel),
    readable_escaped (by decide +kernel), by simp⟩

/-- The secret of an S3 bucket. -/
theorem s3_carries {s3 : S3Connection} {policy : S3CredentialChainPolicy} {origin : Origin}
    {secretName : List Char} (isName : SqlDialect.isWord secretName = true)
    (shaped : s3.Shaped policy origin) (free : '\'' ∉ (s3.region.getD "").toList)
    (place : s3.usesChain = false → present s3.endpoint = true → present s3.sessionToken = false) :
    doubling.read (buildCloudStorageSecretSQL secretName {
        type := .s3, accessKeyId := s3.accessKeyId.getD "",
        secretAccessKey := s3.secretAccessKey.getD "", region := s3.region,
        endpoint := s3.endpoint, sessionToken := s3.sessionToken, provider := s3.provider,
        chain := s3.chain }) = some (secretTokens secretName s3.carried) := by
  have region : (Clause.mk "REGION" (.bare (regionOf s3.region))).Readable :=
    readable_bare (by decide +kernel) (regionOf_free free)
  have type : (Clause.mk "TYPE" (.word "s3")).Readable :=
    readable_word (by decide +kernel) (by decide +kernel)
  have id : (Clause.mk "KEY_ID" (.escaped (s3.accessKeyId.getD ""))).Readable :=
    readable_escaped (by decide +kernel)
  have secret : (Clause.mk "SECRET" (.escaped (s3.secretAccessKey.getD ""))).Readable :=
    readable_escaped (by decide +kernel)
  have endpoint : (Clause.mk "ENDPOINT" (.escaped (s3.endpoint.getD ""))).Readable :=
    readable_escaped (by decide +kernel)
  have style : (Clause.mk "URL_STYLE" (.escaped "path")).Readable :=
    readable_escaped (by decide +kernel)
  unfold buildCloudStorageSecretSQL S3Connection.carried
  cases uses : s3.usesChain with
  | true =>
    have provider : s3.provider = .string "credential_chain" := of_decide_eq_true uses
    have static := (shaped.host uses).2
    have noToken : present s3.sessionToken = false := by
      simp only [S3Connection.hasStaticCredential, Bool.or_eq_false_iff] at static
      exact static.2
    have chained : ∀ clause ∈ ([⟨"TYPE", .word "s3"⟩, ⟨"PROVIDER", .word "credential_chain"⟩,
        ⟨"CHAIN", .escaped (chainOf s3.chain)⟩, ⟨"REFRESH", .escaped "auto"⟩,
        ⟨"REGION", .bare (regionOf s3.region)⟩] : List Clause), clause.Readable := by
      simp only [List.forall_mem_cons]
      exact ⟨type, readable_word (by decide +kernel) (by decide +kernel),
        readable_escaped (by decide +kernel), readable_escaped (by decide +kernel), region, by simp⟩
    simp only [if_pos provider, supplied, noToken]
    cases present s3.endpoint with
    | true =>
      refine read_secretSQL (blank_template 12) isName ?_
      simp only [if_true, List.forall_mem_append, List.forall_mem_cons]
      exact ⟨by simpa only [List.forall_mem_cons] using chained, endpoint, style, by simp⟩
    | false =>
      refine read_secretSQL (blank_template 12) isName ?_
      simpa using chained
  | false =>
    have provider : s3.provider ≠ .string "credential_chain" := of_decide_eq_false uses
    simp only [if_neg provider]
    cases hasEndpoint : present s3.endpoint with
    | true =>
      simp only [supplied, place uses hasEndpoint]
      refine read_secretSQL (blank_template 12) isName ?_
      simp only [List.cons_append, List.nil_append, List.forall_mem_cons]
      exact ⟨type, id, secret, region, endpoint, style, by simp⟩
    | false =>
      cases hasToken : present s3.sessionToken with
      | true =>
        simp only [supplied, hasToken]
        refine read_secretSQL (blank_template 12) isName ?_
        simp only [List.cons_append, List.nil_append, List.forall_mem_cons]
        exact ⟨type, id, secret, region, readable_escaped (by decide +kernel), by simp⟩
      | false =>
        simp only [supplied, hasToken]
        refine read_secretSQL (blank_template 12) isName ?_
        simp only [List.cons_append, List.nil_append, List.forall_mem_cons]
        exact ⟨type, id, secret, region, by simp⟩

/-- The secret of a service account. -/
theorem serviceAccount_carries {config : BigqueryConnection} {secretName : List Char}
    (isName : SqlDialect.isWord secretName = true)
    (free : ∀ account, serviceAccount runtime.parse name config = .ok account →
      '\'' ∉ account.1.text.toList)
    (accepted : (serviceAccount runtime.parse name config).map (bigQuerySecretSQL secretName) =
      .ok statement) :
    doubling.read statement = some (secretTokens secretName (config.carried runtime name)) := by
  cases isAccount : serviceAccount runtime.parse name config with
  | error message =>
    rw [isAccount] at accepted
    cases accepted
  | ok account =>
    rw [isAccount] at accepted
    cases accepted
    rw [BigqueryConnection.carried, isAccount]
    have scope : '\'' ∉ ("bq://" ++ account.1.text).toList := by
      rw [String.toList_append, List.mem_append]
      rintro (mark | inside)
      · revert mark
        decide +kernel
      · exact free account isAccount inside
    refine read_secretSQL (blank_template 6) isName ?_
    simp only [List.forall_mem_cons]
    exact ⟨readable_word (by decide +kernel) (by decide +kernel),
      readable_bare (by decide +kernel) scope, readable_escaped (by decide +kernel), by simp⟩

theorem readable_given {keyword : String} (isKeyword : SqlDialect.isWord keyword.toList = true)
    (field : Option String) : ∀ clause ∈ given keyword field, clause.Readable := by
  intro clause member
  unfold given at member
  split_ifs at member
  · cases List.mem_singleton.mp member
    exact readable_escaped isKeyword
  · cases member

theorem meant_given (keyword : String) (field : Option String) :
    (given keyword field).map Clause.meant = supplied keyword field := by
  unfold given supplied
  split_ifs <;> rfl

/-- The blanks of a statement that begins and ends without any. -/
theorem blank_lines {indent after : ℕ} :
    (⟨[], '\n' :: List.replicate indent ' ', '\n' :: List.replicate after ' ', []⟩ :
      Layout).Blank where
  before := rfl
  indent := (blank_template indent).before
  after := (blank_template after).after
  behind := rfl

/-- The statement of a federated Snowflake connection with its credential. -/
theorem snowflake_carries (config : SnowflakeConnection) {credential : List Clause}
    (readable : ∀ clause ∈ credential, clause.Readable)
    (meant : credential.map Clause.meant = config.credential runtime) :
    doubling.read (secretSQL ⟨[], '\n' :: List.replicate 3 ' ', ['\n'], []⟩
        (sanitizeSecretName ("snowflake_" ++ name))
        ([⟨"TYPE", .word "snowflake"⟩, ⟨"ACCOUNT", .escaped (config.account.getD "")⟩,
          ⟨"USER", .escaped (config.username.getD "")⟩] ++ credential ++
          given "DATABASE" config.database ++ given "WAREHOUSE" config.warehouse ++
          given "SCHEMA" config.schema ++ given "ROLE" config.role)) =
      some (secretTokens (sanitizeSecretName ("snowflake_" ++ name)) (config.carried runtime)) := by
  have blank : (⟨[], '\n' :: List.replicate 3 ' ', ['\n'], []⟩ : Layout).Blank := @blank_lines 3 0
  rw [read_secretSQL blank (isWord_sanitizeSecretName _)]
  · simp only [List.map_append, meant_given, meant]
    rfl
  · simp only [List.forall_mem_append, List.forall_mem_cons]
    exact ⟨⟨⟨⟨⟨⟨readable_word (by decide +kernel) (by decide +kernel),
      readable_escaped (by decide +kernel), readable_escaped (by decide +kernel), by simp⟩,
      readable⟩, readable_given (by decide +kernel) _⟩, readable_given (by decide +kernel) _⟩,
      readable_given (by decide +kernel) _⟩, readable_given (by decide +kernel) _⟩

/-- The secret of a federated Snowflake connection. -/
theorem federateSnowflake_carries {config : SnowflakeConnection}
    (accepted : federateSnowflake runtime.normalizeSnowflakePrivateKey name (some config) =
      .ok statement) :
    doubling.read statement = some (secretTokens (sanitizeSecretName ("snowflake_" ++ name))
      (config.carried runtime)) := by
  simp only [federateSnowflake] at accepted
  split_ifs at accepted with account username none key
  · cases normal : runtime.normalizeSnowflakePrivateKey (config.privateKey.getD "") with
    | error message =>
      rw [normal] at accepted
      cases accepted
    | ok privateKey =>
      rw [normal] at accepted
      cases accepted
      refine snowflake_carries config ?_ ?_
      · simp only [List.forall_mem_cons]
        exact ⟨readable_escaped (by decide +kernel), readable_escaped (by decide +kernel),
          readable_given (by decide +kernel) _⟩
      · rw [SnowflakeConnection.credential, if_pos key, normal, List.map_cons, List.map_cons,
          meant_given]
        rfl
  · cases accepted
    refine snowflake_carries config ?_ ?_
    · simp only [List.forall_mem_cons]
      exact ⟨readable_escaped (by decide +kernel), by simp⟩
    · rw [SnowflakeConnection.credential, if_neg key]
      rfl

/-- The secret of an attached Snowflake database with all that it has a place for. -/
theorem attachSnowflake_carries {config : SnowflakeConnection}
    (isName : SqlDialect.isWord (name ++ "_secret").toList = true)
    (database : present config.database = true) (warehouse : present config.warehouse = true)
    (schema : present config.schema = false) (role : present config.role = false)
    (key : present config.privateKey = false)
    (accepted : attachSnowflake name (some config) = .ok statement) :
    doubling.read statement =
      some (secretTokens (name ++ "_secret").toList (config.carried runtime)) := by
  simp only [attachSnowflake] at accepted
  split_ifs at accepted
  cases accepted
  rw [read_secretSQL blank_lines isName]
  · simp only [SnowflakeConnection.carried, SnowflakeConnection.credential, supplied, database,
      warehouse, schema, role, key, interpolated]
    rfl
  · simp only [List.forall_mem_cons]
    exact ⟨readable_word (by decide +kernel) (by decide +kernel), readable_escaped (by decide +kernel),
      readable_escaped (by decide +kernel), readable_escaped (by decide +kernel),
      readable_escaped (by decide +kernel), readable_escaped (by decide +kernel), by simp⟩

/-- The secret of a bucket. -/
theorem cloudStorage_carries {policy : S3CredentialChainPolicy} {attachedDb : AttachedDatabase}
    (regular : (Configuration.cloudStorage policy attachedDb).Regular runtime)
    (accepted : attachCloudStorage policy attachedDb = .ok statement) :
    doubling.read statement = some (secretTokens
      (Configuration.cloudStorage policy attachedDb).secretName
      ((Configuration.cloudStorage policy attachedDb).carried runtime)) := by
  unfold attachCloudStorage at accepted
  cases resolved : resolveCloudStorageCredentials policy attachedDb .connection with
  | error message =>
    rw [resolved] at accepted
    cases accepted
  | ok credentials =>
    rw [resolved] at accepted
    cases accepted
    rcases resolve_eq_ok resolved with ⟨isGcs, gcs, isConnection, rfl⟩ |
      ⟨isS3, s3, isConnection, shaped, rfl⟩
    · rw [Configuration.carried, if_pos isGcs, isConnection]
      exact gcs_carries (isWord_sanitizeSecretName _)
    · have notGcs : attachedDb.type ≠ "gcs" := by
        rw [isS3]
        decide
      obtain ⟨free, place⟩ := regular notGcs s3 isConnection
      rw [Configuration.carried, if_neg notGcs, isConnection]
      exact s3_carries (isWord_sanitizeSecretName _) shaped free place

/-- Where every field finds its place, the secret that is created has each of them in one clause, in
one literal that is read as the field, and no clause besides. -/
theorem secrets_carry {configuration : Configuration} (regular : configuration.Regular runtime)
    (accepted : configuration.statement runtime = .ok statement) :
    doubling.read statement =
      some (secretTokens configuration.secretName (configuration.carried runtime)) := by
  cases configuration with
  | cloudStorage policy attachedDb => exact cloudStorage_carries regular accepted
  | attachBigQuery name connection =>
    cases connection with
    | none => cases accepted
    | some config =>
      exact serviceAccount_carries (isWord_sanitizeSecretName _) (regular config rfl) accepted
  | attachSnowflake name connection =>
    cases connection with
    | none => cases accepted
    | some config =>
      obtain ⟨isName, regular⟩ := regular
      obtain ⟨database, warehouse, schema, role, key⟩ := regular config rfl
      exact attachSnowflake_carries isName database warehouse schema role key accepted
  | federateBigQuery name connection =>
    cases connection with
    | none => cases accepted
    | some config =>
      simp only [Configuration.statement, federateBigQuery] at accepted
      split_ifs at accepted
      exact serviceAccount_carries (isWord_sanitizeSecretName _) (regular config rfl) accepted
  | federateSnowflake name connection =>
    cases connection with
    | none => cases accepted
    | some config => exact federateSnowflake_carries accepted

end Carry

/-- A key pair whose secret has a quote. -/
def quotedKeyPair : AttachedDatabase where
  name := "lake"
  type := "s3"
  s3Connection := some {
    accessKeyId := some "AKIA", secretAccessKey := some "it's", region := some "eu-west-1" }

theorem secrets_carry_quotedKeyPair :
    ∃ statement, attachCloudStorage .any quotedKeyPair = .ok statement ∧
      SqlDialect.doubling.read statement = some (secretTokens (sanitizeSecretName "s3_lake")
        [("TYPE", .word "s3".toList), ("KEY_ID", .literal "AKIA".toList),
          ("SECRET", .literal "it's".toList), ("REGION", .literal "eu-west-1".toList)]) := by
  have accepted : attachCloudStorage .any quotedKeyPair = .ok (buildCloudStorageSecretSQL
      (sanitizeSecretName ("s3" ++ "_" ++ "lake")) {
        type := .s3, accessKeyId := "AKIA", secretAccessKey := "it's",
        region := some "eu-west-1" }) := rfl
  refine ⟨_, accepted, ?_⟩
  exact @secrets_carry ⟨fun _ => .ok .null, .ok⟩ _ (.cloudStorage .any quotedKeyPair)
    (fun _ s3 given => by
      cases given
      exact ⟨by decide +kernel, fun _ => by decide⟩) accepted

/-- A bucket that is read with the host's credentials, in the order the server chooses. -/
def hostBucket : S3Connection where
  provider := .string "credential_chain"

/-- A chain that is not given is written all the same. -/
theorem absent_chain_is_written :
    ¬ ∀ (policy : S3CredentialChainPolicy) (name : String) (s3 : S3Connection)
      (statement : List Char) (tokens : List SqlToken), s3.chain = .undefined →
      attachCloudStorage policy { name := name, type := "s3", s3Connection := some s3 } =
        .ok statement →
      SqlDialect.doubling.read statement = some tokens → .word "CHAIN".toList ∉ tokens := by
  intro absent
  have shaped : hostBucket.Shaped .any .connection := by
    refine ⟨rfl, rfl, fun _ => ⟨rfl, rfl⟩, fun _ => rfl⟩
  have isRead := s3_carries (isWord_sanitizeSecretName ("s3" ++ "_" ++ "lake")) shaped
    (by decide) fun _ _ => rfl
  refine absent .any "lake" hostBucket _ _ rfl rfl isRead ?_
  rw [secretTokens]
  decide +kernel

end MalloyPublisher.Connections
