import Mathlib.Data.List.Sort
import MalloyPublisher.Foundations.Json
import MalloyPublisher.Foundations.KeyedRecord
import MalloyPublisher.Foundations.Text

/-!
# The public view of a connection

A connection is answered by an allowlist: what it does not list is left out. What is left out is
taken a second time, by its own recursion, and reported by name in `withheldFields`.

A record is its fields in the order in which the language lists them, no name twice.

## Main definitions

* `PublicField`, `PUBLIC_CONNECTION` — the allowlist
* `projectField`, `projectShape` — what it publishes
* `hiddenFields` — what an update is to keep
* `flattenWithheld` — the names of what is withheld
* `toPublicConnection` — the answer
-/

namespace MalloyPublisher.Connections

open Foundations

/-! ## The allowlist -/

inductive PublicField
  | scalar
  | any
  | list (shape : List (String × PublicField))
  | shape (fields : List (String × PublicField))

abbrev PublicShape := List (String × PublicField)

/-- Fields that are all declared scalar. -/
def scalars (fields : List String) : PublicShape := fields.map (·, .scalar)

def CONNECTION_ATTRIBUTES : PublicShape := scalars ["dialectName", "isPool", "canPersist", "canStream"]

def POSTGRES : PublicShape := scalars ["host", "port", "databaseName", "userName", "sslmode"]

def BIGQUERY : PublicShape := scalars ["defaultProjectId", "billingProjectId", "location",
  "impersonateServiceAccount", "maximumBytesBilled", "queryTimeoutMilliseconds"]

def SNOWFLAKE : PublicShape := scalars ["account", "username", "warehouse", "database", "schema",
  "role", "responseTimeoutMilliseconds"]

def TRINO : PublicShape := scalars ["server", "port", "catalog", "schema", "user"]

def DATABRICKS : PublicShape := scalars ["host", "path", "oauthClientId", "defaultCatalog",
  "defaultSchema", "setupSQL"]

def MYSQL : PublicShape := scalars ["host", "port", "database", "user"]

def MOTHERDUCK : PublicShape := scalars ["database"]

def PUBLISHER : PublicShape := scalars ["connectionUri"]

def S3 : PublicShape := scalars ["provider", "chain", "region", "endpoint", "accessKeyId"]

def GCS : PublicShape := scalars ["keyId"]

def AZURE : PublicShape := scalars ["authType", "tenantId", "clientId", "accountName", "fileUrl"]

def SSH_PROXY : PublicShape := scalars ["host", "port", "username", "hostKey"]

def PROXY : PublicShape := [("type", .scalar), ("ssh", .shape SSH_PROXY)]

def ATTACHED_DATABASE : PublicShape := [
  ("name", .scalar),
  ("type", .scalar),
  ("attributes", .shape CONNECTION_ATTRIBUTES),
  ("bigqueryConnection", .shape BIGQUERY),
  ("snowflakeConnection", .shape SNOWFLAKE),
  ("postgresConnection", .shape POSTGRES),
  ("gcsConnection", .shape GCS),
  ("s3Connection", .shape S3),
  ("azureConnection", .shape AZURE)]

def DUCKDB : PublicShape := [("attachedDatabases", .list ATTACHED_DATABASE)]

def DUCKLAKE : PublicShape := [
  ("storage", .shape [
    ("bucketUrl", .scalar),
    ("s3Connection", .shape S3),
    ("gcsConnection", .shape GCS)]),
  ("catalog", .shape [
    ("postgresConnection", .shape POSTGRES),
    ("metadataSchema", .scalar)])]

def PUBLIC_CONNECTION : PublicShape := [
  ("resource", .scalar),
  ("name", .scalar),
  ("type", .scalar),
  ("fingerprint", .scalar),
  ("configEtag", .scalar),
  ("queryMetadata", .any),
  ("queryMetadataEnforced", .any),
  ("attributes", .shape CONNECTION_ATTRIBUTES),
  ("proxy", .shape PROXY),
  ("postgresConnection", .shape POSTGRES),
  ("bigqueryConnection", .shape BIGQUERY),
  ("snowflakeConnection", .shape SNOWFLAKE),
  ("trinoConnection", .shape TRINO),
  ("databricksConnection", .shape DATABRICKS),
  ("mysqlConnection", .shape MYSQL),
  ("duckdbConnection", .shape DUCKDB),
  ("motherduckConnection", .shape MOTHERDUCK),
  ("ducklakeConnection", .shape DUCKLAKE),
  ("publisherConnection", .shape PUBLISHER)]

/-- Keys that address an object's prototype rather than its own fields. -/
def UNSAFE_KEYS : List String := ["__proto__", "constructor", "prototype"]

/-! ## What is published -/

mutual

/-- A field's value as it is published; `undefined` where it is not. -/
def projectField : PublicField → Json → Json
  | .any, value => value
  | .scalar, value => if value.isCompound then .undefined else value
  | .list shape, .array items => .array (items.map fun item => match item with
    | .object fields => .object (projectShape shape fields)
    | _ => .object [])
  | .list _, _ => .undefined
  | .shape shape, .object fields => .object (projectShape shape fields)
  | .shape _, _ => .undefined

/-- The fields of a record that a shape lists. -/
def projectShape : PublicShape → List (String × Json) → List (String × Json)
  | [], _ => []
  | (field, spec) :: shape, fields =>
    match fields.lookup field with
    | none => projectShape shape fields
    | some value =>
      match projectField spec value with
      | .undefined => projectShape shape fields
      | projected => (field, projected) :: projectShape shape fields

end

/-- The name of a record that has one, which is a text. -/
def nameOf (fields : List (String × Json)) : Option String :=
  match fields.lookup "name" with
  | some (.string name) => some name
  | _ => none

/-! ## What is hidden -/

mutual

/-- What a view does not show of a record. -/
def hiddenFields (shape : PublicShape) : List (String × Json) → List (String × Json)
  | [] => []
  | (field, fieldValue) :: fields =>
    let more := hiddenFields shape fields
    if field ∈ UNSAFE_KEYS then more
    else
      match shape.lookup field with
      | none => (field, fieldValue) :: more
      | some .any => more
      | some .scalar => if fieldValue.isCompound then (field, fieldValue) :: more else more
      | some (.list itemShape) =>
        match fieldValue with
        | .array items =>
          let hidden := hiddenItems itemShape items
          if hidden.any fun (item : List (String × Json)) => !item.isEmpty then
            (field, .array (hidden.map .object)) :: more
          else more
        | _ => (field, fieldValue) :: more
      | some (.shape nested) =>
        match fieldValue with
        | .object inner =>
          let hidden := hiddenFields nested inner
          if hidden.isEmpty then more else (field, .object hidden) :: more
        | _ => more

/-- What a view does not show of the items of a list, each with the name it is matched by. -/
def hiddenItems (shape : PublicShape) : List Json → List (List (String × Json))
  | [] => []
  | .object fields :: items =>
    let itemHidden := hiddenFields shape fields
    (if itemHidden.isEmpty then []
      else match nameOf fields with
        | some name => writeAll [("name", .string name)] itemHidden
        | none => itemHidden) :: hiddenItems shape items
  | _ :: items => [] :: hiddenItems shape items

end

/-! ## The names of what is withheld -/

mutual

/-- The paths of what is withheld, from what is hidden. -/
def flattenWithheld ( pathPrefix : String) : List (String × Json) → List String
  | [] => []
  | (key, value) :: hidden =>
    flattenValue (dotted pathPrefix key) value ++ flattenWithheld pathPrefix hidden

/-- The paths under one field. -/
def flattenValue (path : String) : Json → List String
  | .array items => flattenItems path items
  | .object fields => flattenWithheld path fields
  | value => if value.isSet then [path] else []

/-- The paths under the items of a list, each labelled by its name. -/
def flattenItems (path : String) : List Json → List String
  | [] => []
  | .object fields :: items =>
    let label := match nameOf fields with
      | some name => path ++ "." ++ name
      | none => path
    flattenRest label fields ++ flattenItems path items
  | _ :: items => flattenItems path items

/-- `flattenWithheld` of what a record has beside its name. -/
def flattenRest (label : String) : List (String × Json) → List String
  | [] => []
  | (key, value) :: rest =>
    if key = "name" then flattenRest label rest
    else flattenValue (dotted label key) value ++ flattenRest label rest

end

def withoutWithheldFields : Json → List (String × Json)
  | .object fields => fields.filter fun (key, _) => key != "withheldFields"
  | _ => []

/-- The paths a view withholds, in the order of `Array.prototype.sort`. -/
def withheldFields (stored : List (String × Json)) : List String :=
  (flattenWithheld "" (hiddenFields PUBLIC_CONNECTION stored)).insertionSort (sortLE · ·)

/-- The connection as the API is allowed to return it. -/
def toPublicConnection (connection : Json) : Json :=
  let stored := withoutWithheldFields connection
  let view := projectShape PUBLIC_CONNECTION stored
  let withheld := withheldFields stored
  if withheld.isEmpty then .object view
  else .object (view ++ [("withheldFields", .array (withheld.map .string))])

end MalloyPublisher.Connections
