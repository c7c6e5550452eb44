import Mathlib.Tactic.SplitIfs
import MalloyPublisher.Foundations.Json

/-!
# Credentials of cloud storage

An S3 bucket is read with a key pair, or with the credentials the host itself has; a GCS bucket with
a key pair only. Whether a connection may use the host's credentials depends on a policy of the
deployment and on where the connection comes from.

## Main definitions

* `validateS3ProviderShape` — what is wrong with an S3 connection on its face
* `resolveCloudStorageCredentials` — the credentials of an attachment, where it has them

## Main results

* `resolve_s3_isOk`, `resolve_gcs_isOk` — where a connection has credentials
* `S3Connection.Shaped.storageDestination` — what is permitted to a connection is permitted to a
  storage destination
-/

namespace MalloyPublisher.Connections

open Foundations

/-! ## Connections to storage -/

/-- `S3_CREDENTIAL_CHAIN_POLICY`. -/
inductive S3CredentialChainPolicy
  | any
  | destinationsOnly
  | off
deriving DecidableEq

def S3CredentialChainPolicy.name : S3CredentialChainPolicy → String
  | .any => "any"
  | .destinationsOnly => "destinations-only"
  | .off => "off"

/-- Where a connection comes from. -/
inductive Origin
  | connection
  | storageDestination
deriving DecidableEq

/-- The two fields that choose the provider may hold anything. -/
structure S3Connection where
  provider : Json := .undefined
  chain : Json := .undefined
  accessKeyId : Option String := none
  secretAccessKey : Option String := none
  region : Option String := none
  endpoint : Option String := none
  sessionToken : Option String := none

structure GcsConnection where
  keyId : Option String := none
  secret : Option String := none

inductive CloudStorageType
  | gcs
  | s3
deriving DecidableEq

structure CloudStorageCredentials where
  type : CloudStorageType
  accessKeyId : String
  secretAccessKey : String
  region : Option String := none
  endpoint : Option String := none
  sessionToken : Option String := none
  provider : Json := .undefined
  chain : Json := .undefined

/-- What the checks read of an attached database. -/
structure AttachedDatabase where
  name : String
  type : String
  s3Connection : Option S3Connection := none
  gcsConnection : Option GcsConnection := none

/-- A text that is given, and not empty. -/
def present (text : Option String) : Bool := text.any (· ≠ "")

/-! ## Checks -/

def S3_PROVIDERS : List String := ["config", "credential_chain"]

def S3Connection.usesChain (s3 : S3Connection) : Bool :=
  decide (s3.provider = .string "credential_chain")

def S3Connection.hasStaticCredential (s3 : S3Connection) : Bool :=
  present s3.accessKeyId || present s3.secretAccessKey || present s3.sessionToken

/-- The host's credentials may not be used. -/
def S3CredentialChainPolicy.refuses (policy : S3CredentialChainPolicy) (origin : Origin) : Bool :=
  policy = .off || policy = .destinationsOnly && origin = .connection

/-- `provider !== undefined`, and none of the providers. -/
def S3Connection.unknownProvider (s3 : S3Connection) : Bool :=
  match s3.provider with
  | .undefined => false
  | .string provider => !S3_PROVIDERS.contains provider
  | _ => true

def S3Connection.notTextChain (s3 : S3Connection) : Bool :=
  match s3.chain with
  | .undefined | .string _ => false
  | _ => true

def validateS3ProviderShape (policy : S3CredentialChainPolicy) (s3Connection : S3Connection)
    (connectionName : String) (origin : Origin) : Except String Unit :=
  if s3Connection.unknownProvider then
    .error ("S3 provider must be one of " ++ ", ".intercalate S3_PROVIDERS ++ " for: " ++
      connectionName)
  else if s3Connection.notTextChain then
    .error ("S3 chain must be a string for: " ++ connectionName)
  else if s3Connection.usesChain then
    if policy.refuses origin then
      .error ("S3 provider 'credential_chain' is not permitted for: " ++ connectionName ++
        " (S3_CREDENTIAL_CHAIN_POLICY=" ++ policy.name ++ "). It resolves the host's own" ++
        " credentials; supply an accessKeyId and secretAccessKey instead.")
    else if s3Connection.hasStaticCredential then
      .error ("S3 accessKeyId, secretAccessKey, and sessionToken must not be set when provider is" ++
        " 'credential_chain' for: " ++ connectionName)
    else .ok ()
  else if s3Connection.chain.truthy then
    .error ("S3 chain is only valid when provider is 'credential_chain' for: " ++ connectionName)
  else .ok ()

def resolveCloudStorageCredentials (policy : S3CredentialChainPolicy)
    (attachedDb : AttachedDatabase) (origin : Origin) : Except String CloudStorageCredentials :=
  if attachedDb.type = "gcs" then
    match attachedDb.gcsConnection with
    | none => .error ("GCS connection configuration missing for: " ++ attachedDb.name)
    | some gcs =>
      if present gcs.keyId && present gcs.secret then
        .ok {
          type := .gcs
          accessKeyId := gcs.keyId.getD ""
          secretAccessKey := gcs.secret.getD "" }
      else .error ("GCS keyId and secret are required for: " ++ attachedDb.name)
  else if attachedDb.type = "s3" then
    match attachedDb.s3Connection with
    | none => .error ("S3 connection configuration missing for: " ++ attachedDb.name)
    | some s3 =>
      match validateS3ProviderShape policy s3 attachedDb.name origin with
      | .error message => .error message
      | .ok () =>
        if !s3.usesChain && !(present s3.accessKeyId && present s3.secretAccessKey) then
          .error ("S3 accessKeyId and secretAccessKey are required for: " ++ attachedDb.name)
        else
          .ok {
            type := .s3
            accessKeyId := s3.accessKeyId.getD ""
            secretAccessKey := s3.secretAccessKey.getD ""
            region := s3.region
            endpoint := s3.endpoint
            sessionToken := s3.sessionToken
            provider := s3.provider
            chain := s3.chain }
  else .error ("Invalid cloud storage type: " ++ attachedDb.type)

/-! ## What passes -/

section Pass

variable {policy : S3CredentialChainPolicy} {origin : Origin} {s3 : S3Connection}
  {gcs : GcsConnection} {name other : String}

/-- An S3 connection with nothing wrong on its face. -/
structure S3Connection.Shaped (s3 : S3Connection) (policy : S3CredentialChainPolicy)
    (origin : Origin) : Prop where
  provider : s3.unknownProvider = false
  chain : s3.notTextChain = false
  host : s3.usesChain = true → policy.refuses origin = false ∧ s3.hasStaticCredential = false
  keys : s3.usesChain = false → s3.chain.truthy = false

theorem validateS3ProviderShape_eq_ok :
    validateS3ProviderShape policy s3 name origin = .ok () ↔ s3.Shaped policy origin := by
  unfold validateS3ProviderShape
  constructor
  · intro passes
    split_ifs at passes with provider chain usesChain refused static truthy
    · exact ⟨Bool.not_eq_true _ ▸ provider, Bool.not_eq_true _ ▸ chain, fun _ =>
        ⟨Bool.not_eq_true _ ▸ refused, Bool.not_eq_true _ ▸ static⟩, fun without =>
          absurd (usesChain.symm.trans without) (by decide)⟩
    · exact ⟨Bool.not_eq_true _ ▸ provider, Bool.not_eq_true _ ▸ chain, fun uses =>
        absurd uses usesChain, fun _ => Bool.not_eq_true _ ▸ truthy⟩
  · rintro ⟨provider, chain, host, keys⟩
    rw [provider, chain]
    cases usesChain : s3.usesChain with
    | true =>
      obtain ⟨permitted, static⟩ := host usesChain
      rw [permitted, static]
      rfl
    | false =>
      rw [keys usesChain]
      rfl

/-- What an attachment resolves to is what its connection holds. -/
theorem resolve_eq_ok {attachedDb : AttachedDatabase} {credentials : CloudStorageCredentials}
    (resolved : resolveCloudStorageCredentials policy attachedDb origin = .ok credentials) :
    (attachedDb.type = "gcs" ∧ ∃ gcs, attachedDb.gcsConnection = some gcs ∧
      credentials = {
        type := .gcs, accessKeyId := gcs.keyId.getD "", secretAccessKey := gcs.secret.getD "" }) ∨
    (attachedDb.type = "s3" ∧ ∃ s3, attachedDb.s3Connection = some s3 ∧ s3.Shaped policy origin ∧
      credentials = {
        type := .s3, accessKeyId := s3.accessKeyId.getD "",
        secretAccessKey := s3.secretAccessKey.getD "", region := s3.region,
        endpoint := s3.endpoint, sessionToken := s3.sessionToken, provider := s3.provider,
        chain := s3.chain }) := by
  unfold resolveCloudStorageCredentials at resolved
  split_ifs at resolved with isGcs isS3
  · cases given : attachedDb.gcsConnection with
    | none =>
      rw [given] at resolved
      cases resolved
    | some gcs =>
      simp only [given] at resolved
      split_ifs at resolved
      cases resolved
      exact .inl ⟨isGcs, gcs, rfl, rfl⟩
  · cases given : attachedDb.s3Connection with
    | none =>
      rw [given] at resolved
      cases resolved
    | some s3 =>
      simp only [given] at resolved
      cases shape : validateS3ProviderShape policy s3 attachedDb.name origin with
      | error message =>
        rw [shape] at resolved
        cases resolved
      | ok =>
        simp only [shape] at resolved
        split_ifs at resolved
        cases resolved
        exact .inr ⟨isS3, s3, rfl, validateS3ProviderShape_eq_ok.mp shape, rfl⟩

/-- Where an S3 connection has credentials. -/
theorem resolve_s3_isOk :
    (∃ credentials, resolveCloudStorageCredentials policy
      { name := name, type := "s3", s3Connection := some s3 } origin = .ok credentials) ↔
      s3.Shaped policy origin ∧
        (s3.usesChain = true ∨ present s3.accessKeyId = true ∧ present s3.secretAccessKey = true) := by
  have other : ¬"s3" = "gcs" := by decide
  rw [resolveCloudStorageCredentials, if_neg other, if_pos rfl]
  dsimp only
  cases shape : validateS3ProviderShape policy s3 name origin with
  | error message =>
    have refused : ¬s3.Shaped policy origin := by
      rw [← validateS3ProviderShape_eq_ok , shape]
      rintro ⟨⟩
    simp [refused]
  | ok =>
    have shaped := validateS3ProviderShape_eq_ok.mp shape
    cases s3.usesChain <;> cases present s3.accessKeyId <;> cases present s3.secretAccessKey <;>
      simp [shaped]

/-- Where a GCS connection has credentials: wherever it is given. -/
theorem resolve_gcs_isOk :
    (∃ credentials, resolveCloudStorageCredentials policy
      { name := name, type := "gcs", gcsConnection := some gcs } origin = .ok credentials) ↔
      present gcs.keyId = true ∧ present gcs.secret = true := by
  rw [resolveCloudStorageCredentials, if_pos rfl]
  dsimp only
  cases present gcs.keyId <;> cases present gcs.secret <;> simp

/-- What the policy permits to a connection, it permits to a storage destination. -/
theorem refuses_storageDestination (permitted : policy.refuses .connection = false) :
    policy.refuses .storageDestination = false := by
  cases policy <;> first | rfl | cases permitted

theorem S3Connection.Shaped.storageDestination (shaped : s3.Shaped policy .connection) :
    s3.Shaped policy .storageDestination where
  provider := shaped.provider
  chain := shaped.chain
  host uses := ⟨refuses_storageDestination (shaped.host uses).1, (shaped.host uses).2⟩
  keys := shaped.keys

end Pass

end MalloyPublisher.Connections
