import MalloyPublisher.Connections.ConnectionShape
import MalloyPublisher.Foundations.ConnectionUri
import MalloyPublisher.Foundations.KeywordValues
import MalloyPublisher.Foundations.SqlTokens

/-!
# How a Postgres server is spelled

A Postgres configuration reaches its client in one of four ways. DuckDB is given libpq's keyword and
value pairs, in a literal of an `ATTACH`; the query path is given a URI. Each has a direct form, for
the configured server, and a proxied one, for the local end of a tunnel to it. The direct forms
write values as they are where the proxied forms quote and encode them.

## Main definitions

* `buildPgConnectionString`, `buildProxiedPgAttachString` — the keyword and value pairs
* `buildPostgresConnectionString`, `buildProxiedPostgresConnection` — the URIs
* `DirectMeant`, `ProxiedMeant` — every spelling is read as the configuration

## Main results

* `read_buildPgConnectionString_iff` — the direct pairs are read exactly when every value is plain
* `read_buildPostgresConnectionString_iff` — the direct URI is read exactly when the host is plain
* `spelled_alike_iff` — when an accepted configuration means the same however it is spelled
-/

namespace MalloyPublisher.Connections.Postgres

open Foundations

/-! ## Strings -/

/-- What the process is told of TLS. -/
structure Deployment where
  pgSSLMode : Option String
  nodeExtraCaCerts : Option String
  /-- The file of the runtime's own trust anchors. -/
  ambientBundle : String

/-- The local end of a tunnel, which listens on 127.0.0.1. -/
structure ProxyEndpoint where
  port : ℕ

def ProxyEndpoint.host (_ : ProxyEndpoint) : List Char := "127.0.0.1".toList

/-- A text that is not empty. -/
def truthy (text : Option String) : Option (List Char) := (text.filter (· ≠ "")).map String.toList

def portOf (port : Option ℕ) : Option (List Char) := (port.filter (· ≠ 0)).map (Nat.toDigits 10)

/-- The part that is pushed where there is a value. -/
def pushed (front : String) (value : Option (List Char)) : List (List Char) :=
  value.toList.map (front.toList ++ ·)

/-- The modes of PGSSLMODE that libpq is given. -/
def MAPPING : List (String × String) :=
  [("no-verify", "disable"), ("disable", "disable"), ("allow", "allow"), ("prefer", "prefer"),
    ("require", "require"), ("verify-ca", "verify-ca"), ("verify-full", "verify-full")]

def sslmodeOf (pgSSLMode : Option String) : Option (List Char) :=
  ((pgSSLMode.filter (· ≠ "")).bind fun mode => MAPPING.lookup mode.toLower).map String.toList

def buildPgConnectionString (deployment : Deployment) (pg : PostgresConnection) : List Char :=
  match truthy pg.connectionString with
  | some connectionString => connectionString
  | none => [' '].intercalate (pushed "host=" (truthy pg.host) ++ pushed "port=" (portOf pg.port) ++
      pushed "dbname=" (truthy pg.databaseName) ++ pushed "user=" (truthy pg.userName) ++
      pushed "password=" (truthy pg.password) ++ pushed "sslmode=" (sslmodeOf deployment.pgSSLMode))

/-- One keyword and its value, quoted where it has to be. -/
def pgConninfoPair (key value : List Char) : List Char :=
  if value ≠ [] ∧ !value.any fun c => isSpace c || c = '\'' || c = '\\' then key ++ '=' :: value
  else key ++ '=' :: '\'' ::
    ((value.flatMap fun c => if c = '\\' ∨ c = '\'' then ['\\', c] else [c]) ++ ['\''])

/-- A pair that is pushed where there is a value. -/
def pushedPair (key : String) (value : Option (List Char)) : List (List Char) :=
  value.toList.map (pgConninfoPair key.toList)

def buildProxiedPgAttachString (deployment : Deployment) (name : String) (pg : PostgresConnection)
    (endpoint : ProxyEndpoint) : Except String (List Char) :=
  match truthy pg.host with
  | none => .error ("Connection proxy on '" ++ name ++
      "' requires an explicit host on the postgres connection.")
  | some host =>
    let parts := [pgConninfoPair "host".toList host, pgConninfoPair "hostaddr".toList endpoint.host,
      pgConninfoPair "port".toList (Nat.toDigits 10 endpoint.port)] ++
      pushedPair "dbname" (truthy pg.databaseName) ++ pushedPair "user" (truthy pg.userName) ++
      pushedPair "password" (truthy pg.password)
    match pg.sslmode.getD "no-verify" with
    | "disable" => .ok ([' '].intercalate (parts ++ ["sslmode=disable".toList]))
    | "no-verify" => .ok ([' '].intercalate (parts ++ ["sslmode=require".toList]))
    | "verify-ca" =>
      match truthy deployment.nodeExtraCaCerts with
      | none => .error ("Connection proxy on '" ++ name ++ "' uses sslmode 'verify-ca' but no trusted " ++
          "CA bundle is available (NODE_EXTRA_CA_CERTS is unset).")
      | some caBundle => .ok ([' '].intercalate (parts ++
          ["sslmode=verify-ca".toList, pgConninfoPair "sslrootcert".toList caBundle]))
    | "verify-full" => .ok ([' '].intercalate (parts ++ ["sslmode=verify-full".toList,
        pgConninfoPair "sslrootcert".toList deployment.ambientBundle.toList]))
    | mode => .error ("Connection proxy on '" ++ name ++ "' has unsupported sslmode '" ++ mode ++
        "' (expected " ++ " | ".intercalate PROXIED_SSLMODES ++ ").")

/-- The statement that attaches a database, or that replaces it. -/
def attachStatement (command : String) (attachString database : List Char) : List Char :=
  command.toList ++ (quoted '\'' attachString ++ (" AS ".toList ++ (quoted '"' database ++
    " (TYPE postgres, READ_ONLY);".toList)))

/-! ## URIs -/

/-- What `encodeURIComponent` writes as it is. -/
def isUriBare (c : Char) : Bool :=
  c.isAlphanum || c ∈ ['-', '_', '.', '!', '~', '*', '\'', '(', ')']

def encodeURIComponent (text : List Char) : List Char := Percent.encode isUriBare text

/-- What `URLSearchParams` writes as it is. -/
def isFormBare (c : Char) : Bool := c.isAlphanum || c ∈ ['*', '-', '.', '_']

def buildPostgresConnectionString (deployment : Deployment) (config : PostgresConnection) :
    Option (List Char) :=
  match truthy config.connectionString, truthy deployment.pgSSLMode with
  | none, some pgSSLMode =>
    let auth := match truthy config.userName, truthy config.password with
      | some userName, some password =>
        encodeURIComponent userName ++ ':' :: encodeURIComponent password ++ ['@']
      | some userName, none => encodeURIComponent userName ++ ['@']
      | none, _ => []
    let host := (config.host.getD "localhost").toList
    let port := (portOf config.port).elim [] (':' :: ·)
    let database := (truthy config.databaseName).elim [] fun name => '/' :: encodeURIComponent name
    some ("postgresql://".toList ++ (auth ++ (host ++ (port ++ database)) ++
      '?' :: ("sslmode=".toList ++ ConnectionUri.formEncode isFormBare pgSSLMode)))
  | _, _ => config.connectionString.map String.toList

structure PostgresSSLConfig where
  servername : List Char
  rejectUnauthorized : Bool

def buildProxiedSslQuery (deployment : Deployment) (name : String) (sslmode : Option String) :
    Except String (List Char) :=
  match sslmode.getD "no-verify" with
  | "disable" => .ok "?sslmode=disable".toList
  | "no-verify" => .ok "?sslmode=no-verify".toList
  | "verify-ca" =>
    match truthy deployment.nodeExtraCaCerts with
    | none => .error ("Connection proxy on '" ++ name ++ "' uses sslmode 'verify-ca' but no trusted " ++
        "CA bundle is available (NODE_EXTRA_CA_CERTS is unset). Add the CA bundle to the image or " ++
        "use sslmode 'no-verify'.")
    | some caBundle => .ok ("?uselibpqcompat=true&sslmode=verify-ca&sslrootcert=".toList ++
        encodeURIComponent caBundle)
  | mode => .error ("Connection proxy on '" ++ name ++ "' has unsupported sslmode '" ++ mode ++
      "' (expected disable | no-verify | verify-ca; verify-full is applied via the ssl object in " ++
      "resolveProxiedTls, not this query).")

def resolveProxiedTls (deployment : Deployment) (name : String) (host sslmode : Option String) :
    Except String (List Char × Option PostgresSSLConfig) :=
  if sslmode = some "verify-full" then
    match truthy host with
    | none => .error ("Connection proxy on '" ++ name ++ "' uses sslmode 'verify-full' but has no " ++
        "host to verify against.")
    | some host => .ok ([], some { servername := host, rejectUnauthorized := true })
  else (buildProxiedSslQuery deployment name sslmode).map fun query => (query, none)

def buildProxiedPostgresConnection (deployment : Deployment) (name : String) (pg : PostgresConnection)
    (endpoint : ProxyEndpoint) : Except String (List Char × Option PostgresSSLConfig) :=
  let auth := (truthy pg.userName).elim [] fun userName => encodeURIComponent userName ++
    (truthy pg.password).elim [] (fun password => ':' :: encodeURIComponent password) ++ ['@']
  let db := (truthy pg.databaseName).elim [] fun name => '/' :: encodeURIComponent name
  (resolveProxiedTls deployment name pg.host pg.sslmode).map fun tls =>
    ("postgresql://".toList ++ (auth ++ (endpoint.host ++ (':' :: Nat.toDigits 10 endpoint.port ++ db)) ++
      tls.1), tls.2)

/-! ## What is meant -/

/-- A keyword and its value, where there is one. -/
def setting (key : String) (value : Option (List Char)) : List (List Char × List Char) :=
  value.toList.map (key.toList, ·)

/-- The credentials and the database of a configuration. -/
def account (pg : PostgresConnection) : List (List Char × List Char) :=
  setting "dbname" (truthy pg.databaseName) ++ setting "user" (truthy pg.userName) ++
    setting "password" (truthy pg.password)

/-- The keywords of the configured server. -/
def directSettings (deployment : Deployment) (pg : PostgresConnection) :
    List (List Char × List Char) :=
  setting "host" (truthy pg.host) ++ setting "port" (portOf pg.port) ++ account pg ++
    setting "sslmode" (sslmodeOf deployment.pgSSLMode)

/-- The TLS that is asked of libpq through a tunnel. -/
def proxiedTls (deployment : Deployment) (sslmode : Option String) : List (List Char × List Char) :=
  match sslmode.getD "no-verify" with
  | "disable" => setting "sslmode" (some "disable".toList)
  | "verify-ca" => setting "sslmode" (some "verify-ca".toList) ++
      setting "sslrootcert" (truthy deployment.nodeExtraCaCerts)
  | "verify-full" => setting "sslmode" (some "verify-full".toList) ++
      setting "sslrootcert" (some deployment.ambientBundle.toList)
  | _ => setting "sslmode" (some "require".toList)

/-- The configured name, at the local end of a tunnel. -/
def proxiedSettings (deployment : Deployment) (pg : PostgresConnection) (endpoint : ProxyEndpoint) :
    List (List Char × List Char) :=
  setting "host" (truthy pg.host) ++ setting "hostaddr" (some endpoint.host) ++
    setting "port" (some (Nat.toDigits 10 endpoint.port)) ++ account pg ++
    proxiedTls deployment pg.sslmode

/-- The server a direct URI is for; the client's default where no host is configured. -/
def directServer (pg : PostgresConnection) : Server where
  user := (truthy pg.userName).getD []
  password := (truthy pg.password).getD []
  host := (pg.host.getD "localhost").toList
  port := (portOf pg.port).getD []
  dbname := (truthy pg.databaseName).getD []

/-- The local end of a tunnel. -/
def proxiedServer (pg : PostgresConnection) (endpoint : ProxyEndpoint) : Server where
  user := (truthy pg.userName).getD []
  password := (truthy pg.password).getD []
  host := endpoint.host
  port := Nat.toDigits 10 endpoint.port
  dbname := (truthy pg.databaseName).getD []

/-- The TLS that is asked of the query path's client through a tunnel, and the name that the
certificate is checked against. -/
def proxiedParameters (deployment : Deployment) (pg : PostgresConnection) :
    List (List Char × List Char) × Option PostgresSSLConfig :=
  match pg.sslmode.getD "no-verify" with
  | "disable" => (setting "sslmode" (some "disable".toList), none)
  | "verify-ca" => (setting "uselibpqcompat" (some "true".toList) ++
      setting "sslmode" (some "verify-ca".toList) ++
      setting "sslrootcert" (truthy deployment.nodeExtraCaCerts), none)
  | "verify-full" => ([], (truthy pg.host).map fun host =>
      { servername := host, rejectUnauthorized := true })
  | _ => (setting "sslmode" (some "no-verify".toList), none)

/-- What DuckDB is meant to read of a statement that attaches. -/
def attachTokens (command : List SqlToken) (attachString database : List Char) : List SqlToken :=
  command ++ [.literal attachString, .word "AS".toList, .name database, .symbol '(', .word "TYPE".toList,
    .word "postgres".toList, .symbol ',', .word "READ_ONLY".toList, .symbol ')', .symbol ';']

/-- The pairs are carried to DuckDB verbatim. -/
def Attached (attachString : List Char) : Prop :=
  ∀ database, SqlDialect.doubling.read (attachStatement "ATTACH " attachString database) =
      some (attachTokens [.word "ATTACH".toList] attachString database) ∧
    SqlDialect.doubling.read (attachStatement "ATTACH OR REPLACE " attachString database) =
      some (attachTokens [.word "ATTACH".toList, .word "OR".toList, .word "REPLACE".toList]
        attachString database)

/-- The direct spellings are read as the configuration. -/
structure DirectMeant (deployment : Deployment) (pg : PostgresConnection) : Prop where
  pairs : KeywordValues.read (buildPgConnectionString deployment pg) =
    some (directSettings deployment pg)
  attached : Attached (buildPgConnectionString deployment pg)
  uri : ∀ pgSSLMode, truthy deployment.pgSSLMode = some pgSSLMode → ∃ text,
    buildPostgresConnectionString deployment pg = some text ∧
    ConnectionUri.read "postgresql://".toList text =
      some ((directServer pg).uri (setting "sslmode" (some pgSSLMode)))

/-- The spellings through a tunnel are read as the configuration. -/
structure ProxiedMeant (deployment : Deployment) (name : String) (pg : PostgresConnection)
    (endpoint : ProxyEndpoint) : Prop where
  pairs : ∃ text, buildProxiedPgAttachString deployment name pg endpoint = .ok text ∧
    KeywordValues.read text = some (proxiedSettings deployment pg endpoint) ∧ Attached text
  uri : ∃ text, buildProxiedPostgresConnection deployment name pg endpoint =
      .ok (text, (proxiedParameters deployment pg).2) ∧
    ConnectionUri.read "postgresql://".toList text =
      some ((proxiedServer pg endpoint).uri (proxiedParameters deployment pg).1)

/-! ## Values -/

variable {deployment : Deployment} {pg : PostgresConnection} {endpoint : ProxyEndpoint}
  {key value text : List Char} {name : String}

theorem ne_nil_of_truthy {field : Option String} (isValue : truthy field = some value) :
    value ≠ [] := by
  obtain ⟨text, kept, rfl⟩ := Option.map_eq_some_iff.mp isValue
  have notEmpty := (Option.filter_eq_some_iff.mp kept).2
  simpa using notEmpty

theorem getD_truthy (field : Option String) : (truthy field).getD [] = [] ↔ truthy field = none := by
  cases isText : truthy field with
  | none => simp
  | some text => simp [ne_nil_of_truthy isText]

theorem isDigit_toDigits {port : ℕ} : ∀ c ∈ Nat.toDigits 10 port, c.isDigit = true :=
  fun _ member => Nat.isDigit_of_mem_toDigits (by decide) (by decide) member

theorem ne_nil_toDigits (port : ℕ) : Nat.toDigits 10 port ≠ [] := by
  exact List.ne_nil_of_length_pos (Nat.length_toDigits_pos)

/-- The digits of a port need no quotes. -/
theorem plain_of_isDigit (digits : ∀ c ∈ text, c.isDigit = true) : KeywordValues.Plain text := by
  have special : ∀ {c : Char}, c.isDigit = true → KeywordValues.isSpecial c = false := by
    intro c digit
    have notIn : c ∉ [' ', '\t', '\n', '\x0b', '\x0c', '\r', '\\', '\''] := by
      intro member
      simp only [List.mem_cons, List.not_mem_nil, or_false] at member
      rcases member with rfl | rfl | rfl | rfl | rfl | rfl | rfl | rfl <;> cases digit
    simp only [List.mem_cons, List.not_mem_nil, or_false, not_or] at notIn
    simp [KeywordValues.isSpecial, KeywordValues.isBlank, notIn]
  refine ⟨fun c member => ?_, fun first => ?_⟩
  · have plain := special (digits c member)
    simp only [KeywordValues.isSpecial, Bool.or_eq_false_iff, decide_eq_false_iff_not] at plain
    exact plain.1
  · have plain := special (digits '\'' (List.mem_of_mem_head? first))
    cases plain

theorem digits_of_portOf {port : Option ℕ} (isPort : portOf port = some value) :
    value ≠ [] ∧ ∀ c ∈ value, c.isDigit = true := by
  obtain ⟨number, -, rfl⟩ := Option.map_eq_some_iff.mp isPort
  exact ⟨ne_nil_toDigits number, isDigit_toDigits⟩

/-- The modes libpq is given need no quotes. -/
theorem plain_of_sslmodeOf {pgSSLMode : Option String} (isMode : sslmodeOf pgSSLMode = some value) :
    value ≠ [] ∧ KeywordValues.Plain value := by
  have modes : ∀ entry ∈ MAPPING, entry.2.toList ≠ [] ∧ KeywordValues.Plain entry.2.toList := by
    decide +kernel
  obtain ⟨mode, isMapped, rfl⟩ := Option.map_eq_some_iff.mp isMode
  obtain ⟨asked, -, isEntry⟩ := Option.bind_eq_some_iff.mp isMapped
  have member : (asked.toLower, mode) ∈ MAPPING := by
    obtain ⟨before, after, split, -⟩ := List.lookup_eq_some_iff.mp isEntry
    rw [split]
    simp
  exact modes _ member

/-! ## Keyword and value pairs -/

theorem pushed_eq {front : String} {key : String} (same : front.toList = key.toList ++ ['='])
    (value : Option (List Char)) : pushed front value = (setting key value).map KeywordValues.bare := by
  cases value with
  | none => rfl
  | some value =>
    simp only [pushed, setting, Option.toList_some, List.map_cons, List.map_nil, KeywordValues.bare,
      same, List.append_assoc, List.singleton_append]

theorem pushedPair_eq (key : String) (value : Option (List Char)) :
    pushedPair key value = (setting key value).map fun pair => pgConninfoPair pair.1 pair.2 := by
  cases value <;> rfl

theorem buildPgConnectionString_eq (discrete : truthy pg.connectionString = none) :
    buildPgConnectionString deployment pg =
      [' '].intercalate ((directSettings deployment pg).map KeywordValues.bare) := by
  unfold buildPgConnectionString
  rw [discrete]
  simp only [directSettings, account, List.map_append, List.append_assoc,
    pushed_eq (by decide +kernel : "host=".toList = "host".toList ++ ['=']),
    pushed_eq (by decide +kernel : "port=".toList = "port".toList ++ ['=']),
    pushed_eq (by decide +kernel : "dbname=".toList = "dbname".toList ++ ['=']),
    pushed_eq (by decide +kernel : "user=".toList = "user".toList ++ ['=']),
    pushed_eq (by decide +kernel : "password=".toList = "password".toList ++ ['=']),
    pushed_eq (by decide +kernel : "sslmode=".toList = "sslmode".toList ++ ['='])]

theorem mem_setting {field : String} {pair : List Char × List Char} {value : Option (List Char)} :
    pair ∈ setting field value ↔ pair.1 = field.toList ∧ value = some pair.2 := by
  cases value with
  | none => simp [setting]
  | some value =>
    obtain ⟨key, text⟩ := pair
    simp only [setting, Option.toList_some, List.map_cons, List.map_nil, List.mem_singleton,
      Prod.mk.injEq, Option.some_inj]
    exact and_congr_right fun _ => eq_comm

def KEYWORDS : List String :=
  ["host", "hostaddr", "port", "dbname", "user", "password", "sslmode", "sslrootcert"]

theorem isKeyword_of_mem {keyword : String} (member : keyword ∈ KEYWORDS) :
    KeywordValues.IsKeyword keyword.toList := by
  have all : ∀ keyword ∈ KEYWORDS, KeywordValues.IsKeyword keyword.toList := by decide +kernel
  exact all keyword member

/-- The values a configuration gives that are texts. -/
def texts (pg : PostgresConnection) : List (List Char) :=
  (truthy pg.host).toList ++ (truthy pg.databaseName).toList ++ (truthy pg.userName).toList ++
    (truthy pg.password).toList

/-- The direct pairs are read as the configuration exactly when no value needs quotes. -/
theorem read_buildPgConnectionString_iff (discrete : truthy pg.connectionString = none) :
    KeywordValues.read (buildPgConnectionString deployment pg) = some (directSettings deployment pg) ↔
      ∀ value ∈ texts pg, KeywordValues.Plain value := by
  have keywords : ∀ pair ∈ directSettings deployment pg, KeywordValues.IsKeyword pair.1 := by
    intro pair member
    simp only [directSettings, account, List.mem_append, mem_setting] at member
    rcases member with ((⟨key, -⟩ | ⟨key, -⟩) | ((⟨key, -⟩ | ⟨key, -⟩) | ⟨key, -⟩)) | ⟨key, -⟩
    all_goals
      rw [key]
      exact isKeyword_of_mem (by decide)
  have given : ∀ pair ∈ directSettings deployment pg, pair.2 ≠ [] := by
    intro pair member
    simp only [directSettings, account, List.mem_append, mem_setting] at member
    rcases member with ((⟨-, text⟩ | ⟨-, port⟩) | ((⟨-, text⟩ | ⟨-, text⟩) | ⟨-, text⟩)) | ⟨-, mode⟩
    · exact ne_nil_of_truthy text
    · exact (digits_of_portOf port).1
    · exact ne_nil_of_truthy text
    · exact ne_nil_of_truthy text
    · exact ne_nil_of_truthy text
    · exact (plain_of_sslmodeOf mode).1
  rw [buildPgConnectionString_eq discrete, KeywordValues.read_bare_iff keywords given]
  simp only [directSettings, account, texts, List.mem_append, Option.mem_toList, mem_setting]
  constructor
  · intro plain value isText
    rcases isText with ((host | name) | user) | password
    · exact plain ("host".toList, value) (.inl (.inl (.inl ⟨rfl, host⟩)))
    · exact plain ("dbname".toList, value) (.inl (.inr (.inl (.inl ⟨rfl, name⟩))))
    · exact plain ("user".toList, value) (.inl (.inr (.inl (.inr ⟨rfl, user⟩))))
    · exact plain ("password".toList, value) (.inl (.inr (.inr ⟨rfl, password⟩)))
  · intro plain pair member
    rcases member with ((⟨-, host⟩ | ⟨-, port⟩) | ((⟨-, name⟩ | ⟨-, user⟩) | ⟨-, password⟩)) | ⟨-, mode⟩
    · exact plain _ (.inl (.inl (.inl host)))
    · exact plain_of_isDigit (digits_of_portOf port).2
    · exact plain _ (.inl (.inl (.inr name)))
    · exact plain _ (.inl (.inr user))
    · exact plain _ (.inr password)
    · exact (plain_of_sslmodeOf mode).2

/-- A pair that is quoted where it has to be is read as it is meant. -/
theorem lexes_pgConninfoPair (keyword : KeywordValues.IsKeyword key) :
    KeywordValues.reader.Lexes KeywordValues.Ends (pgConninfoPair key value) [(key, value)] := by
  unfold pgConninfoPair
  split_ifs with bare
  · obtain ⟨given, free⟩ := bare
    simp only [Bool.not_eq_true', List.any_eq_false, Bool.or_eq_true, decide_eq_true_eq, not_or]
      at free
    refine KeywordValues.lexes_bare keyword given ⟨fun c member => ?_, fun first => ?_⟩
    · obtain ⟨⟨notSpace, -⟩, notBackslash⟩ := free c member
      refine ⟨?_, notBackslash⟩
      by_contra blank
      have isBlank : c ∈ [' ', '\t', '\n', '\x0b', '\x0c', '\r'] :=
        of_decide_eq_true ((Bool.not_eq_false _).mp blank)
      have spaces : ∀ d ∈ [' ', '\t', '\n', '\x0b', '\x0c', '\r'], isSpace d = true :=
        forall_mem_of_all (by decide)
      exact notSpace (spaces c isBlank)
    · exact (free '\'' (List.mem_of_mem_head? first)).1.2 rfl
  · exact KeywordValues.lexes_spelled keyword

theorem read_pgConninfoPairs {pairs : List (List Char × List Char)}
    (keywords : ∀ pair ∈ pairs, KeywordValues.IsKeyword pair.1) :
    KeywordValues.read ([' '].intercalate (pairs.map fun pair => pgConninfoPair pair.1 pair.2)) =
      some pairs :=
  KeywordValues.read_intercalate fun pair member => lexes_pgConninfoPair (keywords pair member)

theorem isKeyword_proxiedSettings : ∀ pair ∈ proxiedSettings deployment pg endpoint,
    KeywordValues.IsKeyword pair.1 := by
  have tls : ∀ pair ∈ proxiedTls deployment pg.sslmode, KeywordValues.IsKeyword pair.1 := by
    intro pair member
    unfold proxiedTls at member
    split at member
    all_goals
      simp only [List.mem_append, mem_setting] at member
    · rw [member.1]
      exact isKeyword_of_mem (by decide)
    · rcases member with ⟨key, -⟩ | ⟨key, -⟩
      all_goals
        rw [key]
        exact isKeyword_of_mem (by decide)
    · rcases member with ⟨key, -⟩ | ⟨key, -⟩
      all_goals
        rw [key]
        exact isKeyword_of_mem (by decide)
    · rw [member.1]
      exact isKeyword_of_mem (by decide)
  intro pair member
  simp only [proxiedSettings, account, List.mem_append, mem_setting] at member
  rcases member with (((⟨key, -⟩ | ⟨key, -⟩) | ⟨key, -⟩) | ((⟨key, -⟩ | ⟨key, -⟩) | ⟨key, -⟩)) | mode
  · rw [key]
    exact isKeyword_of_mem (by decide)
  · rw [key]
    exact isKeyword_of_mem (by decide)
  · rw [key]
    exact isKeyword_of_mem (by decide)
  · rw [key]
    exact isKeyword_of_mem (by decide)
  · rw [key]
    exact isKeyword_of_mem (by decide)
  · rw [key]
    exact isKeyword_of_mem (by decide)
  · exact tls pair mode

/-! ## Through a tunnel -/

/-- What a proxied configuration has been checked for. -/
structure Accepted (deployment : Deployment) (pg : PostgresConnection) : Prop where
  host : (truthy pg.host).isSome = true
  sslmode : pg.sslmode.getD "no-verify" ∈ PROXIED_SSLMODES
  caBundle : pg.sslmode = some "verify-ca" → (truthy deployment.nodeExtraCaCerts).isSome = true

/-- A mode that is accepted is one of four. -/
theorem Accepted.modes (accepted : Accepted deployment pg) :
    pg.sslmode.getD "no-verify" = "disable" ∨ pg.sslmode.getD "no-verify" = "no-verify" ∨
      (pg.sslmode.getD "no-verify" = "verify-ca" ∧ pg.sslmode = some "verify-ca") ∨
      (pg.sslmode.getD "no-verify" = "verify-full" ∧ pg.sslmode = some "verify-full") := by
  have sslmode := accepted.sslmode
  simp only [PROXIED_SSLMODES, List.mem_cons, List.not_mem_nil, or_false] at sslmode
  have given : ∀ {mode : String}, mode ≠ "no-verify" → pg.sslmode.getD "no-verify" = mode →
      pg.sslmode = some mode := by
    intro mode differs isMode
    cases isGiven : pg.sslmode with
    | none =>
      rw [isGiven] at isMode
      exact absurd isMode.symm differs
    | some other =>
      rw [isGiven] at isMode
      exact congrArg some isMode
  rcases sslmode with mode | mode | mode | mode
  · exact .inl mode
  · exact .inr (.inl mode)
  · exact .inr (.inr (.inl ⟨mode, given (by decide) mode⟩))
  · exact .inr (.inr (.inr ⟨mode, given (by decide) mode⟩))

theorem read_buildProxiedPgAttachString (accepted : Accepted deployment pg) :
    ∃ text, buildProxiedPgAttachString deployment name pg endpoint = .ok text ∧
      KeywordValues.read text = some (proxiedSettings deployment pg endpoint) := by
  refine ⟨_, ?_, read_pgConninfoPairs isKeyword_proxiedSettings⟩
  obtain ⟨host, isHost⟩ := Option.isSome_iff_exists.mp accepted.host
  have disable : "sslmode=disable".toList = pgConninfoPair "sslmode".toList "disable".toList := by
    decide +kernel
  have require : "sslmode=require".toList = pgConninfoPair "sslmode".toList "require".toList := by
    decide +kernel
  have verifyCa : "sslmode=verify-ca".toList =
      pgConninfoPair "sslmode".toList "verify-ca".toList := by
    decide +kernel
  have verifyFull : "sslmode=verify-full".toList =
      pgConninfoPair "sslmode".toList "verify-full".toList := by
    decide +kernel
  unfold buildProxiedPgAttachString proxiedSettings account
  rw [isHost]
  rcases accepted.modes with mode | mode | ⟨mode, given⟩ | ⟨mode, -⟩
  · simp only [mode, proxiedTls, disable, pushedPair_eq, setting, Option.toList_some, List.map_append,
      List.map_cons, List.map_nil, List.append_assoc, List.cons_append, List.nil_append]
  · have encrypts : proxiedTls deployment pg.sslmode = setting "sslmode" (some "require".toList) := by
      rw [proxiedTls, mode]
      rfl
    simp only [mode, encrypts, require, pushedPair_eq, setting, Option.toList_some, List.map_append,
      List.map_cons, List.map_nil, List.append_assoc, List.cons_append, List.nil_append]
  · obtain ⟨caBundle, isBundle⟩ := Option.isSome_iff_exists.mp (accepted.caBundle given)
    simp only [mode, proxiedTls, isBundle, verifyCa, pushedPair_eq, setting, Option.toList_some, List.map_append,
      List.map_cons, List.map_nil, List.append_assoc, List.cons_append, List.nil_append]
  · simp only [mode, proxiedTls, verifyFull, pushedPair_eq, setting, Option.toList_some, List.map_append,
      List.map_cons, List.map_nil, List.append_assoc, List.cons_append, List.nil_append]

/-- Whatever the pairs are, DuckDB is given them verbatim. -/
theorem attached (attachString : List Char) : Attached attachString := by
  intro database
  have options : SqlDialect.doubling.reader.Closed " (TYPE postgres, READ_ONLY);".toList
      [.symbol '(', .word "TYPE".toList, .word "postgres".toList, .symbol ',',
        .word "READ_ONLY".toList, .symbol ')', .symbol ';'] :=
    SqlDialect.closed_piece (by decide +kernel) (by decide +kernel)
  have optionsStart : " (TYPE postgres, READ_ONLY);".toList.head? = some ' ' := by decide +kernel
  have as : SqlDialect.doubling.reader.Closed " AS ".toList [.word "AS".toList] :=
    SqlDialect.closed_piece (by decide +kernel) (by decide +kernel)
  have asStart : " AS ".toList.head? = some ' ' := by decide +kernel
  have writes : ∀ c ∈ database,
      SqlDialect.doubling.names.Writes (fun c => if c = '"' then ['"', '"'] else [c]) c := by
    intro c _ rest
    by_cases quote : c = '"'
    · subst quote
      exact LiteralRules.read_doubled rfl
    · simp only [if_neg quote]
      exact LiteralRules.read_plain quote (fun _ => rfl) fun _ => rfl
  have named := (SqlDialect.lexes_name writes).append_closed options fun rest _ => by
    rw [List.head?_append, optionsStart, Option.some_or]
    decide
  have literal := (SqlDialect.lexes_quoted attachString).append_closed (as.append named) fun rest => by
    have start : (" AS ".toList ++ ('"' :: (database.flatMap (fun c => if c = '"' then ['"', '"'] else [c]) ++
        ['"']) ++ " (TYPE postgres, READ_ONLY);".toList) ++ rest).head? = some ' ' := by
      rw [List.append_assoc, List.head?_append, asStart]
      rfl
    rw [SqlDialect.Ends, start]
    decide
  have attach : SqlDialect.doubling.reader.Closed "ATTACH ".toList [.word "ATTACH".toList] :=
    SqlDialect.closed_piece (by decide +kernel) (by decide +kernel)
  have replace : SqlDialect.doubling.reader.Closed "ATTACH OR REPLACE ".toList
      [.word "ATTACH".toList, .word "OR".toList, .word "REPLACE".toList] :=
    SqlDialect.closed_piece (by decide +kernel) (by decide +kernel)
  exact ⟨(attach.append literal).read, (replace.append literal).read⟩

/-! ## URIs -/

theorem separates : Server.Separates isUriBare := by
  unfold Server.Separates
  exact forall_mem_of_all (by decide)

theorem isQuery_of_pairs {pairs : List (List Char × List Char)}
    {write : List Char × List Char → List Char} (given : pairs ≠ [])
    (reads : ∀ pair ∈ pairs, '&' ∉ write pair ∧
      ConnectionUri.readParameter (write pair) = some pair) :
    Server.Query ('?' :: ['&'].intercalate (pairs.map write)) pairs := by
  refine .given (ConnectionUri.readQuery_intercalate given reads fun empty => ?_)
  obtain ⟨pair, others, rfl⟩ := List.exists_cons_of_ne_nil given
  have first : write pair = [] := by
    cases others with
    | nil => simpa using empty
    | cons other others =>
      rw [List.map_cons, List.map_cons, List.intercalate_cons_cons] at empty
      exact (List.append_eq_nil_iff.mp (List.append_eq_nil_iff.mp empty).1).1
  have isRead := (reads pair List.mem_cons_self).2
  rw [first] at isRead
  cases isRead

/-- A parameter with its value percent-encoded. -/
def uriParameter (pair : List Char × List Char) : List Char :=
  pair.1 ++ '=' :: encodeURIComponent pair.2

theorem not_mem_encodeURIComponent {c : Char} (reserved : c ∈ ['&', '=', '+']) :
    c ∉ encodeURIComponent text := by
  intro member
  have bare : ∀ d ∈ ['&', '=', '+'], isUriBare d = false ∧ d ∉ "%0123456789ABCDEF".toList :=
    forall_mem_of_all (by decide +kernel)
  rcases Percent.mem_encode member with written | digit
  · rw [(bare c reserved).1] at written
    cases written
  · exact (bare c reserved).2 digit

theorem readParameter_uriParameter (plain : ∀ c ∈ key, c ∉ ['=', '%', '+', '&']) :
    '&' ∉ uriParameter (key, value) ∧
      ConnectionUri.readParameter (uriParameter (key, value)) = some (key, value) := by
  constructor
  · intro member
    rcases List.mem_append.mp member with member | member
    · exact plain _ member (by decide)
    · rcases List.mem_cons.mp member with same | member
      · cases same
      · exact not_mem_encodeURIComponent (by decide) member
  · refine ConnectionUri.readParameter_eq (fun c member reserved => ?_)
      (not_mem_encodeURIComponent (by decide))
      (ConnectionUri.formDecode_encode (by decide) (by decide) value)
    have among : ∀ d ∈ ['=', '%', '+'], d ∈ ['=', '%', '+', '&'] := forall_mem_of_all (by decide)
    exact plain c member (among c reserved)

/-- The mode of the process, as `URLSearchParams` writes it. -/
theorem isQuery_sslmode (pgSSLMode : List Char) :
    Server.Query ('?' :: ("sslmode=".toList ++ ConnectionUri.formEncode isFormBare pgSSLMode))
      (setting "sslmode" (some pgSSLMode)) := by
  have notin : ∀ {c : Char}, c ∈ ['&', '='] → c ∉ ConnectionUri.formEncode isFormBare pgSSLMode := by
    intro c reserved member
    have bare : ∀ d ∈ ['&', '='], isFormBare d = false ∧ d ∉ "+%0123456789ABCDEF".toList :=
      forall_mem_of_all (by decide +kernel)
    rcases ConnectionUri.mem_formEncode member with written | digit
    · rw [(bare c reserved).1] at written
      cases written
    · exact (bare c reserved).2 digit
  have keyed : "sslmode=".toList = "sslmode".toList ++ ['='] := by decide +kernel
  have plain : ∀ c ∈ "sslmode".toList, c ∉ ['=', '%', '+'] ∧ c ≠ '&' :=
    forall_mem_of_all (by decide +kernel)
  have single := @isQuery_of_pairs (setting "sslmode" (some pgSSLMode))
    (fun pair => pair.1 ++ '=' :: ConnectionUri.formEncode isFormBare pair.2) (by simp [setting]) (by
      intro pair member
      obtain ⟨isKey, isMode⟩ := mem_setting.mp member
      have isValue : pgSSLMode = pair.2 := Option.some_inj.mp isMode
      rw [← isValue, isKey]
      refine ⟨fun inside => ?_, ?_⟩
      · rcases List.mem_append.mp inside with inside | inside
        · exact (plain _ inside).2 rfl
        · rcases List.mem_cons.mp inside with same | inside
          · cases same
          · exact notin (by decide) inside
      · have isPair : pair = ("sslmode".toList, pgSSLMode) := Prod.ext isKey isValue.symm
        rw [isPair]
        exact ConnectionUri.readParameter_eq (fun c member => (plain c member).1) (notin (by decide))
          (ConnectionUri.formDecode_formEncode (by decide) (by decide) pgSSLMode))
  rw [keyed, List.append_assoc, List.singleton_append]
  simpa [setting] using single

/-- The credentials in front of an `@`. -/
theorem credentials_eq {server : Server} (user : server.user = (truthy pg.userName).getD [])
    (password : server.password = (truthy pg.password).getD []) :
    server.credentials isUriBare = (truthy pg.userName).elim [] fun userName =>
      encodeURIComponent userName ++
        (truthy pg.password).elim [] (fun password => ':' :: encodeURIComponent password) ++ ['@'] := by
  unfold Server.credentials Server.userinfo
  rw [user, password]
  cases isUser : truthy pg.userName with
  | none => simp
  | some userName =>
    have given := ne_nil_of_truthy isUser
    cases isPassword : truthy pg.password with
    | none => simp [given, encodeURIComponent]
    | some password =>
      have given' := ne_nil_of_truthy isPassword
      simp [given, given', encodeURIComponent]

theorem dbText_eq {server : Server} (dbname : server.dbname = (truthy pg.databaseName).getD []) :
    server.dbText isUriBare =
      (truthy pg.databaseName).elim [] fun name => '/' :: encodeURIComponent name := by
  unfold Server.dbText
  rw [dbname]
  cases isName : truthy pg.databaseName with
  | none => simp
  | some name =>
    have given := ne_nil_of_truthy isName
    simp [given, encodeURIComponent]

theorem buildPostgresConnectionString_eq {pgSSLMode : List Char}
    (discrete : truthy pg.connectionString = none)
    (isMode : truthy deployment.pgSSLMode = some pgSSLMode) :
    buildPostgresConnectionString deployment pg = some ("postgresql://".toList ++
      ((directServer pg).write isUriBare ++
        '?' :: ("sslmode=".toList ++ ConnectionUri.formEncode isFormBare pgSSLMode))) := by
  have credentials := @credentials_eq pg (directServer pg) rfl rfl
  have database := @dbText_eq pg (directServer pg) rfl
  have port : (directServer pg).portText = (portOf pg.port).elim [] (':' :: ·) := by
    unfold Server.portText
    cases isPort : portOf pg.port with
    | none => simp [directServer, isPort]
    | some port => simp [directServer, isPort, (digits_of_portOf isPort).1]
  rw [Server.write, credentials, database, port]
  unfold buildPostgresConnectionString
  rw [discrete, isMode]
  cases truthy pg.userName with
  | none => rfl
  | some userName => cases truthy pg.password <;> simp [directServer]

/-- The direct URI is read as the configuration exactly when its host is plain, and no password is
given without a user. -/
theorem read_buildPostgresConnectionString_iff {pgSSLMode : List Char}
    (discrete : truthy pg.connectionString = none)
    (isMode : truthy deployment.pgSSLMode = some pgSSLMode) :
    (∃ text, buildPostgresConnectionString deployment pg = some text ∧
      ConnectionUri.read "postgresql://".toList text =
        some ((directServer pg).uri (setting "sslmode" (some pgSSLMode)))) ↔
      PlainHost (pg.host.getD "localhost").toList ∧
        (truthy pg.userName = none → truthy pg.password = none) := by
  have digits : ∀ c ∈ (directServer pg).port, c.isDigit = true := by
    intro c member
    cases isPort : portOf pg.port with
    | none => simp [directServer, isPort] at member
    | some port =>
      simp only [directServer, isPort, Option.getD_some] at member
      exact (digits_of_portOf isPort).2 c member
  have parts : ((directServer pg).user = [] → (directServer pg).password = []) ↔
      (truthy pg.userName = none → truthy pg.password = none) :=
    imp_congr (getD_truthy pg.userName) (getD_truthy pg.password)
  have readWrite := Server.read_write_iff separates digits (isQuery_sslmode pgSSLMode)
  constructor
  · rintro ⟨text, isText, isRead⟩
    rw [buildPostgresConnectionString_eq discrete isMode] at isText
    cases isText
    rw [ConnectionUri.read_append] at isRead
    obtain ⟨plain, given⟩ := readWrite.mp isRead
    exact ⟨plain, parts.mp given⟩
  · rintro ⟨plain, given⟩
    refine ⟨_, buildPostgresConnectionString_eq discrete isMode, ?_⟩
    rw [ConnectionUri.read_append]
    exact readWrite.mpr ⟨plain, parts.mpr given⟩

/-- The query that carries the TLS of a tunnel. -/
theorem resolveProxiedTls_eq (accepted : Accepted deployment pg) : ∃ query,
    resolveProxiedTls deployment name pg.host pg.sslmode =
      .ok (query, (proxiedParameters deployment pg).2) ∧
    Server.Query query (proxiedParameters deployment pg).1 := by
  have keys : ∀ key ∈ ["sslmode", "uselibpqcompat", "sslrootcert"],
      ∀ c ∈ key.toList, c ∉ ['=', '%', '+', '&'] := by
    have all : ∀ key ∈ ["sslmode", "uselibpqcompat", "sslrootcert"],
        key.toList.all (fun c => decide (c ∉ ['=', '%', '+', '&'])) = true := by decide +kernel
    exact fun key member => forall_mem_of_all (all key member)
  have reads : ∀ {pairs : List (List Char × List Char)}, pairs ≠ [] →
      (∀ pair ∈ pairs, ∃ key ∈ ["sslmode", "uselibpqcompat", "sslrootcert"], pair.1 = key.toList) →
      Server.Query ('?' :: ['&'].intercalate (pairs.map uriParameter)) pairs := by
    intro pairs given known
    refine isQuery_of_pairs given fun pair member => ?_
    obtain ⟨key, isKey, same⟩ := known pair member
    have isRead := @readParameter_uriParameter pair.1 pair.2 (by rw [same]; exact keys key isKey)
    exact isRead
  have weaker : ∀ {mode : String}, pg.sslmode.getD "no-verify" = mode → mode ≠ "verify-full" →
      pg.sslmode ≠ some "verify-full" := by
    intro mode isMode differs full
    rw [full] at isMode
    exact differs isMode.symm
  rcases accepted.modes with mode | mode | ⟨mode, given⟩ | ⟨mode, given⟩
  · have isParameters : proxiedParameters deployment pg =
        ([("sslmode".toList, "disable".toList)], none) := by
      rw [proxiedParameters, mode]
      rfl
    have text : "?sslmode=disable".toList =
        '?' :: ['&'].intercalate ([("sslmode".toList, "disable".toList)].map uriParameter) := by
      decide +kernel
    rw [isParameters]
    refine ⟨"?sslmode=disable".toList, ?_, ?_⟩
    · rw [resolveProxiedTls, if_neg (weaker mode (by decide)), buildProxiedSslQuery, mode]
      rfl
    · rw [text]
      refine reads (List.cons_ne_nil _ _) fun pair member => ?_
      rw [List.mem_singleton.mp member]
      exact ⟨"sslmode", by decide, rfl⟩
  · have isParameters : proxiedParameters deployment pg =
        ([("sslmode".toList, "no-verify".toList)], none) := by
      rw [proxiedParameters, mode]
      rfl
    have text : "?sslmode=no-verify".toList =
        '?' :: ['&'].intercalate ([("sslmode".toList, "no-verify".toList)].map uriParameter) := by
      decide +kernel
    rw [isParameters]
    refine ⟨"?sslmode=no-verify".toList, ?_, ?_⟩
    · rw [resolveProxiedTls, if_neg (weaker mode (by decide)), buildProxiedSslQuery, mode]
      rfl
    · rw [text]
      refine reads (List.cons_ne_nil _ _) fun pair member => ?_
      rw [List.mem_singleton.mp member]
      exact ⟨"sslmode", by decide, rfl⟩
  · obtain ⟨caBundle, isBundle⟩ := Option.isSome_iff_exists.mp (accepted.caBundle given)
    have isParameters : proxiedParameters deployment pg =
        ([("uselibpqcompat".toList, "true".toList), ("sslmode".toList, "verify-ca".toList),
          ("sslrootcert".toList, caBundle)], none) := by
      rw [proxiedParameters, mode, isBundle]
      rfl
    have front : "?uselibpqcompat=true&sslmode=verify-ca&sslrootcert=".toList =
        '?' :: (uriParameter ("uselibpqcompat".toList, "true".toList) ++ ['&'] ++
          (uriParameter ("sslmode".toList, "verify-ca".toList) ++ ['&'] ++
            ("sslrootcert".toList ++ ['=']))) := by
      decide +kernel
    have text : "?uselibpqcompat=true&sslmode=verify-ca&sslrootcert=".toList ++
          encodeURIComponent caBundle =
        '?' :: ['&'].intercalate ([("uselibpqcompat".toList, "true".toList),
          ("sslmode".toList, "verify-ca".toList), ("sslrootcert".toList, caBundle)].map
            uriParameter) := by
      rw [front]
      simp only [List.map_cons, List.map_nil, List.intercalate_cons_cons, List.intercalate_singleton,
        List.cons_append, List.append_assoc, List.nil_append, uriParameter]
    rw [isParameters]
    refine ⟨"?uselibpqcompat=true&sslmode=verify-ca&sslrootcert=".toList ++
      encodeURIComponent caBundle, ?_, ?_⟩
    · rw [resolveProxiedTls, if_neg (weaker mode (by decide)), buildProxiedSslQuery, mode, isBundle]
      rfl
    · rw [text]
      refine reads (List.cons_ne_nil _ _) fun pair member => ?_
      simp only [List.mem_cons, List.not_mem_nil, or_false] at member
      rcases member with rfl | rfl | rfl
      · exact ⟨"uselibpqcompat", by decide, rfl⟩
      · exact ⟨"sslmode", by decide, rfl⟩
      · exact ⟨"sslrootcert", by decide, rfl⟩
  · obtain ⟨host, isHost⟩ := Option.isSome_iff_exists.mp accepted.host
    have isParameters : proxiedParameters deployment pg =
        ([], some { servername := host, rejectUnauthorized := true }) := by
      rw [proxiedParameters, mode, isHost]
      rfl
    rw [isParameters]
    refine ⟨[], ?_, .absent⟩
    rw [resolveProxiedTls, if_pos given, isHost]

/-- The URI through a tunnel is read as the configuration unless a password is given without a
user. -/
theorem read_buildProxiedPostgresConnection_iff (accepted : Accepted deployment pg) :
    (∃ text, buildProxiedPostgresConnection deployment name pg endpoint =
        .ok (text, (proxiedParameters deployment pg).2) ∧
      ConnectionUri.read "postgresql://".toList text =
        some ((proxiedServer pg endpoint).uri (proxiedParameters deployment pg).1)) ↔
      (truthy pg.userName = none → truthy pg.password = none) := by
  obtain ⟨query, isTls, isQuery⟩ := @resolveProxiedTls_eq deployment pg name accepted
  have credentials := @credentials_eq pg (proxiedServer pg endpoint) rfl rfl
  have database := @dbText_eq pg (proxiedServer pg endpoint) rfl
  have port : (proxiedServer pg endpoint).portText = ':' :: Nat.toDigits 10 endpoint.port :=
    if_neg (ne_nil_toDigits endpoint.port)
  have text : buildProxiedPostgresConnection deployment name pg endpoint =
      .ok ("postgresql://".toList ++ ((proxiedServer pg endpoint).write isUriBare ++ query),
        (proxiedParameters deployment pg).2) := by
    rw [Server.write, credentials, database, port, buildProxiedPostgresConnection, isTls]
    rfl
  have readWrite := Server.read_write_iff separates
    (fun c member => isDigit_toDigits c member : ∀ c ∈ (proxiedServer pg endpoint).port, _) isQuery
  have plain : PlainHost (proxiedServer pg endpoint).host := by
    change PlainHost "127.0.0.1".toList
    decide +kernel
  have parts : ((proxiedServer pg endpoint).user = [] → (proxiedServer pg endpoint).password = []) ↔
      (truthy pg.userName = none → truthy pg.password = none) :=
    imp_congr (getD_truthy pg.userName) (getD_truthy pg.password)
  rw [← parts]
  constructor
  · rintro ⟨found, isText, isRead⟩
    rw [text] at isText
    cases isText
    rw [ConnectionUri.read_append] at isRead
    exact (readWrite.mp isRead).2
  · intro given
    refine ⟨_, text, ?_⟩
    rw [ConnectionUri.read_append]
    exact readWrite.mpr ⟨plain, given⟩

/-! ## Configurations -/

theorem isSome_truthy (field : Option String) : (truthy field).isSome = present field := by
  cases field with
  | none => rfl
  | some text => by_cases empty : text = "" <;> simp [truthy, present, empty]

/-- A configuration that is accepted with a proxy can be spelled through its tunnel. -/
theorem accepted_of_validate {machine : Machine} {others : ApiConnection → Except Refusal Unit}
    {connection : ApiConnection} (own : connection.postgresConnection = some pg)
    (proxied : connection.proxy.isSome = true)
    (admitted : validateConnectionShape machine others connection = .ok ())
    (bundle : machine.caBundle = true → present deployment.nodeExtraCaCerts = true) :
    Accepted deployment pg := by
  obtain ⟨proxy, isProxy⟩ := Option.isSome_iff_exists.mp proxied
  have checked : validateProxy machine connection proxy = .ok () := by
    unfold validateConnectionShape at admitted
    rw [isProxy] at admitted
    cases shape : validateProxy machine connection proxy with
    | error refusal =>
      simp only [shape] at admitted
      cases admitted
    | ok => rfl
  unfold validateProxy at checked
  rw [own] at checked
  simp only at checked
  split_ifs at checked with unsupported notPostgres noSsh connectionString endpoint
  rw [Bool.and_eq_true] at endpoint
  unfold validateProxiedPostgres at checked
  split_ifs at checked with hostKey sslmode noBundle dbName
  refine ⟨?_, ?_, fun verifyCa => ?_⟩
  · rw [isSome_truthy]
    exact endpoint.1
  · cases mode : pg.sslmode with
    | none => decide
    | some mode =>
      rw [mode] at sslmode
      simpa using sslmode
  · rw [isSome_truthy]
    refine bundle ?_
    simpa [verifyCa] using noBundle

/-- An accepted configuration means the same server and credentials however it is spelled exactly
when no text of it needs quotes; where the process has a TLS mode, its host is plain; and there and
through a tunnel, no password is given without a user. -/
theorem spelled_alike_iff (machine : Machine) (others : ApiConnection → Except Refusal Unit)
    (deployment : Deployment) (endpoint : ProxyEndpoint) (name : String) (connection : ApiConnection)
    (pg : PostgresConnection) (own : connection.postgresConnection = some pg)
    (discrete : present pg.connectionString = false)
    (admitted : validateConnectionShape machine others connection = .ok ())
    (bundle : machine.caBundle = true → present deployment.nodeExtraCaCerts = true) :
    (DirectMeant deployment pg ∧
      (connection.proxy.isSome = true → ProxiedMeant deployment name pg endpoint)) ↔
      (∀ value ∈ texts pg, KeywordValues.Plain value) ∧
      (present deployment.pgSSLMode = true → PlainHost (pg.host.getD "localhost").toList) ∧
      (present deployment.pgSSLMode = true ∨ connection.proxy.isSome = true →
        present pg.userName = false → present pg.password = false) := by
  have noText : ∀ field, truthy field = none ↔ present field = false := by
    intro field
    rw [← isSome_truthy, Option.isSome_eq_false_iff, Option.isNone_iff_eq_none]
  have noString : truthy pg.connectionString = none := (noText _).mpr discrete
  have accepted := fun proxied => accepted_of_validate own proxied admitted bundle
  have credentials : (truthy pg.userName = none → truthy pg.password = none) ↔
      (present pg.userName = false → present pg.password = false) :=
    imp_congr (noText pg.userName) (noText pg.password)
  constructor
  · rintro ⟨direct, proxied⟩
    have uri : present deployment.pgSSLMode = true → PlainHost (pg.host.getD "localhost").toList ∧
        (present pg.userName = false → present pg.password = false) := by
      intro hasMode
      rw [← isSome_truthy] at hasMode
      obtain ⟨pgSSLMode, isMode⟩ := Option.isSome_iff_exists.mp hasMode
      rw [← credentials]
      exact (read_buildPostgresConnectionString_iff noString isMode).mp (direct.uri pgSSLMode isMode)
    refine ⟨(read_buildPgConnectionString_iff noString).mp direct.pairs, fun hasMode => (uri hasMode).1, ?_⟩
    rintro (hasMode | hasProxy)
    · exact (uri hasMode).2
    · exact credentials.mp
        ((read_buildProxiedPostgresConnection_iff (accepted hasProxy)).mp (proxied hasProxy).uri)
  · rintro ⟨plain, host, user⟩
    refine ⟨⟨(read_buildPgConnectionString_iff noString).mpr plain, attached _, ?_⟩, fun hasProxy => ?_⟩
    · intro pgSSLMode isMode
      have hasMode : present deployment.pgSSLMode = true := by rw [← isSome_truthy, isMode]; rfl
      exact (read_buildPostgresConnectionString_iff noString isMode).mpr
        ⟨host hasMode, credentials.mpr (user (.inl hasMode))⟩
    · obtain ⟨text, isText, isRead⟩ := read_buildProxiedPgAttachString (accepted hasProxy)
      exact ⟨⟨text, isText, isRead, attached text⟩,
        (read_buildProxiedPostgresConnection_iff (accepted hasProxy)).mpr
          (credentials.mpr (user (.inr hasProxy)))⟩

/-! ### Examples -/

/-- A machine without certificates, whose names survive a URI. -/
def machine : Machine where
  policy := .any
  caBundle := false
  hasHostKey := fun _ => true
  carriesName := fun _ => true

def noTls : Deployment where
  pgSSLMode := none
  nodeExtraCaCerts := none
  ambientBundle := "/tmp/ambient.pem"

/-- A warehouse behind a bastion, reached as a user without a password. -/
def warehouse : PostgresConnection where
  host := some "db.internal"
  port := some 5432
  databaseName := some "sales"
  userName := some "reader"

def tunnelled : ApiConnection where
  name := .string "warehouse"
  type := .string "postgres"
  proxy := some { type := "ssh", ssh := some {} }
  postgresConnection := some warehouse

theorem spelled_alike_iff_warehouse :
    (DirectMeant noTls warehouse ∧
      (tunnelled.proxy.isSome = true → ProxiedMeant noTls "warehouse" warehouse ⟨41000⟩)) ↔
      (∀ value ∈ texts warehouse, KeywordValues.Plain value) ∧
      (present noTls.pgSSLMode = true → PlainHost (warehouse.host.getD "localhost").toList) ∧
      (present noTls.pgSSLMode = true ∨ tunnelled.proxy.isSome = true →
        present warehouse.userName = false → present warehouse.password = false) := by
  have admitted : validateConnectionShape machine (fun _ => .ok ()) tunnelled = .ok () := by rfl
  exact spelled_alike_iff machine (fun _ => .ok ()) noTls ⟨41000⟩ "warehouse" tunnelled warehouse rfl rfl
    admitted (fun bundle => by cases bundle)

/-- A warehouse whose password has a blank in it. -/
def spaced : PostgresConnection where
  host := some "db"
  userName := some "reader"
  password := some "pw host=elsewhere"

def direct : ApiConnection where
  name := .string "warehouse"
  type := .string "postgres"
  postgresConnection := some spaced

/-- What follows the blank is read as another host. -/
theorem password_names_another_host :
    validateConnectionShape machine (fun _ => .ok ()) direct = .ok () ∧
      KeywordValues.read (buildPgConnectionString noTls spaced) =
        some [("host".toList, "db".toList), ("user".toList, "reader".toList),
          ("password".toList, "pw".toList), ("host".toList, "elsewhere".toList)] ∧
      ¬DirectMeant noTls spaced := by
  have isRead : KeywordValues.read (buildPgConnectionString noTls spaced) =
      some [("host".toList, "db".toList), ("user".toList, "reader".toList),
        ("password".toList, "pw".toList), ("host".toList, "elsewhere".toList)] := by
    decide +kernel
  refine ⟨rfl, isRead, fun meant => ?_⟩
  have pairs := meant.pairs
  rw [isRead] at pairs
  revert pairs
  decide +kernel

end MalloyPublisher.Connections.Postgres
