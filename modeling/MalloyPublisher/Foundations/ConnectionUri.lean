import MalloyPublisher.Foundations.PercentEncoding
import MalloyPublisher.Foundations.TokenReading
import Mathlib.Data.List.TakeWhile

/-!
# Connection URIs

A connection URI is `scheme://[user[:password]@][host][:port][/dbname][?parameters]`. Each part may
be percent-encoded, several hosts may be listed, and an IPv6 address stands between brackets. A
writer that encodes the credentials and the name of the database, but writes the host as it is,
writes a URI that is read as it is meant exactly when the host has no meaning of its own to the
reader: it may otherwise end the host early, begin a port, end the credentials, or be decoded.

## Main definitions

* `ConnectionUri.read` — what a URI means
* `Server.write` — the URI of a server, with the host as it is
* `PlainHost` — a host that is read as it is
* `ConnectionUri.formEncode` — the encoding of a parameter

## Main results

* `ConnectionUri.readQuery_intercalate` — parameters that are written to be read are read
* `Server.read_write_iff` — when a URI is read as the server it was written for
-/

namespace MalloyPublisher.Foundations

/-- A server and who connects to it, each part empty where it is not given. -/
structure Server where
  user : List Char
  password : List Char
  host : List Char
  port : List Char
  dbname : List Char

/-- What a connection URI means. -/
structure ConnectionUri where
  user : List Char
  password : List Char
  /-- The hosts with their ports. -/
  hosts : List (List Char × List Char)
  dbname : List Char
  parameters : List (List Char × List Char)

/-- A host that is read as it is. -/
structure PlainHost (host : List Char) : Prop where
  free : ∀ c ∈ host, c ∉ ['/', '?', '@', ',', ':', '%']
  start : host.head? ≠ some '['

instance (host : List Char) : Decidable (PlainHost host) :=
  decidable_of_iff
    (host.all (fun c => decide (c ∉ ['/', '?', '@', ',', ':', '%'])) = true ∧ host.head? ≠ some '[')
    ⟨fun ⟨free, start⟩ => ⟨forall_mem_of_all free, start⟩,
      fun ⟨free, start⟩ => ⟨all_of_forall_mem free, start⟩⟩

namespace ConnectionUri

/-! ## Reading -/

/-- What stands in front of the name of the database and of the parameters. -/
def isAuthority (c : Char) : Bool := c ≠ '/' && c ≠ '?'

/-- The credentials, and the hosts. -/
def readAuthority (authority : List Char) : Option (List Char × List Char) :=
  if '@' ∈ authority then
    if '@' ∈ (authority.dropWhile (· ≠ '@')).tail then none
    else some (authority.takeWhile (· ≠ '@'), (authority.dropWhile (· ≠ '@')).tail)
  else some ([], authority)

/-- A host and its port, as they are written. -/
def hostPort (spec : List Char) : Option (List Char × List Char) :=
  if spec.head? = some '[' then
    match spec.tail.dropWhile (· ≠ ']') with
    | [_] => some (spec.tail.takeWhile (· ≠ ']'), [])
    | _ :: c :: port => if c = ':' then some (spec.tail.takeWhile (· ≠ ']'), port) else none
    | [] => none
  else some (spec.takeWhile (· ≠ ':'), (spec.dropWhile (· ≠ ':')).tail)

def readHost (spec : List Char) : Option (List Char × List Char) :=
  (hostPort spec).bind fun found =>
    (Percent.decode found.1).bind fun host => (Percent.decode found.2).map fun port => (host, port)

/-- A form-encoded text, in which a `+` is a blank. -/
def formDecode (text : List Char) : Option (List Char) :=
  Percent.decode (text.map fun c => if c = '+' then ' ' else c)

def readParameter (piece : List Char) : Option (List Char × List Char) :=
  match piece.splitOn '=' with
  | [key, value] => (formDecode key).bind fun key => (formDecode value).map fun value => (key, value)
  | _ => none

def readQuery (query : List Char) : Option (List (List Char × List Char)) :=
  if query = [] then some [] else (query.splitOn '&').mapM readParameter

/-- The name of the database, behind the hosts. -/
def path (behind : List Char) : List Char :=
  if behind.head? = some '/' then behind.tail.takeWhile (· ≠ '?') else []

/-- What a URI means, without its scheme. -/
def readBehind (text : List Char) : Option ConnectionUri :=
  let behind := text.dropWhile isAuthority
  (readAuthority (text.takeWhile isAuthority)).bind fun authority =>
    (Percent.decode (authority.1.takeWhile (· ≠ ':'))).bind fun user =>
      (Percent.decode (authority.1.dropWhile (· ≠ ':')).tail).bind fun password =>
        ((authority.2.splitOn ',').mapM readHost).bind fun hosts =>
          (Percent.decode (path behind)).bind fun dbname =>
            (readQuery (behind.dropWhile (· ≠ '?')).tail).map fun parameters =>
              { user, password, hosts, dbname, parameters }

def read (scheme text : List Char) : Option ConnectionUri :=
  if scheme.isPrefixOf text then readBehind (text.drop scheme.length) else none

theorem read_append (scheme text : List Char) : read scheme (scheme ++ text) = readBehind text := by
  rw [read, if_pos (by simp), List.drop_left]

theorem readBehind_eq_some {text : List Char} {uri : ConnectionUri} :
    readBehind text = some uri ↔ ∃ credentials hosts,
      readAuthority (text.takeWhile isAuthority) = some (credentials, hosts) ∧
      Percent.decode (credentials.takeWhile (· ≠ ':')) = some uri.user ∧
      Percent.decode (credentials.dropWhile (· ≠ ':')).tail = some uri.password ∧
      (hosts.splitOn ',').mapM readHost = some uri.hosts ∧
      Percent.decode (path (text.dropWhile isAuthority)) = some uri.dbname ∧
      readQuery ((text.dropWhile isAuthority).dropWhile (· ≠ '?')).tail = some uri.parameters := by
  unfold readBehind
  simp only [Option.bind_eq_some_iff, Option.map_eq_some_iff]
  constructor
  · rintro ⟨⟨credentials, hosts⟩, isAuthority, user, isUser, password, isPassword, found, isHosts,
      dbname, isName, parameters, isQuery, rfl⟩
    exact ⟨credentials, hosts, isAuthority, isUser, isPassword, isHosts, isName, isQuery⟩
  · rintro ⟨credentials, hosts, isAuthority, isUser, isPassword, isHosts, isName, isQuery⟩
    exact ⟨(credentials, hosts), isAuthority, _, isUser, _, isPassword, _, isHosts, _, isName, _,
      isQuery, rfl⟩

/-! ## Parameters -/

/-- `application/x-www-form-urlencoded`, with the characters that are written bare. -/
def formEncode (bare : Char → Bool) (text : List Char) : List Char :=
  (Percent.encode (fun c => bare c || c = ' ') text).map fun c => if c = ' ' then '+' else c

section Parameters

variable {bare : Char → Bool} {text key value decoded : List Char} {c : Char}

theorem plus_notin (noPlus : bare '+' = false) : '+' ∉ Percent.encode bare text := by
  intro member
  rcases Percent.mem_encode member with written | digit
  · rw [noPlus] at written
    cases written
  · have differs : '+' ∉ "%0123456789ABCDEF".toList := by decide +kernel
    exact differs digit

/-- A text without a `+` that is percent-encoded is form-decoded too. -/
theorem formDecode_encode (escapes : bare '%' = false) (noPlus : bare '+' = false) (text : List Char) :
    formDecode (Percent.encode bare text) = some text := by
  have same : (Percent.encode bare text).map (fun c => if c = '+' then ' ' else c) =
      Percent.encode bare text := by
    rw [List.map_congr_left (g := id), List.map_id]
    intro c member
    refine if_neg ?_
    rintro rfl
    exact plus_notin noPlus member
  rw [formDecode, same, Percent.decode_encode escapes]

/-- What is form-encoded is form-decoded. -/
theorem formDecode_formEncode (escapes : bare '%' = false) (noPlus : bare '+' = false)
    (text : List Char) : formDecode (formEncode bare text) = some text := by
  have same : (formEncode bare text).map (fun c => if c = '+' then ' ' else c) =
      Percent.encode (fun c => bare c || c = ' ') text := by
    rw [formEncode, List.map_map, List.map_congr_left (g := id), List.map_id]
    intro c member
    have notPlus : c ≠ '+' := by
      rintro rfl
      exact plus_notin (by simp [noPlus]) member
    by_cases blank : c = ' '
    · simp [blank]
    · simp [blank, notPlus]
  rw [formDecode, same, Percent.decode_encode (by simp [escapes])]

theorem mem_formEncode (member : c ∈ formEncode bare text) :
    bare c = true ∨ c ∈ "+%0123456789ABCDEF".toList := by
  obtain ⟨d, isEncoded, rfl⟩ := List.mem_map.mp member
  by_cases blank : d = ' '
  · rw [if_pos blank]
    exact .inr (by decide +kernel)
  · rw [if_neg blank]
    rcases Percent.mem_encode isEncoded with written | digit
    · left
      simpa [blank] using written
    · right
      exact List.mem_cons_of_mem _ digit

theorem readParameter_eq (plain : ∀ c ∈ key, c ∉ ['=', '%', '+']) (alone : '=' ∉ value)
    (isValue : formDecode value = some decoded) :
    readParameter (key ++ '=' :: value) = some (key, decoded) := by
  have absent : ∀ {c : Char}, c ∈ ['=', '%', '+'] → c ∉ key :=
    fun reserved member => plain _ member reserved
  have split : (key ++ '=' :: value).splitOn '=' = [key, value] := by
    rw [List.splitOn_append_cons_self_of_not_mem (absent (by decide)), List.splitOn_eq_singleton alone]
  have same : key.map (fun c => if c = '+' then ' ' else c) = key := by
    rw [List.map_congr_left (g := id), List.map_id]
    intro c member
    refine if_neg ?_
    rintro rfl
    exact absent (by decide) member
  have isKey : formDecode key = some key := by
    rw [formDecode, same, Percent.decode_self (absent (by decide))]
  unfold readParameter
  rw [split]
  simp only [isKey, isValue, Option.bind_some, Option.map_some]

/-- Parameters that are each written to be read are read. -/
theorem readQuery_intercalate {pairs : List (List Char × List Char)}
    {write : List Char × List Char → List Char} (given : pairs ≠ [])
    (reads : ∀ pair ∈ pairs, '&' ∉ write pair ∧ readParameter (write pair) = some pair)
    (isQuery : ['&'].intercalate (pairs.map write) ≠ []) :
    readQuery (['&'].intercalate (pairs.map write)) = some pairs := by
  have split : (['&'].intercalate (pairs.map write)).splitOn '&' = pairs.map write := by
    refine List.splitOn_intercalate '&' ?_ (by simpa using given)
    intro piece member
    obtain ⟨pair, isPair, rfl⟩ := List.mem_map.mp member
    exact (reads pair isPair).1
  rw [readQuery, if_neg isQuery, split]
  clear split isQuery given
  induction pairs with
  | nil => rfl
  | cons pair pairs ih =>
    rw [List.map_cons, List.mapM_cons, (reads pair List.mem_cons_self).2,
      ih fun other member => reads other (List.mem_cons_of_mem _ member)]
    rfl

end Parameters

section Hosts

variable {first rest host port hosts credentials : List Char}

/-- A host that is listed alone. -/
theorem mapM_readHost_eq_some :
    (hosts.splitOn ',').mapM readHost = some [(host, port)] ↔
      ',' ∉ hosts ∧ readHost hosts = some (host, port) := by
  constructor
  · intro isRead
    obtain ⟨spec, specs, split⟩ := List.exists_cons_of_ne_nil (List.splitOn_ne_nil ',' hosts)
    rw [split, List.mapM_cons] at isRead
    simp only [Option.pure_def, Option.bind_eq_bind, Option.bind_eq_some_iff, Option.some_inj,
      List.cons.injEq] at isRead
    obtain ⟨found, isFound, others, isOthers, rfl, rfl⟩ := isRead
    have alone : specs = [] := by
      cases specs with
      | nil => rfl
      | cons next specs =>
        rw [List.mapM_cons] at isOthers
        simp only [Option.pure_def, Option.bind_eq_bind, Option.bind_eq_some_iff,
          Option.some_inj] at isOthers
        obtain ⟨_, _, _, _, same⟩ := isOthers
        cases same
    subst alone
    have whole : hosts = spec := by
      have whole : [','].intercalate (hosts.splitOn ',') = hosts := List.intercalate_splitOn ','
      rw [← whole, split, List.intercalate_singleton]
    subst whole
    refine ⟨fun member => ?_, isFound⟩
    obtain ⟨before, after, rfl⟩ := List.append_of_mem member
    rw [List.splitOn_append_cons_self] at split
    have lengths := congrArg List.length split
    have front := List.length_pos_of_ne_nil (List.splitOn_ne_nil ',' before)
    have back := List.length_pos_of_ne_nil (List.splitOn_ne_nil ',' after)
    rw [List.length_append, List.length_singleton] at lengths
    omega
  · rintro ⟨alone, isRead⟩
    rw [List.splitOn_eq_singleton alone, List.mapM_cons, isRead]
    rfl

/-- What is read of the hosts is what is behind the credentials, to its end. -/
theorem readAuthority_append (free : '@' ∉ rest)
    (isRead : readAuthority (first ++ rest) = some (credentials, hosts)) :
    ∃ later, hosts = later ++ rest ∧ later <:+ first ∧ '@' ∉ later := by
  unfold readAuthority at isRead
  split_ifs at isRead with some twice
  · cases isRead
    have member : '@' ∈ first := (List.mem_append.mp some).resolve_right free
    have stops : first.dropWhile (· ≠ '@') ≠ [] := by
      rw [Ne, List.dropWhile_eq_nil_iff]
      intro all
      simpa using all '@' member
    rw [(takeWhile_dropWhile_append stops rest).2] at twice ⊢
    obtain ⟨at', later, isLater⟩ := List.exists_cons_of_ne_nil stops
    have behind := List.dropWhile_suffix (fun c => decide (c ≠ '@')) (l := first)
    rw [isLater] at twice behind ⊢
    refine ⟨later, rfl, (List.suffix_cons _ _).trans behind, fun member => twice ?_⟩
    exact List.mem_append_left _ member
  · cases isRead
    exact ⟨first, rfl, List.suffix_refl _, fun member => some (List.mem_append_left _ member)⟩

/-- What is read of a host is part of what stands in front of the port. -/
theorem hostPort_append (port' : ∀ c ∈ rest.head?, c = ':') (free : ']' ∉ rest)
    (isRead : hostPort (first ++ rest) = some (host, port)) :
    host.Sublist first ∧ (host = first → ':' ∉ first ∧ first.head? ≠ some '[') := by
  unfold hostPort at isRead
  split_ifs at isRead with bracket
  · cases first with
    | nil =>
      have colon := port' '[' bracket
      cases colon
    | cons c first =>
      have opens : c = '[' := Option.some_inj.mp bracket
      subst opens
      rw [List.cons_append, List.tail_cons] at isRead
      have stops : (first ++ rest).dropWhile (· ≠ ']') ≠ [] := by
        intro empty
        rw [empty] at isRead
        cases isRead
      have isHost : host = (first ++ rest).takeWhile (· ≠ ']') := by
        obtain ⟨closing, later, isLater⟩ := List.exists_cons_of_ne_nil stops
        rw [isLater] at isRead
        cases later with
        | nil =>
          cases isRead
          rfl
        | cons d later =>
          simp only at isRead
          split_ifs at isRead
          cases isRead
          rfl
      have stops' : first.dropWhile (· ≠ ']') ≠ [] := by
        intro empty
        refine stops ?_
        rw [List.dropWhile_eq_nil_iff] at empty ⊢
        intro d member
        rcases List.mem_append.mp member with member | member
        · exact empty d member
        · exact decide_eq_true fun same => free (same ▸ member)
      rw [(takeWhile_dropWhile_append stops' rest).1] at isHost
      have inner : host.Sublist first := by
        rw [isHost]
        exact List.takeWhile_sublist _
      refine ⟨inner.trans (List.sublist_cons_self _ _), fun same => ?_⟩
      have lengths := inner.length_le
      rw [same, List.length_cons] at lengths
      omega
  · cases isRead
    have taken : (first ++ rest).takeWhile (· ≠ ':') = first.takeWhile (· ≠ ':') := by
      rw [List.takeWhile_append]
      split_ifs with all
      · have whole := (List.takeWhile_prefix _).eq_of_length all
        rw [whole]
        cases rest with
        | nil => rw [List.takeWhile_nil, List.append_nil]
        | cons c rest =>
          have colon : c = ':' := port' c rfl
          rw [List.takeWhile_cons_of_neg (by simp [colon]), List.append_nil]
      · rfl
    rw [taken]
    refine ⟨List.takeWhile_sublist _, fun whole => ⟨fun member => ?_, fun opens => bracket ?_⟩⟩
    · rw [← whole] at member
      simpa using List.mem_takeWhile_imp member
    · rw [List.head?_append, opens]
      rfl

/-- A host that is read as it is. -/
theorem hostPort_plain (free : ':' ∉ host) (start : host.head? ≠ some '[')
    (rest : List Char) (opens : rest = [] ∨ rest = ':' :: port) :
    hostPort (host ++ rest) = some (host, rest.tail) := by
  have all : ∀ c ∈ host, decide (c ≠ ':') = true := decide_ne_of_not_mem free
  have noBracket : (host ++ rest).head? ≠ some '[' := by
    rw [List.head?_append]
    cases isHost : host.head? with
    | some c =>
      rw [isHost] at start
      exact start
    | none =>
      rcases opens with rfl | rfl
      · simp
      · simp
  rw [hostPort, if_neg noBracket, List.takeWhile_append_of_pos all, List.dropWhile_append_of_pos all]
  rcases opens with rfl | rfl
  · simp
  · simp

end Hosts

end ConnectionUri

namespace Server

open ConnectionUri

/-! ## Writing -/

/-- What a URI says of a server, with the parameters of the connection. -/
def uri (server : Server) (parameters : List (List Char × List Char)) : ConnectionUri where
  user := server.user
  password := server.password
  hosts := [(server.host, server.port)]
  dbname := server.dbname
  parameters := parameters

section Write

variable (bare : Char → Bool) (server : Server)

/-- The user, and the password if there is a user. -/
def userinfo : List Char :=
  if server.user = [] then []
  else Percent.encode bare server.user ++
    if server.password = [] then [] else ':' :: Percent.encode bare server.password

def credentials : List Char := if server.user = [] then [] else server.userinfo bare ++ ['@']

def portText : List Char := if server.port = [] then [] else ':' :: server.port

def dbText : List Char := if server.dbname = [] then [] else '/' :: Percent.encode bare server.dbname

/-- A URI without its scheme and its parameters. -/
def write : List Char :=
  server.credentials bare ++ (server.host ++ (server.portText ++ server.dbText bare))

end Write

/-- What is written bare has no meaning of its own in a URI. -/
def Separates (bare : Char → Bool) : Prop := ∀ c ∈ ['%', '@', ':', '/', '?'], bare c = false

/-- The parameters, behind a `?`. -/
inductive Query : List Char → List (List Char × List Char) → Prop
  | absent : Query [] []
  | given {query : List Char} {parameters : List (List Char × List Char)}
      (isRead : readQuery query = some parameters) : Query ('?' :: query) parameters

variable {bare : Char → Bool} {server : Server} {query text : List Char}
  {parameters : List (List Char × List Char)}

theorem Separates.not_mem (separates : Separates bare) {c : Char}
    (reserved : c ∈ ['@', ':', '/', '?']) : c ∉ Percent.encode bare text := by
  intro member
  have isBare := separates c (List.mem_cons_of_mem _ reserved)
  rcases Percent.mem_encode member with written | digit
  · rw [isBare] at written
    cases written
  · have differs : ∀ d ∈ ['@', ':', '/', '?'], d ∉ "%0123456789ABCDEF".toList :=
      forall_mem_of_all (by decide +kernel)
    exact differs c reserved digit

theorem Separates.decode (separates : Separates bare) (text : List Char) :
    Percent.decode (Percent.encode bare text) = some text :=
  Percent.decode_encode (separates '%' List.mem_cons_self) text

theorem Query.head (isQuery : Query query parameters) : ∀ c ∈ query.head?, c = '?' := by
  intro c first
  cases isQuery with
  | absent => cases first
  | given => exact (Option.some_inj.mp first).symm

theorem Query.tail (isQuery : Query query parameters) : readQuery query.tail = some parameters := by
  cases isQuery with
  | absent => rfl
  | given isRead => exact isRead

/-! ### The credentials -/

theorem not_mem_userinfo (separates : Separates bare) {c : Char} (reserved : c ∈ ['@', '/', '?']) :
    c ∉ server.userinfo bare := by
  have among : ∀ d ∈ ['@', '/', '?'], d ∈ ['@', ':', '/', '?'] := forall_mem_of_all (by decide)
  have encoded : ∀ text, c ∉ Percent.encode bare text :=
    fun text => separates.not_mem (among c reserved)
  have notColon : c ≠ ':' := by
    rintro rfl
    revert reserved
    decide
  unfold userinfo
  split_ifs with noUser noPassword
  · exact List.not_mem_nil
  · simpa using encoded server.user
  · simp [encoded, notColon]

theorem user_userinfo (separates : Separates bare) :
    Percent.decode ((server.userinfo bare).takeWhile (· ≠ ':')) = some server.user := by
  have all : ∀ c ∈ Percent.encode bare server.user, decide (c ≠ ':') = true :=
    decide_ne_of_not_mem (separates.not_mem (by decide))
  unfold userinfo
  split_ifs with noUser noPassword
  · rw [noUser]
    exact Percent.decode_self List.not_mem_nil
  · rw [List.append_nil, ← List.append_nil (Percent.encode bare server.user),
      List.takeWhile_append_of_pos all, List.takeWhile_nil, List.append_nil]
    exact separates.decode _
  · rw [List.takeWhile_append_of_pos all, List.takeWhile_cons_of_neg (by decide), List.append_nil]
    exact separates.decode _

theorem password_userinfo (separates : Separates bare) :
    Percent.decode ((server.userinfo bare).dropWhile (· ≠ ':')).tail =
      some (if server.user = [] then [] else server.password) := by
  have all : ∀ c ∈ Percent.encode bare server.user, decide (c ≠ ':') = true :=
    decide_ne_of_not_mem (separates.not_mem (by decide))
  unfold userinfo
  split_ifs with noUser noPassword
  · exact Percent.decode_self List.not_mem_nil
  · rw [List.dropWhile_append_of_pos all, noPassword]
    exact Percent.decode_self List.not_mem_nil
  · rw [List.dropWhile_append_of_pos all, List.dropWhile_cons_of_neg (by decide), List.tail_cons]
    exact separates.decode _

theorem isAuthority_credentials (separates : Separates bare) :
    ∀ c ∈ server.credentials bare, isAuthority c = true := by
  intro c member
  unfold credentials at member
  split_ifs at member with noUser
  · cases member
  · rcases List.mem_append.mp member with member | member
    · have notSlash : c ≠ '/' := by
        rintro rfl
        exact not_mem_userinfo separates (by decide) member
      have notMark : c ≠ '?' := by
        rintro rfl
        exact not_mem_userinfo separates (by decide) member
      simp [isAuthority, notSlash, notMark]
    · rw [List.mem_singleton.mp member]
      rfl

/-- The credentials in front of hosts without an `@`. -/
theorem readAuthority_credentials (separates : Separates bare) {hosts : List Char}
    (free : '@' ∉ hosts) :
    readAuthority (server.credentials bare ++ hosts) = some (server.userinfo bare, hosts) := by
  unfold credentials
  split_ifs with noUser
  · rw [List.nil_append, readAuthority, if_neg free, userinfo, if_pos noUser]
  · have all : ∀ c ∈ server.userinfo bare, decide (c ≠ '@') = true :=
      decide_ne_of_not_mem (not_mem_userinfo separates (by decide))
    rw [List.append_assoc, List.singleton_append, readAuthority, if_pos (by simp),
      List.dropWhile_append_of_pos all, List.takeWhile_append_of_pos all,
      List.dropWhile_cons_of_neg (by decide), List.takeWhile_cons_of_neg (by decide), List.tail_cons,
      if_neg free, List.append_nil]

/-- Whatever the hosts, what is read of them is behind the credentials. -/
theorem suffix_of_readAuthority (separates : Separates bare) {first rest credentials hosts : List Char}
    (free : '@' ∉ rest)
    (isRead : readAuthority (server.credentials bare ++ (first ++ rest)) = some (credentials, hosts)) :
    ∃ later, hosts = later ++ rest ∧ later <:+ first ∧ '@' ∉ later := by
  by_cases inside : '@' ∈ first
  · unfold Server.credentials at isRead
    split_ifs at isRead with noUser
    · exact readAuthority_append free isRead
    · have all : ∀ c ∈ server.userinfo bare, decide (c ≠ '@') = true :=
        decide_ne_of_not_mem (not_mem_userinfo separates (by decide))
      rw [List.append_assoc, List.singleton_append, readAuthority, if_pos (by simp),
        List.dropWhile_append_of_pos all, List.dropWhile_cons_of_neg (by decide), List.tail_cons,
        if_pos (List.mem_append_left _ inside)] at isRead
      cases isRead
  · have whole : '@' ∉ first ++ rest := by
      rw [List.mem_append, not_or]
      exact ⟨inside, free⟩
    rw [readAuthority_credentials separates whole] at isRead
    cases isRead
    exact ⟨first, rfl, List.suffix_refl _, inside⟩

/-! ### Behind the host -/

theorem stops_isAuthority {rest : List Char} (stops : ∀ c ∈ rest.head?, isAuthority c = false) :
    rest.takeWhile isAuthority = [] ∧ rest.dropWhile isAuthority = rest := by
  cases rest with
  | nil => exact ⟨rfl, rfl⟩
  | cons c rest =>
    have stop : ¬isAuthority c = true := by rw [stops c rfl]; decide
    exact ⟨List.takeWhile_cons_of_neg stop, List.dropWhile_cons_of_neg stop⟩

theorem head?_dbText (isQuery : Query query parameters) :
    ∀ c ∈ (server.dbText bare ++ query).head?, isAuthority c = false := by
  intro c first
  unfold dbText at first
  split_ifs at first with noName
  · rw [isQuery.head c first]
    rfl
  · cases first
    rfl

theorem path_dbText (separates : Separates bare) (isQuery : Query query parameters) :
    Percent.decode (path (server.dbText bare ++ query)) = some server.dbname := by
  have noMark : ∀ c ∈ Percent.encode bare server.dbname, decide (c ≠ '?') = true :=
    decide_ne_of_not_mem (separates.not_mem (by decide))
  have stops : query.takeWhile (· ≠ '?') = [] := by
    cases query with
    | nil => rfl
    | cons c query => exact List.takeWhile_cons_of_neg (by simp [isQuery.head c rfl])
  unfold dbText
  split_ifs with noName
  · have noPath : path query = [] := by
      refine if_neg fun slash => ?_
      have mark := isQuery.head '/' slash
      cases mark
    rw [List.nil_append, noPath, noName]
    exact Percent.decode_self List.not_mem_nil
  · rw [List.cons_append, path, if_pos List.head?_cons, List.tail_cons,
      List.takeWhile_append_of_pos noMark, stops, List.append_nil]
    exact separates.decode _

theorem query_dbText (separates : Separates bare) (isQuery : Query query parameters) :
    readQuery ((server.dbText bare ++ query).dropWhile (· ≠ '?')).tail = some parameters := by
  have noMark : ∀ c ∈ server.dbText bare, decide (c ≠ '?') = true := by
    intro c member
    unfold dbText at member
    refine decide_eq_true ?_
    rintro rfl
    split_ifs at member
    · cases member
    · rcases List.mem_cons.mp member with slash | member
      · cases slash
      · exact separates.not_mem (by decide) member
  have stops : query.dropWhile (· ≠ '?') = query := by
    cases query with
    | nil => rfl
    | cons c query => exact List.dropWhile_cons_of_neg (by simp [isQuery.head c rfl])
  rw [List.dropWhile_append_of_pos noMark, stops]
  exact isQuery.tail

/-! ### The host -/

theorem portText_eq : server.portText = [] ∨ server.portText = ':' :: server.port := by
  unfold portText
  split_ifs with noPort
  · exact .inl rfl
  · exact .inr rfl

theorem tail_portText : server.portText.tail = server.port := by
  unfold portText
  split_ifs with noPort
  · exact noPort.symm
  · rfl

theorem mem_portText (digits : ∀ c ∈ server.port, c.isDigit = true) {c : Char}
    (member : c ∈ server.portText) : c = ':' ∨ c.isDigit = true := by
  rcases server.portText_eq with none | some
  · rw [none] at member
    cases member
  · rw [some] at member
    exact (List.mem_cons.mp member).imp_right (digits c)

theorem not_mem_portText (digits : ∀ c ∈ server.port, c.isDigit = true) {c : Char}
    (notColon : c ≠ ':') (notDigit : c.isDigit = false) : c ∉ server.portText := by
  intro member
  rcases mem_portText digits member with colon | digit
  · exact notColon colon
  · rw [notDigit] at digit
    cases digit

theorem head?_portText : ∀ c ∈ server.portText.head?, c = ':' := by
  intro c first
  rcases server.portText_eq with none | some
  · rw [none] at first
    cases first
  · rw [some] at first
    exact (Option.some_inj.mp first).symm

theorem isAuthority_portText (digits : ∀ c ∈ server.port, c.isDigit = true) :
    ∀ c ∈ server.portText, isAuthority c = true := by
  intro c member
  rcases mem_portText digits member with rfl | digit
  · rfl
  · have notSlash : c ≠ '/' := by
      rintro rfl
      cases digit
    have notMark : c ≠ '?' := by
      rintro rfl
      cases digit
    simp [isAuthority, notSlash, notMark]

/-- The hosts of a URI: they end with the port, unless the host ends them. -/
theorem takeWhile_write (separates : Separates bare) (digits : ∀ c ∈ server.port, c.isDigit = true)
    (isQuery : Query query parameters) : ∃ rest, (rest = [] ∨ rest = server.portText) ∧
      (server.write bare ++ query).takeWhile isAuthority =
        server.credentials bare ++ (server.host.takeWhile isAuthority ++ rest) := by
  have stops := (stops_isAuthority (@head?_dbText bare server _ _ isQuery)).1
  rw [write, List.append_assoc, List.takeWhile_append_of_pos (isAuthority_credentials separates),
    List.append_assoc, List.takeWhile_append, List.append_assoc,
    List.takeWhile_append_of_pos (isAuthority_portText digits), stops, List.append_nil]
  split_ifs with all
  · refine ⟨server.portText, .inr rfl, ?_⟩
    rw [(List.takeWhile_prefix _).eq_of_length all]
  · exact ⟨[], .inl rfl, by rw [List.append_nil]⟩

/-- The parts of a URI where the host does not end the hosts. -/
theorem split_write (separates : Separates bare) (digits : ∀ c ∈ server.port, c.isDigit = true)
    (isQuery : Query query parameters) (all : ∀ c ∈ server.host, isAuthority c = true) :
    (server.write bare ++ query).takeWhile isAuthority =
        server.credentials bare ++ (server.host ++ server.portText) ∧
      (server.write bare ++ query).dropWhile isAuthority = server.dbText bare ++ query := by
  obtain ⟨taken, dropped⟩ := stops_isAuthority (@head?_dbText bare server _ _ isQuery)
  have port := isAuthority_portText digits
  have credentials := @isAuthority_credentials bare server separates
  rw [write]
  simp only [List.append_assoc]
  constructor
  · rw [List.takeWhile_append_of_pos credentials, List.takeWhile_append_of_pos all,
      List.takeWhile_append_of_pos port, taken, List.append_nil]
  · rw [List.dropWhile_append_of_pos credentials, List.dropWhile_append_of_pos all,
      List.dropWhile_append_of_pos port, dropped]

/-- A host that is read back is plain. -/
theorem plain_of_read (separates : Separates bare) (digits : ∀ c ∈ server.port, c.isDigit = true)
    (isQuery : Query query parameters)
    (isRead : readBehind (server.write bare ++ query) = some (server.uri parameters)) :
    PlainHost server.host := by
  obtain ⟨credentials, hosts, isAuthority, -, -, isHosts, -, -⟩ := readBehind_eq_some.mp isRead
  obtain ⟨rest, isPort, split⟩ := takeWhile_write separates digits isQuery
  rw [split] at isAuthority
  have noAt : '@' ∉ rest := by
    rcases isPort with rfl | rfl
    · exact List.not_mem_nil
    · exact not_mem_portText digits (by decide) rfl
  have noBracket : ']' ∉ rest := by
    rcases isPort with rfl | rfl
    · exact List.not_mem_nil
    · exact not_mem_portText digits (by decide) rfl
  have colon : ∀ c ∈ rest.head?, c = ':' := by
    rcases isPort with rfl | rfl
    · intro c first
      cases first
    · exact head?_portText
  obtain ⟨later, rfl, suffix, free⟩ := suffix_of_readAuthority separates noAt isAuthority
  obtain ⟨alone, isHost⟩ := mapM_readHost_eq_some.mp isHosts
  obtain ⟨⟨host, port⟩, isSpec, decodes⟩ := Option.bind_eq_some_iff.mp isHost
  obtain ⟨found, isFound, ports⟩ := Option.bind_eq_some_iff.mp decodes
  obtain ⟨port, -, same⟩ := Option.map_eq_some_iff.mp ports
  cases same
  obtain ⟨inner, whole⟩ := hostPort_append colon noBracket isSpec
  -- what is read is part of the host at every step, so it is all of it
  have outer : later.Sublist server.host := suffix.sublist.trans (List.takeWhile_sublist _)
  obtain ⟨isAll, noEscape⟩ := Percent.eq_of_decode (inner.trans outer) isFound
  have isLater : later = server.host := outer.eq_of_length_le (by
    rw [← isAll]
    exact inner.length_le)
  have isTaken : server.host.takeWhile ConnectionUri.isAuthority = server.host :=
    (List.takeWhile_sublist _).eq_of_length_le (by
      rw [← isLater] at suffix ⊢
      exact suffix.length_le)
  obtain ⟨noColon, noOpening⟩ := whole (isAll.trans isLater.symm)
  rw [isLater] at noColon noOpening free alone
  refine ⟨?_, noOpening⟩
  intro c member reserved
  have inAuthority : ConnectionUri.isAuthority c = true := by
    rw [← isTaken] at member
    exact List.mem_takeWhile_imp member
  simp only [List.mem_cons, List.not_mem_nil, or_false] at reserved
  rcases reserved with rfl | rfl | rfl | rfl | rfl | rfl
  · cases inAuthority
  · cases inAuthority
  · exact free member
  · exact alone (List.mem_append_left _ member)
  · exact noColon member
  · exact noEscape member

/-- What is read where the host is plain. -/
theorem read_plain (separates : Separates bare) (digits : ∀ c ∈ server.port, c.isDigit = true)
    (isQuery : Query query parameters) (plain : PlainHost server.host) :
    readBehind (server.write bare ++ query) = some { server.uri parameters with
      password := if server.user = [] then [] else server.password } := by
  have absent : ∀ {c : Char}, c ∈ ['/', '?', '@', ',', ':', '%'] → c ∉ server.host :=
    fun reserved member => plain.free _ member reserved
  have all : ∀ c ∈ server.host, isAuthority c = true := by
    intro c member
    have notSlash : c ≠ '/' := by
      rintro rfl
      exact absent (by decide) member
    have notMark : c ≠ '?' := by
      rintro rfl
      exact absent (by decide) member
    simp [isAuthority, notSlash, notMark]
  obtain ⟨taken, dropped⟩ := split_write separates digits isQuery all
  have noAt : '@' ∉ server.host ++ server.portText := by
    rw [List.mem_append, not_or]
    exact ⟨absent (by decide), not_mem_portText digits (by decide) rfl⟩
  have alone : ',' ∉ server.host ++ server.portText := by
    rw [List.mem_append, not_or]
    exact ⟨absent (by decide), not_mem_portText digits (by decide) rfl⟩
  have noEscape : '%' ∉ server.port := fun member => by cases digits '%' member
  have isHost : readHost (server.host ++ server.portText) = some (server.host, server.port) := by
    have spec := hostPort_plain (absent (by decide)) plain.start server.portText server.portText_eq
    rw [readHost, spec, Option.bind_some, Percent.decode_self (absent (by decide)), Option.bind_some,
      tail_portText, Percent.decode_self noEscape]
    rfl
  rw [readBehind_eq_some, taken, dropped]
  exact ⟨server.userinfo bare, server.host ++ server.portText,
    readAuthority_credentials separates noAt, user_userinfo separates, password_userinfo separates,
    mapM_readHost_eq_some.mpr ⟨alone, isHost⟩, path_dbText separates isQuery,
    query_dbText separates isQuery⟩

/-- A URI is read as the server it was written for exactly when the host is plain, and no password
is given without a user. -/
theorem read_write_iff (separates : Separates bare) (digits : ∀ c ∈ server.port, c.isDigit = true)
    (isQuery : Query query parameters) :
    readBehind (server.write bare ++ query) = some (server.uri parameters) ↔
      PlainHost server.host ∧ (server.user = [] → server.password = []) := by
  constructor
  · intro isRead
    have plain := plain_of_read separates digits isQuery isRead
    refine ⟨plain, fun noUser => ?_⟩
    rw [read_plain separates digits isQuery plain] at isRead
    have passwords := congrArg ConnectionUri.password (Option.some_inj.mp isRead)
    rw [if_pos noUser] at passwords
    exact passwords.symm
  · rintro ⟨plain, given⟩
    rw [read_plain separates digits isQuery plain]
    by_cases noUser : server.user = []
    · rw [if_pos noUser, ← given noUser]
      rfl
    · rw [if_neg noUser]
      rfl

end Server

end MalloyPublisher.Foundations
