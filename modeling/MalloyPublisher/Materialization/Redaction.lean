import MalloyPublisher.Foundations.FirstAnswer
import MalloyPublisher.Foundations.Scanning
import MalloyPublisher.QueryMetadata.BuildTags
import Mathlib.Data.Fintype.Sigma
import Mathlib.Data.Fintype.Sum

/-!
# Redacting the credentials of a build's connections

The error of a failed build may echo a credential of the connections it used. What is at hand
are the live connections, a graph of objects that share parts and lead back to themselves. Each
object is walked once, and a string under a key that names a credential is collected. Collected
strings are then replaced in the message, as they are and as they stand inside a SQL literal.

## Main definitions

* `Heap`, `HasCredential` — objects with what they hold, and the credentials they lead to
* `collectSensitiveValues` — the walk
* `redactConnectionSecrets` — the message without what the walk collected

## Main results

* `mem_collectSensitiveValues_iff` — the walk ends, with every credential and nothing else
* `redactConnectionSecrets_hides` — no credential is left in the message
* `redactConnectionSecrets_keeps` — a message without credentials stays as it is
-/

namespace MalloyPublisher.Materialization

open Foundations QueryMetadata Relation

/-! ## Live connections -/

/-- A value: a string, an object, or anything else. -/
inductive LiveValue (O : Type*)
  | text (chars : List Char)
  | object (reference : O)
  | other

/-- What an object holds. -/
inductive Contents (O : Type*)
  | array (items : List (LiveValue O))
  | record (entries : List (List Char × LiveValue O))

/-- Every object with what it holds. -/
abbrev Heap (O : Type*) := O → Contents O

/-- The words that make a key name a credential. -/
def SENSITIVE_KEY : List String :=
  ["pass", "secret", "private_key", "privatekey", "service_account", "serviceaccount",
    "access_key", "accesskey", "token", "connection_string", "connectionstring", "account"]

/-- A key that names a credential, in either case of its letters. -/
def isSensitiveKey (key : List Char) : Bool :=
  SENSITIVE_KEY.any fun word => (key.map Char.toLower).tails.any word.toList.isPrefixOf

/-- A string that is long enough to be taken for a credential. -/
structure Credential where
  chars : List Char
  long : 4 ≤ (chars.flatMap codeUnits).length
  deriving DecidableEq

theorem Credential.nonempty (credential : Credential) : credential.chars ≠ [] :=
  fun empty => by simpa [empty] using credential.long

/-- What the walk does with a value: take it, go into it, or pass it by. -/
inductive Visit (O : Type*)
  | take (credential : Credential)
  | enter (reference : O)
  | pass

variable {O : Type*}

/-- The visit of an entry. -/
def visitEntry (key : List Char) : LiveValue O → Visit O
  | .text chars =>
    if long : 4 ≤ (chars.flatMap codeUnits).length then
      if isSensitiveKey key then .take ⟨chars, long⟩ else .pass
    else .pass
  | .object reference => .enter reference
  | .other => .pass

/-- The visit of an item, which has no key: a string in an array is never taken. -/
def visitItem : LiveValue O → Visit O
  | .object reference => .enter reference
  | _ => .pass

/-- The visits an object's walk makes, in order. -/
def Contents.visits : Contents O → List (Visit O)
  | .array items => items.map visitItem
  | .record entries => entries.map fun (key, value) => visitEntry key value

/-! ## The walk -/

variable (heap : Heap O)

/-- The walk goes to the objects and to the places where it takes something. -/
abbrev Node := O ⊕ Σ o : O, Fin (heap o).visits.length

/-- The nodes an object leads to. -/
def nodesBelow : Node heap → List (Node heap)
  | .inl o => (List.finRange _).filterMap fun i =>
    match (heap o).visits.get i with
    | .take _ => some (.inr ⟨o, i⟩)
    | .enter reference => some (.inl reference)
    | .pass => none
  | .inr _ => []

/-- What is taken at a node. -/
def takenAt : Node heap → Unit → List Credential
  | .inl _, _ => []
  | .inr ⟨o, i⟩, _ =>
    match (heap o).visits.get i with
    | .take credential => [credential]
    | _ => []

def childrenOf : Node heap → Unit → List (Node heap × Unit) := withoutContext (nodesBelow heap)

/-- The walk of the connections begins at those that are objects. -/
def startsOf (connections : List (LiveValue O)) : List (Node heap × Unit) :=
  connections.filterMap fun
    | .object reference => some (.inl reference, ())
    | _ => none

/-- The credentials the connections lead to, each once, in the order of the walk. -/
def collectSensitiveValues [DecidableEq O] (fuel : ℕ) (connections : List (LiveValue O)) :
    Option (List Credential) :=
  (walkAll (depthFirst (takenAt heap) (childrenOf heap) fuel) (startsOf heap connections) []).map
    fun walked => walked.1.eraseDups

/-! ## Replacing what was collected -/

theorem mem_escapeSQL {chars : List Char} {c : Char} (member : c ∈ escapeSQL chars) :
    c ∈ chars := by
  obtain ⟨d, among, made⟩ := List.mem_flatMap.mp member
  split_ifs at made with quote
  · rw [quote] at among
    simpa using (List.mem_pair.mp made).elim (· ▸ among) (· ▸ among)
  · exact List.mem_singleton.mp made ▸ among

theorem escapeSQL_ne_nil {chars : List Char} (nonempty : chars ≠ []) : escapeSQL chars ≠ [] := by
  obtain ⟨c, rest, rfl⟩ := List.exists_cons_of_ne_nil nonempty
  by_cases quote : c = '\'' <;> simp [escapeSQL, doubled, quote]

/-- A message without a credential, as it is and as a SQL literal has it. -/
def redactSecret (message : List Char) (secret : Credential) : List Char :=
  let redacted := replaceAll (wordPattern secret.chars secret.nonempty) "***".toList message
  if escapeSQL secret.chars ≠ secret.chars then
    replaceAll (wordPattern (escapeSQL secret.chars) (escapeSQL_ne_nil secret.nonempty))
      "***".toList redacted
  else redacted

/-- The message without the credentials of the connections. -/
def redactConnectionSecrets [DecidableEq O] (fuel : ℕ) (redactPgSecrets : List Char → List Char)
    (message : List Char) (connections : List (LiveValue O)) : Option (List Char) :=
  (collectSensitiveValues heap fuel connections).map fun secrets =>
    secrets.foldl redactSecret (redactPgSecrets message)

/-! ## What the walk collects -/

/-- An object holds another. -/
def Holds (o o' : O) : Prop := .enter o' ∈ (heap o).visits

/-- The connections lead to an object. -/
def LeadsTo (connections : List (LiveValue O)) (o : O) : Prop :=
  ∃ start, .object start ∈ connections ∧ ReflTransGen (Holds heap) start o

/-- The connections lead to a string under a key that names a credential. -/
def HasCredential (connections : List (LiveValue O)) (chars : List Char) : Prop :=
  ∃ o entries key, LeadsTo heap connections o ∧ heap o = .record entries ∧
    (key, .text chars) ∈ entries ∧ isSensitiveKey key = true ∧
      4 ≤ (chars.flatMap codeUnits).length

variable {heap}

theorem take_mem_visits {contents : Contents O} {credential : Credential} :
    .take credential ∈ contents.visits ↔ ∃ entries key, contents = .record entries ∧
      (key, .text credential.chars) ∈ entries ∧ isSensitiveKey key = true := by
  constructor
  · intro member
    cases contents with
    | array items =>
      obtain ⟨item, -, visit⟩ := List.mem_map.mp member
      cases item <;> cases visit
    | record entries =>
      obtain ⟨⟨key, value⟩, among, visit⟩ := List.mem_map.mp member
      cases value with
      | text chars =>
        simp only [visitEntry] at visit
        split_ifs at visit with long named
        obtain rfl := Visit.take.inj visit
        exact ⟨entries, key, rfl, among, named⟩
      | object reference => cases visit
      | other => cases visit
  · rintro ⟨entries, key, rfl, among, named⟩
    refine List.mem_map.mpr ⟨_, among, ?_⟩
    simp only [visitEntry, dif_pos credential.long, if_pos named]

theorem mem_nodesBelow {o : O} {node : Node heap} : node ∈ nodesBelow heap (.inl o) ↔
    (∃ o', node = .inl o' ∧ Holds heap o o') ∨
      ∃ i credential, node = .inr ⟨o, i⟩ ∧ (heap o).visits.get i = .take credential := by
  rw [nodesBelow, List.mem_filterMap]
  constructor
  · rintro ⟨i, -, made⟩
    split at made
    next credential visit =>
      exact .inr ⟨i, credential, (Option.some.inj made).symm, visit⟩
    next reference visit =>
      have holds : Visit.enter reference ∈ (heap o).visits := visit ▸ List.get_mem _ i
      exact .inl ⟨reference, (Option.some.inj made).symm, holds⟩
    next => cases made
  · rintro (⟨o', rfl, holds⟩ | ⟨i, credential, rfl, visit⟩)
    · obtain ⟨i, visit⟩ := List.get_of_mem holds
      exact ⟨i, List.mem_finRange i, by rw [visit]⟩
    · exact ⟨i, List.mem_finRange i, by rw [visit]⟩

/-- The walk goes from object to object as they hold one another. -/
theorem arrives_inl_iff {start o : O} :
    Arrives (childrenOf heap) (.inl start, ()) (.inl o, ()) ↔
      ReflTransGen (Holds heap) start o := by
  constructor
  · -- A place where something is taken leads nowhere, so only objects lie on the way.
    have only : ∀ arrival, Arrives (childrenOf heap) (.inl start, ()) arrival →
        ∀ o, arrival.1 = .inl o → ReflTransGen (Holds heap) start o := by
      intro arrival arrives
      induction arrives with
      | refl =>
        intro o same
        cases same
        exact .refl
      | @tail middle child _ step ih =>
        rintro o same
        obtain ⟨below, member, rfl⟩ := List.mem_map.mp step
        rcases here : middle.1 with via | place
        · rw [here] at member
          rcases mem_nodesBelow.mp member with ⟨o', rfl, holds⟩ | ⟨i, _, rfl, -⟩
          · cases same
            exact (ih via here).tail holds
          · cases same
        · rw [here] at member
          cases member
    exact fun arrives => only _ arrives o rfl
  · intro reached
    induction reached with
    | refl => exact .refl
    | tail _ holds ih =>
      exact ih.tail (List.mem_map_of_mem (mem_nodesBelow.mpr (.inl ⟨_, rfl, holds⟩)))

/-- What is taken at an arrival is a credential of an object on the way. -/
theorem taken_iff {start : O} {credential : Credential} :
    (∃ node context, Arrives (childrenOf heap) (.inl start, ()) (node, context) ∧
      credential ∈ takenAt heap node context) ↔
        ∃ o, ReflTransGen (Holds heap) start o ∧ .take credential ∈ (heap o).visits := by
  constructor
  · rintro ⟨o | ⟨o, i⟩, ⟨⟩, arrives, taken⟩
    · cases taken
    · rcases ReflTransGen.cases_tail arrives with same | ⟨⟨via, ⟨⟩⟩, before, step⟩
      · cases same
      · obtain ⟨below, member, same⟩ := List.mem_map.mp step
        obtain ⟨rfl, -⟩ := Prod.mk.inj same
        rcases via with o' | place
        · rcases mem_nodesBelow.mp member with ⟨_, same, -⟩ | ⟨j, found, same, visit⟩
          · cases same
          · cases same
            simp only [takenAt, visit, List.mem_singleton] at taken
            exact ⟨o, arrives_inl_iff.mp before, taken ▸ visit ▸ List.get_mem _ i⟩
        · cases member
  · rintro ⟨o, reached, member⟩
    obtain ⟨i, visit⟩ := List.get_of_mem member
    refine ⟨.inr ⟨o, i⟩, (), (arrives_inl_iff.mpr reached).tail ?_, ?_⟩
    · exact List.mem_map_of_mem (mem_nodesBelow.mpr (.inr ⟨i, credential, rfl, visit⟩))
    · simp only [takenAt, visit, List.mem_singleton]

variable [DecidableEq O] [Fintype O]

/-- The walk ends on every graph of connections, with every credential and nothing else. -/
theorem mem_collectSensitiveValues_iff (connections : List (LiveValue O)) :
    ∃ secrets,
      collectSensitiveValues heap (Fintype.card (Node heap) + 1) connections = some secrets ∧
      ∀ chars, (∃ secret ∈ secrets, secret.chars = chars) ↔
        HasCredential heap connections chars := by
  obtain ⟨emitted, later, answered, walked⟩ :=
    exists_walked (takenAt heap) (childrenOf heap) (startsOf heap connections)
      (Nat.lt_succ_self _)
  refine ⟨emitted.eraseDups, by rw [collectSensitiveValues, answered]; rfl, fun chars => ?_⟩
  have collected : ∀ secret, secret ∈ emitted.eraseDups ↔
      ∃ o, LeadsTo heap connections o ∧ .take secret ∈ (heap o).visits := by
    intro secret
    rw [List.mem_eraseDups, walked.mem_iff]
    constructor
    · rintro ⟨start, among, taken⟩
      obtain ⟨value, member, same⟩ := List.mem_filterMap.mp among
      cases value with
      | object reference =>
        obtain rfl := Option.some.inj same
        obtain ⟨o, reached, visit⟩ := taken_iff.mp taken
        exact ⟨o, ⟨reference, member, reached⟩, visit⟩
      | text chars => cases same
      | other => cases same
    · rintro ⟨o, ⟨start, member, reached⟩, visit⟩
      exact ⟨(.inl start, ()), List.mem_filterMap.mpr ⟨_, member, rfl⟩,
        taken_iff.mpr ⟨o, reached, visit⟩⟩
  constructor
  · rintro ⟨secret, member, rfl⟩
    obtain ⟨o, leads, visit⟩ := (collected secret).mp member
    obtain ⟨entries, key, holds, among, named⟩ := take_mem_visits.mp visit
    exact ⟨o, entries, key, leads, holds, among, named, secret.long⟩
  · rintro ⟨o, entries, key, leads, holds, among, named, long⟩
    exact ⟨⟨chars, long⟩, (collected _).mpr ⟨o, leads, take_mem_visits.mpr
      ⟨entries, key, holds, among, named⟩⟩, rfl⟩

/-! ## What is left of the message -/

section Hiding

omit [DecidableEq O] [Fintype O]

theorem apart_of_plain {chars : List Char} (plain : '*' ∉ chars) :
    ∀ c ∈ chars, c ∉ "***".toList := by
  intro c member star
  obtain rfl : c = '*' := by simpa using star
  exact plain member

/-- Redacting brings up no text that has no star. -/
theorem infix_of_infix_redactSecret {chars message : List Char} {secret : Credential}
    (plain : '*' ∉ chars) (nonempty : chars ≠ []) (occurs : chars <:+: redactSecret message secret) :
    chars <:+: message := by
  have filled : "***".toList ≠ [] := by simp
  have apart := apart_of_plain plain
  rw [redactSecret] at occurs
  split_ifs at occurs
  · exact infix_of_infix_replaceAll filled apart nonempty
      (infix_of_infix_replaceAll filled apart nonempty occurs)
  · exact infix_of_infix_replaceAll filled apart nonempty occurs

/-- A redacted credential without a star is gone, in both its forms. -/
theorem not_infix_redactSecret (message : List Char) {secret : Credential}
    (plain : '*' ∉ secret.chars) :
    ¬ secret.chars <:+: redactSecret message secret ∧
      ¬ escapeSQL secret.chars <:+: redactSecret message secret := by
  have filled : "***".toList ≠ [] := by simp
  have apart := apart_of_plain plain
  have apart' := apart_of_plain fun star => plain (mem_escapeSQL star)
  rw [redactSecret]
  split_ifs with escapes
  · exact ⟨fun occurs => not_infix_replaceAll filled apart
      (infix_of_infix_replaceAll filled apart secret.nonempty occurs),
      not_infix_replaceAll filled apart'⟩
  · rw [not_not.mp escapes, and_self]
    exact not_infix_replaceAll filled apart

theorem infix_of_infix_foldl {chars message : List Char} {secrets : List Credential}
    (plain : '*' ∉ chars) (nonempty : chars ≠ [])
    (occurs : chars <:+: secrets.foldl redactSecret message) : chars <:+: message := by
  induction secrets generalizing message with
  | nil => exact occurs
  | cons secret secrets ih => exact infix_of_infix_redactSecret plain nonempty (ih occurs)

/-- Redacting one after the other leaves none of them. -/
theorem not_infix_foldl {message : List Char} {secrets : List Credential} {secret : Credential}
    (member : secret ∈ secrets) (plain : '*' ∉ secret.chars) :
    ¬ secret.chars <:+: secrets.foldl redactSecret message ∧
      ¬ escapeSQL secret.chars <:+: secrets.foldl redactSecret message := by
  -- What stands behind the credential's own turn cannot bring it back.
  obtain ⟨before, after, rfl⟩ := List.append_of_mem member
  rw [List.foldl_append, List.foldl_cons]
  obtain ⟨raw, escaped⟩ := not_infix_redactSecret (before.foldl redactSecret message) plain
  exact ⟨fun occurs => raw (infix_of_infix_foldl plain secret.nonempty occurs),
    fun occurs => escaped (infix_of_infix_foldl (fun star => plain (mem_escapeSQL star))
      (escapeSQL_ne_nil secret.nonempty) occurs)⟩

theorem foldl_redactSecret_eq {message : List Char} {secrets : List Credential}
    (absent : ∀ secret ∈ secrets,
      ¬ secret.chars <:+: message ∧ ¬ escapeSQL secret.chars <:+: message) :
    secrets.foldl redactSecret message = message := by
  induction secrets with
  | nil => rfl
  | cons secret secrets ih =>
    obtain ⟨raw, escaped⟩ := absent secret List.mem_cons_self
    have same : redactSecret message secret = message := by
      rw [redactSecret, replaceAll_of_not_infix raw, replaceAll_of_not_infix escaped, ite_self]
    rw [List.foldl_cons, same]
    exact ih fun other member => absent other (List.mem_cons_of_mem _ member)

end Hiding

/-- No credential of the connections that has no star is left in a redacted message, nor the form
it has inside a SQL literal, whatever the message and however the connections are linked. -/
theorem redactConnectionSecrets_hides (heap : Heap O) (redactPgSecrets : List Char → List Char)
    (message : List Char) (connections : List (LiveValue O)) :
    ∃ redacted, redactConnectionSecrets heap (Fintype.card (Node heap) + 1) redactPgSecrets message
        connections = some redacted ∧
        ∀ chars, HasCredential heap connections chars → '*' ∉ chars →
          ¬ chars <:+: redacted ∧ ¬ escapeSQL chars <:+: redacted := by
  obtain ⟨secrets, answered, collected⟩ := mem_collectSensitiveValues_iff connections
  refine ⟨_, by rw [redactConnectionSecrets, answered, Option.map_some], ?_⟩
  intro chars credential plain
  obtain ⟨secret, member, rfl⟩ := (collected chars).mpr credential
  exact not_infix_foldl member plain

/-- A message that has no credential of the connections keeps every character. -/
theorem redactConnectionSecrets_keeps (redactPgSecrets : List Char → List Char)
    (message : List Char) (connections : List (LiveValue O))
    (absent : ∀ chars, HasCredential heap connections chars →
      ¬ chars <:+: redactPgSecrets message ∧ ¬ escapeSQL chars <:+: redactPgSecrets message) :
    redactConnectionSecrets heap (Fintype.card (Node heap) + 1) redactPgSecrets message connections =
      some (redactPgSecrets message) := by
  obtain ⟨secrets, answered, collected⟩ := mem_collectSensitiveValues_iff connections
  rw [redactConnectionSecrets, answered, Option.map_some]
  refine congrArg some (foldl_redactSecret_eq fun secret member => ?_)
  exact absent secret.chars ((collected _).mp ⟨secret, member, rfl⟩)

/-- A connection and its pool, which leads back to it. -/
def pooled : Bool → Contents Bool
  | true => .record [("password".toList, .text "hunter2".toList), ("pool".toList, .object false)]
  | false => .array [.object true]

theorem pooled_keeps :
    redactConnectionSecrets pooled (Fintype.card (Node pooled) + 1) id "No table.".toList [.object true] =
      some "No table.".toList := by
  refine redactConnectionSecrets_keeps id _ _ fun chars credential => ?_
  obtain ⟨o, entries, key, -, holds, among, -⟩ := credential
  have only : chars = "hunter2".toList := by
    cases o <;> cases holds
    have both : key = "password".toList ∧ chars = "hunter2".toList := by simpa using among
    exact both.2
  subst only
  decide

end MalloyPublisher.Materialization
