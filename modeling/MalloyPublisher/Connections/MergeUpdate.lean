import MalloyPublisher.Connections.PublicView

/-!
# An update of a stored connection

A caller cannot send back a credential it never received, so an update is laid over the stored
connection and what a view hides of it is grafted back where the update did not speak for itself. A
credential of one kind is left behind where the update gives one of another.

## Main definitions

* `exclusionsFor` — what is left behind
* `reinstate` — what is grafted back
* `mergeConnectionUpdate` — the connection an update leaves
-/

namespace MalloyPublisher.Connections

open Foundations

/-! ## Credentials that are alternatives -/

/-- A field name, or one dotted level into a sub-object. -/
inductive SlotPath
  | field (name : String)
  | nested (parent leaf : String)

structure CredentialSlot where
  selects : List SlotPath
  fields : List String

def EXCLUSIVE_SLOTS : List (List CredentialSlot) := [
  [{ selects := [.field "connectionString"], fields := ["connectionString"] },
    { selects := [.field "password"], fields := ["password"] }],
  [{ selects := [.field "privateKey"], fields := ["privateKey", "privateKeyPass"] },
    { selects := [.field "password"], fields := ["password"] }],
  [{ selects := [.field "peakaKey"], fields := ["peakaKey"] },
    { selects := [.field "password"], fields := ["password"] }],
  [{ selects := [.nested "s3Connection" "secretAccessKey"], fields := ["s3Connection"] },
    { selects := [.nested "gcsConnection" "secret"], fields := ["gcsConnection"] },
    { selects := [.nested "azureConnection" "sasUrl", .nested "azureConnection" "clientSecret"]
      fields := ["azureConnection"] }],
  [{ selects := [.field "token"], fields := ["token"] },
    { selects := [.field "oauthClientSecret"]
      fields := ["oauthClientId", "oauthClientSecret"] }]]

/-- A value the caller supplied, as opposed to an untouched blank. -/
def isSupplied : Json → Bool
  | .undefined | .null => false
  | .string text => text != ""
  | .object fields => !fields.isEmpty
  | _ => true

/-- Whether a patch supplies a value at a path. -/
def suppliedAt (patch : List (String × Json)) : SlotPath → Bool
  | .field name => (patch.lookup name).any isSupplied
  | .nested parent leaf =>
    match patch.lookup parent with
    | some (.object fields) => (fields.lookup leaf).any isSupplied
    | _ => false

def isPlainObject : Json → Bool
  | .object _ => true
  | _ => false

/-- The slots of a group a patch selects: the one it sends a sub-object of, if it is one, and
otherwise those it supplies a credential of. -/
def selectedSlots (patch : List (String × Json)) (slots : List CredentialSlot) :
    List CredentialSlot :=
  let declared := slots.filter fun slot =>
    slot.fields.any fun field => (patch.lookup field).any isPlainObject
  if declared.length = 1 then declared
  else slots.filter fun slot => slot.selects.any (suppliedAt patch)

/-- The fields left behind because a patch selects exactly one slot, which is not theirs. No two
slots of a group have the same fields. -/
def exclusionsFor (patch : List (String × Json)) : List String :=
  EXCLUSIVE_SLOTS.flatMap fun slots =>
    match selectedSlots patch slots with
    | [selected] => (slots.filter fun slot => slot.fields != selected.fields).flatMap (·.fields)
    | _ => []

/-! ## What is grafted back -/

mutual

/-- What a patch leaves of a value, with what is hidden of the stored one grafted back. -/
def reinstate : Json → Json → Json
  | .object hidden, .object patch =>
    .object (reinstateFields (exclusionsFor patch) patch hidden patch)
  | .object _, patch => patch
  | _, patch => patch
termination_by hidden => sizeOf hidden

/-- The fields of a patch, field after hidden field. -/
def reinstateFields (skip : List String) (patch : List (String × Json)) :
    List (String × Json) → List (String × Json) → List (String × Json)
  | [], out => out
  | (field, hiddenValue) :: hidden, out =>
    reinstateFields skip patch hidden
      (if field ∈ UNSAFE_KEYS ∨ field ∈ skip then out
      else setKey field (match patch.lookup field with
        | none => hiddenValue
        | some patchValue => reinstateField hiddenValue patchValue) out)
termination_by hidden => sizeOf hidden

def reinstateField : Json → Json → Json
  | .array hidden, .array items => .array (items.map (reinstateItem hidden))
  | .object hidden, .object patch =>
    .object (reinstateFields (exclusionsFor patch) patch hidden patch)
  | _, patchValue => patchValue
termination_by hidden => sizeOf hidden

/-- An entry of a list keeps what is hidden of the first entry that has its name. -/
def reinstateItem : List Json → Json → Json
  | [], item => item
  | .object candidate :: hidden, item =>
    match item with
    | .object patch =>
      if (nameOf patch).isSome ∧ nameOf candidate = nameOf patch then
        .object (reinstateFields (exclusionsFor patch) patch candidate patch)
      else reinstateItem hidden item
    | _ => reinstateItem hidden item
  | _ :: hidden, item => reinstateItem hidden item
termination_by hidden => sizeOf hidden
decreasing_by
  all_goals simp only [Json.object.sizeOf_spec, Json.array.sizeOf_spec, List.cons.sizeOf_spec,
    Prod.mk.sizeOf_spec, sizeOf_default]
  all_goals omega

end

/-! ## The update -/

/-- A record without one of its fields. -/
def withoutField (field : String) (fields : List (String × Json)) : List (String × Json) :=
  fields.filter fun (key, _) => key != field

/-- The connection that an update leaves of a stored one. A tag of the configuration that is
replaced does not outlive it. -/
def mergeConnectionUpdate (stored patch : Json) : List (String × Json) :=
  let incoming := withoutWithheldFields patch
  let current := withoutWithheldFields stored
  let spread := writeAll current incoming
  let shallow := match patch with
    | .object fields =>
      if (fields.lookup "configEtag").isNone then withoutField "configEtag" spread else spread
    | _ => spread
  let hidden := hiddenFields PUBLIC_CONNECTION current
  if hidden.isEmpty then shallow
  else match reinstate (.object hidden) (.object shallow) with
    | .object merged => merged
    | _ => shallow

end MalloyPublisher.Connections
