import Mathlib.Data.Int.Notation
import Mathlib.Data.Nat.Notation

/-!
# Trees of values

What a parsed document is to the code that reads it: scalars, lists, and records with their fields
in order. The leaves of a tree are its scalars that hold something; a leaf's path is the names of
the fields on the way to it, and places in a list have no name.

## Main definitions

* `Json` — a tree
* `Json.leaves` — the dotted paths of its leaves
* `Json.holdsNothing` — a tree without leaves
* `Json.mask` — a tree whose leaves are covered
* `Json.truthy`, `Json.text` — a tree as a condition, and in a text
* `Json.distinctKeys` — a tree whose records name no field twice
* `Record` — the fields of such a record

## Main results

* `Json.leaves_mask` — covering leaves does not move them
* `Json.leaves_eq_nil_iff` — a tree without leaves has no paths
-/

namespace MalloyPublisher.Foundations

inductive Json
  | undefined
  | null
  | boolean (value : Bool)
  | number (value : ℤ)
  | string (value : String)
  | array (items : List Json)
  | object (fields : List (String × Json))

/-- A field's path under a prefix. -/
def dotted ( pathPrefix key : String) : String :=
  if pathPrefix = "" then key else pathPrefix ++ "." ++ key

namespace Json

/-- A scalar that holds something. -/
def isSet : Json → Bool
  | .undefined | .null | .array _ | .object _ => false
  | .string text => text != ""
  | _ => true

/-- A value that counts as a condition. -/
def truthy : Json → Bool
  | .undefined | .null => false
  | .boolean value => value
  | .number value => value != 0
  | .string text => text != ""
  | .array _ | .object _ => true

mutual

/-- A value in a template. -/
def text : Json → String
  | .undefined => "undefined"
  | .null => "null"
  | .boolean value => if value then "true" else "false"
  | .number value => toString value
  | .string text => text
  | .array items => ",".intercalate (textsOfItems items)
  | .object _ => "[object Object]"

def textsOfItems : List Json → List String
  | [] => []
  | .undefined :: items | .null :: items => "" :: textsOfItems items
  | item :: items => text item :: textsOfItems items

end

/-- A list or a record, which the language calls an object. -/
def isCompound : Json → Bool
  | .array _ | .object _ => true
  | _ => false

mutual

/-- The dotted paths of the leaves of a tree. -/
def leaves (path : String) : Json → List String
  | .array items => leavesOfItems path items
  | .object fields => leavesOfFields path fields
  | value => if value.isSet then [path] else []

def leavesOfItems (path : String) : List Json → List String
  | [] => []
  | item :: items => leaves path item ++ leavesOfItems path items

def leavesOfFields ( pathPrefix : String) : List (String × Json) → List String
  | [] => []
  | (key, value) :: fields => leaves (dotted pathPrefix key) value ++ leavesOfFields pathPrefix fields

end

mutual

/-- A tree without leaves. -/
def holdsNothing : Json → Bool
  | .array items => itemsHoldNothing items
  | .object fields => fieldsHoldNothing fields
  | value => !value.isSet

def itemsHoldNothing : List Json → Bool
  | [] => true
  | item :: items => item.holdsNothing && itemsHoldNothing items

def fieldsHoldNothing : List (String × Json) → Bool
  | [] => true
  | (_, value) :: fields => value.holdsNothing && fieldsHoldNothing fields

end

mutual

/-- A tree whose leaves are covered: what they hold is not seen, that they are set is. -/
def mask : Json → Json
  | .array items => .array (maskItems items)
  | .object fields => .object (maskFields fields)
  | value => if value.isSet then .boolean true else value

def maskItems : List Json → List Json
  | [] => []
  | item :: items => item.mask :: maskItems items

def maskFields : List (String × Json) → List (String × Json)
  | [] => []
  | (key, value) :: fields => (key, value.mask) :: maskFields fields

end

mutual

/-- No record of a tree has two fields of one name. -/
def distinctKeys : Json → Bool
  | .array items => itemsDistinct items
  | .object fields => fieldsDistinct fields
  | _ => true

def itemsDistinct : List Json → Bool
  | [] => true
  | item :: items => item.distinctKeys && itemsDistinct items

def fieldsDistinct : List (String × Json) → Bool
  | [] => true
  | (key, value) :: fields =>
    !(fields.map Prod.fst).contains key && value.distinctKeys && fieldsDistinct fields

end

mutual

theorem leaves_eq_nil_iff (path : String) :
    ∀ value : Json, leaves path value = [] ↔ value.holdsNothing = true
  | .array items => by
    rw [leaves, holdsNothing]
    exact leavesOfItems_eq_nil_iff path items
  | .object fields => by
    rw [leaves, holdsNothing]
    exact leavesOfFields_eq_nil_iff path fields
  | .undefined | .null | .boolean _ | .number _ => by simp [leaves, holdsNothing, isSet]
  | .string text => by by_cases blank : text = "" <;> simp [leaves, holdsNothing, isSet, blank]

theorem leavesOfItems_eq_nil_iff (path : String) :
    ∀ items : List Json, leavesOfItems path items = [] ↔ itemsHoldNothing items = true
  | [] => by simp [leavesOfItems, itemsHoldNothing]
  | item :: items => by
    rw [leavesOfItems, itemsHoldNothing, List.append_eq_nil_iff, Bool.and_eq_true,
      leaves_eq_nil_iff path item, leavesOfItems_eq_nil_iff path items]

theorem leavesOfFields_eq_nil_iff ( pathPrefix : String) :
    ∀ fields : List (String × Json),
      leavesOfFields pathPrefix fields = [] ↔ fieldsHoldNothing fields = true
  | [] => by simp [leavesOfFields, fieldsHoldNothing]
  | (key, value) :: fields => by
    rw [leavesOfFields, fieldsHoldNothing, List.append_eq_nil_iff, Bool.and_eq_true,
      leaves_eq_nil_iff _ value, leavesOfFields_eq_nil_iff pathPrefix fields]

end

mutual

theorem leaves_mask (path : String) : ∀ value : Json, leaves path value.mask = leaves path value
  | .array items => by
    rw [mask, leaves, leaves]
    exact leavesOfItems_mask path items
  | .object fields => by
    rw [mask, leaves, leaves]
    exact leavesOfFields_mask path fields
  | .undefined | .null | .boolean _ | .number _ => by simp [mask, leaves, isSet]
  | .string text => by by_cases blank : text = "" <;> simp [mask, leaves, isSet, blank]

theorem leavesOfItems_mask (path : String) :
    ∀ items : List Json, leavesOfItems path (maskItems items) = leavesOfItems path items
  | [] => rfl
  | item :: items => by
    rw [maskItems, leavesOfItems, leavesOfItems, leaves_mask path item,
      leavesOfItems_mask path items]

theorem leavesOfFields_mask ( pathPrefix : String) : ∀ fields : List (String × Json),
    leavesOfFields pathPrefix (maskFields fields) = leavesOfFields pathPrefix fields
  | [] => rfl
  | (key, value) :: fields => by
    rw [maskFields, leavesOfFields, leavesOfFields, leaves_mask _ value,
      leavesOfFields_mask pathPrefix fields]

end

theorem holdsNothing_mask (value : Json) : value.mask.holdsNothing = value.holdsNothing := by
  rw [Bool.eq_iff_iff, ← leaves_eq_nil_iff "", ← leaves_eq_nil_iff "", leaves_mask]

theorem isCompound_mask (value : Json) : value.mask.isCompound = value.isCompound := by
  cases value with
  | string text => by_cases blank : text = "" <;> simp [mask, isSet, isCompound, blank]
  | _ => simp [mask, isSet, isCompound]

theorem lookup_maskFields (fields : List (String × Json)) (key : String) :
    (maskFields fields).lookup key = (fields.lookup key).map mask := by
  induction fields with
  | nil => rfl
  | cons field fields ih =>
    obtain ⟨name, value⟩ := field
    rw [maskFields, List.lookup_cons, List.lookup_cons]
    split
    · rfl
    · exact ih

mutual

/-- Whether two trees are the same. -/
def same : Json → Json → Bool
  | .undefined, .undefined | .null, .null => true
  | .boolean value, .boolean other => value == other
  | .number value, .number other => value == other
  | .string text, .string other => text == other
  | .array items, .array others => sameItems items others
  | .object fields, .object others => sameFields fields others
  | _, _ => false

def sameItems : List Json → List Json → Bool
  | [], [] => true
  | item :: items, other :: others => same item other && sameItems items others
  | _, _ => false

def sameFields : List (String × Json) → List (String × Json) → Bool
  | [], [] => true
  | (key, value) :: fields, (other, otherValue) :: others =>
    key == other && same value otherValue && sameFields fields others
  | _, _ => false

end

mutual

theorem same_iff : ∀ value other : Json, same value other = true ↔ value = other
  | .undefined, other | .null, other => by cases other <;> simp [same]
  | .boolean value, other => by cases other <;> simp [same]
  | .number value, other => by cases other <;> simp [same]
  | .string text, other => by cases other <;> simp [same]
  | .array items, other => by
    cases other with
    | array others => rw [same, sameItems_iff items others, array.injEq]
    | _ => simp [same]
  | .object fields, other => by
    cases other with
    | object others => rw [same, sameFields_iff fields others, object.injEq]
    | _ => simp [same]

theorem sameItems_iff : ∀ items others : List Json, sameItems items others = true ↔ items = others
  | [], others => by cases others <;> simp [sameItems]
  | item :: items, others => by
    cases others with
    | nil => simp [sameItems]
    | cons other others =>
      rw [sameItems, Bool.and_eq_true, same_iff item other, sameItems_iff items others,
        List.cons.injEq]

theorem sameFields_iff : ∀ fields others : List (String × Json),
    sameFields fields others = true ↔ fields = others
  | [], others => by cases others <;> simp [sameFields]
  | (key, value) :: fields, others => by
    cases others with
    | nil => simp [sameFields]
    | cons other others =>
      obtain ⟨otherKey, otherValue⟩ := other
      rw [sameFields, Bool.and_eq_true, Bool.and_eq_true, same_iff value otherValue,
        sameFields_iff fields others, List.cons.injEq, Prod.mk.injEq, beq_iff_eq]

end

instance : DecidableEq Json := fun value other => decidable_of_iff _ (same_iff value other)

end Json

/-- The fields of a record. -/
structure Record where
  fields : List (String × Json)
  distinct : Json.fieldsDistinct fields = true

end MalloyPublisher.Foundations
