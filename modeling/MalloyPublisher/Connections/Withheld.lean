import Mathlib.Data.List.Perm.Basic
import MalloyPublisher.Connections.PublicView

/-!
# What a view says about what it withholds

A view is to say of each withheld credential that it is set, and nothing else. Two things come
between. The recursion that takes what is hidden leaves out what stands in the place of a record the
allowlist describes, and every key that addresses a prototype. And the names of what is hidden are
read with a rule made for attached databases: in any list of records a `name` is taken for a label,
also where it is itself withheld, and what a list holds beside records is passed over.

## Main definitions

* `hiddenLeaves` — the paths of the leaves a view does not publish
* `maskHidden` — a config whose hidden leaves are covered
* `toldIn` — a config none of whose leaves are in those places

## Main results

* `flattenWithheld_hiddenFields` — in such a config the two recursions agree
-/

namespace MalloyPublisher.Connections

open Foundations Foundations.Json

/-! ## What is hidden, by path -/

mutual

/-- The paths of the leaves of a record that a view does not publish. -/
def hiddenLeaves (shape : PublicShape) ( pathPrefix : String) : List (String × Json) → List String
  | [] => []
  | (field, value) :: fields =>
    hiddenLeavesOf (shape.lookup field) (dotted pathPrefix field) value ++
      hiddenLeaves shape pathPrefix fields

def hiddenLeavesOf (spec : Option PublicField) (path : String) (value : Json) : List String :=
  match spec, value with
  | none, value => leaves path value
  | some .any, _ => []
  | some .scalar, value => if value.isCompound then leaves path value else []
  | some (.list shape), .array items => hiddenLeavesOfItems shape path items
  | some (.list _), value => leaves path value
  | some (.shape shape), .object fields => hiddenLeaves shape path fields
  | some (.shape _), value => leaves path value

/-- Those of a list the shape describes, with the names of its entries. -/
def hiddenLeavesOfItems (shape : PublicShape) (path : String) : List Json → List String
  | [] => []
  | .object fields :: items =>
    hiddenLeaves shape (match nameOf fields with
      | some name => path ++ "." ++ name
      | none => path) fields ++ hiddenLeavesOfItems shape path items
  | item :: items => leaves path item ++ hiddenLeavesOfItems shape path items

end

mutual

/-- A record whose hidden leaves are covered. -/
def maskHidden (shape : PublicShape) : List (String × Json) → List (String × Json)
  | [] => []
  | (field, value) :: fields =>
    (field, maskHiddenOf (shape.lookup field) value) :: maskHidden shape fields

def maskHiddenOf (spec : Option PublicField) (value : Json) : Json :=
  match spec, value with
  | none, value => value.mask
  | some .any, value => value
  | some .scalar, value => if value.isCompound then value.mask else value
  | some (.list shape), .array items => .array (maskHiddenItems shape items)
  | some (.list _), value => value.mask
  | some (.shape shape), .object fields => .object (maskHidden shape fields)
  | some (.shape _), value => value.mask

def maskHiddenItems (shape : PublicShape) : List Json → List Json
  | [] => []
  | .object fields :: items => .object (maskHidden shape fields) :: maskHiddenItems shape items
  | item :: items => item.mask :: maskHiddenItems shape items

end

/-! ## What is passed over -/

/-- No value under `name` holds anything. -/
def namesHoldNothing (fields : List (String × Json)) : Bool :=
  fields.all fun (key, value) => key != "name" || value.holdsNothing

mutual

/-- A hidden tree that is reported leaf by leaf: its lists hold records, and what is beside a name
or under it holds nothing. -/
def told : Json → Bool
  | .array items => toldItems items
  | .object fields => toldFields fields
  | _ => true

def toldItems : List Json → Bool
  | [] => true
  | .object fields :: items =>
    (if (nameOf fields).isSome then fieldsHoldNothing fields
      else namesHoldNothing fields && toldFields fields) && toldItems items
  | item :: items => item.holdsNothing && toldItems items

def toldFields : List (String × Json) → Bool
  | [] => true
  | (_, value) :: fields => told value && toldFields fields

end

mutual

/-- A record that is reported leaf by leaf: nothing hidden is under a key that addresses a
prototype, nothing is in the place of a record the shape describes, and what it hides whole is told.
-/
def toldIn (shape : PublicShape) : List (String × Json) → Bool
  | [] => true
  | (field, value) :: fields =>
    (if field ∈ UNSAFE_KEYS then value.holdsNothing else toldInOf (shape.lookup field) value) &&
      toldIn shape fields

def toldInOf (spec : Option PublicField) (value : Json) : Bool :=
  match spec, value with
  | none, value => told value
  | some .any, _ => true
  | some .scalar, value => !value.isCompound || told value
  | some (.list shape), .array items => toldEntries shape items
  | some (.list _), value => told value
  | some (.shape shape), .object fields => toldIn shape fields
  | some (.shape _), value => value.holdsNothing

def toldEntries (shape : PublicShape) : List Json → Bool
  | [] => true
  | .object fields :: items =>
    (fields.all fun (key, value) => key != "name" || !value.isCompound || value.holdsNothing) &&
      toldIn shape fields && toldEntries shape items
  | item :: items => item.holdsNothing && toldEntries shape items

end

/-! ## The shapes -/

mutual

/-- A shape that lists no field twice and no key of a prototype, and whose lists are of named
entries. -/
def soundShape : PublicShape → Bool
  | [] => true
  | (field, spec) :: shape =>
    !UNSAFE_KEYS.contains field && !(shape.map Prod.fst).contains field && soundField spec &&
      soundShape shape

def soundField : PublicField → Bool
  | .scalar | .any => true
  | .list shape => (match shape.lookup "name" with
    | some .scalar => true
    | _ => false) && soundShape shape
  | .shape shape => soundShape shape

end

theorem soundShape_publicConnection : soundShape PUBLIC_CONNECTION = true := by decide

theorem soundField_of_lookup {shape : PublicShape} {field : String} {spec : PublicField}
    (sound : soundShape shape = true) (listed : shape.lookup field = some spec) :
    soundField spec = true := by
  induction shape with
  | nil => cases listed
  | cons entry shape ih =>
    obtain ⟨other, otherSpec⟩ := entry
    simp only [soundShape, Bool.and_eq_true] at sound
    rw [List.lookup_cons] at listed
    split at listed
    · exact Option.some.inj listed ▸ sound.1.2
    · exact ih sound.2 listed

/-- A list that is described is of entries with a name. -/
theorem parts_of_soundList {shape : PublicShape} (sound : soundField (.list shape) = true) :
    shape.lookup "name" = some .scalar ∧ soundShape shape = true := by
  rw [soundField, Bool.and_eq_true] at sound
  refine ⟨?_, sound.2⟩
  have named := sound.1
  split at named
  · assumption
  · cases named

/-- Every field of a sound shape is the one it is looked up by. -/
theorem lookup_of_sound {shape : PublicShape} (sound : soundShape shape = true) :
    ∀ entry ∈ shape, shape.lookup entry.1 = some entry.2 := by
  induction shape with
  | nil => simp
  | cons first shape ih =>
    obtain ⟨field, spec⟩ := first
    simp only [soundShape, Bool.and_eq_true, Bool.not_eq_true', List.contains_eq_mem,
      decide_eq_false_iff_not] at sound
    intro entry member
    obtain rfl | later := List.mem_cons.mp member
    · rw [List.lookup_cons_self]
    · have apart : (entry.1 == field) = false := by
        rw [beq_eq_false_iff_ne]
        intro same
        exact sound.1.1.2 (same ▸ List.mem_map_of_mem later)
      rw [List.lookup_cons, apart]
      exact ih sound.2 entry later

theorem lookup_of_isUnsafe {shape : PublicShape} {field : String} (sound : soundShape shape = true)
    (isUnsafe : field ∈ UNSAFE_KEYS) : shape.lookup field = none := by
  induction shape with
  | nil => rfl
  | cons entry shape ih =>
    obtain ⟨other, otherSpec⟩ := entry
    simp only [soundShape, Bool.and_eq_true, Bool.not_eq_true', List.contains_eq_mem,
      decide_eq_false_iff_not] at sound
    have apart : (field == other) = false := by
      rw [beq_eq_false_iff_ne]
      rintro rfl
      exact sound.1.1.1 isUnsafe
    rw [List.lookup_cons, apart]
    exact ih sound.2

/-! ## Where the two recursions agree -/

mutual

theorem flattenValue_of_holdsNothing (path : String) :
    ∀ value : Json, value.holdsNothing = true → flattenValue path value = []
  | .array items, nothing => by
    rw [holdsNothing] at nothing
    rw [flattenValue]
    exact flattenItems_of_holdNothing path items nothing
  | .object fields, nothing => by
    rw [holdsNothing] at nothing
    rw [flattenValue]
    exact flattenWithheld_of_holdNothing path fields nothing
  | .undefined, nothing | .null, nothing | .boolean _, nothing | .number _, nothing
  | .string _, nothing => by
    simp only [holdsNothing, Bool.not_eq_true'] at nothing
    simp [flattenValue, nothing]

theorem flattenWithheld_of_holdNothing ( pathPrefix : String) :
    ∀ fields : List (String × Json), fieldsHoldNothing fields = true →
      flattenWithheld pathPrefix fields = []
  | [], _ => by rw [flattenWithheld]
  | (key, value) :: fields, nothing => by
    rw [fieldsHoldNothing, Bool.and_eq_true] at nothing
    rw [flattenWithheld, flattenValue_of_holdsNothing _ value nothing.1,
      flattenWithheld_of_holdNothing pathPrefix fields nothing.2, List.append_nil]

theorem flattenItems_of_holdNothing (path : String) :
    ∀ items : List Json, itemsHoldNothing items = true → flattenItems path items = []
  | [], _ => by rw [flattenItems]
  | .object fields :: items, nothing => by
    rw [itemsHoldNothing, holdsNothing, Bool.and_eq_true] at nothing
    rw [flattenItems, flattenRest_of_holdNothing _ fields nothing.1,
      flattenItems_of_holdNothing path items nothing.2, List.append_nil]
  | .array _ :: items, nothing | .undefined :: items, nothing | .null :: items, nothing
  | .boolean _ :: items, nothing | .number _ :: items, nothing | .string _ :: items, nothing => by
    rw [itemsHoldNothing, Bool.and_eq_true] at nothing
    rw [flattenItems, flattenItems_of_holdNothing path items nothing.2]
    all_goals simp

theorem flattenRest_of_holdNothing (label : String) :
    ∀ fields : List (String × Json), fieldsHoldNothing fields = true →
      flattenRest label fields = []
  | [], _ => by rw [flattenRest]
  | (key, value) :: fields, nothing => by
    rw [fieldsHoldNothing, Bool.and_eq_true] at nothing
    rw [flattenRest, flattenRest_of_holdNothing label fields nothing.2,
      flattenValue_of_holdsNothing _ value nothing.1]
    split_ifs <;> rfl

end

theorem flattenItems_cons_of_not_object {path : String} {item : Json} {items : List Json}
    (other : ∀ fields, item ≠ .object fields) :
    flattenItems path (item :: items) = flattenItems path items := by
  cases item with
  | object fields => exact absurd rfl (other fields)
  | _ => rw [flattenItems]; simp

theorem toldItems_cons_of_not_object {item : Json} {items : List Json}
    (other : ∀ fields, item ≠ .object fields) :
    toldItems (item :: items) = (item.holdsNothing && toldItems items) := by
  cases item with
  | object fields => exact absurd rfl (other fields)
  | _ => rw [toldItems]; simp

mutual

theorem flattenValue_of_told (path : String) :
    ∀ value : Json, told value = true → flattenValue path value = leaves path value
  | .array items, isTold => by
    rw [told] at isTold
    rw [flattenValue, leaves]
    exact flattenItems_of_told path items isTold
  | .object fields, isTold => by
    rw [told] at isTold
    rw [flattenValue, leaves]
    exact flattenWithheld_of_told path fields isTold
  | .undefined, _ | .null, _ | .boolean _, _ | .number _, _ | .string _, _ => by
    simp [flattenValue, leaves]

theorem flattenItems_of_told (path : String) :
    ∀ items : List Json, toldItems items = true → flattenItems path items = leavesOfItems path items
  | [], _ => by rw [flattenItems, leavesOfItems]
  | .object fields :: items, isTold => by
    rw [toldItems, Bool.and_eq_true] at isTold
    rw [flattenItems, leavesOfItems, flattenItems_of_told path items isTold.2, leaves]
    congr 1
    cases named : nameOf fields with
    | some name =>
      simp only [named, Option.isSome_some, if_true] at isTold
      rw [flattenRest_of_holdNothing _ fields isTold.1,
        (leavesOfFields_eq_nil_iff path fields).mpr isTold.1]
    | none =>
      simp only [named, Option.isSome_none, Bool.false_eq_true, if_false, Bool.and_eq_true] at isTold
      exact flattenRest_of_told path fields isTold.1.1 isTold.1.2
  | .array inner :: items, isTold => by
    rw [toldItems_cons_of_not_object (by simp), Bool.and_eq_true] at isTold
    rw [flattenItems_cons_of_not_object (by simp), leavesOfItems,
      (leaves_eq_nil_iff path _).mpr isTold.1, flattenItems_of_told path items isTold.2,
      List.nil_append]
  | .undefined :: items, isTold | .null :: items, isTold | .boolean _ :: items, isTold
  | .number _ :: items, isTold | .string _ :: items, isTold => by
    rw [toldItems_cons_of_not_object (by simp), Bool.and_eq_true] at isTold
    rw [flattenItems_cons_of_not_object (by simp), leavesOfItems,
      (leaves_eq_nil_iff path _).mpr isTold.1, flattenItems_of_told path items isTold.2,
      List.nil_append]

theorem flattenWithheld_of_told ( pathPrefix : String) :
    ∀ fields : List (String × Json), toldFields fields = true →
      flattenWithheld pathPrefix fields = leavesOfFields pathPrefix fields
  | [], _ => by rw [flattenWithheld, leavesOfFields]
  | (key, value) :: fields, isTold => by
    rw [toldFields, Bool.and_eq_true] at isTold
    rw [flattenWithheld, leavesOfFields, flattenValue_of_told _ value isTold.1,
      flattenWithheld_of_told pathPrefix fields isTold.2]

theorem flattenRest_of_told (path : String) :
    ∀ fields : List (String × Json), namesHoldNothing fields = true → toldFields fields = true →
      flattenRest path fields = leavesOfFields path fields
  | [], _, _ => by rw [flattenRest, leavesOfFields]
  | (key, value) :: fields, nothing, isTold => by
    rw [toldFields, Bool.and_eq_true] at isTold
    simp only [namesHoldNothing, List.all_cons, Bool.and_eq_true, Bool.or_eq_true,
      bne_iff_ne] at nothing
    rw [flattenRest, leavesOfFields, flattenRest_of_told path fields nothing.2 isTold.2]
    split_ifs with isName
    · rw [(leaves_eq_nil_iff _ value).mpr (nothing.1.resolve_left (absurd isName)),
        List.nil_append]
    · rw [flattenValue_of_told _ value isTold.1]

end

/-! ## Where what is hidden is what is not published -/

/-- What is beside a name is all there is where there is no name. -/
theorem flattenRest_eq {label : String} {fields : List (String × Json)}
    (nothing : namesHoldNothing fields = true) :
    flattenRest label fields = flattenWithheld label fields := by
  induction fields with
  | nil => rw [flattenRest, flattenWithheld]
  | cons field fields ih =>
    obtain ⟨key, value⟩ := field
    simp only [namesHoldNothing, List.all_cons, Bool.and_eq_true, Bool.or_eq_true,
      bne_iff_ne] at nothing
    rw [flattenRest, flattenWithheld, ih nothing.2]
    split_ifs with isName
    · rw [flattenValue_of_holdsNothing _ value (nothing.1.resolve_left (absurd isName)),
        List.nil_append]
    · rfl

/-- What is hidden of a record is hidden field by field. -/
theorem hiddenFields_cons (shape : PublicShape) (field : String × Json)
    (fields : List (String × Json)) : hiddenFields shape (field :: fields) =
      hiddenFields shape [field] ++ hiddenFields shape fields := by
  obtain ⟨key, value⟩ := field
  simp only [hiddenFields]
  repeat' split
  all_goals rfl

theorem key_of_hidden {shape : PublicShape} {field : String × Json} {hidden : String × Json}
    (member : hidden ∈ hiddenFields shape [field]) : hidden.1 = field.1 := by
  obtain ⟨key, value⟩ := field
  simp only [hiddenFields] at member
  repeat' split at member
  all_goals simp_all

/-- A name that is a scalar is not hidden where the shape lists it as one. -/
theorem name_compound_of_hidden {shape : PublicShape} (named : shape.lookup "name" = some .scalar)
    {fields : List (String × Json)} {value : Json}
    (member : ("name", value) ∈ hiddenFields shape fields) :
    value.isCompound = true ∧ ("name", value) ∈ fields := by
  induction fields with
  | nil => simp [hiddenFields] at member
  | cons field fields ih =>
    rw [hiddenFields_cons, List.mem_append] at member
    obtain own | later := member
    · obtain ⟨key, fieldValue⟩ := field
      obtain rfl : "name" = key := key_of_hidden own
      simp only [hiddenFields, named] at own
      split_ifs at own with isUnsafe compound
      · cases own
      · obtain rfl : value = fieldValue := by simpa using own
        exact ⟨compound, List.mem_cons_self⟩
      · cases own
    · exact (ih later).imp_right (List.mem_cons_of_mem _)

theorem flattenWithheld_append ( pathPrefix : String) (fields others : List (String × Json)) :
    flattenWithheld pathPrefix (fields ++ others) =
      flattenWithheld pathPrefix fields ++ flattenWithheld pathPrefix others := by
  induction fields with
  | nil => rw [flattenWithheld, List.nil_append, List.nil_append]
  | cons field fields ih =>
    obtain ⟨key, value⟩ := field
    rw [List.cons_append, flattenWithheld, flattenWithheld, ih, List.append_assoc]

theorem flattenItems_of_empty {path : String} {hidden : List (List (String × Json))}
    (empty : (hidden.any fun item => !item.isEmpty) = false) :
    flattenItems path (hidden.map .object) = [] := by
  induction hidden with
  | nil => rw [List.map_nil, flattenItems]
  | cons item hidden ih =>
    simp only [List.any_cons, Bool.or_eq_false_iff, Bool.not_eq_false', List.isEmpty_iff] at empty
    rw [List.map_cons, flattenItems, ih empty.2, empty.1, flattenRest, List.append_nil]

/-- What a view hides of an entry, with the name it is matched by. -/
def hiddenEntry (shape : PublicShape) (fields : List (String × Json)) : List (String × Json) :=
  let itemHidden := hiddenFields shape fields
  if itemHidden.isEmpty then []
  else match nameOf fields with
    | some name => writeAll [("name", .string name)] itemHidden
    | none => itemHidden

theorem lookup_of_mem {fields : List (String × Json)} (distinct : fieldsDistinct fields = true)
    {key : String} {value : Json} (member : (key, value) ∈ fields) :
    fields.lookup key = some value := by
  induction fields with
  | nil => cases member
  | cons field fields ih =>
    obtain ⟨other, otherValue⟩ := field
    simp only [fieldsDistinct, Bool.and_eq_true, Bool.not_eq_true', List.contains_eq_mem,
      decide_eq_false_iff_not] at distinct
    obtain same | later := List.mem_cons.mp member
    · obtain ⟨rfl, rfl⟩ := Prod.mk.inj same
      rw [List.lookup_cons_self]
    · have apart : (key == other) = false := by
        rw [beq_eq_false_iff_ne]
        rintro rfl
        exact distinct.1.1 (List.mem_map_of_mem later)
      rw [List.lookup_cons, apart]
      exact ih distinct.2 later

theorem mem_of_lookup {fields : List (String × Json)} {key : String} {value : Json}
    (found : fields.lookup key = some value) : (key, value) ∈ fields := by
  obtain ⟨before, after, same, -⟩ := List.lookup_eq_some_iff.mp found
  rw [same]
  simp

theorem nameOf_eq_some {fields : List (String × Json)} {name : String} :
    nameOf fields = some name ↔ fields.lookup "name" = some (.string name) := by
  unfold nameOf
  split
  · rename_i found
    simp [found]
  · rename_i other
    refine ⟨nofun, fun found => absurd found (other name)⟩

/-- What is hidden of an entry with a name has none of its own. -/
theorem names_of_named {shape : PublicShape} (named : shape.lookup "name" = some .scalar)
    {fields : List (String × Json)} (distinct : fieldsDistinct fields = true) {name : String}
    (isNamed : nameOf fields = some name) :
    ∀ hidden ∈ hiddenFields shape fields, hidden.1 ≠ "name" := by
  rintro ⟨key, value⟩ member rfl
  obtain ⟨compound, listed⟩ := name_compound_of_hidden named member
  rw [nameOf_eq_some, lookup_of_mem distinct listed] at isNamed
  rw [Option.some.inj isNamed] at compound
  cases compound

theorem nodup_of_distinct {fields : List (String × Json)} (distinct : fieldsDistinct fields = true) :
    (fields.map Prod.fst).Nodup := by
  induction fields with
  | nil => exact List.nodup_nil
  | cons field fields ih =>
    obtain ⟨key, value⟩ := field
    simp only [fieldsDistinct, Bool.and_eq_true, Bool.not_eq_true', List.contains_eq_mem,
      decide_eq_false_iff_not] at distinct
    exact List.nodup_cons.mpr ⟨distinct.1.1, ih distinct.2⟩

/-- The keys of what is hidden are those of the record, in its order. -/
theorem keys_hidden (shape : PublicShape) (fields : List (String × Json)) :
    ((hiddenFields shape fields).map Prod.fst).Sublist (fields.map Prod.fst) := by
  induction fields with
  | nil => rw [hiddenFields]
  | cons field fields ih =>
    have own : ((hiddenFields shape [field]).map Prod.fst).Sublist [field.1] := by
      obtain ⟨key, value⟩ := field
      simp only [hiddenFields]
      repeat' split
      all_goals simp
    rw [hiddenFields_cons, List.map_append]
    exact own.append ih

/-- A named entry is its name and what is hidden of it. -/
theorem hiddenEntry_of_named {shape : PublicShape} (named : shape.lookup "name" = some .scalar)
    {fields : List (String × Json)} (distinct : fieldsDistinct fields = true) {name : String}
    (isNamed : nameOf fields = some name) (some : hiddenFields shape fields ≠ []) :
    hiddenEntry shape fields = ("name", .string name) :: hiddenFields shape fields := by
  have unnamed := names_of_named named distinct isNamed
  have keys := (keys_hidden shape fields).nodup (nodup_of_distinct distinct)
  rw [hiddenEntry]
  simp only [List.isEmpty_iff, some, if_false, isNamed]
  refine writeAll_of_nodup (List.nodup_cons.mpr ⟨fun there => ?_, keys⟩)
  obtain ⟨field, member, isName⟩ := List.mem_map.mp there
  exact unnamed field member isName

/-- What is hidden has no name of its own. -/
theorem nameOf_hiddenFields {shape : PublicShape} (named : shape.lookup "name" = some .scalar)
    (fields : List (String × Json)) : nameOf (hiddenFields shape fields) = none := by
  rw [Option.eq_none_iff_forall_ne_some]
  intro name found
  have listed := mem_of_lookup (nameOf_eq_some.mp found)
  cases (name_compound_of_hidden named listed).1

/-- The paths under an entry that is named are those of what is hidden of it, under its name. -/
theorem flattenItems_hiddenEntry_of_named {shape : PublicShape}
    (named : shape.lookup "name" = some .scalar)
    {fields : List (String × Json)} (distinct : fieldsDistinct fields = true) {path name : String}
    (isNamed : nameOf fields = some name) (some : hiddenFields shape fields ≠ []) :
    flattenItems path [.object (hiddenEntry shape fields)] =
      flattenWithheld (path ++ "." ++ name) (hiddenFields shape fields) := by
  have apart : namesHoldNothing (hiddenFields shape fields) = true := by
    refine List.all_eq_true.mpr fun field member => ?_
    simp [names_of_named named distinct isNamed field member]
  have label : nameOf (("name", .string name) :: hiddenFields shape fields) = Option.some name := rfl
  rw [flattenItems, flattenItems, List.append_nil, hiddenEntry_of_named named distinct isNamed some,
    flattenRest, if_pos rfl]
  simp only [label]
  rw [flattenRest_eq apart]

/-- The paths under an entry, and those a view does not publish of it, where the two recursions
agree on it under its own label. -/
theorem flattenItems_hiddenEntry {shape : PublicShape} (named : shape.lookup "name" = some .scalar)
    {fields : List (String × Json)} (distinct : fieldsDistinct fields = true) {path : String}
    (names : (fields.all fun (key, value) =>
      key != "name" || !value.isCompound || value.holdsNothing) = true)
    {expected : String → List String}
    (agree : ∀ label, flattenWithheld label (hiddenFields shape fields) = expected label) :
    flattenItems path [.object (hiddenEntry shape fields)] =
      expected (match nameOf fields with
        | some name => path ++ "." ++ name
        | none => path) := by
  by_cases empty : hiddenFields shape fields = []
  · have nothing : ∀ label, expected label = [] := fun label => by
      rw [← agree label, empty, flattenWithheld]
    rw [flattenItems, flattenItems, List.append_nil, hiddenEntry, empty, nothing, List.isEmpty_nil,
      if_pos rfl, flattenRest]
  cases isNamed : nameOf fields with
  | some name =>
    rw [flattenItems_hiddenEntry_of_named named distinct isNamed empty, agree]
  | none =>
    have entry : hiddenEntry shape fields = hiddenFields shape fields := by
      simp [hiddenEntry, isNamed]
    have apart : namesHoldNothing (hiddenFields shape fields) = true := by
      refine List.all_eq_true.mpr fun field member => ?_
      obtain ⟨key, value⟩ := field
      by_cases isName : key = "name"
      · subst isName
        obtain ⟨compound, listed⟩ := name_compound_of_hidden named member
        have holds := List.all_eq_true.mp names _ listed
        simpa [compound] using holds
      · simp [isName]
    simp only [flattenItems, List.append_nil, entry, nameOf_hiddenFields named]
    rw [flattenRest_eq apart, agree]

theorem hiddenItems_cons_object (shape : PublicShape) (fields : List (String × Json))
    (items : List Json) : hiddenItems shape (.object fields :: items) =
      hiddenEntry shape fields :: hiddenItems shape items := by
  simp only [hiddenItems]
  rfl

theorem flattenItems_cons_object (path : String) (fields : List (String × Json))
    (items : List Json) : flattenItems path (.object fields :: items) =
      flattenItems path [.object fields] ++ flattenItems path items := by
  simp only [flattenItems, List.append_nil]

/-- What stands whole among what is hidden is flattened under its own path. -/
theorem flattenWithheld_single ( pathPrefix key : String) (value : Json) :
    flattenWithheld pathPrefix [(key, value)] = flattenValue (dotted pathPrefix key) value := by
  rw [flattenWithheld, flattenWithheld, List.append_nil]

theorem hiddenItems_cons_of_not_object {shape : PublicShape} {item : Json} {items : List Json}
    (other : ∀ fields, item ≠ .object fields) :
    hiddenItems shape (item :: items) = [] :: hiddenItems shape items := by
  cases item with
  | object fields => exact absurd rfl (other fields)
  | _ => rw [hiddenItems]; simp

theorem hiddenLeavesOfItems_cons_of_not_object {shape : PublicShape} {path : String} {item : Json}
    {items : List Json} (other : ∀ fields, item ≠ .object fields) :
    hiddenLeavesOfItems shape path (item :: items) =
      leaves path item ++ hiddenLeavesOfItems shape path items := by
  cases item with
  | object fields => exact absurd rfl (other fields)
  | _ => rw [hiddenLeavesOfItems]; simp

theorem toldEntries_cons_of_not_object {shape : PublicShape} {item : Json} {items : List Json}
    (other : ∀ fields, item ≠ .object fields) :
    toldEntries shape (item :: items) = (item.holdsNothing && toldEntries shape items) := by
  cases item with
  | object fields => exact absurd rfl (other fields)
  | _ => rw [toldEntries]; simp

/-- A field a view hides whole or not at all, which is every field but a list or a record the shape
describes. -/
theorem flattenWithheld_hidden_whole {shape : PublicShape} (sound : soundShape shape = true)
    { pathPrefix key : String} {value : Json}
    (noList : ∀ itemShape items, shape.lookup key = some (.list itemShape) → value ≠ .array items)
    (noShape : ∀ nested fields, shape.lookup key = some (.shape nested) → value ≠ .object fields)
    (isTold : (if key ∈ UNSAFE_KEYS then value.holdsNothing
      else toldInOf (shape.lookup key) value) = true) :
    flattenWithheld pathPrefix (hiddenFields shape [(key, value)]) =
      hiddenLeavesOf (shape.lookup key) (dotted pathPrefix key) value := by
  have whole : told value = true → flattenWithheld pathPrefix [(key, value)] =
      leaves (dotted pathPrefix key) value := fun isTold =>
    (flattenWithheld_single ..).trans (flattenValue_of_told _ _ isTold)
  simp only [hiddenFields]
  by_cases isUnsafe : key ∈ UNSAFE_KEYS
  · simp only [isUnsafe, if_true] at isTold ⊢
    rw [lookup_of_isUnsafe sound isUnsafe, hiddenLeavesOf, (leaves_eq_nil_iff _ _).mpr isTold,
      flattenWithheld]
  simp only [isUnsafe, if_false] at isTold ⊢
  cases listed : shape.lookup key with
  | none =>
    rw [listed, toldInOf] at isTold
    rw [hiddenLeavesOf]
    exact whole isTold
  | some spec =>
    rw [listed] at isTold
    cases spec with
    | any => rw [hiddenLeavesOf]; simp only [flattenWithheld]
    | scalar =>
      rw [toldInOf, Bool.or_eq_true, Bool.not_eq_true'] at isTold
      rw [hiddenLeavesOf]
      by_cases compound : value.isCompound = true
      · simp only [compound, if_true]
        exact whole (isTold.resolve_left (by simp [compound]))
      · simp [compound, flattenWithheld]
    | list itemShape =>
      cases value with
      | array items => exact absurd rfl (noList itemShape items listed)
      | _ => exact whole (by simpa [toldInOf] using isTold)
    | shape nested =>
      cases value with
      | object fields => exact absurd rfl (noShape nested fields listed)
      | _ =>
        simp only [toldInOf] at isTold
        simp only [hiddenLeavesOf, flattenWithheld]
        exact ((leaves_eq_nil_iff _ _).mpr isTold).symm

mutual

/-- In a record whose hidden leaves are told, what is hidden is what is not published. -/
theorem flattenWithheld_hiddenFields {shape : PublicShape} (sound : soundShape shape = true)
    ( pathPrefix : String) : ∀ fields : List (String × Json), fieldsDistinct fields = true →
      toldIn shape fields = true →
      flattenWithheld pathPrefix (hiddenFields shape fields) = hiddenLeaves shape pathPrefix fields
  | [], _, _ => by rw [hiddenFields, flattenWithheld, hiddenLeaves]
  | (key, value) :: fields, distinct, isTold => by
    rw [toldIn, Bool.and_eq_true] at isTold
    simp only [fieldsDistinct, Bool.and_eq_true] at distinct
    rw [hiddenFields_cons, flattenWithheld_append, hiddenLeaves,
      flattenWithheld_hiddenFields sound pathPrefix fields distinct.2 isTold.2,
      flattenWithheld_hiddenField sound pathPrefix key value distinct.1.2 isTold.1]

theorem flattenWithheld_hiddenField {shape : PublicShape} (sound : soundShape shape = true)
    ( pathPrefix key : String) : ∀ value : Json, value.distinctKeys = true →
      (if key ∈ UNSAFE_KEYS then value.holdsNothing
        else toldInOf (shape.lookup key) value) = true →
      flattenWithheld pathPrefix (hiddenFields shape [(key, value)]) =
        hiddenLeavesOf (shape.lookup key) (dotted pathPrefix key) value
  | .undefined, _, isTold | .null, _, isTold | .boolean _, _, isTold | .number _, _, isTold
  | .string _, _, isTold => flattenWithheld_hidden_whole sound (by simp) (by simp) isTold
  | .array items, distinct, isTold => by
    rw [distinctKeys] at distinct
    by_cases describes : ∃ itemShape, shape.lookup key = some (.list itemShape)
    · obtain ⟨itemShape, listed⟩ := describes
      have isSafe : key ∉ UNSAFE_KEYS := fun isUnsafe => by
        simp [lookup_of_isUnsafe sound isUnsafe] at listed
      rw [if_neg isSafe, listed, toldInOf] at isTold
      rw [listed, hiddenLeavesOf]
      simp only [hiddenFields, isSafe, if_false, listed]
      have agree := flattenItems_hiddenItems (soundField_of_lookup sound listed)
        (dotted pathPrefix key) items distinct isTold
      by_cases some : ((hiddenItems itemShape items).any fun item => !item.isEmpty) = true
      · rw [if_pos some, flattenWithheld_single, flattenValue]
        exact agree
      · rw [if_neg some, flattenWithheld, ← agree,
          flattenItems_of_empty (Bool.not_eq_true _ ▸ some)]
    · exact flattenWithheld_hidden_whole sound
        (fun itemShape _ listed => absurd ⟨itemShape, listed⟩ describes) (by simp) isTold
  | .object inner, distinct, isTold => by
    rw [distinctKeys] at distinct
    by_cases describes : ∃ nested, shape.lookup key = some (.shape nested)
    · obtain ⟨nested, listed⟩ := describes
      have isSafe : key ∉ UNSAFE_KEYS := fun isUnsafe => by
        simp [lookup_of_isUnsafe sound isUnsafe] at listed
      rw [if_neg isSafe, listed, toldInOf] at isTold
      rw [listed, hiddenLeavesOf]
      simp only [hiddenFields, isSafe, if_false, listed]
      have agree := flattenWithheld_hiddenFields (soundField_of_lookup sound listed)
        (dotted pathPrefix key) inner distinct isTold
      by_cases empty : (hiddenFields nested inner).isEmpty = true
      · rw [if_pos empty, flattenWithheld, ← agree, List.isEmpty_iff.mp empty, flattenWithheld]
      · rw [if_neg empty, flattenWithheld_single, flattenValue]
        exact agree
    · exact flattenWithheld_hidden_whole sound (by simp)
        (fun nested _ listed => absurd ⟨nested, listed⟩ describes) isTold

theorem flattenItems_hiddenItems {shape : PublicShape} (sound : soundField (.list shape) = true)
    (path : String) : ∀ items : List Json, itemsDistinct items = true →
      toldEntries shape items = true →
      flattenItems path ((hiddenItems shape items).map .object) =
        hiddenLeavesOfItems shape path items
  | [], _, _ => by rw [hiddenItems, List.map_nil, flattenItems, hiddenLeavesOfItems]
  | .object fields :: items, distinct, isTold => by
    rw [itemsDistinct, distinctKeys, Bool.and_eq_true] at distinct
    simp only [toldEntries, Bool.and_eq_true] at isTold
    obtain ⟨named, soundItem⟩ := parts_of_soundList sound
    rw [hiddenItems_cons_object, List.map_cons, flattenItems_cons_object, hiddenLeavesOfItems,
      flattenItems_hiddenItems sound path items distinct.2 isTold.2,
      flattenItems_hiddenEntry named distinct.1 isTold.1.1 fun label =>
        flattenWithheld_hiddenFields soundItem label fields distinct.1 isTold.1.2]
  | .array _ :: items, distinct, isTold | .undefined :: items, distinct, isTold
  | .null :: items, distinct, isTold | .boolean _ :: items, distinct, isTold
  | .number _ :: items, distinct, isTold | .string _ :: items, distinct, isTold => by
    rw [itemsDistinct, Bool.and_eq_true] at distinct
    rw [toldEntries_cons_of_not_object (by simp), Bool.and_eq_true] at isTold
    rw [hiddenItems_cons_of_not_object (by simp), List.map_cons, flattenItems_cons_object,
      hiddenLeavesOfItems_cons_of_not_object (by simp), (leaves_eq_nil_iff path _).mpr isTold.1,
      flattenItems_hiddenItems sound path items distinct.2 isTold.2]
    simp only [flattenItems, flattenRest, List.append_nil]

end

end MalloyPublisher.Connections
