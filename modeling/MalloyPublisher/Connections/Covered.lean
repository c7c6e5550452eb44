import MalloyPublisher.Connections.Withheld

/-!
# A config whose hidden leaves are covered

What a view publishes of a config, which leaves it does not, and whether these are told, are all
read off the config with its hidden leaves covered.

## Main results

* `projectShape_maskHidden` — the same is published
* `hiddenLeaves_maskHidden` — the same leaves are hidden
* `toldIn_maskHidden` — and they are told where they were
-/

namespace MalloyPublisher.Connections

open Foundations Foundations.Json

/-! ## Names -/

theorem nameOf_maskFields (fields : List (String × Json)) :
    nameOf (maskFields fields) = if nameOf fields = some "" then some "" else none := by
  rw [nameOf, nameOf, lookup_maskFields]
  cases fields.lookup "name" with
  | none => rfl
  | some value =>
    cases value with
    | string text => by_cases blank : text = "" <;> simp [mask, isSet, blank]
    | _ => simp [mask, isSet]

theorem lookup_maskHidden (shape : PublicShape) (fields : List (String × Json)) (key : String) :
    (maskHidden shape fields).lookup key =
      (fields.lookup key).map (maskHiddenOf (shape.lookup key)) := by
  induction fields with
  | nil => rw [maskHidden]; rfl
  | cons field fields ih =>
    obtain ⟨name, value⟩ := field
    rw [maskHidden, List.lookup_cons, List.lookup_cons]
    split
    · rename_i same
      rw [eq_of_beq same]
      rfl
    · exact ih

/-- The name an entry is labelled by is published, and so not covered. -/
theorem nameOf_maskHidden {shape : PublicShape} (named : shape.lookup "name" = some .scalar)
    (fields : List (String × Json)) : nameOf (maskHidden shape fields) = nameOf fields := by
  rw [nameOf, nameOf, lookup_maskHidden, named]
  cases fields.lookup "name" with
  | none => rfl
  | some value => cases value <;> simp [maskHiddenOf, isCompound, mask]

/-! ## What is published -/

theorem isCompound_maskHiddenOf_scalar (value : Json) :
    (maskHiddenOf (some .scalar) value).isCompound = value.isCompound := by
  rw [maskHiddenOf]
  split_ifs
  · exact isCompound_mask value
  · rfl

theorem mask_ne_object {value : Json} (other : ∀ fields, value ≠ .object fields) :
    ∀ fields, value.mask ≠ .object fields := by
  cases value with
  | object fields => exact absurd rfl (other fields)
  | string text => by_cases blank : text = "" <;> simp [mask, isSet, blank]
  | _ => simp [mask, isSet]

theorem mask_ne_array {value : Json} (other : ∀ items, value ≠ .array items) :
    ∀ items, value.mask ≠ .array items := by
  cases value with
  | array items => exact absurd rfl (other items)
  | string text => by_cases blank : text = "" <;> simp [mask, isSet, blank]
  | _ => simp [mask, isSet]

/-- What is published of an item of a list. -/
def projectItem (shape : PublicShape) : Json → Json
  | .object fields => .object (projectShape shape fields)
  | _ => .object []

theorem projectItem_of_not_object {shape : PublicShape} {item : Json}
    (other : ∀ fields, item ≠ .object fields) : projectItem shape item = .object [] := by
  cases item with
  | object fields => exact absurd rfl (other fields)
  | _ => rfl

theorem projectField_array (shape : PublicShape) (items : List Json) :
    projectField (.list shape) (.array items) = .array (items.map (projectItem shape)) := by
  rw [projectField]
  congr 2

theorem projectField_list_of_not_array {shape : PublicShape} {value : Json}
    (other : ∀ items, value ≠ .array items) : projectField (.list shape) value = .undefined := by
  rw [projectField]
  exact other

theorem projectField_shape_of_not_object {shape : PublicShape} {value : Json}
    (other : ∀ fields, value ≠ .object fields) :
    projectField (.shape shape) value = .undefined := by
  rw [projectField]
  exact other

theorem maskHiddenItems_cons_of_not_object {shape : PublicShape} {item : Json} {items : List Json}
    (other : ∀ fields, item ≠ .object fields) :
    maskHiddenItems shape (item :: items) = item.mask :: maskHiddenItems shape items := by
  rw [maskHiddenItems]
  exact other

theorem maskHiddenOf_list_of_not_array {shape : PublicShape} {value : Json}
    (other : ∀ items, value ≠ .array items) :
    maskHiddenOf (some (.list shape)) value = value.mask := by
  rw [maskHiddenOf]
  exact other

theorem maskHiddenOf_shape_of_not_object {shape : PublicShape} {value : Json}
    (other : ∀ fields, value ≠ .object fields) :
    maskHiddenOf (some (.shape shape)) value = value.mask := by
  rw [maskHiddenOf]
  exact other

theorem toldInOf_list_of_not_array {shape : PublicShape} {value : Json}
    (other : ∀ items, value ≠ .array items) :
    toldInOf (some (.list shape)) value = told value := by
  rw [toldInOf]
  exact other

theorem toldInOf_shape_of_not_object {shape : PublicShape} {value : Json}
    (other : ∀ fields, value ≠ .object fields) :
    toldInOf (some (.shape shape)) value = value.holdsNothing := by
  rw [toldInOf]
  exact other

mutual

theorem projectField_maskHiddenOf :
    ∀ (spec : PublicField), soundField spec = true → ∀ value : Json,
      projectField spec (maskHiddenOf (some spec) value) = projectField spec value
  | .any, _, value => by rw [maskHiddenOf]
  | .scalar, _, value => by
    rw [projectField, projectField, isCompound_maskHiddenOf_scalar, maskHiddenOf]
    split_ifs <;> rfl
  | .list shape, sound, value => by
    obtain ⟨-, soundItem⟩ := parts_of_soundList sound
    by_cases isList : ∃ items, value = .array items
    · obtain ⟨items, rfl⟩ := isList
      rw [maskHiddenOf, projectField_array, projectField_array]
      congr 1
      induction items with
      | nil => rw [maskHiddenItems]
      | cons item items ih =>
        by_cases isRecord : ∃ fields, item = .object fields
        · obtain ⟨fields, rfl⟩ := isRecord
          rw [maskHiddenItems, List.map_cons, List.map_cons, ih, projectItem, projectItem,
            projectShape_maskHidden shape shape soundItem (lookup_of_sound soundItem) fields]
        · have other := not_exists.mp isRecord
          rw [maskHiddenItems_cons_of_not_object other, List.map_cons, List.map_cons, ih,
            projectItem_of_not_object other, projectItem_of_not_object (mask_ne_object other)]
    · have other := not_exists.mp isList
      rw [maskHiddenOf_list_of_not_array other, projectField_list_of_not_array other,
        projectField_list_of_not_array (mask_ne_array other)]
  | .shape shape, sound, value => by
    rw [soundField] at sound
    by_cases isRecord : ∃ fields, value = .object fields
    · obtain ⟨fields, rfl⟩ := isRecord
      rw [maskHiddenOf, projectField, projectField,
        projectShape_maskHidden shape shape sound (lookup_of_sound sound) fields]
    · have other := not_exists.mp isRecord
      rw [maskHiddenOf_shape_of_not_object other, projectField_shape_of_not_object other,
        projectField_shape_of_not_object (mask_ne_object other)]

/-- A view publishes of a config what it publishes of it with its hidden leaves covered. -/
theorem projectShape_maskHidden (shape : PublicShape) : ∀ (part : PublicShape),
    soundShape part = true → (∀ entry ∈ part, shape.lookup entry.1 = some entry.2) →
      ∀ fields : List (String × Json),
        projectShape part (maskHidden shape fields) = projectShape part fields
  | [], _, _, fields => by rw [projectShape, projectShape]
  | (field, spec) :: part, sound, listed, fields => by
    simp only [soundShape, Bool.and_eq_true] at sound
    have own : shape.lookup field = some spec := listed (field, spec) List.mem_cons_self
    rw [projectShape, projectShape, lookup_maskHidden, own,
      projectShape_maskHidden shape part sound.2
        (fun entry member => listed entry (List.mem_cons_of_mem _ member)) fields]
    cases fields.lookup field with
    | none => rfl
    | some value =>
      simp only [Option.map_some, projectField_maskHiddenOf spec sound.1.2 value]

end

/-! ## What is told -/

theorem fieldsHoldNothing_mask (fields : List (String × Json)) :
    fieldsHoldNothing (maskFields fields) = fieldsHoldNothing fields := by
  rw [Bool.eq_iff_iff, ← leavesOfFields_eq_nil_iff "", ← leavesOfFields_eq_nil_iff "",
    leavesOfFields_mask]

theorem namesHoldNothing_mask (fields : List (String × Json)) :
    namesHoldNothing (maskFields fields) = namesHoldNothing fields := by
  induction fields with
  | nil => rw [maskFields]
  | cons field fields ih =>
    obtain ⟨key, value⟩ := field
    rw [namesHoldNothing, namesHoldNothing] at ih ⊢
    rw [maskFields, List.all_cons, List.all_cons, ih]
    simp only [holdsNothing_mask]

/-- A name that is set is held. -/
theorem holds_of_named {fields : List (String × Json)} {name : String}
    (named : nameOf fields = some name) (set : name ≠ "") :
    namesHoldNothing fields = false ∧ fieldsHoldNothing fields = false := by
  rw [nameOf_eq_some] at named
  induction fields with
  | nil => cases named
  | cons field fields ih =>
    obtain ⟨key, value⟩ := field
    rw [List.lookup_cons] at named
    split at named
    · rename_i same
      obtain rfl := Option.some.inj named
      obtain rfl : "name" = key := by simpa using same
      simp [namesHoldNothing, fieldsHoldNothing, holdsNothing, isSet, set]
    · have later := ih named
      rw [namesHoldNothing] at later
      simp [namesHoldNothing, fieldsHoldNothing, later]

mutual

theorem told_mask : ∀ value : Json, told value.mask = told value
  | .array items => by
    rw [mask, told, told]
    exact toldItems_mask items
  | .object fields => by
    rw [mask, told, told]
    exact toldFields_mask fields
  | .undefined | .null | .boolean _ | .number _ => by simp [mask, told, isSet]
  | .string text => by by_cases blank : text = "" <;> simp [mask, told, isSet, blank]

theorem toldItems_mask : ∀ items : List Json, toldItems (maskItems items) = toldItems items
  | [] => by rw [maskItems]
  | .object fields :: items => by
    rw [maskItems, mask, toldItems, toldItems, toldItems_mask items, nameOf_maskFields,
      fieldsHoldNothing_mask, namesHoldNothing_mask, toldFields_mask fields]
    congr 1
    cases named : nameOf fields with
    | none => simp
    | some name =>
      by_cases blank : name = ""
      · simp [blank]
      · obtain ⟨names, some⟩ := holds_of_named named blank
        simp [blank, names, some]
  | .array _ :: items | .undefined :: items | .null :: items | .boolean _ :: items
  | .number _ :: items | .string _ :: items => by
    rw [maskItems, toldItems_cons_of_not_object (mask_ne_object (by simp)),
      toldItems_cons_of_not_object (by simp), toldItems_mask items, holdsNothing_mask]

theorem toldFields_mask : ∀ fields : List (String × Json),
    toldFields (maskFields fields) = toldFields fields
  | [] => by rw [maskFields]
  | (key, value) :: fields => by
    rw [maskFields, toldFields, toldFields, told_mask value, toldFields_mask fields]

end

/-- A name that is no scalar is covered, and one that is a scalar is none that matters here. -/
theorem names_maskHidden {shape : PublicShape} (named : shape.lookup "name" = some .scalar)
    (fields : List (String × Json)) :
    ((maskHidden shape fields).all fun (key, value) =>
        key != "name" || !value.isCompound || value.holdsNothing) =
      fields.all fun (key, value) =>
        key != "name" || !value.isCompound || value.holdsNothing := by
  induction fields with
  | nil => rw [maskHidden]
  | cons field fields ih =>
    obtain ⟨key, value⟩ := field
    rw [maskHidden, List.all_cons, List.all_cons, ih]
    congr 1
    by_cases isName : key = "name"
    · subst isName
      simp only [named, isCompound_maskHiddenOf_scalar]
      rw [maskHiddenOf]
      by_cases compound : value.isCompound = true <;> simp [compound, holdsNothing_mask]
    · have other : (key != "name") = true := by simpa using isName
      simp only [other, Bool.true_or]

/-- A field that is not described further is told where it is told covered. -/
theorem toldInOf_maskHiddenOf_plain {spec : Option PublicField} {value : Json}
    (noList : ∀ shape items, spec = some (.list shape) → value ≠ .array items)
    (noShape : ∀ shape fields, spec = some (.shape shape) → value ≠ .object fields) :
    toldInOf spec (maskHiddenOf spec value) = toldInOf spec value := by
  cases spec with
  | none => rw [maskHiddenOf, toldInOf, toldInOf, told_mask]
  | some spec =>
    cases spec with
    | any => rw [toldInOf, toldInOf]
    | scalar =>
      rw [toldInOf, toldInOf, isCompound_maskHiddenOf_scalar, maskHiddenOf]
      split_ifs
      · rw [told_mask]
      · rfl
    | list shape =>
      have other : ∀ items, value ≠ .array items := fun items => noList shape items rfl
      rw [maskHiddenOf_list_of_not_array other, toldInOf_list_of_not_array other,
        toldInOf_list_of_not_array (mask_ne_array other), told_mask]
    | shape shape =>
      have other : ∀ fields, value ≠ .object fields := fun fields => noShape shape fields rfl
      rw [maskHiddenOf_shape_of_not_object other, toldInOf_shape_of_not_object other,
        toldInOf_shape_of_not_object (mask_ne_object other), holdsNothing_mask]

mutual

/-- The hidden leaves of a config are told where they are told covered. -/
theorem toldIn_maskHidden {shape : PublicShape} (sound : soundShape shape = true) :
    ∀ fields : List (String × Json),
      toldIn shape (maskHidden shape fields) = toldIn shape fields
  | [] => by rw [maskHidden]
  | (key, value) :: fields => by
    rw [maskHidden, toldIn, toldIn, toldIn_maskHidden sound fields]
    congr 1
    by_cases isUnsafe : key ∈ UNSAFE_KEYS
    · rw [if_pos isUnsafe, if_pos isUnsafe, lookup_of_isUnsafe sound isUnsafe, maskHiddenOf,
        holdsNothing_mask]
    · rw [if_neg isUnsafe, if_neg isUnsafe]
      exact toldInOf_maskHiddenOf (fun spec listed => soundField_of_lookup sound listed) value

theorem toldInOf_maskHiddenOf {spec : Option PublicField}
    (sound : ∀ inner, spec = some inner → soundField inner = true) :
    ∀ value : Json, toldInOf spec (maskHiddenOf spec value) = toldInOf spec value
  | .undefined | .null | .boolean _ | .number _ | .string _ =>
    toldInOf_maskHiddenOf_plain (by simp) (by simp)
  | .array items => by
    by_cases describes : ∃ shape, spec = some (.list shape)
    · obtain ⟨shape, rfl⟩ := describes
      rw [maskHiddenOf, toldInOf, toldInOf]
      exact toldEntries_maskHiddenItems (sound _ rfl) items
    · exact toldInOf_maskHiddenOf_plain (fun shape _ same => absurd ⟨shape, same⟩ describes)
        (by simp)
  | .object fields => by
    by_cases describes : ∃ shape, spec = some (.shape shape)
    · obtain ⟨shape, rfl⟩ := describes
      rw [maskHiddenOf, toldInOf, toldInOf]
      exact toldIn_maskHidden (sound _ rfl) fields
    · exact toldInOf_maskHiddenOf_plain (by simp)
        (fun shape _ same => absurd ⟨shape, same⟩ describes)

theorem toldEntries_maskHiddenItems {shape : PublicShape}
    (sound : soundField (.list shape) = true) : ∀ items : List Json,
      toldEntries shape (maskHiddenItems shape items) = toldEntries shape items
  | [] => by rw [maskHiddenItems]
  | .object fields :: items => by
    obtain ⟨named, soundItem⟩ := parts_of_soundList sound
    rw [maskHiddenItems, toldEntries, toldEntries, toldEntries_maskHiddenItems sound items,
      names_maskHidden named, toldIn_maskHidden soundItem fields]
  | .array _ :: items | .undefined :: items | .null :: items | .boolean _ :: items
  | .number _ :: items | .string _ :: items => by
    rw [maskHiddenItems_cons_of_not_object (by simp),
      toldEntries_cons_of_not_object (mask_ne_object (by simp)),
      toldEntries_cons_of_not_object (by simp), toldEntries_maskHiddenItems sound items,
      holdsNothing_mask]

end

/-! ## What is hidden -/

theorem hiddenLeavesOf_list_of_not_array {shape : PublicShape} {path : String} {value : Json}
    (other : ∀ items, value ≠ .array items) :
    hiddenLeavesOf (some (.list shape)) path value = leaves path value := by
  rw [hiddenLeavesOf]
  exact other

theorem hiddenLeavesOf_shape_of_not_object {shape : PublicShape} {path : String} {value : Json}
    (other : ∀ fields, value ≠ .object fields) :
    hiddenLeavesOf (some (.shape shape)) path value = leaves path value := by
  rw [hiddenLeavesOf]
  exact other

theorem hiddenLeavesOf_maskHiddenOf_plain {spec : Option PublicField} {path : String} {value : Json}
    (noList : ∀ shape items, spec = some (.list shape) → value ≠ .array items)
    (noShape : ∀ shape fields, spec = some (.shape shape) → value ≠ .object fields) :
    hiddenLeavesOf spec path (maskHiddenOf spec value) = hiddenLeavesOf spec path value := by
  cases spec with
  | none => rw [maskHiddenOf, hiddenLeavesOf, hiddenLeavesOf, leaves_mask]
  | some spec =>
    cases spec with
    | any => rw [hiddenLeavesOf, hiddenLeavesOf]
    | scalar =>
      rw [hiddenLeavesOf, hiddenLeavesOf, isCompound_maskHiddenOf_scalar, maskHiddenOf]
      split_ifs
      · rw [leaves_mask]
      · rfl
    | list shape =>
      have other : ∀ items, value ≠ .array items := fun items => noList shape items rfl
      rw [maskHiddenOf_list_of_not_array other, hiddenLeavesOf_list_of_not_array other,
        hiddenLeavesOf_list_of_not_array (mask_ne_array other), leaves_mask]
    | shape shape =>
      have other : ∀ fields, value ≠ .object fields := fun fields => noShape shape fields rfl
      rw [maskHiddenOf_shape_of_not_object other, hiddenLeavesOf_shape_of_not_object other,
        hiddenLeavesOf_shape_of_not_object (mask_ne_object other), leaves_mask]

mutual

/-- The leaves a view does not publish are where they were, covered or not. -/
theorem hiddenLeaves_maskHidden {shape : PublicShape} (sound : soundShape shape = true)
    ( pathPrefix : String) : ∀ fields : List (String × Json),
      hiddenLeaves shape pathPrefix (maskHidden shape fields) =
        hiddenLeaves shape pathPrefix fields
  | [] => by rw [maskHidden]
  | (key, value) :: fields => by
    rw [maskHidden, hiddenLeaves, hiddenLeaves, hiddenLeaves_maskHidden sound pathPrefix fields,
      hiddenLeavesOf_maskHiddenOf (fun spec listed => soundField_of_lookup sound listed) _ value]

theorem hiddenLeavesOf_maskHiddenOf {spec : Option PublicField}
    (sound : ∀ inner, spec = some inner → soundField inner = true) (path : String) :
    ∀ value : Json, hiddenLeavesOf spec path (maskHiddenOf spec value) =
      hiddenLeavesOf spec path value
  | .undefined | .null | .boolean _ | .number _ | .string _ =>
    hiddenLeavesOf_maskHiddenOf_plain (by simp) (by simp)
  | .array items => by
    by_cases describes : ∃ shape, spec = some (.list shape)
    · obtain ⟨shape, rfl⟩ := describes
      rw [maskHiddenOf, hiddenLeavesOf, hiddenLeavesOf]
      exact hiddenLeavesOfItems_maskHiddenItems (sound _ rfl) path items
    · exact hiddenLeavesOf_maskHiddenOf_plain
        (fun shape _ same => absurd ⟨shape, same⟩ describes) (by simp)
  | .object fields => by
    by_cases describes : ∃ shape, spec = some (.shape shape)
    · obtain ⟨shape, rfl⟩ := describes
      rw [maskHiddenOf, hiddenLeavesOf, hiddenLeavesOf]
      exact hiddenLeaves_maskHidden (sound _ rfl) path fields
    · exact hiddenLeavesOf_maskHiddenOf_plain (by simp)
        (fun shape _ same => absurd ⟨shape, same⟩ describes)

theorem hiddenLeavesOfItems_maskHiddenItems {shape : PublicShape}
    (sound : soundField (.list shape) = true) (path : String) : ∀ items : List Json,
      hiddenLeavesOfItems shape path (maskHiddenItems shape items) =
        hiddenLeavesOfItems shape path items
  | [] => by rw [maskHiddenItems]
  | .object fields :: items => by
    obtain ⟨named, soundItem⟩ := parts_of_soundList sound
    rw [maskHiddenItems, hiddenLeavesOfItems, hiddenLeavesOfItems, nameOf_maskHidden named,
      hiddenLeaves_maskHidden soundItem _ fields,
      hiddenLeavesOfItems_maskHiddenItems sound path items]
  | .array _ :: items | .undefined :: items | .null :: items | .boolean _ :: items
  | .number _ :: items | .string _ :: items => by
    rw [maskHiddenItems_cons_of_not_object (by simp),
      hiddenLeavesOfItems_cons_of_not_object (mask_ne_object (by simp)),
      hiddenLeavesOfItems_cons_of_not_object (by simp),
      hiddenLeavesOfItems_maskHiddenItems sound path items, leaves_mask]

end

end MalloyPublisher.Connections
