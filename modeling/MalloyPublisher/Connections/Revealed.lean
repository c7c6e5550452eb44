import MalloyPublisher.Connections.Covered
import MalloyPublisher.Foundations.Shortfall

/-!
# Exactly what a view reveals

A view lists the paths of what it withholds one by one. Where it passes a leaf over, the list is
shorter; where it takes a name for a label, a path is longer. Neither is made good by the other, so
the list is right only where nothing is passed over and nothing is misnamed.

## Main definitions

* `RevealsOnlyPresence` — what is wanted of a view

## Main results

* `shortfall_hiddenFields` — the list falls short unless the hidden leaves are told
* `revealsOnlyPresence_iff` — a view says what it is to say exactly of such configs
* `hiddenName_revealed` — a withheld name that a view shows
-/

namespace MalloyPublisher.Connections

open Foundations Foundations.Json

/-! ## A listing that passes leaves over -/

theorem length_dotted (path key : String) :
    (dotted path key).length = if path.length = 0 then key.length
      else path.length + 1 + key.length := by
  by_cases blank : path = ""
  · simp [dotted, blank]
  · have some : path.length ≠ 0 := by simpa using blank
    have dot : ".".length = 1 := rfl
    simp [dotted, blank, some, dot]

theorem length_dotted_le {specPath codePath : String} (le : specPath.length ≤ codePath.length)
    (key : String) : (dotted specPath key).length ≤ (dotted codePath key).length := by
  rw [length_dotted, length_dotted]
  split_ifs <;> omega

theorem length_dotted_eq {specPath codePath : String} {key : String}
    (le : specPath.length ≤ codePath.length)
    (same : (dotted codePath key).length = (dotted specPath key).length) :
    codePath.length = specPath.length := by
  rw [length_dotted, length_dotted] at same
  split_ifs at same <;> omega

/-- An item that is passed over leaves the listing short where it holds something. -/
theorem shortfall_flattenItems_skip {codePath specPath : String} {item : Json} {items : List Json}
    (short : Shortfall String.length
      (toldItems items = true ∧
        (codePath.length = specPath.length ∨ itemsHoldNothing items = true))
      (flattenItems codePath items) (leavesOfItems specPath items)) :
    Shortfall String.length
      ((item.holdsNothing = true ∧ toldItems items = true) ∧
        (codePath.length = specPath.length ∨
          item.holdsNothing = true ∧ itemsHoldNothing items = true))
      (flattenItems codePath items)
      (leaves specPath item ++ leavesOfItems specPath items) := by
  have dropped : Shortfall String.length (item.holdsNothing = true) [] (leaves specPath item) :=
    .nil (leaves_eq_nil_iff specPath item).mp
  rw [← List.nil_append (flattenItems codePath items)]
  refine (dropped.append short).mono ?_
  rintro ⟨itemEmpty, itemsTold, path⟩
  exact ⟨⟨itemEmpty, itemsTold⟩, path.imp_right fun itemsEmpty => ⟨itemEmpty, itemsEmpty⟩⟩

mutual

/-- What is listed of a value that is hidden whole falls short of its leaves, unless it is told and
its path is the right one. -/
theorem shortfall_flattenValue {codePath specPath : String}
    (le : specPath.length ≤ codePath.length) : ∀ value : Json,
      Shortfall String.length
        (told value = true ∧ (codePath.length = specPath.length ∨ value.holdsNothing = true))
        (flattenValue codePath value) (leaves specPath value)
  | .array items => by
    rw [flattenValue, leaves, told, holdsNothing]
    exact shortfall_flattenItems le items
  | .object fields => by
    rw [flattenValue, leaves, told, holdsNothing]
    exact shortfall_flattenWithheld le fields
  | .undefined | .null => by
    simp only [flattenValue, leaves, told, holdsNothing, isSet]
    exact .nil fun _ => ⟨trivial, .inr rfl⟩
  | .boolean _ | .number _ => by
    simp only [flattenValue, leaves, told, isSet, if_true]
    exact .single le fun same => ⟨trivial, .inl same⟩
  | .string text => by
    simp only [flattenValue, leaves, told, holdsNothing]
    by_cases set : (Json.string text).isSet = true
    · rw [if_pos set, if_pos set]
      exact .single le fun same => ⟨trivial, .inl same⟩
    · rw [if_neg set, if_neg set]
      exact .nil fun _ => ⟨trivial, .inr (by simpa using set)⟩

theorem shortfall_flattenWithheld {codePath specPath : String}
    (le : specPath.length ≤ codePath.length) : ∀ fields : List (String × Json),
      Shortfall String.length
        (toldFields fields = true ∧
          (codePath.length = specPath.length ∨ fieldsHoldNothing fields = true))
        (flattenWithheld codePath fields) (leavesOfFields specPath fields)
  | [] => by
    rw [flattenWithheld, leavesOfFields]
    exact .refl ⟨rfl, .inr rfl⟩
  | (key, value) :: fields => by
    rw [flattenWithheld, leavesOfFields]
    refine ((shortfall_flattenValue (length_dotted_le le key) value).append
      (shortfall_flattenWithheld le fields)).mono ?_
    rintro ⟨⟨valueTold, valuePath⟩, fieldsTold, fieldsPath⟩
    rw [toldFields, fieldsHoldNothing, valueTold, fieldsTold]
    refine ⟨rfl, ?_⟩
    rcases valuePath with same | valueEmpty
    · exact .inl (length_dotted_eq le same)
    · exact fieldsPath.imp_right fun fieldsEmpty => by rw [valueEmpty, fieldsEmpty]; rfl

theorem shortfall_flattenItems {codePath specPath : String}
    (le : specPath.length ≤ codePath.length) : ∀ items : List Json,
      Shortfall String.length
        (toldItems items = true ∧
          (codePath.length = specPath.length ∨ itemsHoldNothing items = true))
        (flattenItems codePath items) (leavesOfItems specPath items)
  | [] => by
    rw [flattenItems, leavesOfItems]
    exact .refl ⟨rfl, .inr rfl⟩
  | .object fields :: items => by
    rw [flattenItems, leavesOfItems, leaves]
    cases named : nameOf fields with
    | none =>
      refine ((shortfall_flattenRest le fields).append (shortfall_flattenItems le items)).mono ?_
      rintro ⟨⟨names, fieldsTold, fieldsPath⟩, itemsTold, itemsPath⟩
      rw [toldItems, named, names, fieldsTold, itemsTold, itemsHoldNothing, holdsNothing]
      refine ⟨rfl, ?_⟩
      rcases fieldsPath with same | fieldsEmpty
      · exact .inl same
      · exact itemsPath.imp_right fun itemsEmpty => by rw [fieldsEmpty, itemsEmpty]; rfl
    | some name =>
      have longer : specPath.length < (codePath ++ "." ++ name).length := by
        simp only [String.length_append]
        have dot : ".".length = 1 := rfl
        omega
      refine ((shortfall_flattenRest longer.le fields).append
        (shortfall_flattenItems le items)).mono ?_
      rintro ⟨⟨-, -, fieldsPath⟩, itemsTold, itemsPath⟩
      have fieldsEmpty := fieldsPath.resolve_left longer.ne'
      rw [toldItems, named, fieldsEmpty, itemsTold, itemsHoldNothing, holdsNothing, fieldsEmpty]
      exact ⟨rfl, itemsPath⟩
  | .array inner :: items => by
    rw [flattenItems_cons_of_not_object (by simp), toldItems_cons_of_not_object (by simp),
      leavesOfItems, itemsHoldNothing, Bool.and_eq_true, Bool.and_eq_true]
    exact shortfall_flattenItems_skip (shortfall_flattenItems le items)
  | .undefined :: items | .null :: items | .boolean _ :: items | .number _ :: items
  | .string _ :: items => by
    rw [flattenItems_cons_of_not_object (by simp), toldItems_cons_of_not_object (by simp),
      leavesOfItems, itemsHoldNothing, Bool.and_eq_true, Bool.and_eq_true]
    exact shortfall_flattenItems_skip (shortfall_flattenItems le items)

theorem shortfall_flattenRest {codePath specPath : String}
    (le : specPath.length ≤ codePath.length) : ∀ fields : List (String × Json),
      Shortfall String.length
        (namesHoldNothing fields = true ∧ toldFields fields = true ∧
          (codePath.length = specPath.length ∨ fieldsHoldNothing fields = true))
        (flattenRest codePath fields) (leavesOfFields specPath fields)
  | [] => by
    rw [flattenRest, leavesOfFields]
    exact .refl ⟨rfl, rfl, .inr rfl⟩
  | (key, value) :: fields => by
    rw [flattenRest, leavesOfFields, namesHoldNothing, List.all_cons, toldFields,
      fieldsHoldNothing]
    have inner := shortfall_flattenRest le fields
    have own := shortfall_flattenValue (length_dotted_le le key) value
    rw [namesHoldNothing] at inner
    by_cases isName : key = "name"
    · have dropped : Shortfall String.length (told value = true ∧ value.holdsNothing = true) []
          (leaves (dotted specPath key) value) := by
        refine .nil fun empty => ?_
        have nothing := (leaves_eq_nil_iff _ value).mp empty
        rw [flattenValue_of_holdsNothing _ value nothing, empty] at own
        exact ⟨(own.agree_of rfl rfl).1, nothing⟩
      rw [if_pos isName, ← List.nil_append (flattenRest codePath fields)]
      refine (dropped.append inner).mono ?_
      rintro ⟨⟨valueTold, valueEmpty⟩, names, fieldsTold, path⟩
      simp [valueTold, valueEmpty, names, fieldsTold, path]
    · rw [if_neg isName]
      refine (own.append inner).mono ?_
      rintro ⟨⟨valueTold, valuePath⟩, names, fieldsTold, fieldsPath⟩
      refine ⟨by simp [isName, names], by simp [valueTold, fieldsTold], ?_⟩
      rcases valuePath with same | valueEmpty
      · exact .inl (length_dotted_eq le same)
      · exact fieldsPath.imp_right fun fieldsEmpty => by rw [valueEmpty, fieldsEmpty]; rfl

end

/-! ## What a shape passes over -/

/-- What is listed of what an entry hides falls short of what it hides by its names. -/
theorem shortfall_flattenRest_names (label : String) (hidden : List (String × Json)) :
    Shortfall String.length
      (∀ value, ("name", value) ∈ hidden → flattenValue (dotted label "name") value = [])
      (flattenRest label hidden) (flattenWithheld label hidden) := by
  induction hidden with
  | nil =>
    rw [flattenRest, flattenWithheld]
    exact .refl (by simp)
  | cons field hidden ih =>
    obtain ⟨key, value⟩ := field
    rw [flattenRest, flattenWithheld]
    split_ifs with isName
    · have dropped : Shortfall String.length (flattenValue (dotted label key) value = []) []
          (flattenValue (dotted label key) value) := .nil id
      rw [← List.nil_append (flattenRest label hidden)]
      refine (dropped.append ih).mono ?_
      rintro ⟨own, others⟩ other member
      obtain same | later := List.mem_cons.mp member
      · obtain ⟨rfl, rfl⟩ := Prod.mk.inj same
        exact own
      · exact others other later
    · refine ((Shortfall.refl trivial).append ih).mono ?_
      rintro ⟨-, others⟩ other member
      obtain same | later := List.mem_cons.mp member
      · exact absurd (Prod.mk.inj same).1.symm isName
      · exact others other later

/-- A name that is no scalar is hidden. -/
theorem mem_hiddenFields_name {shape : PublicShape} (named : shape.lookup "name" = some .scalar)
    {fields : List (String × Json)} {value : Json} (member : ("name", value) ∈ fields)
    (compound : value.isCompound = true) : ("name", value) ∈ hiddenFields shape fields := by
  induction fields with
  | nil => cases member
  | cons field fields ih =>
    rw [hiddenFields_cons, List.mem_append]
    obtain rfl | later := List.mem_cons.mp member
    · left
      have isSafe : "name" ∉ UNSAFE_KEYS := by decide
      simp [hiddenFields, isSafe, named, compound]
    · exact .inr (ih later)

theorem told_of_mem_name {shape : PublicShape} (named : shape.lookup "name" = some .scalar)
    {fields : List (String × Json)} (isTold : toldIn shape fields = true) {value : Json}
    (member : ("name", value) ∈ fields) (compound : value.isCompound = true) :
    told value = true := by
  induction fields with
  | nil => cases member
  | cons field fields ih =>
    obtain ⟨key, other⟩ := field
    rw [toldIn, Bool.and_eq_true] at isTold
    obtain same | later := List.mem_cons.mp member
    · obtain ⟨rfl, rfl⟩ := Prod.mk.inj same
      have isSafe : "name" ∉ UNSAFE_KEYS := by decide
      simpa [isSafe, named, toldInOf, compound] using isTold.1
    · exact ih isTold.2 later

/-- An entry is listed short unless it is told and its name is one. -/
theorem shortfall_hiddenEntry {shape : PublicShape} (named : shape.lookup "name" = some .scalar)
    {fields : List (String × Json)} (distinct : fieldsDistinct fields = true) {path : String}
    {expected : String → List String}
    (short : ∀ label, Shortfall String.length (toldIn shape fields = true)
      (flattenWithheld label (hiddenFields shape fields)) (expected label)) :
    Shortfall String.length
      ((fields.all fun (key, value) =>
        key != "name" || !value.isCompound || value.holdsNothing) = true ∧
          toldIn shape fields = true)
      (flattenItems path [.object (hiddenEntry shape fields)])
      (expected (match nameOf fields with
        | some name => path ++ "." ++ name
        | none => path)) := by
  have names : (∀ value, ("name", value) ∈ fields → value.isCompound = true →
      value.holdsNothing = true) → (fields.all fun (key, value) =>
        key != "name" || !value.isCompound || value.holdsNothing) = true := by
    intro nothing
    refine List.all_eq_true.mpr fun field member => ?_
    obtain ⟨key, value⟩ := field
    by_cases isName : key = "name"
    · subst isName
      by_cases compound : value.isCompound = true
      · simp [nothing value member compound]
      · simp [compound]
    · simp [isName]
  by_cases empty : hiddenFields shape fields = []
  · rw [flattenItems, flattenItems, List.append_nil, hiddenEntry, empty, List.isEmpty_nil,
      if_pos rfl, flattenRest]
    refine .nil fun nothing => ⟨names fun value member compound => ?_, ?_⟩
    · have hidden := mem_hiddenFields_name named member compound
      rw [empty] at hidden
      cases hidden
    · have own := short (match nameOf fields with
        | some name => path ++ "." ++ name
        | none => path)
      rw [nothing, empty, flattenWithheld] at own
      exact own.agree_of rfl rfl
  cases isNamed : nameOf fields with
  | some name =>
    have unnamed := names_of_named named distinct isNamed
    rw [flattenItems_hiddenEntry_of_named named distinct isNamed empty]
    refine (short _).mono fun isTold => ⟨names fun value member compound => ?_, isTold⟩
    exact absurd rfl (unnamed _ (mem_hiddenFields_name named member compound))
  | none =>
    have entry : hiddenEntry shape fields = hiddenFields shape fields := by
      simp [hiddenEntry, isNamed]
    simp only [flattenItems, List.append_nil, entry, nameOf_hiddenFields named]
    refine ((shortfall_flattenRest_names path _).trans (short path)).mono ?_
    rintro ⟨nothing, isTold⟩
    refine ⟨names fun value member compound => ?_, isTold⟩
    have flat := nothing value (mem_hiddenFields_name named member compound)
    rw [flattenValue_of_told _ _ (told_of_mem_name named isTold member compound)] at flat
    exact (leaves_eq_nil_iff _ _).mp flat

/-- `flattenWithheld_hidden_whole`, for a field that need not be told. -/
theorem shortfall_hidden_whole {shape : PublicShape} (sound : soundShape shape = true)
    { pathPrefix key : String} {value : Json}
    (noList : ∀ itemShape items, shape.lookup key = some (.list itemShape) → value ≠ .array items)
    (noShape : ∀ nested fields, shape.lookup key = some (.shape nested) →
      value ≠ .object fields) :
    Shortfall String.length
      ((if key ∈ UNSAFE_KEYS then value.holdsNothing
        else toldInOf (shape.lookup key) value) = true)
      (flattenWithheld pathPrefix (hiddenFields shape [(key, value)]))
      (hiddenLeavesOf (shape.lookup key) (dotted pathPrefix key) value) := by
  have whole : Shortfall String.length (told value = true)
      (flattenWithheld pathPrefix [(key, value)]) (leaves (dotted pathPrefix key) value) := by
    rw [flattenWithheld_single]
    exact (shortfall_flattenValue (le_refl _) value).mono And.left
  have skipped : Shortfall String.length (value.holdsNothing = true) []
      (leaves (dotted pathPrefix key) value) := .nil (leaves_eq_nil_iff _ value).mp
  simp only [hiddenFields]
  by_cases isUnsafe : key ∈ UNSAFE_KEYS
  · simp only [isUnsafe, if_true]
    rw [lookup_of_isUnsafe sound isUnsafe, hiddenLeavesOf, flattenWithheld]
    exact skipped
  simp only [isUnsafe, if_false]
  cases listed : shape.lookup key with
  | none =>
    rw [toldInOf, hiddenLeavesOf]
    exact whole
  | some spec =>
    cases spec with
    | any =>
      rw [toldInOf, hiddenLeavesOf]
      simp only [flattenWithheld]
      exact .refl trivial
    | scalar =>
      rw [toldInOf, hiddenLeavesOf]
      by_cases compound : value.isCompound = true
      · simp only [compound, if_true, Bool.not_true, Bool.false_or]
        exact whole
      · simp only [compound, flattenWithheld, Bool.false_eq_true, if_false]
        exact .refl rfl
    | list itemShape =>
      cases value with
      | array items => exact absurd rfl (noList itemShape items listed)
      | _ => exact whole.mono fun isTold => by simpa [toldInOf] using isTold
    | shape nested =>
      cases value with
      | object fields => exact absurd rfl (noShape nested fields listed)
      | _ =>
        simp only [toldInOf, hiddenLeavesOf, flattenWithheld]
        exact skipped

mutual

/-- What is listed of a record falls short of what a view does not publish of it, unless its hidden
leaves are told. -/
theorem shortfall_hiddenFields {shape : PublicShape} (sound : soundShape shape = true)
    ( pathPrefix : String) : ∀ fields : List (String × Json), fieldsDistinct fields = true →
      Shortfall String.length (toldIn shape fields = true)
        (flattenWithheld pathPrefix (hiddenFields shape fields))
        (hiddenLeaves shape pathPrefix fields)
  | [], _ => by
    rw [hiddenFields, flattenWithheld, hiddenLeaves]
    exact .refl rfl
  | (key, value) :: fields, distinct => by
    simp only [fieldsDistinct, Bool.and_eq_true] at distinct
    rw [hiddenFields_cons, flattenWithheld_append, hiddenLeaves, toldIn, Bool.and_eq_true]
    exact (shortfall_hiddenField sound pathPrefix key value distinct.1.2).append
      (shortfall_hiddenFields sound pathPrefix fields distinct.2)

theorem shortfall_hiddenField {shape : PublicShape} (sound : soundShape shape = true)
    ( pathPrefix key : String) : ∀ value : Json, value.distinctKeys = true →
      Shortfall String.length
        ((if key ∈ UNSAFE_KEYS then value.holdsNothing
          else toldInOf (shape.lookup key) value) = true)
        (flattenWithheld pathPrefix (hiddenFields shape [(key, value)]))
        (hiddenLeavesOf (shape.lookup key) (dotted pathPrefix key) value)
  | .undefined, _ | .null, _ | .boolean _, _ | .number _, _ | .string _, _ =>
    shortfall_hidden_whole sound (by simp) (by simp)
  | .array items, distinct => by
    rw [distinctKeys] at distinct
    by_cases describes : ∃ itemShape, shape.lookup key = some (.list itemShape)
    · obtain ⟨itemShape, listed⟩ := describes
      have isSafe : key ∉ UNSAFE_KEYS := fun isUnsafe => by
        simp [lookup_of_isUnsafe sound isUnsafe] at listed
      rw [if_neg isSafe, listed, toldInOf, hiddenLeavesOf]
      simp only [hiddenFields, isSafe, if_false, listed]
      have short := shortfall_hiddenItems (soundField_of_lookup sound listed)
        (dotted pathPrefix key) items distinct
      by_cases some : ((hiddenItems itemShape items).any fun item => !item.isEmpty) = true
      · rw [if_pos some, flattenWithheld_single, flattenValue]
        exact short
      · rw [if_neg some, flattenWithheld]
        rw [flattenItems_of_empty (Bool.not_eq_true _ ▸ some)] at short
        exact short
    · exact shortfall_hidden_whole sound
        (fun itemShape _ listed => absurd ⟨itemShape, listed⟩ describes) (by simp)
  | .object inner, distinct => by
    rw [distinctKeys] at distinct
    by_cases describes : ∃ nested, shape.lookup key = some (.shape nested)
    · obtain ⟨nested, listed⟩ := describes
      have isSafe : key ∉ UNSAFE_KEYS := fun isUnsafe => by
        simp [lookup_of_isUnsafe sound isUnsafe] at listed
      rw [if_neg isSafe, listed, toldInOf, hiddenLeavesOf]
      simp only [hiddenFields, isSafe, if_false, listed]
      have short := shortfall_hiddenFields (soundField_of_lookup sound listed)
        (dotted pathPrefix key) inner distinct
      by_cases empty : (hiddenFields nested inner).isEmpty = true
      · rw [if_pos empty, flattenWithheld]
        rw [List.isEmpty_iff.mp empty, flattenWithheld] at short
        exact short
      · rw [if_neg empty, flattenWithheld_single, flattenValue]
        exact short
    · exact shortfall_hidden_whole sound (by simp)
        (fun nested _ listed => absurd ⟨nested, listed⟩ describes)

theorem shortfall_hiddenItems {shape : PublicShape} (sound : soundField (.list shape) = true)
    (path : String) : ∀ items : List Json, itemsDistinct items = true →
      Shortfall String.length (toldEntries shape items = true)
        (flattenItems path ((hiddenItems shape items).map .object))
        (hiddenLeavesOfItems shape path items)
  | [], _ => by
    rw [hiddenItems, List.map_nil, flattenItems, hiddenLeavesOfItems]
    exact .refl rfl
  | .object fields :: items, distinct => by
    rw [itemsDistinct, distinctKeys, Bool.and_eq_true] at distinct
    obtain ⟨named, soundItem⟩ := parts_of_soundList sound
    rw [hiddenItems_cons_object, List.map_cons, flattenItems_cons_object, hiddenLeavesOfItems,
      toldEntries, Bool.and_eq_true, Bool.and_eq_true]
    exact (shortfall_hiddenEntry named distinct.1 fun label =>
      shortfall_hiddenFields soundItem label fields distinct.1).append
        (shortfall_hiddenItems sound path items distinct.2)
  | .array _ :: items, distinct | .undefined :: items, distinct | .null :: items, distinct
  | .boolean _ :: items, distinct | .number _ :: items, distinct
  | .string _ :: items, distinct => by
    rw [itemsDistinct, Bool.and_eq_true] at distinct
    rw [toldEntries_cons_of_not_object (by simp), hiddenItems_cons_of_not_object (by simp),
      List.map_cons, flattenItems_cons_object, hiddenLeavesOfItems_cons_of_not_object (by simp),
      Bool.and_eq_true]
    refine .append ?_ (shortfall_hiddenItems sound path items distinct.2)
    simp only [flattenItems, flattenRest, List.append_nil]
    exact .nil (leaves_eq_nil_iff path _).mp

end

/-! ## What a view is to reveal -/

/-- A stored config as the view reads it. -/
def storedOf (record : Record) : List (String × Json) :=
  withoutWithheldFields (.object record.fields)

/-- The paths an answer lists as withheld. -/
def listedIn : Json → List String
  | .object fields =>
    match fields.lookup "withheldFields" with
    | some (.array items) => items.filterMap fun item => match item with
      | .string path => some path
      | _ => none
    | _ => []
  | _ => []

/-- A view reveals nothing of what it does not publish but that it is set: a config with other
values in its hidden leaves has the same answer, and the answer lists each hidden leaf that is set.
-/
structure RevealsOnlyPresence (record : Record) : Prop where
  same_answer : ∀ other : Record,
    maskHidden PUBLIC_CONNECTION (storedOf other) =
      maskHidden PUBLIC_CONNECTION (storedOf record) →
    toPublicConnection (.object other.fields) = toPublicConnection (.object record.fields)
  lists_hidden : (listedIn (toPublicConnection (.object record.fields))).Perm
    (hiddenLeaves PUBLIC_CONNECTION "" (storedOf record))

theorem lookup_projectShape {shape : PublicShape} {key : String}
    (unlisted : key ∉ shape.map Prod.fst) (fields : List (String × Json)) :
    (projectShape shape fields).lookup key = none := by
  induction shape with
  | nil => rw [projectShape]; rfl
  | cons entry shape ih =>
    obtain ⟨field, spec⟩ := entry
    rw [List.map_cons, List.mem_cons, not_or] at unlisted
    have apart : (key == field) = false := beq_eq_false_iff_ne.mpr unlisted.1
    rw [projectShape]
    repeat' split
    · exact ih unlisted.2
    · exact ih unlisted.2
    · rw [List.lookup_cons, apart]
      exact ih unlisted.2

/-- The answer, from what the view reads. -/
theorem toPublicConnection_record (record : Record) :
    toPublicConnection (.object record.fields) =
      if (withheldFields (storedOf record)).isEmpty then
        .object (projectShape PUBLIC_CONNECTION (storedOf record))
      else .object (projectShape PUBLIC_CONNECTION (storedOf record) ++
        [("withheldFields", .array ((withheldFields (storedOf record)).map .string))]) := rfl

theorem listedIn_toPublicConnection (record : Record) :
    listedIn (toPublicConnection (.object record.fields)) = withheldFields (storedOf record) := by
  have unlisted : (projectShape PUBLIC_CONNECTION (storedOf record)).lookup "withheldFields" =
      none := lookup_projectShape (by decide) _
  rw [toPublicConnection_record]
  split_ifs with empty
  · rw [listedIn, unlisted, List.isEmpty_iff.mp empty]
  · rw [listedIn, List.lookup_append, unlisted]
    simp [List.lookup_cons_self, List.filterMap_map]

theorem fieldsDistinct_filter (keep : String × Json → Bool) {fields : List (String × Json)}
    (distinct : fieldsDistinct fields = true) : fieldsDistinct (fields.filter keep) = true := by
  induction fields with
  | nil => rfl
  | cons field fields ih =>
    obtain ⟨key, value⟩ := field
    simp only [fieldsDistinct, Bool.and_eq_true, Bool.not_eq_true', List.contains_eq_mem,
      decide_eq_false_iff_not] at distinct
    rw [List.filter_cons]
    split_ifs
    · have unlisted : key ∉ (fields.filter keep).map Prod.fst := fun member =>
        distinct.1.1 ((List.filter_sublist.map Prod.fst).subset member)
      simp [fieldsDistinct, unlisted, distinct.1.2, ih distinct.2]
    · exact ih distinct.2

theorem distinct_storedOf (record : Record) : fieldsDistinct (storedOf record) = true :=
  fieldsDistinct_filter _ record.distinct

/-- Where the hidden leaves are told, the paths listed are theirs. -/
theorem withheldFields_of_told {record : Record}
    (isTold : toldIn PUBLIC_CONNECTION (storedOf record) = true) :
    withheldFields (storedOf record) =
      (hiddenLeaves PUBLIC_CONNECTION "" (storedOf record)).insertionSort (sortLE · ·) := by
  rw [withheldFields, flattenWithheld_hiddenFields soundShape_publicConnection ""
    (storedOf record) (distinct_storedOf record) isTold]

/-- A view reveals of a config's hidden leaves only that they are set exactly where they are told.
-/
theorem revealsOnlyPresence_iff (record : Record) :
    RevealsOnlyPresence record ↔ toldIn PUBLIC_CONNECTION (storedOf record) = true := by
  have sound := soundShape_publicConnection
  constructor
  · intro reveals
    have perm := reveals.lists_hidden
    rw [listedIn_toPublicConnection] at perm
    exact (shortfall_hiddenFields sound "" (storedOf record)
      (distinct_storedOf record)).agree_of_perm ((List.perm_insertionSort _ _).symm.trans perm)
  · intro isTold
    constructor
    · intro other covered
      have otherTold : toldIn PUBLIC_CONNECTION (storedOf other) = true := by
        rw [← toldIn_maskHidden sound, covered, toldIn_maskHidden sound, isTold]
      have leaves : hiddenLeaves PUBLIC_CONNECTION "" (storedOf other) =
          hiddenLeaves PUBLIC_CONNECTION "" (storedOf record) := by
        rw [← hiddenLeaves_maskHidden sound, covered, hiddenLeaves_maskHidden sound]
      have published : projectShape PUBLIC_CONNECTION (storedOf other) =
          projectShape PUBLIC_CONNECTION (storedOf record) := by
        rw [← projectShape_maskHidden PUBLIC_CONNECTION _ sound (lookup_of_sound sound), covered,
          projectShape_maskHidden PUBLIC_CONNECTION _ sound (lookup_of_sound sound)]
      have withheld : withheldFields (storedOf other) = withheldFields (storedOf record) := by
        rw [withheldFields_of_told otherTold, withheldFields_of_told isTold, leaves]
      rw [toPublicConnection_record, toPublicConnection_record, published, withheld]
    · rw [listedIn_toPublicConnection, withheldFields_of_told isTold]
      exact List.perm_insertionSort _ _

/-- A DuckDB connection with a credential in a field the allowlist does not list, a list of records
of which each has a name. -/
def namedSecret (name : String) : List (String × Json) :=
  [("duckdbConnection", .object [
    ("secrets", .array [.object [("name", .string name), ("secret", .string "s")]])])]

theorem distinct_namedSecret (name : String) : fieldsDistinct (namedSecret name) = true := rfl

/-- The name is withheld, and shown as the label of what is withheld beside it. -/
theorem hiddenName_revealed :
    ¬ RevealsOnlyPresence ⟨namedSecret "k1", distinct_namedSecret "k1"⟩ := by
  intro reveals
  have same := reveals.same_answer ⟨namedSecret "k2", distinct_namedSecret "k2"⟩ rfl
  have listed := congrArg listedIn same
  rw [listedIn_toPublicConnection, listedIn_toPublicConnection] at listed
  have differs : withheldFields (storedOf ⟨namedSecret "k2", distinct_namedSecret "k2"⟩) ≠
      withheldFields (storedOf ⟨namedSecret "k1", distinct_namedSecret "k1"⟩) := by
    decide +kernel
  exact differs listed

end MalloyPublisher.Connections
