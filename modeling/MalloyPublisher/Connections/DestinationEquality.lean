import MalloyPublisher.Foundations.JsonTrees

/-!
# When two lists of destinations are the same

A caller that pushes the storage destinations again changes nothing if they are the ones that are in
place. Neither the order of the list means anything nor that of the fields in a configuration, so
both are put in a fixed one before the texts are compared. A field is put in place by an assignment,
which for one name sets the prototype of what is assigned to, and no field.

## Main definitions

* `storageDestinationsEqual` — the comparison
* `canonicalizeJsonValue` — a configuration with its fields in order
* `SameBy` — the lists hold the same names, and the same configuration under each

## Main results

* `storageDestinationsEqual_iff` — what is compared is everything but fields named `__proto__`
* `decides_iff` — the comparison is right unless the lists differ in such fields only
-/

namespace MalloyPublisher.Connections

open Foundations

/-! ## The comparison -/

def PROTO : JsString := utf16 "__proto__"

/-- The fields in the order of their names' code units. -/
def sortFields {α : Type} (fields : List (JsString × α)) : List (JsString × α) :=
  fields.insertionSort fun field other => field.1 ≤ other.1

/-- `sorted[key] = value`, which sets the prototype where the key is its name. -/
def assign {α : Type} (sorted : List (JsString × α)) (field : JsString × α) : List (JsString × α) :=
  if field.1 = PROTO then sorted else sorted ++ [field]

mutual

def canonicalizeJsonValue : JsonTree → JsonTree
  | .scalar value => .scalar value
  | .array items => .array (canonicalizeItems items)
  | .object fields => .object ((sortFields (canonicalizeFields fields)).foldl assign [])

def canonicalizeItems : List JsonTree → List JsonTree
  | [] => []
  | item :: items => canonicalizeJsonValue item :: canonicalizeItems items

def canonicalizeFields : List (JsString × JsonTree) → List (JsString × JsonTree)
  | [] => []
  | (key, value) :: fields => (key, canonicalizeJsonValue value) :: canonicalizeFields fields

end

/-- A destination that has been accepted: an object with a name. -/
structure Destination where
  fields : List (JsString × JsonTree)
  name : JsString
  named : (utf16 "name", .scalar (.string name)) ∈ fields
  distinct : (JsonTree.object fields).Distinct

def Destination.body (destination : Destination) : JsonTree := .object destination.fields

/-- A list that has been accepted, whose names are distinct. -/
structure Destinations where
  list : List Destination
  distinct : (list.map Destination.name).Nodup

def sortByName (destinations : List Destination) : List Destination :=
  destinations.insertionSort fun left right => left.name ≤ right.name

def canonicalDestinationList (destinations : List Destination) : JsString :=
  (JsonTree.array ((sortByName destinations).map fun destination =>
    canonicalizeJsonValue destination.body)).stringify

def storageDestinationsEqual (left right : List Destination) : Bool :=
  if left.length ≠ right.length then false
  else canonicalDestinationList left = canonicalDestinationList right

/-! ## What it is for -/

mutual

/-- A configuration without the fields named `__proto__`. -/
def withoutProto : JsonTree → JsonTree
  | .scalar value => .scalar value
  | .array items => .array (withoutProtoItems items)
  | .object fields => .object (withoutProtoFields fields)

def withoutProtoItems : List JsonTree → List JsonTree
  | [] => []
  | item :: items => withoutProto item :: withoutProtoItems items

def withoutProtoFields : List (JsString × JsonTree) → List (JsString × JsonTree)
  | [] => []
  | (key, value) :: fields =>
    if key = PROTO then withoutProtoFields fields
    else (key, withoutProto value) :: withoutProtoFields fields

end

/-- The lists hold the same names, and under each the same of a configuration. -/
def SameBy (read : JsonTree → JsonTree) (left right : Destinations) : Prop :=
  (∀ destination ∈ left.list, ∃ other ∈ right.list, other.name = destination.name ∧
      (read destination.body).Same (read other.body)) ∧
    ∀ other ∈ right.list, ∃ destination ∈ left.list, destination.name = other.name

/-- The comparison says whether the lists are the same. -/
def Decides (left right : Destinations) : Prop :=
  storageDestinationsEqual left.list right.list = true ↔ SameBy id left right

/-! ## Fields in order -/

section Fields

variable {α : Type} {fields others : List (JsString × α)}

theorem foldl_assign (fields kept : List (JsString × α)) :
    fields.foldl assign kept = kept ++ fields.filter fun field => field.1 ≠ PROTO := by
  induction fields generalizing kept with
  | nil => simp
  | cons field fields ih =>
    rw [List.foldl_cons, ih, assign]
    by_cases proto : field.1 = PROTO
    · simp [proto]
    · simp [proto]

/-- The fields that are assigned, as they are listed. -/
def arranged (fields : List (JsString × α)) : List (JsString × α) :=
  ownOrder ((sortFields fields).filter fun field => field.1 ≠ PROTO)

theorem perm_sortFields (fields : List (JsString × α)) : (sortFields fields).Perm fields :=
  List.perm_insertionSort _ _

theorem perm_arranged (fields : List (JsString × α)) :
    (arranged fields).Perm (fields.filter fun field => field.1 ≠ PROTO) :=
  (perm_ownOrder _).trans ((perm_sortFields fields).filter _)

theorem arranged_map {β : Type} (f : α → β) (fields : List (JsString × α)) :
    arranged (fields.map fun field => (field.1, f field.2)) =
      (arranged fields).map fun field => (field.1, f field.2) := by
  have sorted : sortFields (fields.map fun field => (field.1, f field.2)) =
      (sortFields fields).map fun field => (field.1, f field.2) := by
    refine Eq.symm (List.map_insertionSort _ _ _ _ ?_)
    intro field _ other _
    exact Iff.rfl
  rw [arranged, sorted, List.filter_map, arranged, ← ownOrder_map]
  rfl

theorem eq_of_mem {fields : List (JsString × α)} (distinct : (fields.map Prod.fst).Nodup)
    {field other : JsString × α} (member : field ∈ fields) (member' : other ∈ fields)
    (same : field.1 = other.1) : field = other :=
  List.inj_on_of_nodup_map distinct member member' same

/-- Distinct fields, sorted, are the same list as soon as they are the same fields. -/
theorem sorted_congr (distinct : (fields.map Prod.fst).Nodup) {sorted sorted' : List (JsString × α)}
    (ordered : sorted.Pairwise fun field other => field.1 ≤ other.1)
    (ordered' : sorted'.Pairwise fun field other => field.1 ≤ other.1)
    (among : ∀ field ∈ sorted, field ∈ fields) (perm : sorted.Perm sorted') : sorted = sorted' := by
  refine List.Perm.eq_of_pairwise ?_ ordered ordered' perm
  intro field other member member' le ge
  exact eq_of_mem distinct (among field member) (among other (perm.mem_iff.mpr member'))
    (le_antisymm le ge)

theorem pairwise_sortFields (fields : List (JsString × α)) :
    (sortFields fields).Pairwise fun field other => field.1 ≤ other.1 :=
  List.pairwise_insertionSort _ _

/-- Fields in order are the same list as soon as they are the same fields. -/
theorem arranged_congr (distinct : (fields.map Prod.fst).Nodup)
    (perm : (fields.filter fun field => field.1 ≠ PROTO).Perm
      (others.filter fun field => field.1 ≠ PROTO)) : arranged fields = arranged others := by
  unfold arranged
  congr 1
  refine sorted_congr distinct ((pairwise_sortFields fields).filter _)
    ((pairwise_sortFields others).filter _) ?_
    (((perm_sortFields fields).filter _).trans (perm.trans ((perm_sortFields others).filter _).symm))
  intro field member
  exact (perm_sortFields fields).mem_iff.mp (List.mem_of_mem_filter member)

/-- Lists of distinct fields are the same fields when one is as long as the other and among it. -/
theorem perm_iff (distinct : (fields.map Prod.fst).Nodup) :
    fields.Perm others ↔ fields.length = others.length ∧ ∀ field ∈ fields, field ∈ others := by
  constructor
  · intro perm
    exact ⟨perm.length_eq, fun field member => perm.mem_iff.mp member⟩
  · rintro ⟨lengths, among⟩
    have subperm := List.subperm_of_subset distinct.of_map among
    exact subperm.perm_of_length_le lengths.ge

end Fields

/-! ## Configurations in order -/

/-- A configuration as it is listed once its fields are in order. -/
def inOrder (tree : JsonTree) : JsonTree := (canonicalizeJsonValue tree).listed

theorem canonicalizeItems_eq_map (items : List JsonTree) :
    canonicalizeItems items = items.map canonicalizeJsonValue := by
  induction items with
  | nil => rfl
  | cons item items ih => rw [canonicalizeItems, List.map_cons, ih]

theorem canonicalizeFields_eq_map (fields : List (JsString × JsonTree)) :
    canonicalizeFields fields = fields.map fun field => (field.1, canonicalizeJsonValue field.2) := by
  induction fields with
  | nil => rfl
  | cons field fields ih => rw [canonicalizeFields, List.map_cons, ih]

theorem withoutProtoFields_eq (fields : List (JsString × JsonTree)) : withoutProtoFields fields =
    (fields.filter fun field => field.1 ≠ PROTO).map fun field => (field.1, withoutProto field.2) := by
  induction fields with
  | nil => rfl
  | cons field fields ih =>
    obtain ⟨key, value⟩ := field
    rw [withoutProtoFields, ih]
    by_cases proto : key = PROTO
    · simp [proto]
    · simp [proto]

theorem inOrder_array (items : List JsonTree) :
    inOrder (.array items) = .array (items.map inOrder) := by
  rw [inOrder, canonicalizeJsonValue, JsonTree.listed, canonicalizeItems_eq_map,
    JsonTree.listedItems_eq_map, List.map_map]
  rfl

theorem inOrder_object (fields : List (JsString × JsonTree)) : inOrder (.object fields) =
    .object (arranged (fields.map fun field => (field.1, inOrder field.2))) := by
  have listed : ∀ fields : List (JsString × JsonTree), ownOrder (JsonTree.listedFields fields) =
      (ownOrder fields).map fun field => (field.1, JsonTree.listed field.2) := by
    intro fields
    rw [JsonTree.listedFields_eq_map, ownOrder_map]
  rw [inOrder, canonicalizeJsonValue, JsonTree.listed, foldl_assign, List.nil_append, listed,
    canonicalizeFields_eq_map]
  change JsonTree.object ((arranged _).map _) = _
  rw [arranged_map, List.map_map, arranged_map]
  rfl

theorem keys_map (f : JsonTree → JsonTree) (fields : List (JsString × JsonTree)) :
    (fields.map fun field => (field.1, f field.2)).map Prod.fst = fields.map Prod.fst := by
  rw [List.map_map]
  rfl

theorem filter_map_values (f : JsonTree → JsonTree) (fields : List (JsString × JsonTree)) :
    (fields.map fun field => (field.1, f field.2)).filter (fun field => field.1 ≠ PROTO) =
      (fields.filter fun field => field.1 ≠ PROTO).map fun field => (field.1, f field.2) := by
  rw [List.filter_map]
  rfl

/-- Objects in order are the same list when their fields are, one in each. -/
theorem inOrder_object_eq_iff {fields others : List (JsString × JsonTree)}
    (distinct : (fields.map Prod.fst).Nodup) :
    inOrder (.object fields) = inOrder (.object others) ↔
      (fields.filter fun field => field.1 ≠ PROTO).length =
          (others.filter fun field => field.1 ≠ PROTO).length ∧
        ∀ field ∈ fields, field.1 ≠ PROTO → ∃ other ∈ others, other.1 = field.1 ∧
          inOrder field.2 = inOrder other.2 := by
  have distinct' : ((fields.map fun field => (field.1, inOrder field.2)).map Prod.fst).Nodup := by
    rw [keys_map]
    exact distinct
  have kept : (((fields.map fun field => (field.1, inOrder field.2)).filter fun field =>
      field.1 ≠ PROTO).map Prod.fst).Nodup := distinct'.sublist (List.filter_sublist.map _)
  have arrangedIff : inOrder (.object fields) = inOrder (.object others) ↔
      ((fields.map fun field => (field.1, inOrder field.2)).filter fun field => field.1 ≠ PROTO).Perm
        ((others.map fun field => (field.1, inOrder field.2)).filter fun field => field.1 ≠ PROTO) := by
    rw [inOrder_object, inOrder_object, JsonTree.object.injEq]
    constructor
    · intro same
      have first := perm_arranged (fields.map fun field => (field.1, inOrder field.2))
      rw [same] at first
      exact first.symm.trans (perm_arranged _)
    · intro perm
      exact arranged_congr distinct' perm
  rw [arrangedIff, perm_iff kept, filter_map_values, filter_map_values, List.length_map,
    List.length_map]
  refine and_congr_right fun _ => ?_
  constructor
  · intro among field member notProto
    have inOthers := among (field.1, inOrder field.2)
      (List.mem_map.mpr ⟨field, List.mem_filter.mpr ⟨member, by simpa using notProto⟩, rfl⟩)
    obtain ⟨other, isOther, same⟩ := List.mem_map.mp inOthers
    exact ⟨other, List.mem_of_mem_filter isOther, (Prod.mk.inj same).1, (Prod.mk.inj same).2.symm⟩
  · intro found field member
    obtain ⟨own, isOwn, rfl⟩ := List.mem_map.mp member
    obtain ⟨inFields, notProto⟩ := List.mem_filter.mp isOwn
    have differs : own.1 ≠ PROTO := by simpa using notProto
    obtain ⟨other, inOthers, sameKey, sameValue⟩ := found own inFields differs
    refine List.mem_map.mpr ⟨other, List.mem_filter.mpr ⟨inOthers, ?_⟩, Prod.ext sameKey sameValue.symm⟩
    rw [sameKey]
    exact notProto

theorem distinct_of_mem {fields : List (JsString × JsonTree)} (distinct : JsonTree.DistinctFields fields)
    {field : JsString × JsonTree} (member : field ∈ fields) : field.2.Distinct := by
  induction fields with
  | nil => cases member
  | cons first fields ih =>
    rcases List.mem_cons.mp member with same | member
    · rw [same]
      exact distinct.1
    · exact ih distinct.2 member

theorem mem_withoutProtoFields {fields : List (JsString × JsonTree)} {key : JsString}
    (notProto : key ≠ PROTO) (value : JsonTree) : (key, value) ∈ withoutProtoFields fields ↔
      ∃ other, (key, other) ∈ fields ∧ withoutProto other = value := by
  rw [withoutProtoFields_eq, List.mem_map]
  constructor
  · rintro ⟨field, member, same⟩
    obtain ⟨rfl, rfl⟩ := Prod.mk.inj same
    exact ⟨field.2, List.mem_of_mem_filter member, rfl⟩
  · rintro ⟨other, member, rfl⟩
    exact ⟨(key, other), List.mem_filter.mpr ⟨member, by simpa using notProto⟩, rfl⟩

mutual

/-- Configurations in order are the same tree when they are the same but for fields named
`__proto__`. -/
theorem inOrder_eq_iff : ∀ tree other : JsonTree, tree.Distinct → other.Distinct →
    (inOrder tree = inOrder other ↔ (withoutProto tree).Same (withoutProto other))
  | .scalar value, .scalar value', _, _ => by
    have scalars : JsonTree.scalar value = .scalar value' ↔ value = value' := by
      rw [JsonTree.scalar.injEq]
    exact scalars
  | .array items, .array others, distinct, distinct' => by
    rw [inOrder_array, inOrder_array, JsonTree.array.injEq]
    exact inOrder_items_eq_iff items others distinct distinct'
  | .object fields, .object others, distinct, distinct' => by
    rw [inOrder_object_eq_iff distinct.1, withoutProto, withoutProto, JsonTree.Same,
      withoutProtoFields_eq fields, withoutProtoFields_eq others, List.length_map, List.length_map,
      ← withoutProtoFields_eq fields, ← withoutProtoFields_eq others]
    exact and_congr_right fun _ => inOrder_fields_iff fields others distinct.2 distinct'.2
  | .scalar value, .array items, _, _ => by
    rw [inOrder_array]
    exact iff_of_false (fun same => by cases same) id
  | .scalar value, .object fields, _, _ => by
    rw [inOrder_object]
    exact iff_of_false (fun same => by cases same) id
  | .array items, .scalar value, _, _ => by
    rw [inOrder_array]
    exact iff_of_false (fun same => by cases same) id
  | .array items, .object fields, _, _ => by
    rw [inOrder_array, inOrder_object]
    exact iff_of_false (fun same => by cases same) id
  | .object fields, .scalar value, _, _ => by
    rw [inOrder_object]
    exact iff_of_false (fun same => by cases same) id
  | .object fields, .array items, _, _ => by
    rw [inOrder_array, inOrder_object]
    exact iff_of_false (fun same => by cases same) id

theorem inOrder_items_eq_iff : ∀ items others : List JsonTree, JsonTree.DistinctItems items →
    JsonTree.DistinctItems others → (items.map inOrder = others.map inOrder ↔
      JsonTree.SameItems (withoutProtoItems items) (withoutProtoItems others))
  | [], [], _, _ => iff_of_true rfl trivial
  | [], _ :: _, _, _ => iff_of_false (fun same => by cases same) id
  | _ :: _, [], _, _ => iff_of_false (fun same => by cases same) id
  | item :: items, other :: others, distinct, distinct' => by
    rw [List.map_cons, List.map_cons, List.cons.injEq, withoutProtoItems, withoutProtoItems,
      JsonTree.SameItems, inOrder_eq_iff item other distinct.1 distinct'.1,
      inOrder_items_eq_iff items others distinct.2 distinct'.2]

theorem inOrder_fields_iff : ∀ fields others : List (JsString × JsonTree),
    JsonTree.DistinctFields fields → JsonTree.DistinctFields others →
    ((∀ field ∈ fields, field.1 ≠ PROTO → ∃ other ∈ others, other.1 = field.1 ∧
        inOrder field.2 = inOrder other.2) ↔
      JsonTree.SameFields (withoutProtoFields fields) (withoutProtoFields others))
  | [], _, _, _ => iff_of_true (fun field member => by cases member) trivial
  | (key, value) :: fields, others, distinct, distinct' => by
    have later := inOrder_fields_iff fields others distinct.2 distinct'
    have first : ∀ other ∈ others, (inOrder value = inOrder other.2 ↔
        (withoutProto value).Same (withoutProto other.2)) := fun other member =>
      inOrder_eq_iff value other.2 distinct.1 (distinct_of_mem distinct' member)
    rw [List.forall_mem_cons, later, withoutProtoFields]
    split_ifs with proto
    · exact ⟨fun both => both.2, fun same => ⟨fun notProto => absurd proto notProto, same⟩⟩
    · rw [JsonTree.SameFields]
      refine and_congr_left fun _ => ?_
      constructor
      · intro found
        obtain ⟨⟨otherKey, other⟩, member, rfl, sameValue⟩ := found proto
        exact ⟨withoutProto other, (mem_withoutProtoFields proto _).mpr ⟨other, member, rfl⟩,
          (first (otherKey, other) member).mp sameValue⟩
      · rintro ⟨shed, member, same⟩ _
        obtain ⟨other, isField, rfl⟩ := (mem_withoutProtoFields proto shed).mp member
        exact ⟨(key, other), isField, rfl, (first (key, other) isField).mpr same⟩

end

/-! ## Lists in order -/

/-- A destination under its name. -/
def entry (destination : Destination) : JsString × JsonTree :=
  (destination.name, inOrder destination.body)

theorem keys_entry (destinations : List Destination) :
    (destinations.map entry).map Prod.fst = destinations.map Destination.name := by
  rw [List.map_map]
  rfl

theorem name_ne_proto : utf16 "name" ≠ PROTO := by decide +kernel

/-- The name of a destination is among its fields. -/
theorem Destination.name_eq {destination other : Destination}
    (same : inOrder destination.body = inOrder other.body) : destination.name = other.name := by
  obtain ⟨-, found⟩ := (inOrder_object_eq_iff destination.distinct.1).mp same
  obtain ⟨⟨key, value⟩, member, isName, sameValue⟩ := found _ destination.named name_ne_proto
  have names := eq_of_mem other.distinct.1 member other.named isName
  rw [(Prod.mk.inj names).2] at sameValue
  have scalars : JsonTree.scalar (.string destination.name) = .scalar (.string other.name) := sameValue
  exact JsonScalar.string.inj (JsonTree.scalar.inj scalars)

theorem map_sortByName (destinations : List Destination) :
    (sortByName destinations).map entry = sortFields (destinations.map entry) := by
  refine List.map_insertionSort _ _ _ _ ?_
  intro destination _ other _
  exact Iff.rfl

theorem map_inOrder_iff (left right : List Destination) :
    (left.map fun destination => inOrder destination.body) =
        (right.map fun destination => inOrder destination.body) ↔
      left.map entry = right.map entry := by
  induction left generalizing right with
  | nil => cases right <;> simp
  | cons first left ih =>
    cases right with
    | nil => simp
    | cons other right =>
      have firsts : inOrder first.body = inOrder other.body ↔ entry first = entry other :=
        ⟨fun same => Prod.ext (Destination.name_eq same) same, fun same => (Prod.mk.inj same).2⟩
      rw [List.map_cons, List.map_cons, List.map_cons, List.map_cons, List.cons.injEq, List.cons.injEq,
        ih, firsts]

theorem canonicalDestinationList_eq_iff (left right : List Destination) :
    canonicalDestinationList left = canonicalDestinationList right ↔
      sortFields (left.map entry) = sortFields (right.map entry) := by
  have listed : ∀ list : List Destination, (JsonTree.array ((sortByName list).map fun destination =>
      canonicalizeJsonValue destination.body)).listed =
        .array ((sortByName list).map fun destination => inOrder destination.body) := by
    intro list
    rw [JsonTree.listed, JsonTree.listedItems_eq_map, List.map_map]
    rfl
  rw [canonicalDestinationList, canonicalDestinationList, JsonTree.stringify_eq_iff, listed, listed,
    JsonTree.array.injEq, ← map_sortByName, ← map_sortByName]
  exact map_inOrder_iff _ _

/-- What is compared is everything but fields named `__proto__`. -/
theorem storageDestinationsEqual_iff (left right : Destinations) :
    storageDestinationsEqual left.list right.list = true ↔ SameBy withoutProto left right := by
  have distinct : ∀ list : Destinations, ((list.list.map entry).map Prod.fst).Nodup := by
    intro list
    rw [keys_entry]
    exact list.distinct
  have sortedIff : sortFields (left.list.map entry) = sortFields (right.list.map entry) ↔
      (left.list.map entry).Perm (right.list.map entry) := by
    constructor
    · intro same
      have first := perm_sortFields (left.list.map entry)
      rw [same] at first
      exact first.symm.trans (perm_sortFields _)
    · intro perm
      exact sorted_congr (distinct left) (pairwise_sortFields _) (pairwise_sortFields _)
        (fun field => (perm_sortFields _).mem_iff.mp)
        ((perm_sortFields _).trans (perm.trans (perm_sortFields _).symm))
  have entries : (∀ field ∈ left.list.map entry, field ∈ right.list.map entry) ↔
      ∀ destination ∈ left.list, ∃ other ∈ right.list, other.name = destination.name ∧
        (withoutProto destination.body).Same (withoutProto other.body) := by
    rw [List.forall_mem_map]
    refine forall₂_congr fun destination _ => ?_
    rw [List.mem_map]
    refine exists_congr fun other => and_congr_right fun _ => ?_
    have bodies := inOrder_eq_iff destination.body other.body destination.distinct other.distinct
    rw [entry, entry, Prod.mk.injEq, ← bodies]
    exact and_congr_right fun _ => eq_comm
  have equalIff : storageDestinationsEqual left.list right.list = true ↔
      left.list.length = right.list.length ∧
        canonicalDestinationList left.list = canonicalDestinationList right.list := by
    unfold storageDestinationsEqual
    split_ifs with differs <;> simp_all
  rw [equalIff, canonicalDestinationList_eq_iff, sortedIff, perm_iff (distinct left), entries,
    List.length_map, List.length_map, SameBy]
  constructor
  · rintro ⟨lengths, -, found⟩
    refine ⟨found, fun other member => ?_⟩
    have subset : ∀ name ∈ left.list.map Destination.name, name ∈ right.list.map Destination.name := by
      rw [List.forall_mem_map]
      intro destination isMember
      obtain ⟨partner, inRight, same, -⟩ := found destination isMember
      exact List.mem_map.mpr ⟨partner, inRight, same⟩
    have names := (List.subperm_of_subset left.distinct subset).perm_of_length_le
      (by simpa using lengths.ge)
    exact List.mem_map.mp (names.mem_iff.mpr (List.mem_map.mpr ⟨other, member, rfl⟩))
  · rintro ⟨found, named⟩
    have names : (left.list.map Destination.name).Perm (right.list.map Destination.name) := by
      refine (List.perm_ext_iff_of_nodup left.distinct right.distinct).mpr fun name => ?_
      rw [List.mem_map, List.mem_map]
      constructor
      · rintro ⟨destination, member, rfl⟩
        obtain ⟨other, inRight, same, -⟩ := found destination member
        exact ⟨other, inRight, same⟩
      · rintro ⟨other, member, rfl⟩
        exact named other member
    have lengths := names.length_eq
    rw [List.length_map, List.length_map] at lengths
    exact ⟨lengths, lengths, found⟩

/-! ## Trees without the fields -/

mutual

/-- Trees that are the same are so without the fields named `__proto__`. -/
theorem Same.withoutProto : ∀ tree other : JsonTree, tree.Distinct → other.Distinct →
    tree.Same other → (withoutProto tree).Same (withoutProto other)
  | .scalar _, .scalar _, _, _, same => same
  | .array items, .array others, distinct, distinct', same =>
    SameItems.withoutProto items others distinct distinct' same
  | .object fields, .object others, distinct, distinct', same => by
    refine ⟨?_, SameFields.withoutProto fields others distinct.2 distinct'.2 same.2⟩
    have subset : ∀ key ∈ fields.map Prod.fst, key ∈ others.map Prod.fst :=
      SameFields.keys fields others same.2
    have keys := (List.subperm_of_subset distinct.1 subset).perm_of_length_le (by simpa using same.1.ge)
    have lengths := (keys.filter fun key => key ≠ PROTO).length_eq
    rw [List.filter_map, List.filter_map, List.length_map, List.length_map] at lengths
    rw [withoutProtoFields_eq, withoutProtoFields_eq, List.length_map, List.length_map]
    exact lengths
  | .scalar _, .array _, _, _, same => same
  | .scalar _, .object _, _, _, same => same
  | .array _, .scalar _, _, _, same => same
  | .array _, .object _, _, _, same => same
  | .object _, .scalar _, _, _, same => same
  | .object _, .array _, _, _, same => same

theorem SameItems.withoutProto : ∀ items others : List JsonTree, JsonTree.DistinctItems items →
    JsonTree.DistinctItems others → JsonTree.SameItems items others →
      JsonTree.SameItems (withoutProtoItems items) (withoutProtoItems others)
  | [], [], _, _, _ => trivial
  | [], _ :: _, _, _, same => same
  | _ :: _, [], _, _, same => same
  | item :: items, other :: others, distinct, distinct', same =>
    ⟨Same.withoutProto item other distinct.1 distinct'.1 same.1,
      SameItems.withoutProto items others distinct.2 distinct'.2 same.2⟩

theorem SameFields.withoutProto : ∀ fields others : List (JsString × JsonTree),
    JsonTree.DistinctFields fields → JsonTree.DistinctFields others →
    JsonTree.SameFields fields others →
      JsonTree.SameFields (withoutProtoFields fields) (withoutProtoFields others)
  | [], _, _, _, _ => trivial
  | (key, value) :: fields, others, distinct, distinct', same => by
    have later := SameFields.withoutProto fields others distinct.2 distinct' same.2
    rw [withoutProtoFields]
    split_ifs with proto
    · exact later
    · obtain ⟨other, member, alike⟩ := same.1
      refine ⟨⟨withoutProto other, (mem_withoutProtoFields proto _).mpr ⟨other, member, rfl⟩, ?_⟩, later⟩
      exact Same.withoutProto value other distinct.1 (distinct_of_mem distinct' member) alike

theorem SameFields.keys : ∀ fields others : List (JsString × JsonTree),
    JsonTree.SameFields fields others → ∀ key ∈ fields.map Prod.fst, key ∈ others.map Prod.fst
  | [], _, _ => fun _ member => by cases member
  | (key, value) :: fields, others, same => fun own member => by
    rcases List.mem_cons.mp member with isFirst | member
    · obtain ⟨other, inOthers, -⟩ := same.1
      rw [isFirst]
      exact List.mem_map.mpr ⟨(key, other), inOthers, rfl⟩
    · exact SameFields.keys fields others same.2 own member

end

/-- The comparison is right unless the lists differ in fields named `__proto__` only. -/
theorem decides_iff (left right : Destinations) : Decides left right ↔
    (SameBy withoutProto left right → SameBy id left right) := by
  have shed : SameBy id left right → SameBy withoutProto left right := by
    rintro ⟨found, named⟩
    refine ⟨fun destination member => ?_, named⟩
    obtain ⟨other, inRight, sameName, same⟩ := found destination member
    exact ⟨other, inRight, sameName, Same.withoutProto _ _ destination.distinct other.distinct same⟩
  rw [Decides, storageDestinationsEqual_iff]
  exact ⟨fun both => both.mp, fun implied => ⟨implied, shed⟩⟩

/-- A destination with a field of that name, and none. -/
def lake (fields : List (JsString × JsonTree))
    (distinct : (JsonTree.object ((utf16 "name", .scalar (.string (utf16 "lake"))) :: fields)).Distinct) :
    Destinations :=
  { list := [{ fields := (utf16 "name", .scalar (.string (utf16 "lake"))) :: fields
               name := utf16 "lake"
               named := List.mem_cons_self
               distinct := distinct }]
    distinct := List.nodup_singleton _ }

/-- A field `__proto__` that is added is taken for no change. -/
theorem not_decides_proto : ¬∀ left right : Destinations, Decides left right := by
  intro all
  have alone : ((([(utf16 "name", JsonTree.scalar (.string (utf16 "lake")))] :
      List (JsString × JsonTree)).map Prod.fst).Nodup) := List.nodup_singleton _
  have keys : [utf16 "name", PROTO].Nodup := by decide +kernel
  let plain := lake [] ⟨alone, trivial, trivial⟩
  let added := lake [(PROTO, .scalar .null)] ⟨keys, trivial, trivial, trivial⟩
  have kept : withoutProtoFields [(utf16 "name", JsonTree.scalar (.string (utf16 "lake"))),
      (PROTO, .scalar .null)] = [(utf16 "name", .scalar (.string (utf16 "lake")))] := by
    rw [withoutProtoFields, if_neg name_ne_proto, withoutProtoFields, if_pos rfl, withoutProtoFields,
      withoutProto]
  have kept' : withoutProtoFields [(utf16 "name", JsonTree.scalar (.string (utf16 "lake")))] =
      [(utf16 "name", .scalar (.string (utf16 "lake")))] := by
    rw [withoutProtoFields, if_neg name_ne_proto, withoutProtoFields, withoutProto]
  have isShed : SameBy withoutProto plain added := by
    refine ⟨fun destination member => ⟨_, List.mem_singleton_self _, ?_⟩,
      fun other member => ⟨_, List.mem_singleton_self _, ?_⟩⟩
    · rw [List.mem_singleton.mp member]
      refine ⟨rfl, ?_⟩
      change (JsonTree.object (withoutProtoFields _)).Same (.object (withoutProtoFields _))
      rw [kept, kept']
      exact ⟨rfl, ⟨_, List.mem_singleton_self _, rfl⟩, trivial⟩
    · rw [List.mem_singleton.mp member]
  have differ : ¬SameBy id plain added := by
    rintro ⟨found, -⟩
    obtain ⟨other, member, -, same⟩ := found _ (List.mem_singleton_self _)
    rw [List.mem_singleton.mp member] at same
    have lengths : 1 = 2 := same.1
    exact absurd lengths (by decide)
  have decided := (all plain added).mp ((storageDestinationsEqual_iff plain added).mpr isShed)
  exact differ decided

end MalloyPublisher.Connections
