import MalloyPublisher.Foundations.JsonStrings
import MalloyPublisher.Foundations.Numerals
import MalloyPublisher.Foundations.TextOrder
import Mathlib.Data.List.Sort

/-!
# Trees and their text

A JSON tree has scalars at its ends; the fields of its objects have distinct names and no order. Two
trees are the same when they differ in the order of fields only. The text of a tree lists the fields
of an object in the runtime's order, which puts the names that are indices first. Two trees with one
text are the same: a text ends where the tree it is of does, whatever follows.

## Main definitions

* `JsonTree`, `JsonTree.Same` — a tree, and sameness up to the order of fields
* `JsonTree.Distinct` — no object names a field twice
* `ownOrder` — the order in which the runtime lists the fields of an object
* `JsonTree.stringify` — `JSON.stringify`
* `JsonTree.listed` — a tree whose fields are in the order in which they are listed

## Main results

* `JsonTree.stringify_eq_iff` — trees have one text exactly when they are listed alike
-/

namespace MalloyPublisher.Foundations

/-- The end of a tree. -/
inductive JsonScalar
  | null
  | boolean (value : Bool)
  | number (value : Double)
  | string (text : JsString)

inductive JsonTree
  | scalar (value : JsonScalar)
  | array (items : List JsonTree)
  | object (fields : List (JsString × JsonTree))

/-! ## Scalars -/

def JsonScalar.text : JsonScalar → JsString
  | .null => utf16 "null"
  | .boolean true => utf16 "true"
  | .boolean false => utf16 "false"
  | .number value => utf16 value.text
  | .string text => jsonString text

/-- The units a number is written with. -/
def isNumberUnit (code : ℕ) : Bool :=
  (0x30 ≤ code && code ≤ 0x39) || code ∈ [0x2E, 0x65, 0x2B, 0x2D]

/-- What may follow a scalar. -/
def EndsScalar (rest : JsString) : Prop := ∀ code ∈ rest.head?, code ∈ [0x2C, 0x5D, 0x7D]

theorem endsScalar_nil : EndsScalar [] := by
  intro code first
  cases first

theorem endsScalar_cons {code : ℕ} (ends : code ∈ [0x2C, 0x5D, 0x7D]) (rest : JsString) :
    EndsScalar (code :: rest) := by
  intro other first
  cases first
  exact ends

theorem mem_text_double {double : Double} {c : Char} (member : c ∈ double.text.toList) :
    c.isDigit = true ∨ c = '.' ∨ c = 'e' ∨ c = '+' ∨ c = '-' := by
  unfold Double.text at member
  rw [String.toList_ofList] at member
  split_ifs at member with nonzero negative
  · rcases List.mem_append.mp member with sign | member
    · rw [List.mem_singleton.mp sign]
      simp
    · exact mem_text member
  · exact mem_text member
  · rw [List.mem_singleton.mp member]
    exact .inl rfl

theorem isUnit_of_mem_text {double : Double} : ∀ c ∈ double.text.toList, IsUnit c := by
  intro c member
  rcases mem_text_double member with digit | rfl | rfl | rfl | rfl
  · exact isUnit_of_isDigit digit
  all_goals decide

theorem utf16_text (double : Double) : utf16 double.text = double.text.toList.map Char.toNat := by
  have units := utf16_ofList (@isUnit_of_mem_text double)
  rwa [String.ofList_toList] at units

theorem isNumberUnit_utf16 (double : Double) : ∀ code ∈ utf16 double.text, isNumberUnit code = true := by
  intro code member
  rw [utf16_text] at member
  obtain ⟨c, isChar, rfl⟩ := List.mem_map.mp member
  rcases mem_text_double isChar with digit | rfl | rfl | rfl | rfl
  · have bounds := digit_bounds digit
    simp [isNumberUnit, bounds]
  all_goals decide

theorem utf16_text_ne_nil (double : Double) : utf16 double.text ≠ [] := by
  intro empty
  rw [utf16_text, List.map_eq_nil_iff] at empty
  refine trim_text_ne_nil double ?_
  rw [empty]
  rfl

theorem utf16_text_inj {first second : Double} (same : utf16 first.text = utf16 second.text) :
    first = second := by
  rw [utf16_text, utf16_text] at same
  have chars : first.text.toList = second.text.toList :=
    List.map_injective_iff.mpr (fun a b equal => Char.ext (UInt32.toNat_inj.mp equal)) same
  have texts : first.text = second.text := String.toList_inj.mp chars
  have isFirst := toNumber_text first
  rw [texts, toNumber_text, Option.some_inj] at isFirst
  exact isFirst.symm

/-- A number ends before what may follow it. -/
theorem takeWhile_number (double : Double) {rest : JsString} (ends : EndsScalar rest) :
    (utf16 double.text ++ rest).takeWhile isNumberUnit = utf16 double.text ∧
      (utf16 double.text ++ rest).dropWhile isNumberUnit = rest := by
  have stops : rest.takeWhile isNumberUnit = [] ∧ rest.dropWhile isNumberUnit = rest := by
    cases rest with
    | nil => exact ⟨rfl, rfl⟩
    | cons code rest =>
      have differs : ∀ code ∈ [0x2C, 0x5D, 0x7D], ¬isNumberUnit code = true := by decide
      have stop := differs code (ends code rfl)
      exact ⟨List.takeWhile_cons_of_neg stop, List.dropWhile_cons_of_neg stop⟩
  constructor
  · rw [List.takeWhile_append_of_pos (isNumberUnit_utf16 double), stops.1, List.append_nil]
  · rw [List.dropWhile_append_of_pos (isNumberUnit_utf16 double), stops.2]

/-- What begins the text of each kind of scalar; a number begins with any of its units. -/
def JsonScalar.start : JsonScalar → ℕ
  | .null => 0x6E
  | .boolean true => 0x74
  | .boolean false => 0x66
  | .number _ => 0x30
  | .string _ => 0x22

/-- What a unit begins. -/
def startOf (code : ℕ) : ℕ := if isNumberUnit code then 0x30 else code

theorem JsonScalar.text_eq_cons (scalar : JsonScalar) :
    ∃ code rest, scalar.text = code :: rest ∧ startOf code = scalar.start := by
  match scalar with
  | .null => exact ⟨_, _, (by decide +kernel : utf16 "null" = 0x6E :: [0x75, 0x6C, 0x6C]), rfl⟩
  | .boolean true => exact ⟨_, _, (by decide +kernel : utf16 "true" = 0x74 :: [0x72, 0x75, 0x65]), rfl⟩
  | .boolean false =>
    exact ⟨_, _, (by decide +kernel : utf16 "false" = 0x66 :: [0x61, 0x6C, 0x73, 0x65]), rfl⟩
  | .number value =>
    obtain ⟨code, rest, split⟩ := List.exists_cons_of_ne_nil (utf16_text_ne_nil value)
    refine ⟨code, rest, split, if_pos (isNumberUnit_utf16 value code ?_)⟩
    rw [split]
    exact List.mem_cons_self
  | .string text => exact ⟨_, _, rfl, rfl⟩

theorem number_inj {first second : Double} {rest rest' : JsString} (ends : EndsScalar rest)
    (ends' : EndsScalar rest') (same : utf16 first.text ++ rest = utf16 second.text ++ rest') :
    first = second ∧ rest = rest' := by
  obtain ⟨taken, dropped⟩ := takeWhile_number first ends
  obtain ⟨taken', dropped'⟩ := takeWhile_number second ends'
  rw [same, taken'] at taken
  rw [same, dropped'] at dropped
  exact ⟨(utf16_text_inj taken).symm, dropped.symm⟩

/-- What is written of a scalar is one scalar, and leaves what follows. -/
theorem JsonScalar.text_inj {first second : JsonScalar} {rest rest' : JsString}
    (ends : EndsScalar rest) (ends' : EndsScalar rest')
    (same : first.text ++ rest = second.text ++ rest') : first = second ∧ rest = rest' := by
  have starts : first.start = second.start := by
    obtain ⟨code, later, isFirst, start⟩ := first.text_eq_cons
    obtain ⟨code', later', isSecond, start'⟩ := second.text_eq_cons
    rw [isFirst, isSecond] at same
    rw [← start, ← start', (List.cons.inj same).1]
  cases first with
  | null =>
    cases second with
    | null => exact ⟨rfl, List.append_cancel_left same⟩
    | boolean value => cases value <;> simp [start] at starts
    | number value => simp [start] at starts
    | string text => simp [start] at starts
  | boolean value =>
    cases second with
    | null => cases value <;> simp [start] at starts
    | boolean value' =>
      have values : value = value' := by
        revert starts
        cases value <;> cases value' <;> decide
      subst values
      exact ⟨rfl, List.append_cancel_left same⟩
    | number value' => cases value <;> simp [start] at starts
    | string text => cases value <;> simp [start] at starts
  | number value =>
    cases second with
    | null => simp [start] at starts
    | boolean value' => cases value' <;> simp [start] at starts
    | number value' =>
      obtain ⟨values, rests⟩ := number_inj ends ends' same
      exact ⟨congrArg JsonScalar.number values, rests⟩
    | string text => simp [start] at starts
  | string text =>
    cases second with
    | null => simp [start] at starts
    | boolean value' => cases value' <;> simp [start] at starts
    | number value' => simp [start] at starts
    | string text' =>
      obtain ⟨texts, rests⟩ := jsonString_inj same
      exact ⟨congrArg JsonScalar.string texts, rests⟩

/-! ## Trees -/

namespace JsonTree

mutual

/-- Two trees that differ in the order of fields only. -/
def Same : JsonTree → JsonTree → Prop
  | .scalar value, .scalar other => value = other
  | .array items, .array others => SameItems items others
  | .object fields, .object others => fields.length = others.length ∧ SameFields fields others
  | _, _ => False

def SameItems : List JsonTree → List JsonTree → Prop
  | [], [] => True
  | item :: items, other :: others => Same item other ∧ SameItems items others
  | _, _ => False

/-- Each of some fields is among others. -/
def SameFields : List (JsString × JsonTree) → List (JsString × JsonTree) → Prop
  | [], _ => True
  | (key, value) :: fields, others =>
    (∃ other, (key, other) ∈ others ∧ Same value other) ∧ SameFields fields others

end

mutual

/-- No object names a field twice. -/
def Distinct : JsonTree → Prop
  | .scalar _ => True
  | .array items => DistinctItems items
  | .object fields => (fields.map Prod.fst).Nodup ∧ DistinctFields fields

def DistinctItems : List JsonTree → Prop
  | [] => True
  | item :: items => Distinct item ∧ DistinctItems items

def DistinctFields : List (JsString × JsonTree) → Prop
  | [] => True
  | (_, value) :: fields => Distinct value ∧ DistinctFields fields

end

end JsonTree

/-! ### The order of fields -/

/-- A name that is an index: a whole number below 2^32 - 1 as it is printed. -/
def indexOf (key : JsString) : Option ℕ :=
  let value := key.foldl (fun value code => 10 * value + (code - 0x30)) 0
  if key = utf16 (toString value) ∧ value < 2 ^ 32 - 1 then some value else none

/-- The order in which the runtime lists fields: indices first, then as they were set. -/
def ownOrder {α : Type*} (fields : List (JsString × α)) : List (JsString × α) :=
  (fields.filter fun field => (indexOf field.1).isSome).insertionSort
    (fun field other => (indexOf field.1).getD 0 ≤ (indexOf other.1).getD 0) ++
  fields.filter fun field => (indexOf field.1).isNone

section OwnOrder

variable {α β : Type*}

theorem perm_ownOrder (fields : List (JsString × α)) : (ownOrder fields).Perm fields := by
  have split := List.filter_append_perm (fun field : JsString × α => (indexOf field.1).isSome) fields
  refine ((List.perm_insertionSort _ _).append_right _).trans ?_
  have others : (fields.filter fun field => (indexOf field.1).isNone) =
      fields.filter fun field => !(indexOf field.1).isSome := by
    congr 1
    funext field
    rw [Option.not_isSome]
  rw [others]
  exact split

theorem ownOrder_map (f : α → β) (fields : List (JsString × α)) :
    ownOrder (fields.map fun field => (field.1, f field.2)) =
      (ownOrder fields).map fun field => (field.1, f field.2) := by
  unfold ownOrder
  rw [List.filter_map, List.filter_map, List.map_append]
  congr 1
  refine Eq.symm (List.map_insertionSort _ _ _ _ ?_)
  intro field _ other _
  exact Iff.rfl

end OwnOrder

/-! ### Texts -/

/-- Texts with commas between them, up to what closes them. -/
def closedBy (closing : ℕ) (texts : List JsString) : JsString := [0x2C].intercalate texts ++ [closing]

namespace JsonTree

mutual

/-- The text of a tree, with its fields in their order. -/
def render : JsonTree → JsString
  | .scalar value => value.text
  | .array items => 0x5B :: closedBy 0x5D (renderItems items)
  | .object fields => 0x7B :: closedBy 0x7D (renderFields fields)

def renderItems : List JsonTree → List JsString
  | [] => []
  | item :: items => render item :: renderItems items

def renderFields : List (JsString × JsonTree) → List JsString
  | [] => []
  | (key, value) :: fields => (jsonString key ++ 0x3A :: render value) :: renderFields fields

end

mutual

/-- The tree with its fields as the runtime lists them. -/
def listed : JsonTree → JsonTree
  | .scalar value => .scalar value
  | .array items => .array (listedItems items)
  | .object fields => .object (ownOrder (listedFields fields))

def listedItems : List JsonTree → List JsonTree
  | [] => []
  | item :: items => listed item :: listedItems items

def listedFields : List (JsString × JsonTree) → List (JsString × JsonTree)
  | [] => []
  | (key, value) :: fields => (key, listed value) :: listedFields fields

end

/-- `JSON.stringify`. -/
def stringify (tree : JsonTree) : JsString := tree.listed.render

theorem renderItems_eq_map (items : List JsonTree) : renderItems items = items.map render := by
  induction items with
  | nil => rfl
  | cons item items ih => rw [renderItems, List.map_cons, ih]

theorem renderFields_eq_map (fields : List (JsString × JsonTree)) : renderFields fields =
    fields.map fun field => jsonString field.1 ++ 0x3A :: render field.2 := by
  induction fields with
  | nil => rfl
  | cons field fields ih => rw [renderFields, List.map_cons, ih]

theorem listedItems_eq_map (items : List JsonTree) : listedItems items = items.map listed := by
  induction items with
  | nil => rfl
  | cons item items ih => rw [listedItems, List.map_cons, ih]

theorem listedFields_eq_map (fields : List (JsString × JsonTree)) :
    listedFields fields = fields.map fun field => (field.1, listed field.2) := by
  induction fields with
  | nil => rfl
  | cons field fields ih => rw [listedFields, List.map_cons, ih]

end JsonTree

section Injective

variable {α : Type*} {write : α → JsString} {item other : α} {items others : List α}
  {rest rest' : JsString} {closing : ℕ}

/-- What is written of an item is one item, and leaves what follows. -/
def Readable (write : α → JsString) (item : α) : Prop :=
  ∀ (other : α) (rest rest' : JsString), EndsScalar rest → EndsScalar rest' →
    write item ++ rest = write other ++ rest' → item = other ∧ rest = rest'

theorem closedBy_cons (first : JsString) (texts : List JsString) : closedBy closing (first :: texts) =
    first ++ if texts = [] then [closing] else 0x2C :: closedBy closing texts := by
  cases texts with
  | nil => simp [closedBy]
  | cons next texts => simp [closedBy, List.intercalate_cons_cons]

/-- A list of readable items is readable, if none of them begins with what closes it. -/
theorem closedBy_inj (ends : closing ∈ [0x5D, 0x7D])
    (readable : ∀ item ∈ items, Readable write item)
    (starts : ∀ item rest, (write item ++ rest).head? ≠ some closing)
    (same : closedBy closing (items.map write) ++ rest = closedBy closing (others.map write) ++ rest') :
    items = others ∧ rest = rest' := by
  have among : ∀ code ∈ [0x5D, 0x7D], code ∈ [0x2C, 0x5D, 0x7D] ∧ code ≠ 0x2C := by decide
  obtain ⟨closes, notComma⟩ := among closing ends
  induction items generalizing others with
  | nil =>
    cases others with
    | nil => exact ⟨rfl, (List.cons.inj same).2⟩
    | cons other others =>
      rw [List.map_cons, closedBy_cons, List.append_assoc] at same
      have heads := congrArg List.head? same
      exact absurd heads.symm (starts other _)
  | cons item items ih =>
    cases others with
    | nil =>
      rw [List.map_cons, closedBy_cons, List.append_assoc] at same
      have heads := congrArg List.head? same
      exact absurd heads (starts item _)
    | cons other others =>
      rw [List.map_cons, List.map_cons, closedBy_cons, closedBy_cons, List.append_assoc,
        List.append_assoc] at same
      have endsAfter : ∀ (texts : List JsString) (rest : JsString),
          EndsScalar ((if texts = [] then [closing] else 0x2C :: closedBy closing texts) ++ rest) := by
        intro texts rest
        split_ifs
        · exact endsScalar_cons closes rest
        · exact endsScalar_cons (by decide) _
      obtain ⟨rfl, behind⟩ := readable item List.mem_cons_self other _ _ (endsAfter _ _) (endsAfter _ _) same
      have others' : ∀ item ∈ items, Readable write item :=
        fun next member => readable next (List.mem_cons_of_mem _ member)
      by_cases noItems : items = []
      · subst noItems
        by_cases noOthers : others = []
        · subst noOthers
          exact ⟨rfl, (List.cons.inj behind).2⟩
        · rw [List.map_nil, if_pos rfl, if_neg (by simpa using noOthers)] at behind
          exact absurd (List.cons.inj behind).1 notComma
      · by_cases noOthers : others = []
        · subst noOthers
          rw [List.map_nil, if_pos rfl, if_neg (by simpa using noItems)] at behind
          exact absurd (List.cons.inj behind).1.symm notComma
        · rw [if_neg (by simpa using noItems), if_neg (by simpa using noOthers)] at behind
          obtain ⟨rfl, rests⟩ := ih others' (List.cons.inj behind).2
          exact ⟨rfl, rests⟩

end Injective

namespace JsonTree

/-- What begins the text of a tree. -/
def start : JsonTree → ℕ
  | .scalar value => value.start
  | .array _ => 0x5B
  | .object _ => 0x7B

theorem render_eq_cons (tree : JsonTree) :
    ∃ code rest, tree.render = code :: rest ∧ startOf code = tree.start := by
  cases tree with
  | scalar value => exact value.text_eq_cons
  | array items => exact ⟨_, _, rfl, rfl⟩
  | object fields => exact ⟨_, _, rfl, rfl⟩

theorem start_mem (tree : JsonTree) :
    tree.start ∈ [0x6E, 0x74, 0x66, 0x30, 0x22, 0x5B, 0x7B] := by
  match tree with
  | .scalar .null | .scalar (.boolean true) | .scalar (.boolean false) => simp [start, JsonScalar.start]
  | .scalar (.number _) | .scalar (.string _) => simp [start, JsonScalar.start]
  | .array _ | .object _ => simp [start]

theorem start_eq {first second : JsonTree} {rest rest' : JsString}
    (same : first.render ++ rest = second.render ++ rest') : first.start = second.start := by
  obtain ⟨code, later, isFirst, start⟩ := first.render_eq_cons
  obtain ⟨code', later', isSecond, start'⟩ := second.render_eq_cons
  rw [isFirst, isSecond] at same
  rw [← start, ← start', (List.cons.inj same).1]

theorem head?_render_ne {closing : ℕ} (closes : closing ∈ [0x5D, 0x7D]) (tree : JsonTree)
    (rest : JsString) : (tree.render ++ rest).head? ≠ some closing := by
  obtain ⟨code, later, isRendered, start⟩ := tree.render_eq_cons
  rw [isRendered]
  intro same
  cases same
  have differs : ∀ code ∈ [0x5D, 0x7D], startOf code ∉ [0x6E, 0x74, 0x66, 0x30, 0x22, 0x5B, 0x7B] := by
    decide
  exact differs closing closes (start ▸ tree.start_mem)

/-- What is written of a field. -/
abbrev renderField (field : JsString × JsonTree) : JsString :=
  jsonString field.1 ++ 0x3A :: render field.2

theorem readable_field {field : JsString × JsonTree} (readable : Readable render field.2) :
    Readable renderField field := by
  intro other rest rest' ends ends' same
  rw [List.append_assoc, List.append_assoc] at same
  obtain ⟨keys, behind⟩ := jsonString_inj same
  obtain ⟨values, rests⟩ := readable other.2 rest rest' ends ends' (List.cons.inj behind).2
  exact ⟨Prod.ext keys values, rests⟩

mutual

theorem readable_render : ∀ tree : JsonTree, Readable render tree
  | .scalar value => by
    intro other rest rest' ends ends' same
    have starts := start_eq same
    cases other with
    | scalar value' =>
      obtain ⟨values, rests⟩ := JsonScalar.text_inj ends ends' same
      exact ⟨congrArg scalar values, rests⟩
    | array items =>
      rcases value with _ | (_ | _) | _ | _ <;> simp [start, JsonScalar.start] at starts
    | object fields =>
      rcases value with _ | (_ | _) | _ | _ <;> simp [start, JsonScalar.start] at starts
  | .array items => by
    intro other rest rest' ends ends' same
    have starts := start_eq same
    cases other with
    | scalar value =>
      rcases value with _ | (_ | _) | _ | _ <;> simp [start, JsonScalar.start] at starts
    | array others =>
      rw [render, render, renderItems_eq_map, renderItems_eq_map] at same
      obtain ⟨sameItems, rests⟩ := closedBy_inj (by decide) (readable_items items)
        (fun item rest => head?_render_ne (by decide) item rest) (List.cons.inj same).2
      exact ⟨congrArg array sameItems, rests⟩
    | object fields => simp [start] at starts
  | .object fields => by
    intro other rest rest' ends ends' same
    have starts := start_eq same
    cases other with
    | scalar value =>
      rcases value with _ | (_ | _) | _ | _ <;> simp [start, JsonScalar.start] at starts
    | array items => simp [start] at starts
    | object others =>
      rw [render, render, renderFields_eq_map, renderFields_eq_map] at same
      obtain ⟨sameFields, rests⟩ := closedBy_inj (by decide) (readable_fields fields)
        (fun field rest quote => by cases quote) (List.cons.inj same).2
      exact ⟨congrArg object sameFields, rests⟩

theorem readable_items : ∀ items : List JsonTree, ∀ item ∈ items, Readable render item
  | [] => fun _ member => by cases member
  | item :: items => fun other member => by
    rcases List.mem_cons.mp member with same | member
    · rw [same]
      exact readable_render item
    · exact readable_items items other member

theorem readable_fields : ∀ fields : List (JsString × JsonTree), ∀ field ∈ fields,
    Readable renderField field
  | [] => fun _ member => by cases member
  | (key, value) :: fields => fun other member => by
    rcases List.mem_cons.mp member with same | member
    · rw [same]
      exact readable_field (readable_render value)
    · exact readable_fields fields other member

end

/-- Trees have one text exactly when they are listed alike. -/
theorem stringify_eq_iff (first second : JsonTree) :
    first.stringify = second.stringify ↔ first.listed = second.listed := by
  constructor
  · intro same
    have texts : first.listed.render ++ [] = second.listed.render ++ [] := congrArg (· ++ []) same
    exact (readable_render _ _ _ _ endsScalar_nil endsScalar_nil texts).1
  · intro same
    rw [stringify, stringify, same]

end JsonTree

end MalloyPublisher.Foundations
