import MalloyPublisher.Foundations.KeyedRecord
import MalloyPublisher.Givens.TemporalText

/-!
# Givens in the address bar

A given is typed and a query parameter is text. A given is written as a parameter and read back by
its declared type, and it goes over in a request as it is, dates in the spelling of their type. A
text that its type does not read goes through as it was written.

## Main definitions

* `givenToParam`, `paramToGiven` — one given to a parameter and back
* `givensToParams`, `paramsToGivens`, `givensToRequest` — a row of them

## Main results

* `requestKept_of_wellTyped`, `requestKept_paramToGiven` — through a parameter a request is kept
* `urlRoundTrip` — through the address bar a row of givens makes the same request
-/

namespace MalloyPublisher.Givens

open Foundations

/-! ## One given -/

/-- A value of a control. A date is an instant in milliseconds. -/
inductive GivenValue
  | string (text : String)
  | number (value : Double)
  | boolean (value : Bool)
  | date (value : ℤ)
  | null

/-- A value in a request. -/
inductive RequestValue
  | string (text : String)
  | number (value : Double)
  | boolean (value : Bool)

/-- A given as a parameter. -/
def givenToParam (value : GivenValue) (type : Option String) : Option String :=
  match value with
  | .null => none
  | .date value => some (dateToRequest value type)
  | .string text => some text
  | .number value => some value.text
  | .boolean value => some (if value then "true" else "false")

def emptyMeansUnset : List String := ["boolean", "number", "date", "timestamp", "timestamptz"]

def isEmptyStringMeaningful (type : Option String) : Bool := !emptyMeansUnset.contains (type.getD "")

def isFilterType (type : Option String) : Bool :=
  "filter<".toList.isPrefixOf (type.getD "").toList

/-- A parameter as a value of the type that is declared. -/
def paramToGiven (type : Option String) (raw : String) : GivenValue :=
  if raw = "" ∧ !isEmptyStringMeaningful type then .null
  else if isFilterType type then .string raw
  else if type = some "number" then
    if trim raw.toList = [] then .string raw
    else
      match toNumber raw with
      | some parsed => .number parsed
      | none => .string raw
  else if type = some "boolean" then
    if raw = "true" then .boolean true
    else if raw = "false" then .boolean false
    else .string raw
  else if type = some "date" ∨ type = some "timestamp" ∨ type = some "timestamptz" then
    let text := restoreUrlPlus raw.toList
    match parseTemporal text (type = some "date") with
    | some instant => .date instant
    | none => .string (String.ofList text)
  else .string raw

/-- A given as a request takes it. -/
def givenToRequest (value : GivenValue) (type : Option String) : Option RequestValue :=
  match value with
  | .null => none
  | .date value => some (.string (dateToRequest value type))
  | .string text => some (.string text)
  | .number value => some (.number value)
  | .boolean value => some (.boolean value)

/-! ## A row of givens -/

/-- The types of the givens that are declared; one may be declared without. -/
abbrev DeclaredTypes := String → Option (Option String)

/-- Assign a property of an object. That of its prototype takes no text and no number. -/
def assign {α : Type*} (name : String) (value : α) (object : List (String × α)) :
    List (String × α) :=
  if name = "__proto__" then object else setKey name value object

/-- Assign a property for which there is a value. -/
def assignSome {α : Type*} (name : String) (value : Option α) (object : List (String × α)) :
    List (String × α) :=
  match value with
  | none => object
  | some value => assign name value object

def givensToParams (values : List (String × GivenValue)) (declaredTypes : DeclaredTypes) :
    List (String × String) :=
  values.foldl (fun params given =>
    assignSome given.1 (givenToParam given.2 (declaredTypes given.1).join) params) []

def givensToRequest (values : List (String × GivenValue)) (declaredTypes : DeclaredTypes) :
    List (String × RequestValue) :=
  values.foldl (fun request given =>
    assignSome given.1 (givenToRequest given.2 (declaredTypes given.1).join) request) []

def paramsToGivens (params : List (String × String)) (declaredTypes : DeclaredTypes) :
    List (String × GivenValue) :=
  params.foldl (fun values param =>
    match declaredTypes param.1 with
    | none => values
    | some type => setKey param.1 (paramToGiven type param.2) values) []

/-! ## A row through the address bar -/

section Rows

variable {type : Option String}

/-- Through a parameter a value makes the same request. -/
def RequestKept (type : Option String) (value : GivenValue) : Prop :=
  ((givenToParam value type).bind fun raw => givenToRequest (paramToGiven type raw) type) =
    givenToRequest value type

/-- The values of a type. -/
def WellTyped (type : Option String) : GivenValue → Prop
  | .null => True
  | .string _ => type = some "string" ∨ isFilterType type = true
  | .number _ => type = some "number"
  | .boolean _ => type = some "boolean"
  | .date _ => IsTemporal type

/-- No type is a filter that has no empty value. -/
theorem isEmptyStringMeaningful_of_isFilterType (isFilter : isFilterType type = true) :
    isEmptyStringMeaningful type = true := by
  by_contra unset
  simp only [isEmptyStringMeaningful, emptyMeansUnset, Bool.not_eq_true, Bool.not_eq_false',
    List.contains_iff_mem, List.mem_cons, List.not_mem_nil, or_false] at unset
  unfold isFilterType at isFilter
  rcases unset with same | same | same | same | same <;> rw [same] at isFilter <;>
    exact absurd isFilter (by decide)

theorem paramToGiven_temporal (temporal : IsTemporal type) {raw : String} (nonempty : raw ≠ "") :
    paramToGiven type raw =
      match parseTemporal (restoreUrlPlus raw.toList) (type = some "date") with
      | some instant => .date instant
      | none => .string (String.ofList (restoreUrlPlus raw.toList)) := by
  rcases temporal with rfl | rfl | rfl <;>
    rw [paramToGiven, if_neg (fun empty => nonempty empty.1), if_neg (by decide),
      if_neg (by decide), if_neg (by decide), if_pos (by decide)]

theorem requestKept_date (temporal : IsTemporal type) (instant : ℤ) :
    RequestKept type (.date instant) := by
  have nonempty : dateToRequest instant type ≠ "" := by
    rw [Ne, ← String.toList_inj]
    rcases temporal with rfl | rfl | rfl
    · simp [toList_dateToRequest_date]
    · simp [toList_dateToRequest_timestamp]
    · simp [toList_dateToRequest_timestamptz]
  have kept := restoreUrlPlus_of_notSpace (isSpace_dateToRequest instant type)
  simp only [RequestKept, givenToParam, givenToRequest, Option.bind_some]
  rw [paramToGiven_temporal temporal nonempty, kept]
  cases reads : parseTemporal (dateToRequest instant type).toList (type = some "date") with
  | none => simp [String.ofList_toList]
  | some other => simp [dateToRequest_of_parseTemporal temporal reads]

/-- A text that its type does not read goes through as it is. -/
theorem requestKept_string {raw : String} (through : paramToGiven type raw = .string raw) :
    RequestKept type (.string raw) := by
  simp [RequestKept, givenToParam, through, givenToRequest]

theorem requestKept_number (value : Double) : RequestKept (some "number") (.number value) := by
  have nonempty : value.text ≠ "" := by
    intro empty
    have blank := trim_text_ne_nil value
    rw [empty] at blank
    exact blank rfl
  have read : paramToGiven (some "number") value.text = .number value := by
    rw [paramToGiven, if_neg (fun empty => nonempty empty.1), if_neg (by decide), if_pos rfl,
      if_neg (trim_text_ne_nil value), toNumber_text]
  simp [RequestKept, givenToParam, read, givenToRequest]

theorem requestKept_boolean (value : Bool) : RequestKept (some "boolean") (.boolean value) := by
  cases value <;> rfl

theorem requestKept_null : RequestKept type .null := rfl

/-- Through a parameter a value of its type makes the same request. -/
theorem requestKept_of_wellTyped {value : GivenValue} (wellTyped : WellTyped type value) :
    RequestKept type value := by
  cases value with
  | null => exact requestKept_null
  | date instant => exact requestKept_date wellTyped instant
  | number value =>
    obtain rfl : type = some "number" := wellTyped
    exact requestKept_number value
  | boolean value =>
    obtain rfl : type = some "boolean" := wellTyped
    exact requestKept_boolean value
  | string text =>
    refine requestKept_string ?_
    rcases wellTyped with rfl | isFilter
    · rw [paramToGiven, if_neg (by simp [isEmptyStringMeaningful, emptyMeansUnset]),
        if_neg (by decide), if_neg (by decide), if_neg (by decide), if_neg (by decide)]
    · rw [paramToGiven, if_neg (by simp [isEmptyStringMeaningful_of_isFilterType isFilter]),
        if_pos isFilter]

/-- What a parameter is read as: a value of its type, or the text, which may have been restored. -/
theorem paramToGiven_cases (type : Option String) (raw : String) :
    match paramToGiven type raw with
    | .string text => text = raw ∨ IsTemporal type ∧ raw ≠ "" ∧
        text = String.ofList (restoreUrlPlus raw.toList) ∧
        parseTemporal (restoreUrlPlus raw.toList) (type = some "date") = none
    | value => WellTyped type value := by
  by_cases unset : raw = "" ∧ (!isEmptyStringMeaningful type) = true
  · simp [paramToGiven, unset, WellTyped]
  by_cases isFilter : isFilterType type = true
  · rw [paramToGiven, if_neg unset, if_pos isFilter]
    exact .inl rfl
  by_cases isNumber : type = some "number"
  · subst isNumber
    rw [paramToGiven, if_neg unset, if_neg isFilter, if_pos rfl]
    split_ifs
    · exact .inl rfl
    · cases toNumber raw with
      | none => exact .inl rfl
      | some parsed => rfl
  by_cases isBoolean : type = some "boolean"
  · subst isBoolean
    rw [paramToGiven, if_neg unset, if_neg isFilter, if_neg isNumber, if_pos rfl]
    split_ifs
    · rfl
    · rfl
    · exact .inl rfl
  by_cases temporal : IsTemporal type
  · have nonempty : raw ≠ "" := by
      rintro rfl
      refine unset ⟨rfl, ?_⟩
      rcases temporal with rfl | rfl | rfl <;> decide
    rw [paramToGiven_temporal temporal nonempty]
    cases reads : parseTemporal (restoreUrlPlus raw.toList) (type = some "date") with
    | none => exact .inr ⟨temporal, nonempty, rfl, rfl⟩
    | some instant => exact temporal
  · have other : ¬(type = some "date" ∨ type = some "timestamp" ∨ type = some "timestamptz") :=
      temporal
    rw [paramToGiven, if_neg unset, if_neg isFilter, if_neg isNumber, if_neg isBoolean, if_neg other]
    exact .inl rfl

theorem restoreUrlPlus_ne_nil {raw : List Char} (nonempty : raw ≠ []) : restoreUrlPlus raw ≠ [] := by
  unfold restoreUrlPlus
  dsimp only
  split_ifs with blank
  · exact nonempty
  · split
    · simp
    · exact blank

/-- Whatever a parameter is read as makes the same request through another. -/
theorem requestKept_paramToGiven (type : Option String) (raw : String) :
    RequestKept type (paramToGiven type raw) := by
  have cases := paramToGiven_cases type raw
  cases result : paramToGiven type raw with
  | string text =>
    rw [result] at cases
    refine requestKept_string ?_
    rcases cases with rfl | ⟨temporal, nonempty, rfl, refused⟩
    · exact result
    · -- Refused once, it is refused again.
      have some : String.ofList (restoreUrlPlus raw.toList) ≠ "" := by
        rw [Ne, ← String.toList_inj, String.toList_ofList]
        exact restoreUrlPlus_ne_nil fun empty => nonempty (String.toList_inj.mp empty)
      rw [paramToGiven_temporal temporal some, String.toList_ofList, restoreUrlPlus_restoreUrlPlus,
        refused]
  | null => exact requestKept_null
  | number value =>
    rw [result] at cases
    exact requestKept_of_wellTyped cases
  | boolean value =>
    rw [result] at cases
    exact requestKept_of_wellTyped cases
  | date value =>
    rw [result] at cases
    exact requestKept_of_wellTyped cases

/-- The values of givens that are declared, each of its type. -/
structure GivenRow (declaredTypes : DeclaredTypes) where
  values : List (String × GivenValue)
  keys : (values.map Prod.fst).Nodup
  wellTyped : ∀ given ∈ values, ∃ type,
    declaredTypes given.1 = some (some type) ∧ WellTyped (some type) given.2

/-- Query parameters, as they were typed. -/
structure Params where
  entries : List (String × String)
  keys : (entries.map Prod.fst).Nodup

/-- Two requests with the same givens, in whichever order. -/
def SameRequest (request again : List (String × RequestValue)) : Prop :=
  ∀ name, request.lookup name = again.lookup name

section Written

variable {α β : Type*} {step : List (String × β) → String × α → List (String × β)}

/-- Where each step writes what it makes of a value under its name, a name of a row has what was
made of its value. -/
theorem lookup_foldl_step (made : String → α → Option β)
    (steps : ∀ record keyed name, (step record keyed).lookup name =
      if name = keyed.1 then (made keyed.1 keyed.2).or (record.lookup name)
      else record.lookup name)
    {row : List (String × α)} (keys : (row.map Prod.fst).Nodup) (record : List (String × β))
    (name : String) :
    (row.foldl step record).lookup name =
      ((row.lookup name).bind (made name)).or (record.lookup name) := by
  induction row generalizing record with
  | nil => rfl
  | cons keyed row ih =>
    obtain ⟨key, value⟩ := keyed
    obtain ⟨absent, keys⟩ := List.nodup_cons.mp keys
    rw [List.foldl_cons, ih keys, steps]
    by_cases same : name = key
    · subst same
      have none : row.lookup name = none := by
        rw [← Option.not_isSome_iff_eq_none, isSome_lookup_iff]
        exact absent
      rw [none, if_pos rfl, List.lookup_cons_self]
      rfl
    · rw [if_neg same, List.lookup_cons, beq_eq_false_iff_ne.mpr same]

theorem lookup_assign (key name : String) (value : β) (object : List (String × β)) :
    (assign key value object).lookup name =
      if name = key ∧ key ≠ "__proto__" then some value else object.lookup name := by
  unfold assign
  split_ifs with proto written written
  · exact absurd proto written.2
  · rfl
  · rw [lookup_setKey, if_pos written.1]
  · rw [lookup_setKey, if_neg fun same => written ⟨same, proto⟩]

theorem lookup_assignSome (key name : String) (value : Option β) (object : List (String × β)) :
    (assignSome key value object).lookup name =
      if name = key then (if key = "__proto__" then none else value).or (object.lookup name)
      else object.lookup name := by
  cases value with
  | none => simp [assignSome]
  | some value =>
    rw [assignSome, lookup_assign]
    by_cases proto : key = "__proto__"
    · simp [proto]
    · by_cases same : name = key
      · simp [same, proto]
      · simp [same]

theorem nodup_assignSome {key : String} {value : Option β} {object : List (String × β)}
    (distinct : (object.map Prod.fst).Nodup) :
    ((assignSome key value object).map Prod.fst).Nodup := by
  cases value with
  | none => exact distinct
  | some value =>
    unfold assignSome assign
    split_ifs
    · exact distinct
    · exact nodup_setKey distinct

end Written

variable {declaredTypes : DeclaredTypes}

theorem lookup_givensToParams {values : List (String × GivenValue)}
    (keys : (values.map Prod.fst).Nodup) (name : String) :
    (givensToParams values declaredTypes).lookup name =
      (values.lookup name).bind fun value =>
        if name = "__proto__" then none else givenToParam value (declaredTypes name).join := by
  exact (lookup_foldl_step (fun name value =>
    if name = "__proto__" then none else givenToParam value (declaredTypes name).join)
    (fun _ _ _ => lookup_assignSome ..) keys [] name).trans Option.or_none

theorem lookup_givensToRequest {values : List (String × GivenValue)}
    (keys : (values.map Prod.fst).Nodup) (name : String) :
    (givensToRequest values declaredTypes).lookup name =
      (values.lookup name).bind fun value =>
        if name = "__proto__" then none else givenToRequest value (declaredTypes name).join := by
  exact (lookup_foldl_step (fun name value =>
    if name = "__proto__" then none else givenToRequest value (declaredTypes name).join)
    (fun _ _ _ => lookup_assignSome ..) keys [] name).trans Option.or_none

theorem lookup_paramsToGivens {params : List (String × String)}
    (keys : (params.map Prod.fst).Nodup) (name : String) :
    (paramsToGivens params declaredTypes).lookup name =
      (params.lookup name).bind fun raw =>
        (declaredTypes name).map fun type => paramToGiven type raw := by
  unfold paramsToGivens
  refine (lookup_foldl_step (fun name raw => (declaredTypes name).map fun type =>
    paramToGiven type raw) (fun record keyed name => ?_) keys [] name).trans Option.or_none
  cases declaredTypes keyed.1 with
  | none => simp
  | some type =>
    dsimp only
    rw [lookup_setKey]
    by_cases same : name = keyed.1
    · simp [same]
    · simp [same]

/-- What each step keeps distinct is distinct after all of them. -/
theorem nodup_givensToParams (values : List (String × GivenValue)) :
    ((givensToParams values declaredTypes).map Prod.fst).Nodup := by
  unfold givensToParams
  refine List.foldlRecOn (motive := fun params : List (String × String) =>
    (params.map Prod.fst).Nodup) values _ List.nodup_nil fun params distinct given _ => ?_
  exact nodup_assignSome distinct

theorem nodup_paramsToGivens (params : List (String × String)) :
    ((paramsToGivens params declaredTypes).map Prod.fst).Nodup := by
  unfold paramsToGivens
  refine List.foldlRecOn (motive := fun values : List (String × GivenValue) =>
    (values.map Prod.fst).Nodup) params _ List.nodup_nil fun values distinct param _ => ?_
  split
  · exact distinct
  · exact nodup_setKey distinct

/-- A row whose values are kept one by one makes the same request through the address bar. -/
theorem sameRequest_of_requestKept {values : List (String × GivenValue)}
    (keys : (values.map Prod.fst).Nodup)
    (kept : ∀ given ∈ values, ∃ type,
      declaredTypes given.1 = some type ∧ RequestKept type given.2) :
    SameRequest
      (givensToRequest (paramsToGivens (givensToParams values declaredTypes) declaredTypes)
        declaredTypes)
      (givensToRequest values declaredTypes) := by
  intro name
  rw [lookup_givensToRequest (nodup_paramsToGivens _),
    lookup_paramsToGivens (nodup_givensToParams _), lookup_givensToParams keys,
    lookup_givensToRequest keys]
  cases found : values.lookup name with
  | none => rfl
  | some value =>
    obtain ⟨type, declared, requestKept⟩ := kept (name, value) ((mem_iff_lookup keys).mpr found)
    by_cases proto : name = "__proto__"
    · simp [proto]
    · simp only [declared, Option.bind_some, proto, if_false, Option.map_some, Option.join_some]
      rw [← requestKept, Option.bind_assoc]
      simp

/-- Through the address bar a row of givens makes the same request, and so does whatever a hand put
there. -/
theorem urlRoundTrip (declaredTypes : DeclaredTypes) :
    (∀ givens : GivenRow declaredTypes, SameRequest
      (givensToRequest
        (paramsToGivens (givensToParams givens.values declaredTypes) declaredTypes) declaredTypes)
      (givensToRequest givens.values declaredTypes)) ∧
    ∀ params : Params,
      let decoded := paramsToGivens params.entries declaredTypes
      SameRequest
        (givensToRequest
          (paramsToGivens (givensToParams decoded declaredTypes) declaredTypes) declaredTypes)
        (givensToRequest decoded declaredTypes) := by
  constructor
  · intro givens
    refine sameRequest_of_requestKept givens.keys fun given member => ?_
    obtain ⟨type, declared, wellTyped⟩ := givens.wellTyped given member
    exact ⟨some type, declared, requestKept_of_wellTyped wellTyped⟩
  · intro params
    have keys := @nodup_paramsToGivens declaredTypes params.entries
    refine sameRequest_of_requestKept keys fun given member => ?_
    have read := (mem_iff_lookup keys).mp member
    rw [lookup_paramsToGivens params.keys] at read
    obtain ⟨raw, -, isMade⟩ := Option.bind_eq_some_iff.mp read
    obtain ⟨type, declared, made⟩ := Option.map_eq_some_iff.mp isMade
    exact ⟨type, declared, made ▸ requestKept_paramToGiven type raw⟩

end Rows

end MalloyPublisher.Givens
