import Mathlib.Data.List.Forall2
import MalloyPublisher.QueryText.Tokens

/-!
# Filter values in the text of a query

A source declares filters on its dimensions. The values a caller gives for them are written into one
clause, and the clause is put behind the caller's query as a refinement. All of it is text: a value
must be read back as one literal, and the refinement must be read at all.

## Main definitions

* `buildFilterClause`, `injectFilterRefinement` — the text that is written
* `clauseTokens` — the tokens a clause is meant to have
* `Writable` — the values and dimensions whose text is read back

## Main results

* `lexes_buildFilterClause` — what is written of writable values is read as them
* `buildFilterClause_eq_error_iff` — when a clause is refused
* `takeWhile_injectFilterRefinement` — no comment of the query runs into the refinement
-/

namespace MalloyPublisher.Access

open Foundations QueryText

/-! ## What is written -/

inductive FilterType
  | equal | in' | like | greater_than | less_than
deriving DecidableEq

structure FilterDefinition where
  name : String
  dimension : String
  type : FilterType
  required : Bool

/-- What a caller gives for a filter: a text, or an array of texts. -/
inductive FilterValue
  | one (text : String)
  | many (texts : List String)
deriving DecidableEq

/-- The values of a query, by the names of filters. -/
abbrev FilterParams := String → Option FilterValue

/-- `Array.isArray(value) ? value : [value]`. -/
def FilterValue.values : FilterValue → List String
  | .one text => [text]
  | .many texts => texts

/-- `Array.isArray(value) ? value[0] : value`, of a value that is there. -/
def FilterValue.first (value : FilterValue) : String := value.values.headD ""

/-- A value counts as given where it is not empty. -/
def FilterValue.hasValue : FilterValue → Bool
  | .one text => text ≠ ""
  | .many texts => texts ≠ []

def escapeMalloyString (value : String) : String :=
  String.ofList ((value.toList.flatMap fun c => if c = '\\' then ['\\', '\\'] else [c]).flatMap
    fun c => if c = '\'' then ['\\', '\''] else [c])

/-- `^\d{4}-\d{2}-\d{2}$`. -/
def isIsoDate : List Char → Bool
  | [a, b, c, d, mark, e, f, mark', g, h] =>
    [a, b, c, d, e, f, g, h].all Char.isDigit && mark = '-' && mark' = '-'
  | _ => false

/-- `[T ]\d{2}:\d{2}`. -/
def isClock : List Char → Bool
  | [separator, a, b, mark, c, d] =>
    (separator = 'T' || separator = ' ') && [a, b, c, d].all Char.isDigit && mark = ':'
  | _ => false

/-- A timestamp is known by how it begins, whatever follows. -/
def isDateLiteral (v : String) : Bool :=
  isIsoDate v.toList ||
    isIsoDate (v.toList.take 10) && isClock ((v.toList.drop 10).take 6)

section Written

variable (toLowerCase : String → String)

def isBooleanLiteral (v : String) : Bool := toLowerCase v = "true" || toLowerCase v = "false"

def malloyLiteral (v : String) : String :=
  if isBooleanLiteral toLowerCase v then toLowerCase v
  else if isDateLiteral v then "@" ++ String.ofList (v.toList.take 10)
  else "'" ++ escapeMalloyString v ++ "'"

/-- A text between percent signs, unless it begins or ends with one. -/
def likePattern (escaped : String) : String :=
  if escaped.toList.head? = some '%' ∨ escaped.toList.getLast? = some '%' then escaped
  else "%" ++ escaped ++ "%"

/-- The dimension of a filter, as it stands in a predicate. -/
def FilterDefinition.dim (filter : FilterDefinition) : String :=
  "\x60" ++ filter.dimension ++ "\x60"

def buildPredicate (filter : FilterDefinition) (value : FilterValue) : String :=
  match filter.type with
  | .equal => filter.dim ++ " = " ++ malloyLiteral toLowerCase value.first
  | .in' =>
    match value.values with
    | [v] => filter.dim ++ " = " ++ malloyLiteral toLowerCase v
    | values =>
      "(" ++ " or ".intercalate
        (values.map fun v => filter.dim ++ " = " ++ malloyLiteral toLowerCase v) ++ ")"
  | .like =>
    "lower(" ++ filter.dim ++ ") ~ '" ++
      likePattern (escapeMalloyString (toLowerCase value.first)) ++ "'"
  | .greater_than => filter.dim ++ " > " ++ malloyLiteral toLowerCase value.first
  | .less_than => filter.dim ++ " < " ++ malloyLiteral toLowerCase value.first

/-- What a caller gives for a filter, where it counts. -/
def FilterParams.given (params : FilterParams) (filter : FilterDefinition) : Option FilterValue :=
  (params filter.name).filter FilterValue.hasValue

/-- The message of a `FilterValidationError`. -/
def FilterDefinition.notProvided (filter : FilterDefinition) : String :=
  "Required filter \"" ++ filter.name ++ "\" (dimension: " ++ filter.dimension ++
    ") was not provided"

/-- The predicates of the filters that have values, up to the first that lacks a required one. -/
def buildPredicates (params : FilterParams) :
    List FilterDefinition → Except String (List String)
  | [] => .ok []
  | filter :: filters =>
    match params.given filter with
    | none =>
      if filter.required then .error filter.notProvided else buildPredicates params filters
    | some value =>
      (buildPredicates params filters).map (buildPredicate toLowerCase filter value :: ·)

def buildFilterClause (filters : List FilterDefinition) (params : FilterParams) :
    Except String String :=
  (buildPredicates toLowerCase params filters).map fun predicates =>
    if predicates.isEmpty then "" else " and ".intercalate predicates

end Written

/-- `String.prototype.trimEnd`. -/
def trimEnd (text : String) : List Char := (text.toList.reverse.dropWhile isSpace).reverse

/-- The refinement stands on a line of its own. -/
def injectFilterRefinement (query filterClause : String) : String :=
  if filterClause = "" then query
  else String.ofList (trimEnd query) ++ "\n+ \x7bwhere: " ++ filterClause ++ "\x7d"

/-! ## What is meant -/

section Meant

variable (toLowerCase : String → String) (wrap : List Char → List Char)

/-- The one token of a value. -/
def literalToken (v : String) : Token :=
  if isBooleanLiteral toLowerCase v then .word (toLowerCase v).toList
  else if isDateLiteral v then .date (v.toList.take 10)
  else .literal v.toList

def comparison (filter : FilterDefinition) (operator : Char) (v : String) : List Token :=
  [.identifier filter.dimension.toList, .symbol operator, literalToken toLowerCase v]

/-- The tokens of the predicate of one filter. -/
def predicateTokens (filter : FilterDefinition) (value : FilterValue) : List Token :=
  match filter.type with
  | .equal => comparison toLowerCase filter '=' value.first
  | .in' =>
    match value.values with
    | [v] => comparison toLowerCase filter '=' v
    | values =>
      .symbol '(' :: [.word "or".toList].intercalate (values.map (comparison toLowerCase filter '='))
        ++ [.symbol ')']
  | .like =>
    [.word "lower".toList, .symbol '(', .identifier filter.dimension.toList, .symbol ')',
      .symbol '~', .literal (wrap (toLowerCase value.first).toList)]
  | .greater_than => comparison toLowerCase filter '>' value.first
  | .less_than => comparison toLowerCase filter '<' value.first

/-- The tokens of a clause: a predicate for each filter with a value, in order. -/
def clauseTokens (filters : List FilterDefinition) (params : FilterParams) : List Token :=
  [.word "and".toList].intercalate (filters.filterMap fun filter =>
    (params.given filter).map (predicateTokens toLowerCase wrap filter))

/-- A text between percent signs. -/
def wrapped (text : List Char) : List Char := '%' :: (text ++ ['%'])

/-- A text between percent signs, unless it begins or ends with one. -/
def wrappedOnce (text : List Char) : List Char :=
  if text.head? = some '%' ∨ text.getLast? = some '%' then text else wrapped text

/-- A value that is written as a literal ends no line. -/
def WritableValue (v : String) : Prop :=
  isBooleanLiteral toLowerCase v ∨ isDateLiteral v ∨ '\n' ∉ v.toList

/-- A filter and its value are written so that they are read: the dimension ends no name, and what
stands in literals ends no line. -/
structure Writable (filter : FilterDefinition) (value : FilterValue) : Prop where
  dimension : ∀ c ∈ filter.dimension.toList, c ≠ '\x60' ∧ c ≠ '\\' ∧ c ≠ '\n'
  values : match filter.type with
    | .in' => ∀ v ∈ value.values, WritableValue toLowerCase v
    | .like => '\n' ∉ (toLowerCase value.first).toList
    | _ => WritableValue toLowerCase value.first

/-- What the clause is read as, were a pattern always put between percent signs and any value
writable. -/
def ReadsAsWritten (filters : List FilterDefinition) (params : FilterParams) : Prop :=
  ∀ clause, buildFilterClause toLowerCase filters params = .ok clause →
    readTokens clause.toList = some (clauseTokens toLowerCase wrap filters params)

end Meant

/-! ## What is read -/

section Read

variable {toLowerCase : String → String} {filter : FilterDefinition} {v : String}

/-- How one character is escaped. -/
def malloyEscape (c : Char) : List Char :=
  if c = '\\' then ['\\', '\\'] else if c = '\'' then ['\\', '\''] else [c]

theorem toList_escapeMalloyString (value : String) :
    (escapeMalloyString value).toList = value.toList.flatMap malloyEscape := by
  rw [escapeMalloyString, String.toList_ofList, List.flatMap_assoc]
  refine List.flatMap_congr fun c _ => ?_
  unfold malloyEscape
  by_cases backslash : c = '\\'
  · subst backslash
    rfl
  · by_cases quote : c = '\'' <;> simp [backslash, quote]

/-- What is escaped is read, unless it ends the line. -/
theorem writes_malloyEscape {c : Char} (noBreak : c ≠ '\n') :
    (QueryText.quoted '\'').Writes malloyEscape c := by
  intro rest
  unfold malloyEscape
  split_ifs with backslash quote
  · subst backslash
    exact @LiteralRules.read_escaped (QueryText.quoted '\'') '\\' rest malloyUnescape rfl (by decide)
  · subst quote
    exact @LiteralRules.read_escaped (QueryText.quoted '\'') '\'' rest malloyUnescape rfl (by decide)
  · exact LiteralRules.read_plain quote (fun is => absurd is backslash) fun is => absurd is noBreak

theorem closed_escaped {value : List Char} (noBreak : '\n' ∉ value) :
    Closed ('\'' :: (value.flatMap malloyEscape ++ ['\''])) [.literal value] :=
  closed_literal fun _ member => writes_malloyEscape fun isBreak => noBreak (isBreak ▸ member)

theorem isDateChar_of_isIsoDate {text : List Char} (isDate : isIsoDate text = true) :
    text.length = 10 ∧ ∀ c ∈ text, isDateChar c = true := by
  unfold isIsoDate at isDate
  split at isDate
  · simp only [List.all_cons, List.all_nil, Bool.and_true, Bool.and_eq_true, decide_eq_true_eq]
      at isDate
    simp [isDateChar, isDate]
  · cases isDate

/-- What stands behind the mark of a date. -/
theorem isDateChar_take (isDate : isDateLiteral v = true) :
    ∀ c ∈ v.toList.take 10, isDateChar c = true := by
  rw [isDateLiteral, Bool.or_eq_true, Bool.and_eq_true] at isDate
  obtain whole | ⟨front, -⟩ := isDate
  · intro c member
    exact (isDateChar_of_isIsoDate whole).2 c (List.mem_of_mem_take member)
  · exact (isDateChar_of_isIsoDate front).2

theorem lexes_malloyLiteral (writable : WritableValue toLowerCase v) :
    Lexes (malloyLiteral toLowerCase v).toList [literalToken toLowerCase v] := by
  unfold malloyLiteral literalToken
  split_ifs with boolean date
  · rw [isBooleanLiteral, Bool.or_eq_true, decide_eq_true_eq, decide_eq_true_eq] at boolean
    rcases boolean with isTrue | isFalse
    · have letters : "true".toList = ['t', 'r', 'u', 'e'] := rfl
      rw [isTrue, letters]
      exact lexes_word (by simp [isIdentifierChar]) (by decide) (by decide)
    · have letters : "false".toList = ['f', 'a', 'l', 's', 'e'] := rfl
      rw [isFalse, letters]
      exact lexes_word (by simp [isIdentifierChar]) (by decide) (by simp)
  · have mark : "@".toList = ['@'] := rfl
    rw [String.toList_append, mark, String.toList_ofList, List.singleton_append]
    exact lexes_date (isDateChar_take date)
  · have noBreak : '\n' ∉ v.toList := (writable.resolve_left boolean).resolve_left date
    have mark : "'".toList = ['\''] := rfl
    rw [String.toList_append, String.toList_append, toList_escapeMalloyString, mark,
      List.singleton_append, List.cons_append]
    exact (closed_escaped noBreak).lexes

theorem closed_dim (plain : ∀ c ∈ filter.dimension.toList, c ≠ '\x60' ∧ c ≠ '\\' ∧ c ≠ '\n') :
    Closed filter.dim.toList [.identifier filter.dimension.toList] := by
  have mark : "\x60".toList = ['\x60'] := rfl
  rw [FilterDefinition.dim, String.toList_append, String.toList_append, mark,
    List.singleton_append, List.cons_append]
  exact closed_name plain

/-- A dimension, an operator and a value. -/
theorem lexes_comparison {operator : Char} (isSymbol : operator ∈ symbols)
    (plain : ∀ c ∈ filter.dimension.toList, c ≠ '\x60' ∧ c ≠ '\\' ∧ c ≠ '\n')
    (writable : WritableValue toLowerCase v) :
    Lexes (filter.dim.toList ++ ' ' :: operator :: ' ' :: (malloyLiteral toLowerCase v).toList)
      (comparison toLowerCase filter operator v) :=
  (closed_dim plain).append_lexes ((closed_space (by decide)).append_lexes
    ((lexes_malloyLiteral writable).symbol_space isSymbol))

theorem head?_escaped (text : List Char) :
    (text.flatMap malloyEscape).head? = some '%' ↔ text.head? = some '%' := by
  cases text with
  | nil => simp
  | cons c text =>
    unfold malloyEscape
    by_cases backslash : c = '\\'
    · simp [backslash]
    · by_cases quote : c = '\'' <;> simp [backslash, quote]

theorem getLast?_escaped (text : List Char) :
    (text.flatMap malloyEscape).getLast? = some '%' ↔ text.getLast? = some '%' := by
  obtain rfl | ⟨text, c, rfl⟩ := text.eq_nil_or_concat'
  · simp
  · rw [List.flatMap_append, List.flatMap_singleton]
    unfold malloyEscape
    by_cases backslash : c = '\\'
    · simp [backslash]
    · by_cases quote : c = '\'' <;> simp [backslash, quote]

/-- A pattern is the escaped text of a pattern. -/
theorem toList_likePattern (value : String) :
    (likePattern (escapeMalloyString value)).toList =
      (wrappedOnce value.toList).flatMap malloyEscape := by
  have mark : "%".toList = ['%'] := rfl
  unfold likePattern wrappedOnce
  simp only [toList_escapeMalloyString, head?_escaped, getLast?_escaped]
  split_ifs
  · exact toList_escapeMalloyString value
  · rw [String.toList_append, String.toList_append, toList_escapeMalloyString, mark, wrapped,
      List.flatMap_cons, List.flatMap_append, List.flatMap_singleton]
    rfl

theorem not_mem_wrappedOnce {text : List Char} (noBreak : '\n' ∉ text) :
    '\n' ∉ wrappedOnce text := by
  unfold wrappedOnce wrapped
  split_ifs
  · exact noBreak
  · simp [noBreak]

theorem lexes_like (noBreak : '\n' ∉ v.toList)
    (plain : ∀ c ∈ filter.dimension.toList, c ≠ '\x60' ∧ c ≠ '\\' ∧ c ≠ '\n') :
    Closed ("lower(" ++ filter.dim ++ ") ~ '" ++ likePattern (escapeMalloyString v) ++ "'").toList
      [.word "lower".toList, .symbol '(', .identifier filter.dimension.toList, .symbol ')',
        .symbol '~', .literal (wrappedOnce v.toList)] := by
  have opens : "lower(".toList = ['l', 'o', 'w', 'e', 'r'] ++ ['('] := rfl
  have closes : ") ~ '".toList = [')', ' ', '~', ' ', '\''] := rfl
  have mark : "'".toList = ['\''] := rfl
  have word : Lexes ['l', 'o', 'w', 'e', 'r'] [.word "lower".toList] :=
    lexes_word (by simp [isIdentifierChar]) (by decide) (by decide)
  have body := closed_escaped (not_mem_wrappedOnce noBreak)
  have pattern := (closed_space (c := ' ') (by decide)).append
    ((closed_symbol (c := '~') (by decide)).append ((closed_space (c := ' ') (by decide)).append body))
  have behind := (closed_dim plain).append ((closed_symbol (c := ')') (by decide)).append pattern)
  have whole := word.append_closed ((closed_symbol (c := '(') (by decide)).append behind)
    (ends_cons (by decide) (by decide) (by decide))
  simp only [String.toList_append, opens, closes, mark, toList_likePattern]
  simpa using whole

variable {value : FilterValue}

theorem toList_comparison (operator : Char) :
    (filter.dim ++ String.ofList [' ', operator, ' '] ++ malloyLiteral toLowerCase v).toList =
      filter.dim.toList ++ ' ' :: operator :: ' ' :: (malloyLiteral toLowerCase v).toList := by
  rw [String.toList_append, String.toList_append, String.toList_ofList, List.append_assoc]
  rfl

/-- Alternatives are read one by one, between brackets. -/
theorem closed_alternatives {values : List String}
    (plain : ∀ c ∈ filter.dimension.toList, c ≠ '\x60' ∧ c ≠ '\\' ∧ c ≠ '\n')
    (writable : ∀ v ∈ values, WritableValue toLowerCase v) :
    Closed ("(" ++ " or ".intercalate
        (values.map fun v => filter.dim ++ " = " ++ malloyLiteral toLowerCase v) ++ ")").toList
      (.symbol '(' :: [.word "or".toList].intercalate (values.map (comparison toLowerCase filter '='))
        ++ [.symbol ')']) := by
  have opens : "(".toList = ['('] := rfl
  have closes : ")".toList = [')'] := rfl
  have or : " or ".toList = ' ' :: ['o', 'r', ' '] := rfl
  have word : Lexes ['o', 'r'] [.word "or".toList] :=
    lexes_word (by simp [isIdentifierChar]) (by decide) (by decide)
  have separator : Closed (' ' :: ['o', 'r', ' ']) [.word "or".toList] :=
    (closed_space (by decide)).append (word.append_closed (closed_space (by decide))
      (ends_cons (by decide) (by decide) (by decide)))
  have alternatives : List.Forall₂ Lexes
      ((values.map fun v => filter.dim ++ " = " ++ malloyLiteral toLowerCase v).map String.toList)
      (values.map (comparison toLowerCase filter '=')) := by
    rw [List.forall₂_map_left_iff, List.forall₂_map_left_iff, List.forall₂_map_right_iff,
      List.forall₂_same]
    intro v member
    have read := lexes_comparison (by decide : '=' ∈ symbols) plain (writable v member)
    rwa [← toList_comparison] at read
  have joined := lexes_intercalate separator (ends_cons (by decide) (by decide) (by decide))
    alternatives
  have whole := (closed_symbol (c := '(') (by decide)).append
    (joined.append_closed (closed_symbol (c := ')') (by decide))
      (ends_cons (by decide) (by decide) (by decide)))
  rw [String.toList_append, String.toList_append, String.toList_intercalate, opens, closes, or,
    List.append_assoc]
  exact whole

/-- The predicate of a filter is read as its tokens. -/
theorem lexes_buildPredicate (writable : Writable toLowerCase filter value) :
    Lexes (buildPredicate toLowerCase filter value).toList
      (predicateTokens toLowerCase wrappedOnce filter value) := by
  obtain ⟨plain, values⟩ := writable
  unfold buildPredicate predicateTokens
  cases isType : filter.type with
  | equal =>
    rw [isType] at values
    have read := lexes_comparison (by decide : '=' ∈ symbols) plain values
    rwa [← toList_comparison] at read
  | greater_than =>
    rw [isType] at values
    have read := lexes_comparison (by decide : '>' ∈ symbols) plain values
    rwa [← toList_comparison] at read
  | less_than =>
    rw [isType] at values
    have read := lexes_comparison (by decide : '<' ∈ symbols) plain values
    rwa [← toList_comparison] at read
  | like =>
    rw [isType] at values
    exact (lexes_like values plain).lexes
  | in' =>
    rw [isType] at values
    dsimp only at values ⊢
    split
    · next v single =>
      have read := lexes_comparison (by decide : '=' ∈ symbols) plain
        (values v (single ▸ List.mem_singleton_self v))
      rwa [← toList_comparison] at read
    · exact (closed_alternatives plain values).lexes

end Read

/-! ## Clauses -/

section Clause

variable {toLowerCase : String → String} {filters : List FilterDefinition} {params : FilterParams}
  {clause : String}

/-- A filter that must have a value and has none. -/
def FilterParams.lacks (params : FilterParams) (filter : FilterDefinition) : Bool :=
  filter.required && (params.given filter).isNone

/-- The first filter that lacks its value is reported; without one, each given value makes a
predicate. -/
theorem buildPredicates_eq :
    buildPredicates toLowerCase params filters =
      match filters.find? params.lacks with
      | some filter => .error filter.notProvided
      | none => .ok (filters.filterMap fun filter =>
          (params.given filter).map (buildPredicate toLowerCase filter)) := by
  induction filters with
  | nil => rfl
  | cons filter filters ih =>
    rw [buildPredicates, List.find?_cons, FilterParams.lacks]
    cases given : params.given filter with
    | none =>
      cases required : filter.required with
      | true => rfl
      | false =>
        rw [List.filterMap_cons, given]
        exact ih
    | some value =>
      rw [ih, List.filterMap_cons, given]
      simp only [Option.isNone_some, Bool.and_false, Option.map_some]
      cases filters.find? params.lacks <;> rfl

theorem buildFilterClause_eq_error_iff {message : String} :
    buildFilterClause toLowerCase filters params = .error message ↔
      ∃ filter, filters.find? params.lacks = some filter ∧ filter.notProvided = message := by
  rw [buildFilterClause, buildPredicates_eq]
  cases filters.find? params.lacks with
  | none => simp [Except.map]
  | some filter => simp [Except.map]

/-- A clause is the conjunction of the predicates of the given values. -/
theorem toList_buildFilterClause (isClause : buildFilterClause toLowerCase filters params = .ok clause) :
    clause.toList = " and ".toList.intercalate ((filters.filterMap fun filter =>
      (params.given filter).map (buildPredicate toLowerCase filter)).map String.toList) := by
  rw [buildFilterClause, buildPredicates_eq] at isClause
  cases lacking : filters.find? params.lacks with
  | some filter =>
    rw [lacking] at isClause
    cases isClause
  | none =>
    rw [lacking] at isClause
    have same := Except.ok.inj isClause
    rw [← same]
    dsimp only
    split
    · next none =>
      rw [List.isEmpty_iff.mp none]
      rfl
    · exact String.toList_intercalate

/-- What is written of writable values is read as them. -/
theorem lexes_buildFilterClause
    (writable : ∀ filter ∈ filters, ∀ value ∈ params.given filter, Writable toLowerCase filter value)
    (isClause : buildFilterClause toLowerCase filters params = .ok clause) :
    Lexes clause.toList (clauseTokens toLowerCase wrappedOnce filters params) := by
  have and : " and ".toList = ' ' :: ['a', 'n', 'd', ' '] := rfl
  have word : Lexes ['a', 'n', 'd'] [.word "and".toList] :=
    lexes_word (by simp [isIdentifierChar]) (by decide) (by decide)
  have separator : Closed (' ' :: ['a', 'n', 'd', ' ']) [.word "and".toList] :=
    (closed_space (by decide)).append (word.append_closed (closed_space (by decide))
      (ends_cons (by decide) (by decide) (by decide)))
  have predicates : List.Forall₂ Lexes
      ((filters.filterMap fun filter =>
        (params.given filter).map (buildPredicate toLowerCase filter)).map String.toList)
      (filters.filterMap fun filter =>
        (params.given filter).map (predicateTokens toLowerCase wrappedOnce filter)) := by
    clear isClause
    induction filters with
    | nil => exact .nil
    | cons filter filters ih =>
      have later := ih fun other member => writable other (List.mem_cons_of_mem _ member)
      rw [List.filterMap_cons, List.filterMap_cons]
      cases given : params.given filter with
      | none => exact later
      | some value =>
        exact .cons (lexes_buildPredicate (writable filter List.mem_cons_self value given)) later
  rw [toList_buildFilterClause isClause, and]
  exact lexes_intercalate separator (ends_cons (by decide) (by decide) (by decide)) predicates

/-! ### Refinements -/

/-- The tokens of a refinement that holds a clause. -/
def refinementTokens (tokens : List Token) : List Token :=
  [.symbol '+', .symbol '\x7b', .word "where".toList, .symbol ':'] ++ (tokens ++ [.symbol '\x7d'])

theorem toList_injectFilterRefinement (query : String) (some : clause ≠ "") :
    (injectFilterRefinement query clause).toList =
      trimEnd query ++ '\n' :: ("+ \x7bwhere: ".toList ++ clause.toList ++ ['\x7d']) := by
  have opens : "\n+ \x7bwhere: ".toList = '\n' :: "+ \x7bwhere: ".toList := rfl
  have closes : "\x7d".toList = ['\x7d'] := rfl
  rw [injectFilterRefinement, if_neg some, String.toList_append, String.toList_append,
    String.toList_append, String.toList_ofList, opens, closes]
  simp only [List.append_assoc, List.cons_append]

/-- A comment of the query ends where it did. -/
theorem takeWhile_injectFilterRefinement {query : String} (some : clause ≠ "")
    {before behind : List Char} (place : before ++ behind = trimEnd query) :
    ∃ later, (injectFilterRefinement query clause).toList = before ++ later ∧
      later.takeWhile (· ≠ '\n') = behind.takeWhile (· ≠ '\n') := by
  refine ⟨behind ++ '\n' :: ("+ \x7bwhere: ".toList ++ clause.toList ++ ['\x7d']), ?_, ?_⟩
  · rw [toList_injectFilterRefinement query some, ← place, List.append_assoc]
  · exact takeWhile_line (by decide) _ _

theorem lexes_refinement {tokens : List Token} (lexes : Lexes clause.toList tokens) :
    Lexes ("+ \x7bwhere: ".toList ++ clause.toList ++ ['\x7d']) (refinementTokens tokens) := by
  have opens : "+ \x7bwhere: ".toList =
      '+' :: ' ' :: '\x7b' :: (['w', 'h', 'e', 'r', 'e'] ++ [':', ' ']) := rfl
  have word : Lexes ['w', 'h', 'e', 'r', 'e'] [.word "where".toList] :=
    lexes_word (by simp [isIdentifierChar]) (by decide) (by decide)
  have colon : Closed [':', ' '] [.symbol ':'] :=
    (closed_symbol (by decide)).append (closed_space (c := ' ') (by decide))
  have keyword := (closed_symbol (c := '\x7b') (by decide)).append
    (word.append_closed colon (ends_cons (by decide) (by decide) (by decide)))
  have front := (closed_symbol (c := '+') (by decide)).append
    ((closed_space (c := ' ') (by decide)).append keyword)
  have body := lexes.append_closed (closed_symbol (c := '\x7d') (by decide))
    (ends_cons (by decide) (by decide) (by decide))
  rw [opens, List.append_assoc]
  exact (front.append body).lexes

/-- A clause of writable values is read as them, a required filter without a value is refused, and
a refinement is read behind any query. -/
theorem filter_values_are_read (toLowerCase : String → String) (filters : List FilterDefinition)
    (params : FilterParams) :
    (∀ clause, buildFilterClause toLowerCase filters params = .ok clause →
      (∀ filter ∈ filters, ∀ value ∈ params.given filter, Writable toLowerCase filter value) →
        readTokens clause.toList = some (clauseTokens toLowerCase wrappedOnce filters params) ∧
        ∀ query tokens, clause ≠ "" → readTokens (trimEnd query) = some tokens →
          readTokens (injectFilterRefinement query clause).toList =
            some (tokens ++ refinementTokens
              (clauseTokens toLowerCase wrappedOnce filters params))) ∧
    (∀ message, buildFilterClause toLowerCase filters params = .error message ↔
      ∃ filter, filters.find? params.lacks = some filter ∧ filter.notProvided = message) ∧
    ∀ query clause before behind, clause ≠ "" → before ++ behind = trimEnd query →
      ∃ later, (injectFilterRefinement query clause).toList = before ++ later ∧
        later.takeWhile (· ≠ '\n') = behind.takeWhile (· ≠ '\n') := by
  refine ⟨fun clause isClause writable => ?_, fun message => buildFilterClause_eq_error_iff, ?_⟩
  · have lexes := lexes_buildFilterClause writable isClause
    refine ⟨lexes.readTokens, fun query tokens some isRead => ?_⟩
    rw [toList_injectFilterRefinement query some, readTokens_line isRead,
      (lexes_refinement lexes).readTokens]
    rfl
  · intro query clause before behind some place
    exact takeWhile_injectFilterRefinement some place

/-- A value that ends a line is not read, and a pattern that begins with a percent sign is not put
between two. -/
theorem not_every_value_is_read :
    ¬ReadsAsWritten id wrapped [⟨"city", "city", .equal, false⟩] (fun _ => some (.one "\n")) ∧
      ¬ReadsAsWritten id wrapped [⟨"city", "city", .like, false⟩] (fun _ => some (.one "%a")) := by
  refine ⟨fun reads => ?_, fun reads => ?_⟩
  · have isRead := reads _ rfl
    revert isRead
    decide +kernel
  · have isRead := reads _ rfl
    revert isRead
    decide +kernel

end Clause

end MalloyPublisher.Access
