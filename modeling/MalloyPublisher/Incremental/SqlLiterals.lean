import MalloyPublisher.Foundations.Literals
import MalloyPublisher.Incremental.PublishGate

/-!
# String boundaries as SQL literals

A string watermark is written as a quoted literal. The dialects read the literal by rules of their
own: all of them take a doubled quote for one, and two of them take a backslash for an escape.

## Main definitions

* `literalRules` — how a dialect reads its string literals
* `readSqlString` — a string literal off the front of an SQL text

## Main results

* `readSqlString_renderSqlBound` — what is written of a string is read as the string
-/

namespace MalloyPublisher.Incremental

open Foundations

/-- What a backslash makes of one character. -/
def sqlUnescape (c : Char) : Char :=
  match c with
  | 'n' => '\n'
  | 'r' => '\r'
  | 't' => '\t'
  | '0' => '\x00'
  | c => c

/-- The rules of the dialects a delta is allowed for. -/
def literalRules (dialect : String) : Option LiteralRules :=
  if dialect = "snowflake" ∨ dialect = "standardsql" then
    some { quote := '\'', doubles := true, escapes := some sqlUnescape, breaks := true }
  else if dialect = "postgres" ∨ dialect = "duckdb" then
    some { quote := '\'', doubles := true, escapes := none, breaks := true }
  else none

/-- A string literal off the front of a text, and what follows it. -/
def readSqlString (rules : LiteralRules) : List Char → Option (String × List Char)
  | [] => none
  | c :: rest =>
    if c = rules.quote then
      (rules.read rest).map fun (value, rest) => (String.ofList value, rest)
    else none

/-- How a character is written into a literal. -/
def sqlEscape (dialect : String) (c : Char) : List Char :=
  if c = '\'' then ['\'', '\'']
  else if c = '\\' ∧ (dialect = "snowflake" ∨ dialect = "standardsql") then ['\\', '\\']
  else [c]

theorem toList_escapeSqlString (value dialect : String) :
    (escapeSqlString value dialect).toList = value.toList.flatMap (sqlEscape dialect) := by
  have marks : "''".toList = ['\'', '\''] ∧ "\\\\".toList = ['\\', '\\'] := ⟨rfl, rfl⟩
  unfold escapeSqlString replaceChar
  by_cases backslash : dialect = "snowflake" ∨ dialect = "standardsql"
  · simp only [if_pos backslash, String.toList_ofList, marks, List.flatMap_assoc]
    refine List.flatMap_congr fun c _ => ?_
    unfold sqlEscape
    by_cases quote : c = '\''
    · subst quote
      rfl
    · simp [quote, backslash]
  · simp only [if_neg backslash, String.toList_ofList, marks]
    refine List.flatMap_congr fun c _ => ?_
    simp [sqlEscape, backslash]

/-- Each character is written so that the dialect reads it. -/
theorem writes_sqlEscape {dialect : String} {rules : LiteralRules}
    (isRules : literalRules dialect = some rules) (c : Char) :
    rules.Writes (sqlEscape dialect) c := by
  intro rest
  unfold literalRules at isRules
  unfold sqlEscape
  split_ifs at isRules with backslash plain
  · cases isRules
    split_ifs with quote escaped
    · cases quote
      exact LiteralRules.read_doubled rfl
    · cases escaped.1
      exact @LiteralRules.read_escaped ⟨'\'', true, some sqlUnescape, true⟩ '\\' rest sqlUnescape
        rfl (by decide)
    · refine LiteralRules.read_plain quote (fun isBackslash => ?_) fun _ => rfl
      exact absurd ⟨isBackslash, backslash⟩ escaped
  · cases isRules
    split_ifs with quote escaped
    · cases quote
      exact LiteralRules.read_doubled rfl
    · exact absurd escaped.2 backslash
    · exact LiteralRules.read_plain quote (fun _ => rfl) fun _ => rfl

theorem quote_of_literalRules {dialect : String} {rules : LiteralRules}
    (isRules : literalRules dialect = some rules) : rules.quote = '\'' := by
  unfold literalRules at isRules
  split_ifs at isRules
  · cases isRules
    rfl
  · cases isRules
    rfl

/-- What is escaped between quotes is read. -/
theorem readSqlString_escaped {dialect : String} {rules : LiteralRules}
    (isRules : literalRules dialect = some rules) (text : List Char) {rest : List Char}
    (single : rest.head? ≠ some '\'') :
    readSqlString rules ('\'' :: (text.flatMap (sqlEscape dialect) ++ '\'' :: rest)) =
      some (String.ofList text, rest) := by
  have quote := quote_of_literalRules isRules
  have read : rules.read (text.flatMap (sqlEscape dialect) ++ rules.quote :: rest) =
      some (text, rest) :=
    LiteralRules.read_flatMap (fun c _ => writes_sqlEscape isRules c)
      (by rw [quote]; exact fun _ => single)
  rw [quote] at read
  simp only [readSqlString, quote, if_true, read, Option.map_some]

/-- The literal of a string is read as the string, and nothing behind it. -/
theorem readSqlString_renderSqlBound (numbers : NumberText) (value : String) {dialect : String}
    (allowed : dialect ∈ INCREMENTAL_SOURCE_RANGE_DIALECTS ∨
      dialect ∈ INCREMENTAL_TARGET_DML_DIALECTS) :
    ∃ rules literal, literalRules dialect = some rules ∧
      renderSqlBound numbers { malloyType := .string, value } dialect = .ok literal ∧
      ∀ rest, rest.head? ≠ some '\'' →
        readSqlString rules (literal.toList ++ rest) = some (value, rest) := by
  obtain ⟨rules, isRules⟩ : ∃ rules, literalRules dialect = some rules := by
    simp only [INCREMENTAL_SOURCE_RANGE_DIALECTS, INCREMENTAL_TARGET_DML_DIALECTS, List.mem_cons,
      List.not_mem_nil, or_false] at allowed
    rcases allowed with (rfl | rfl | rfl) | rfl | rfl | rfl | rfl <;> exact ⟨_, rfl⟩
  refine ⟨rules, _, isRules, rfl, fun rest single => ?_⟩
  have mark : "'".toList = ['\''] := rfl
  have read := readSqlString_escaped isRules value.toList single
  rw [String.ofList_toList] at read
  simpa only [String.toList_append, mark, toList_escapeSqlString, List.append_assoc,
    List.cons_append, List.nil_append] using read

/-- A quote and a backslash, as BigQuery reads them. -/
theorem readSqlString_renderSqlBound_standardsql :
    ∃ rules literal, literalRules "standardsql" = some rules ∧
      renderSqlBound ⟨fun _ => .nan, fun _ => ""⟩
        { malloyType := .string, value := "a'b\\" } "standardsql" = .ok literal ∧
      ∀ rest, rest.head? ≠ some '\'' →
        readSqlString rules (literal.toList ++ rest) = some ("a'b\\", rest) :=
  readSqlString_renderSqlBound _ "a'b\\" (.inl (by decide))

end MalloyPublisher.Incremental
