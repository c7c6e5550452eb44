/-
# Watermark boundaries

A boundary is canonical scalar text together with the watermark's Malloy type:
ISO-8601 for a date or timestamp, decimal text for a number, the value itself
for a string. The ledger keeps the text, not a rendered literal, because a
boundary outlives the statement it was used in and has to be compared with the
next run's frontier.

The runtime's number reading and printing are a parameter; its UTC calendar is
spelled out.
-/

import Mathlib.Algebra.Order.Ring.Rat
import MalloyPublisher.Foundations.Text

namespace MalloyPublisher.Incremental

open Foundations

/-- The Malloy types a boundary can be rendered for. -/
inductive WatermarkType
  | date
  | timestamp
  | number
  | string
  deriving DecidableEq, Repr

/-- `WatermarkType` as Malloy spells it. -/
def WatermarkType.text : WatermarkType → String
  | .date => "date"
  | .timestamp => "timestamp"
  | .number => "number"
  | .string => "string"

/-- A watermark boundary: canonical scalar text plus the watermark's type. -/
structure WatermarkBound where
  malloyType : WatermarkType
  value : String
  deriving DecidableEq, Repr

/-- A value of the runtime's number type. -/
inductive JsNumber
  | nan
  | finite (value : ℚ)
  | infinity (negative : Bool)
  deriving DecidableEq

namespace JsNumber

/-- `Number.isFinite`. -/
def isFinite : JsNumber → Bool
  | finite _ => true
  | _ => false

/-- `a - b`. The difference of two finite numbers is kept exact; rounding it
would change its size and never its sign. -/
def sub : JsNumber → JsNumber → JsNumber
  | finite a, finite b => finite (a - b)
  | infinity negative, finite _ => infinity negative
  | finite _, infinity negative => infinity !negative
  | infinity left, infinity right => if left = right then nan else infinity left
  | _, _ => nan

/-- `n <= 0`; a comparison with `NaN` is never true. -/
def leZero : JsNumber → Bool
  | finite value => value ≤ 0
  | infinity negative => negative
  | nan => false

end JsNumber

/-- The runtime's reading (`Number(text)`) and printing (`String(n)`) of numbers. -/
structure NumberText where
  parse : String → JsNumber
  print : JsNumber → String

section Text

/-- Read one character per pattern letter: `d` stands for a digit, any other
letter for itself. Answers the text read and the rest. -/
def readPattern : List Char → List Char → Option (List Char × List Char)
  | [], rest => some ([], rest)
  | p :: pattern, c :: rest =>
    if (if p = 'd' then c.isDigit else c = p) then
      (readPattern pattern rest).map fun (read, rest) => (c :: read, rest)
    else none
  | _ :: _, [] => none

/-- `\d{4}-\d{2}-\d{2}` at the start of the text. -/
def readDate (chars : List Char) : Option (List Char × List Char) :=
  readPattern "dddd-dd-dd".toList chars

/-- `\d{2}:\d{2}:\d{2}` at the start of the text. -/
def readTime (chars : List Char) : Option (List Char × List Char) :=
  readPattern "dd:dd:dd".toList chars

/-- `(?:\.\d+)?Z?$`: an optional fraction, an optional `Z`, and nothing else. -/
def isUtcSuffix (chars : List Char) : Bool :=
  let afterFraction :=
    match chars with
    | '.' :: c :: rest => if c.isDigit then rest.dropWhile Char.isDigit else chars
    | _ => chars
  afterFraction = [] || afterFraction = ['Z']

/-- One hexadecimal digit. -/
def hexDigit (n : Nat) : Char :=
  "0123456789abcdef".toList.getD n '0'

/-- `JSON.stringify` of a string. -/
def jsonStringify (text : String) : String :=
  let escape (c : Char) : List Char :=
    if c = '"' then ['\\', '"']
    else if c = '\\' then ['\\', '\\']
    else if c.toNat = 0x8 then ['\\', 'b']
    else if c.toNat = 0xC then ['\\', 'f']
    else if c = '\n' then ['\\', 'n']
    else if c = '\r' then ['\\', 'r']
    else if c = '\t' then ['\\', 't']
    else if c.toNat < 0x20 then
      ['\\', 'u', '0', '0', hexDigit (c.toNat / 16), hexDigit (c.toNat % 16)]
    else [c]
  String.ofList (['"'] ++ text.toList.flatMap escape ++ ['"'])

end Text

/-- `YYYY-MM-DD HH:MM:SS` from ISO-8601 text, truncated to whole seconds. A zone
offset is refused and not dropped: truncating past it would relabel a local
bound as the UTC text every consumer of the value assumes. -/
def secondsPrecision (value : String) : Except String String :=
  let refused := "not a UTC ISO-8601 timestamp: " ++ jsonStringify value ++
    " (expected YYYY-MM-DDTHH:MM:SS, with no zone offset)"
  match readDate (trim value.toList) with
  | some (date, separator :: rest) =>
    if separator = 'T' ∨ separator = ' ' then
      match readTime rest with
      | some (time, suffix) =>
        if isUtcSuffix suffix then .ok (String.ofList (date ++ [' '] ++ time)) else .error refused
      | none => .error refused
    else .error refused
  | _ => .error refused

/-- `YYYY-MM-DD` from ISO-8601 date or timestamp text. -/
def datePrecision (value : String) : Except String String :=
  match readDate (trim value.toList) with
  | some (date, _) => .ok (String.ofList date)
  | none => .error ("not an ISO-8601 date: " ++ jsonStringify value ++ " (expected YYYY-MM-DD)")

/-- A finite decimal, refused and not pasted if it is anything else. -/
def renderNumber (numbers : NumberText) (value : String) : Except String String :=
  if (numbers.parse value).isFinite then .ok (numbers.print (numbers.parse value))
  else .error ("not a finite number: " ++ jsonStringify value)

/-- Replace every occurrence of one character by a text. -/
def replaceChar (c : Char) (replacement : String) (text : String) : String :=
  String.ofList (text.toList.flatMap fun x => if x = c then replacement.toList else [x])

/-- Escape a string for a single-quoted SQL literal by doubling the quote, and
the backslash where the dialect reads it as an escape. -/
def escapeSqlString (value : String) (dialect : String) : String :=
  let quoted := replaceChar '\'' "''" value
  if dialect = "snowflake" ∨ dialect = "standardsql" then replaceChar '\\' "\\\\" quoted
  else quoted

/-- The bound as an SQL literal, spelled for the watermark's own type. -/
def renderSqlBound (numbers : NumberText) (bound : WatermarkBound) (dialect : String) :
    Except String String :=
  match bound.malloyType with
  | .date => (datePrecision bound.value).map fun text => "DATE '" ++ text ++ "'"
  | .timestamp => (secondsPrecision bound.value).map fun text => "TIMESTAMP '" ++ text ++ "'"
  | .number => renderNumber numbers bound.value
  | .string => .ok ("'" ++ escapeSqlString bound.value dialect ++ "'")

section Calendar

/-- A natural number in at least `width` decimal digits. -/
def padded (width n : Nat) : String :=
  let digits := (Nat.toDigits 10 n)
  String.ofList (List.replicate (width - digits.length) '0' ++ digits)

/-- The proleptic Gregorian date of a day counted from 1970-01-01. -/
def civilOfDays (days : Int) : Int × Int × Int :=
  let shifted := days + 719468
  let era := shifted / 146097
  let dayOfEra := shifted - era * 146097
  let yearOfEra := (dayOfEra - dayOfEra / 1460 + dayOfEra / 36524 - dayOfEra / 146096) / 365
  let dayOfYear := dayOfEra - (365 * yearOfEra + yearOfEra / 4 - yearOfEra / 100)
  let monthFromMarch := (5 * dayOfYear + 2) / 153
  let day := dayOfYear - (153 * monthFromMarch + 2) / 5 + 1
  let month := if monthFromMarch < 10 then monthFromMarch + 3 else monthFromMarch - 9
  let year := yearOfEra + era * 400 + (if month ≤ 2 then 1 else 0)
  (year, month, day)

/-- The year as ISO-8601 prints it: four digits, or a sign and six. -/
def isoYear (year : Int) : String :=
  if 0 ≤ year ∧ year ≤ 9999 then padded 4 year.toNat
  else (if year < 0 then "-" else "+") ++ padded 6 year.natAbs

/-- `Date.prototype.toISOString` of an instant in milliseconds. -/
def toISOString (ms : Int) : String :=
  let (year, month, day) := civilOfDays (ms / 86400000)
  let inDay := (ms % 86400000).toNat
  isoYear year ++ "-" ++ padded 2 month.toNat ++ "-" ++ padded 2 day.toNat ++ "T" ++
    padded 2 (inDay / 3600000) ++ ":" ++ padded 2 (inDay / 60000 % 60) ++ ":" ++
    padded 2 (inDay / 1000 % 60) ++ "." ++ padded 3 (inDay % 1000) ++ "Z"

end Calendar

/-- A watermark value as a driver hands it back. -/
inductive RawValue
  | null
  | date (ms : Int)
  /-- Any other value, a `{value}` wrapper unwrapped, as `String` spells it. -/
  | text (value : String)
  deriving DecidableEq, Repr

/-- `String.prototype.slice(0, n)` of ASCII text. -/
def slice (n : Nat) (text : String) : String :=
  String.ofList (text.toList.take n)

/-- Canonical scalar text for a watermark value read back from a warehouse or
produced by the run clock. -/
def canonicalBoundValue (numbers : NumberText) (malloyType : WatermarkType) (raw : RawValue) :
    Except String WatermarkBound :=
  match raw with
  | .null => .error "watermark value is null"
  | .date ms =>
    let iso := toISOString ms
    .ok { malloyType, value := if malloyType = .date then slice 10 iso else slice 19 iso }
  | .text text =>
    match malloyType with
    | .date => (datePrecision text).map fun value => { malloyType, value }
    | .timestamp => (secondsPrecision text).map fun value => { malloyType, value }
    | .number => (renderNumber numbers text).map fun value => { malloyType, value }
    | .string => .ok { malloyType, value := text }

/-- The run's snapshot time as a bound. -/
def snapshotBound (numbers : NumberText) (malloyType : WatermarkType) (now : Int) :
    Except String WatermarkBound :=
  canonicalBoundValue numbers malloyType (.date now)

/-- Compare two bounds of the same type: numbers as numbers, everything else as
text, which for fixed-width ISO-8601 is the order of the instants. -/
def compareBounds (numbers : NumberText) (a b : WatermarkBound) : Except String JsNumber :=
  if a.malloyType ≠ b.malloyType then
    .error ("cannot compare a " ++ a.malloyType.text ++ " bound to a " ++ b.malloyType.text ++
      " bound")
  else if a.malloyType = .number then
    .ok ((numbers.parse a.value).sub (numbers.parse b.value))
  else .ok (.finite (if stringLess a.value b.value then -1
    else if stringLess b.value a.value then 1 else 0))

example : toISOString 1709209845678 = "2024-02-29T12:30:45.678Z" := by decide +kernel

example : toISOString (-62198755200000) = "-000001-01-01T00:00:00.000Z" := by decide +kernel

end MalloyPublisher.Incremental
