import MalloyPublisher.Foundations.TextOrder
import MalloyPublisher.Givens.ParsedInstants

/-!
# What boundaries stand for

A boundary is text. That of a number stands for the number that is written, that of a string for
itself, and that of a date or a timestamp for a civil time in UTC: `canonicalBoundValue` cuts the
text that it makes of a driver's value at a fixed width, which is a whole day or second where the
year has four digits, and a month or a minute where it has a sign and six.

## Main definitions

* `runtimeNumbers` — how the runtime reads and prints numbers
* `boundInstant` — the civil time of a text, in seconds
* `boundValue` — what a boundary stands for
* `Fields.spell` — the texts of temporal boundaries

## Main results

* `boundInstant_spell` — what is spelled stands for the time that it spells
* `canonical_temporal`, `canonical_number` — the boundaries that there are
-/

namespace MalloyPublisher.Incremental

open Foundations Givens

/-! ## Numbers -/

/-- `Number(text)` and `String(n)`. An infinity is not told from `NaN`, as neither is rendered. -/
def runtimeNumbers : NumberText where
  parse text :=
    match toNumber text with
    | some double => .finite double.value
    | none => .nan
  print
    | .finite value => ((nearest value).map Double.text).getD ""
    | .infinity negative => if negative then "-Infinity" else "Infinity"
    | .nan => "NaN"

theorem parse_of_toNumber {text : String} {double : Double} (reads : toNumber text = some double) :
    runtimeNumbers.parse text = .finite double.value := by
  simp only [runtimeNumbers, reads]

/-- A number is rendered as it is printed, where it is one. -/
theorem renderNumber_eq_ok {text rendered : String} :
    renderNumber runtimeNumbers text = .ok rendered ↔
      ∃ double, toNumber text = some double ∧ rendered = double.text := by
  unfold renderNumber
  cases reads : toNumber text with
  | none =>
    have nan : runtimeNumbers.parse text = .nan := by simp only [runtimeNumbers, reads]
    simp [nan, JsNumber.isFinite]
  | some double =>
    have printed : runtimeNumbers.print (.finite double.value) = double.text := by
      simp only [runtimeNumbers, nearest_value, Option.map_some, Option.getD_some]
    rw [parse_of_toNumber reads]
    simp [JsNumber.isFinite, printed, eq_comm]

/-! ## Civil times -/

/-- A date and a time of day. -/
structure CivilTime where
  year : ℤ
  month : ℕ
  day : ℕ
  hour : ℕ
  minute : ℕ
  second : ℕ
  deriving DecidableEq

namespace CivilTime

def Valid (time : CivilTime) : Prop :=
  IsCivil time.year time.month time.day ∧ time.hour < 24 ∧ time.minute < 60 ∧ time.second < 60

instance (time : CivilTime) : Decidable time.Valid := inferInstanceAs (Decidable (_ ∧ _))

/-- The seconds of a civil time since 1970, in UTC. -/
def seconds (time : CivilTime) : ℤ :=
  daysOfCivil time.year time.month time.day * 86400 +
    (time.hour * 3600 + time.minute * 60 + time.second)

theorem Valid.seconds_div {time : CivilTime} (valid : time.Valid) :
    time.seconds / 86400 = daysOfCivil time.year time.month time.day := by
  obtain ⟨-, hours, minutes, seconds⟩ := valid
  unfold CivilTime.seconds
  omega

end CivilTime

/-- `±YYYYYY` or `YYYY`. -/
def readYear (text : List Char) : Option (ℤ × List Char) :=
  match readChar '+' text, readChar '-' text with
  | some rest, _ => (readDigits 6 6 rest).map fun (year, rest) => ((number year : ℤ), rest)
  | none, some rest => (readDigits 6 6 rest).map fun (year, rest) => (-(number year : ℤ), rest)
  | none, none => (readDigits 4 4 text).map fun (year, rest) => ((number year : ℤ), rest)

/-- A mark and two digits. -/
def readField (mark : Char) (text : List Char) : Option (ℕ × List Char) :=
  ((readChar mark text).bind (readDigits 2 2)).map fun (digits, rest) => (number digits, rest)

/-- All of a text as a time of day, to the minute or the second. -/
def readHours (year : ℤ) (month day : ℕ) (text : List Char) : Option CivilTime := do
  let (hour, rest) ← readDigits 2 2 text
  let (minute, rest) ← readField ':' rest
  let (second, rest) := (readField ':' rest).getD (0, rest)
  if rest = [] then some { year, month, day, hour := number hour, minute, second } else none

/-- All of what follows a year: a month, a day, or a time of day behind these. -/
def readMonths (year : ℤ) (text : List Char) : Option CivilTime := do
  let (month, rest) ← readField '-' text
  let (day, rest) := (readField '-' rest).getD (1, rest)
  match rest with
  | [] => some { year, month, day, hour := 0, minute := 0, second := 0 }
  | separator :: rest =>
    if separator = 'T' ∨ separator = ' ' then readHours year month day rest else none

/-- All of a text as a month, a day, a minute or a second of UTC. -/
def readCivil (text : List Char) : Option CivilTime :=
  (readYear text).bind fun (year, rest) => readMonths year rest

/-- The instant that a text stands for, in seconds. -/
def boundInstant (text : List Char) : Option ℤ :=
  (readCivil text).bind fun time => if time.Valid then some time.seconds else none

/-! ## Values -/

/-- A value in a watermark's own order. -/
inductive Value
  | time (seconds : ℚ)
  | number (value : ℚ)
  | text (value : String)
  deriving DecidableEq

namespace Value

/-- The order of times and of numbers, and the runtime's order of strings. Values of different kinds
are in none. -/
def compare? : Value → Value → Option Ordering
  | .time a, .time b => some (compare a b)
  | .number a, .number b => some (compare a b)
  | .text a, .text b => some (compareText a b)
  | _, _ => none

/-- A value is not after another. -/
def Le (a b : Value) : Prop := a.compare? b = some .lt ∨ a.compare? b = some .eq

instance (a b : Value) : Decidable (a.Le b) := inferInstanceAs (Decidable (_ ∨ _))

end Value

/-- What a canonical text of a type stands for. -/
def valueOf (malloyType : WatermarkType) (text : String) : Option Value :=
  match malloyType with
  | .date | .timestamp => (boundInstant text.toList).map fun seconds : ℤ => .time seconds
  | .number => (readNumber text).map .number
  | .string => some (.text text)

/-- What a boundary stands for. -/
def boundValue (bound : WatermarkBound) : Option Value := valueOf bound.malloyType bound.value

/-! ## How temporal boundaries are spelled -/

/-- Whether a year has four digits, or a sign and six. -/
inductive Era
  | before
  | four
  | after
  deriving DecidableEq

def Era.sign : Era → List Char
  | .before => ['-']
  | .four => []
  | .after => ['+']

def Era.width : Era → ℕ
  | .before => 6
  | .four => 4
  | .after => 6

/-- The digits of a civil time. -/
structure Fields where
  year : List Char
  month : List Char
  day : List Char
  hour : List Char
  minute : List Char
  second : List Char

namespace Fields

/-- Each field has its digits. -/
structure Formed (fields : Fields) (era : Era) : Prop where
  year : IsDigits era.width era.width fields.year
  month : IsDigits 2 2 fields.month
  day : IsDigits 2 2 fields.day
  hour : IsDigits 2 2 fields.hour
  minute : IsDigits 2 2 fields.minute
  second : IsDigits 2 2 fields.second

/-- `-MM-DD`. -/
def dayPart (fields : Fields) : List Char := '-' :: (fields.month ++ '-' :: fields.day)

/-- `HH:MM`. -/
def minutePart (fields : Fields) : List Char := fields.hour ++ ':' :: fields.minute

/-- A temporal boundary: a day or a second with a year of four digits, a month or a minute with a
year of six, which are what fits in the width that a text is cut at. -/
def spell (fields : Fields) (date : Bool) (separator : Char) : Era → List Char
  | .four =>
    fields.year ++ (fields.dayPart ++
      if date then [] else separator :: (fields.minutePart ++ ':' :: fields.second))
  | .before => '-' :: expanded
  | .after => '+' :: expanded
where
  expanded : List Char :=
    fields.year ++ if date then '-' :: fields.month else fields.dayPart ++ 'T' :: fields.minutePart

/-- The time that is spelled. -/
def time (fields : Fields) (date : Bool) (era : Era) : CivilTime where
  year := if era = .before then -(number fields.year : ℤ) else number fields.year
  month := number fields.month
  day := if date ∧ era ≠ .four then 1 else number fields.day
  hour := if date then 0 else number fields.hour
  minute := if date then 0 else number fields.minute
  second := if date ∨ era ≠ .four then 0 else number fields.second

end Fields

/-! ## What is spelled is read -/

section Reading

variable {fields : Fields} {era : Era} {digits rest : List Char}

theorem head_mark (mark : Char) (notDigit : mark.isDigit = false) (text : List Char) :
    ∀ c ∈ (mark :: text).head?, c.isDigit = false := by
  rintro c ⟨⟩
  exact notDigit

theorem readField_spec {mark : Char} (isDigits : IsDigits 2 2 digits)
    (ends : ∀ c ∈ rest.head?, c.isDigit = false) :
    readField mark (mark :: (digits ++ rest)) = some (number digits, rest) := by
  simp [readField, readChar, readDigits_isDigits isDigits ends]

theorem readField_last {mark : Char} (isDigits : IsDigits 2 2 digits) :
    readField mark (mark :: digits) = some (number digits, []) := by
  have read := @readField_spec _ [] mark isDigits (by simp)
  rwa [List.append_nil] at read

theorem readYear_four {year : List Char} (isDigits : IsDigits 4 4 year)
    (ends : ∀ c ∈ rest.head?, c.isDigit = false) :
    readYear (year ++ rest) = some ((number year : ℤ), rest) := by
  have unsigned : ∀ sign : Char, sign.isDigit = false → readChar sign (year ++ rest) = none := by
    intro sign notDigit
    cases year with
    | nil => exact absurd isDigits.2.1 (by simp)
    | cons first year =>
      have digit := isDigits.1 first (by simp)
      refine if_neg ?_
      rintro rfl
      rw [digit] at notDigit
      cases notDigit
  simp [readYear, unsigned '+' rfl, unsigned '-' rfl, readDigits_isDigits isDigits ends]

theorem readYear_after {year : List Char} (isDigits : IsDigits 6 6 year)
    (ends : ∀ c ∈ rest.head?, c.isDigit = false) :
    readYear ('+' :: (year ++ rest)) = some ((number year : ℤ), rest) := by
  simp [readYear, readChar, readDigits_isDigits isDigits ends]

theorem readYear_before {year : List Char} (isDigits : IsDigits 6 6 year)
    (ends : ∀ c ∈ rest.head?, c.isDigit = false) :
    readYear ('-' :: (year ++ rest)) = some (-(number year : ℤ), rest) := by
  simp [readYear, readChar, readDigits_isDigits isDigits ends]

theorem readHours_minute {year : ℤ} {month day : ℕ} {hour minute : List Char}
    (hours : IsDigits 2 2 hour) (minutes : IsDigits 2 2 minute) :
    readHours year month day (hour ++ ':' :: minute) =
      some { year, month, day, hour := number hour, minute := number minute, second := 0 } := by
  have ended : readField ':' [] = none := rfl
  simp [readHours, readDigits_isDigits hours (head_mark ':' rfl _), readField_last minutes, ended]

theorem readHours_second {year : ℤ} {month day : ℕ} {hour minute second : List Char}
    (hours : IsDigits 2 2 hour) (minutes : IsDigits 2 2 minute) (seconds : IsDigits 2 2 second) :
    readHours year month day (hour ++ ':' :: (minute ++ ':' :: second)) =
      some { year, month, day, hour := number hour, minute := number minute,
             second := number second } := by
  simp [readHours, readDigits_isDigits hours (head_mark ':' rfl _),
    readField_spec minutes (head_mark ':' rfl _), readField_last seconds]

theorem readMonths_month {year : ℤ} {month : List Char} (months : IsDigits 2 2 month) :
    readMonths year ('-' :: month) =
      some { year, month := number month, day := 1, hour := 0, minute := 0, second := 0 } := by
  have ended : readField '-' [] = none := rfl
  simp [readMonths, readField_last months, ended]

theorem readMonths_day {year : ℤ} (formed : fields.Formed era) :
    readMonths year fields.dayPart =
      some { year, month := number fields.month, day := number fields.day, hour := 0, minute := 0,
             second := 0 } := by
  simp [readMonths, Fields.dayPart, readField_spec formed.month (head_mark '-' rfl _),
    readField_last formed.day]

theorem readMonths_clock {year : ℤ} {separator : Char} (formed : fields.Formed era)
    (separates : separator = 'T' ∨ separator = ' ') :
    readMonths year (fields.dayPart ++ separator :: rest) =
      readHours year (number fields.month) (number fields.day) rest := by
  have notDigit : separator.isDigit = false := by rcases separates with rfl | rfl <;> rfl
  simp [readMonths, Fields.dayPart, readField_spec formed.month (head_mark '-' rfl _),
    readField_spec formed.day (head_mark separator notDigit _), separates]

/-- What is spelled is read. -/
theorem readCivil_spell (formed : fields.Formed era) (date : Bool) {separator : Char}
    (separates : separator = 'T' ∨ separator = ' ') :
    readCivil (fields.spell date separator era) = some (fields.time date era) := by
  unfold readCivil
  have hyphen : ∀ rest : List Char, ∀ c ∈ (fields.dayPart ++ rest).head?, c.isDigit = false :=
    fun _ => head_mark '-' rfl _
  cases era with
  | four =>
    have years : IsDigits 4 4 fields.year := formed.year
    rw [Fields.spell, readYear_four years (hyphen _), Option.bind_some]
    cases date with
    | true =>
      rw [if_pos rfl, List.append_nil]
      exact readMonths_day formed
    | false =>
      rw [if_neg Bool.false_ne_true]
      dsimp only
      rw [readMonths_clock formed separates, Fields.minutePart, List.append_assoc, List.cons_append]
      exact readHours_second formed.hour formed.minute formed.second
  | before =>
    have years : IsDigits 6 6 fields.year := formed.year
    cases date with
    | true =>
      rw [Fields.spell, Fields.spell.expanded, if_pos rfl,
        readYear_before years (head_mark '-' rfl _), Option.bind_some]
      exact readMonths_month formed.month
    | false =>
      rw [Fields.spell, Fields.spell.expanded, if_neg Bool.false_ne_true,
        readYear_before years (hyphen _), Option.bind_some]
      dsimp only
      rw [readMonths_clock formed (.inl rfl)]
      exact readHours_minute formed.hour formed.minute
  | after =>
    have years : IsDigits 6 6 fields.year := formed.year
    cases date with
    | true =>
      rw [Fields.spell, Fields.spell.expanded, if_pos rfl,
        readYear_after years (head_mark '-' rfl _), Option.bind_some]
      exact readMonths_month formed.month
    | false =>
      rw [Fields.spell, Fields.spell.expanded, if_neg Bool.false_ne_true,
        readYear_after years (hyphen _), Option.bind_some]
      dsimp only
      rw [readMonths_clock formed (.inl rfl)]
      exact readHours_minute formed.hour formed.minute

/-- What is spelled stands for the time that is spelled, where it is one. -/
theorem boundInstant_spell (formed : fields.Formed era) (date : Bool) {separator : Char}
    (separates : separator = 'T' ∨ separator = ' ') :
    boundInstant (fields.spell date separator era) =
      if (fields.time date era).Valid then some (fields.time date era).seconds else none := by
  rw [boundInstant, readCivil_spell formed date separates, Option.bind_some]

end Reading

/-! ## The boundaries that there are -/

section Canonical

variable {text read rest date time : List Char} {malloyType : WatermarkType} {ms : ℤ}

/-- A character that a letter of a pattern stands for. -/
def Fits (letter c : Char) : Prop := if letter = 'd' then c.isDigit = true else c = letter

theorem readPattern_spec {pattern : List Char}
    (reads : readPattern pattern text = some (read, rest)) :
    text = read ++ rest ∧ List.Forall₂ Fits pattern read := by
  induction pattern generalizing text read with
  | nil =>
    cases reads
    exact ⟨rfl, .nil⟩
  | cons letter pattern ih =>
    cases text with
    | nil => cases reads
    | cons c text =>
      rw [readPattern] at reads
      by_cases fits : (if letter = 'd' then c.isDigit else decide (c = letter)) = true
      · rw [if_pos fits] at reads
        obtain ⟨⟨more, later⟩, isMore, same⟩ := Option.map_eq_some_iff.mp reads
        cases same
        obtain ⟨rfl, all⟩ := ih isMore
        refine ⟨rfl, .cons ?_ all⟩
        unfold Fits
        split_ifs at fits ⊢
        · exact fits
        · exact of_decide_eq_true fits
      · rw [if_neg fits] at reads
        cases reads

theorem isDigits_of_forall {digits : List Char} (width : ℕ) (length : digits.length = width)
    (all : ∀ c ∈ digits, c.isDigit = true) : IsDigits width width digits :=
  ⟨all, length.ge, length.le⟩

/-- A date is of three runs of digits. -/
theorem readDate_spec (reads : readDate text = some (date, rest)) :
    ∃ year month day, IsDigits 4 4 year ∧ IsDigits 2 2 month ∧ IsDigits 2 2 day ∧
      date = year ++ '-' :: (month ++ '-' :: day) ∧ text = date ++ rest := by
  obtain ⟨split, fits⟩ := readPattern_spec reads
  have letters : "dddd-dd-dd".toList = ['d', 'd', 'd', 'd', '-', 'd', 'd', '-', 'd', 'd'] := rfl
  rw [letters] at fits
  rcases fits with _ | ⟨y₁, _ | ⟨y₂, _ | ⟨y₃, _ | ⟨y₄, _ | ⟨first, _ | ⟨m₁, _ | ⟨m₂,
    _ | ⟨second, _ | ⟨d₁, _ | ⟨d₂, _ | _⟩⟩⟩⟩⟩⟩⟩⟩⟩⟩
  cases (first : _ = '-')
  cases (second : _ = '-')
  refine ⟨[_, _, _, _], [_, _], [_, _], isDigits_of_forall 4 rfl ?_, isDigits_two m₁ m₂,
    isDigits_two d₁ d₂, rfl, split⟩
  simp only [List.mem_cons, List.not_mem_nil, or_false]
  rintro c (rfl | rfl | rfl | rfl)
  · exact y₁
  · exact y₂
  · exact y₃
  · exact y₄

/-- A time of day is of three, too. -/
theorem readTime_spec (reads : readTime text = some (time, rest)) :
    ∃ hour minute second, IsDigits 2 2 hour ∧ IsDigits 2 2 minute ∧ IsDigits 2 2 second ∧
      time = hour ++ ':' :: (minute ++ ':' :: second) ∧ text = time ++ rest := by
  obtain ⟨split, fits⟩ := readPattern_spec reads
  have letters : "dd:dd:dd".toList = ['d', 'd', ':', 'd', 'd', ':', 'd', 'd'] := rfl
  rw [letters] at fits
  rcases fits with _ | ⟨h₁, _ | ⟨h₂, _ | ⟨first, _ | ⟨m₁, _ | ⟨m₂, _ | ⟨second, _ | ⟨s₁,
    _ | ⟨s₂, _ | _⟩⟩⟩⟩⟩⟩⟩⟩
  cases (first : _ = ':')
  cases (second : _ = ':')
  exact ⟨[_, _], [_, _], [_, _], isDigits_two h₁ h₂, isDigits_two m₁ m₂, isDigits_two s₁ s₂, rfl,
    split⟩

/-- Two digits that say nothing. -/
def zeros : List Char := ['0', '0']

theorem isDigits_zeros : IsDigits 2 2 zeros := isDigits_two rfl rfl

/-- The boundary of a date text is its day. -/
theorem datePrecision_eq_ok {value precise : String} (renders : datePrecision value = .ok precise) :
    ∃ fields : Fields, fields.Formed .four ∧
      precise = String.ofList (fields.spell true ' ' .four) ∧
      ∃ rest, readDate (trim value.toList) = some (fields.spell true ' ' .four, rest) := by
  unfold datePrecision at renders
  cases reads : readDate (trim value.toList) with
  | none =>
    rw [reads] at renders
    cases renders
  | some found =>
    obtain ⟨date, rest⟩ := found
    rw [reads] at renders
    cases renders
    obtain ⟨year, month, day, years, months, days, rfl, -⟩ := readDate_spec reads
    have spelled : Fields.spell ⟨year, month, day, zeros, zeros, zeros⟩ true ' ' .four =
        year ++ '-' :: (month ++ '-' :: day) := by
      simp [Fields.spell, Fields.dayPart]
    refine ⟨⟨year, month, day, zeros, zeros, zeros⟩,
      ⟨years, months, days, isDigits_zeros, isDigits_zeros, isDigits_zeros⟩, ?_, rest, ?_⟩
    · rw [spelled]
    · rw [spelled]

/-- The boundary of a timestamp text is its second, with a space. -/
theorem secondsPrecision_eq_ok {value precise : String}
    (renders : secondsPrecision value = .ok precise) :
    ∃ fields : Fields, fields.Formed .four ∧
      precise = String.ofList (fields.spell false ' ' .four) ∧
      ∃ separator time suffix, (separator = 'T' ∨ separator = ' ') ∧ isUtcSuffix suffix = true ∧
        readDate (trim value.toList) = some (fields.year ++ fields.dayPart, separator :: time) ∧
        readTime time = some (fields.minutePart ++ ':' :: fields.second, suffix) := by
  unfold secondsPrecision at renders
  dsimp only at renders
  cases reads : readDate (trim value.toList) with
  | none =>
    rw [reads] at renders
    cases renders
  | some found =>
    obtain ⟨date, _ | ⟨separator, rest⟩⟩ := found
    · rw [reads] at renders
      cases renders
    rw [reads] at renders
    dsimp only at renders
    split_ifs at renders with separates
    cases times : readTime rest with
    | none =>
      rw [times] at renders
      cases renders
    | some found =>
      obtain ⟨time, suffix⟩ := found
      rw [times] at renders
      dsimp only at renders
      split_ifs at renders with isSuffix
      cases renders
      obtain ⟨year, month, day, years, months, days, rfl, -⟩ := readDate_spec reads
      obtain ⟨hour, minute, second, hours, minutes, seconds, rfl, rfl⟩ := readTime_spec times
      refine ⟨⟨year, month, day, hour, minute, second⟩,
        ⟨years, months, days, hours, minutes, seconds⟩, ?_, separator, _, suffix, separates,
        isSuffix, rfl, ?_⟩
      · simp [Fields.spell, Fields.dayPart, Fields.minutePart]
      · rw [times]
        simp [Fields.minutePart]

end Canonical

/-! ### Of a date object -/

section DateObject

variable {ms : ℤ}

/-- The instants that a date object can hold. -/
def IsDate (ms : ℤ) : Prop := -8640000000000000 ≤ ms ∧ ms ≤ 8640000000000000

/-- Whether the year of an instant is spelled with four digits. -/
def eraOf (ms : ℤ) : Era :=
  if (utcDay ms).1 < 0 then .before else if (utcDay ms).1 ≤ 9999 then .four else .after

/-- The fields that are printed of an instant. -/
def fieldsOf (ms : ℤ) : Fields where
  year := (padded (eraOf ms).width (utcDay ms).1.natAbs).toList
  month := (padded 2 (utcDay ms).2.1.toNat).toList
  day := (padded 2 (utcDay ms).2.2.toNat).toList
  hour := (padded 2 (utcHours ms).toNat).toList
  minute := (padded 2 (utcMinutes ms).toNat).toList
  second := (padded 2 (utcSeconds ms).toNat).toList

theorem isDigits_padded {width n : ℕ} (positive : 0 < width) (fits : n < 10 ^ width) :
    IsDigits width width (padded width n).toList :=
  isDigits_of_forall width (length_padded positive fits) isDigit_padded

/-- The years of date objects have six digits. -/
theorem year_lt (isDate : IsDate ms) : (utcDay ms).1.natAbs < 10 ^ 6 := by
  obtain ⟨year, month, day, same, civil, back⟩ := isCivil_civilOfDays (ms / 86400000)
  have bounds : -100000000 ≤ ms / 86400000 ∧ ms / 86400000 ≤ 100000000 := by
    unfold IsDate at isDate
    omega
  obtain ⟨-, nonneg, short⟩ := fromMarch_bounds civil
  rw [← back, daysOfCivil_eq] at bounds
  rw [utcDay, same]
  unfold marchFirst marchYear at *
  dsimp only
  split_ifs at * <;> omega

theorem width_of_year (isDate : IsDate ms) : (utcDay ms).1.natAbs < 10 ^ (eraOf ms).width := by
  have six := year_lt isDate
  unfold eraOf
  split_ifs with before four
  · exact six
  · have : (utcDay ms).1.natAbs < 10 ^ 4 := by omega
    exact this
  · exact six

theorem width_pos (era : Era) : 0 < era.width := by cases era <;> decide

theorem isDigits_padded_two {n : ℤ} (fits : n < 100) : IsDigits 2 2 (padded 2 n.toNat).toList := by
  refine isDigits_padded two_pos ?_
  have : n.toNat < 100 := by omega
  exact this

theorem clock_lt (ms : ℤ) : utcHours ms < 100 ∧ utcMinutes ms < 100 ∧ utcSeconds ms < 100 := by
  unfold utcHours utcMinutes utcSeconds
  omega

/-- What is printed of an instant has its digits. -/
theorem formed_fieldsOf (isDate : IsDate ms) : (fieldsOf ms).Formed (eraOf ms) := by
  obtain ⟨⟨-, months⟩, -, days⟩ := utcDay_bounds ms
  obtain ⟨hours, minutes, seconds⟩ := clock_lt ms
  have small : (12 : ℤ) < 100 ∧ (31 : ℤ) < 100 := by norm_num
  constructor <;> dsimp only [fieldsOf]
  · exact isDigits_padded (width_pos _) (width_of_year isDate)
  · exact isDigits_padded_two (months.trans_lt small.1)
  · exact isDigits_padded_two (days.trans_lt small.2)
  · exact isDigits_padded_two hours
  · exact isDigits_padded_two minutes
  · exact isDigits_padded_two seconds

/-- The width that the text of a type is cut at. -/
def cutAt (date : Bool) : ℕ := if date then 10 else 19

/-- The year of an instant is printed behind its sign. -/
theorem toList_isoYear (ms : ℤ) :
    (isoYear (utcDay ms).1).toList = (eraOf ms).sign ++ (fieldsOf ms).year := by
  have signs : "-".toList = ['-'] ∧ "+".toList = ['+'] := ⟨rfl, rfl⟩
  unfold isoYear fieldsOf
  dsimp only
  by_cases before : (utcDay ms).1 < 0
  · have short : ¬ (0 ≤ (utcDay ms).1 ∧ (utcDay ms).1 ≤ 9999) := fun both => not_lt.mpr both.1 before
    have era : eraOf ms = .before := if_pos before
    rw [era, if_neg short, if_pos before, String.toList_append, signs.1, Era.sign, Era.width]
  · have rest : eraOf ms = if (utcDay ms).1 ≤ 9999 then .four else .after := if_neg before
    by_cases four : (utcDay ms).1 ≤ 9999
    · have same : (utcDay ms).1.natAbs = (utcDay ms).1.toNat := by omega
      rw [rest, if_pos four, if_pos ⟨not_lt.mp before, four⟩, same, Era.sign, Era.width,
        List.nil_append]
    · rw [rest, if_neg four, if_neg fun both => four both.2, if_neg before, String.toList_append,
        signs.2, Era.sign, Era.width]

theorem length_of_isDigits {width : ℕ} {digits : List Char} (isDigits : IsDigits width width digits) :
    digits.length = width := le_antisymm isDigits.2.2 isDigits.2.1

/-- The boundary of a date object is what is spelled of its fields. -/
theorem take_toISOString (isDate : IsDate ms) (date : Bool) :
    (toISOString ms).toList.take (cutAt date) = (fieldsOf ms).spell date 'T' (eraOf ms) := by
  have formed := formed_fieldsOf isDate
  have text : (toISOString ms).toList = (eraOf ms).sign ++ ((fieldsOf ms).year ++
      ((fieldsOf ms).dayPart ++ 'T' :: ((fieldsOf ms).minutePart ++
        ':' :: ((fieldsOf ms).second ++ '.' :: ((padded 3 (ms % 1000).toNat).toList ++ ['Z']))))) := by
    rw [toList_toISOString, dayText, toList_isoYear]
    simp [clockText, Fields.dayPart, Fields.minutePart, fieldsOf]
  rw [text]
  have year := length_of_isDigits formed.year
  have month := length_of_isDigits formed.month
  have day := length_of_isDigits formed.day
  have hour := length_of_isDigits formed.hour
  have minute := length_of_isDigits formed.minute
  have second := length_of_isDigits formed.second
  generalize '.' :: ((padded 3 (ms % 1000).toNat).toList ++ ['Z']) = tail
  generalize fieldsOf ms = fields at *
  generalize eraOf ms = era at *
  have cut : ∀ spelled rest : List Char, spelled.length = cutAt date →
      (spelled ++ rest).take (cutAt date) = spelled := fun _ _ => List.take_left'
  have expanded : ∀ sign : Char, fields.year.length = 6 →
      (sign :: (fields.year ++ (fields.dayPart ++ 'T' :: (fields.minutePart ++
        ':' :: (fields.second ++ tail))))).take (cutAt date) =
        sign :: Fields.spell.expanded fields date := by
    intro sign six
    cases date with
    | true =>
      refine Eq.trans ?_ (cut _ ('-' :: (fields.day ++ 'T' :: (fields.minutePart ++
        ':' :: (fields.second ++ tail)))) ?_)
      · simp [Fields.spell.expanded, Fields.dayPart]
      · simp [Fields.spell.expanded, six, month, cutAt]
    | false =>
      refine Eq.trans ?_ (cut _ (':' :: (fields.second ++ tail)) ?_)
      · simp [Fields.spell.expanded]
      · simp [Fields.spell.expanded, Fields.dayPart, Fields.minutePart, six, month, day, hour,
          minute, cutAt]
  cases era with
  | four =>
    cases date with
    | true =>
      refine Eq.trans ?_ (cut _ ('T' :: (fields.minutePart ++ ':' :: (fields.second ++ tail))) ?_)
      · simp [Fields.spell, Era.sign]
      · simp [Fields.spell, Fields.dayPart, year, month, day, Era.width, cutAt]
    | false =>
      refine Eq.trans ?_ (cut _ tail ?_)
      · simp [Fields.spell, Era.sign]
      · simp [Fields.spell, Fields.dayPart, Fields.minutePart, year, month, day, hour, minute,
          second, Era.width, cutAt]
  | before => exact expanded '-' year
  | after => exact expanded '+' year

end DateObject

/-! ## The boundaries of driver values -/

/-- The years that an era spells. -/
def Era.Spells : Era → ℕ → Prop
  | .before, year => 0 < year
  | .four, year => year ≤ 9999
  | .after, year => 9999 < year

theorem spells_eraOf (ms : ℤ) : (eraOf ms).Spells (utcDay ms).1.natAbs := by
  unfold eraOf
  split_ifs with before four
  · change 0 < (utcDay ms).1.natAbs
    omega
  · change (utcDay ms).1.natAbs ≤ 9999
    omega
  · change 9999 < (utcDay ms).1.natAbs
    omega

namespace RawValue

/-- A date object holds an instant that it can hold. -/
def Held : RawValue → Prop
  | .date ms => IsDate ms
  | _ => True

/-- What stands between the day and the time of day in the boundary. -/
def separator : RawValue → Char
  | .date _ => 'T'
  | _ => ' '

/-- How the year is spelled in the boundary. -/
def era : RawValue → Era
  | .date ms => eraOf ms
  | _ => .four

end RawValue

theorem separates_separator (raw : RawValue) : raw.separator = 'T' ∨ raw.separator = ' ' := by
  cases raw with
  | date ms => exact .inl rfl
  | null => exact .inr rfl
  | text value => exact .inr rfl

section Driver

variable {fields : Fields} {era : Era} {malloyType : WatermarkType} {raw : RawValue}
  {bound : WatermarkBound}

theorem spells_four (formed : fields.Formed .four) : Era.four.Spells (number fields.year) := by
  have short := number_lt formed.year.1
  have width : fields.year.length = 4 := length_of_isDigits formed.year
  rw [width] at short
  change number fields.year ≤ 9999
  omega

/-- The boundary of a date object is the spelling of its time. -/
theorem canonical_dateObject {ms : ℤ} (held : IsDate ms)
    (canonical : canonicalBoundValue runtimeNumbers malloyType (.date ms) = .ok bound) :
    bound = ⟨malloyType, String.ofList
      ((fieldsOf ms).spell (decide (malloyType = .date)) 'T' (eraOf ms))⟩ := by
  cases canonical
  rw [← take_toISOString held]
  cases malloyType <;> rfl

/-- A boundary of a date or a timestamp is the spelling of a time. -/
theorem canonical_temporal (temporal : malloyType = .date ∨ malloyType = .timestamp)
    (held : raw.Held) (canonical : canonicalBoundValue runtimeNumbers malloyType raw = .ok bound) :
    ∃ fields : Fields, fields.Formed raw.era ∧ raw.era.Spells (number fields.year) ∧
      bound.malloyType = malloyType ∧
      bound.value =
        String.ofList (fields.spell (decide (malloyType = .date)) raw.separator raw.era) := by
  cases raw with
  | null => cases canonical
  | date ms =>
    refine ⟨fieldsOf ms, formed_fieldsOf held, ?_, ?_, ?_⟩
    · dsimp only [RawValue.era, fieldsOf]
      rw [number_padded]
      exact spells_eraOf ms
    · rw [canonical_dateObject held canonical]
    · rw [canonical_dateObject held canonical]
      rfl
  | text value =>
    rcases temporal with rfl | rfl
    · cases precise : datePrecision value with
      | error refused =>
        rw [canonicalBoundValue, precise] at canonical
        cases canonical
      | ok day =>
        rw [canonicalBoundValue, precise] at canonical
        cases canonical
        obtain ⟨fields, formed, rfl, -⟩ := datePrecision_eq_ok precise
        exact ⟨fields, formed, spells_four formed, rfl, rfl⟩
    · cases precise : secondsPrecision value with
      | error refused =>
        rw [canonicalBoundValue, precise] at canonical
        cases canonical
      | ok second =>
        rw [canonicalBoundValue, precise] at canonical
        cases canonical
        obtain ⟨fields, formed, rfl, -⟩ := secondsPrecision_eq_ok precise
        exact ⟨fields, formed, spells_four formed, rfl, rfl⟩

/-- What is spelled is of digits and marks. -/
theorem mem_spell (formed : fields.Formed era) {date : Bool} {separator c : Char}
    (member : c ∈ fields.spell date separator era) :
    c.isDigit = true ∨ c ∈ ['-', '+', ':', 'T', separator] := by
  have digits : ∀ c, c ∈ fields.year ∨ c ∈ fields.month ∨ c ∈ fields.day ∨ c ∈ fields.hour ∨
      c ∈ fields.minute ∨ c ∈ fields.second → c.isDigit = true := by
    rintro c (digit | digit | digit | digit | digit | digit)
    · exact formed.year.1 c digit
    · exact formed.month.1 c digit
    · exact formed.day.1 c digit
    · exact formed.hour.1 c digit
    · exact formed.minute.1 c digit
    · exact formed.second.1 c digit
  have known := digits c
  cases era <;> cases date <;>
    simp only [Fields.spell, Fields.spell.expanded, Fields.dayPart, Fields.minutePart, if_true,
      if_false, List.mem_append, List.mem_cons, List.not_mem_nil, Bool.false_eq_true] at member ⊢ <;>
    tauto

theorem isUnit_spell (formed : fields.Formed era) {date : Bool} {separator c : Char}
    (separates : separator = 'T' ∨ separator = ' ') (member : c ∈ fields.spell date separator era) :
    IsUnit c := by
  rcases mem_spell formed member with digit | mark
  · exact isUnit_of_isDigit digit
  · simp only [List.mem_cons, List.not_mem_nil, or_false] at mark
    rcases separates with rfl | rfl <;> rcases mark with rfl | rfl | rfl | rfl | rfl <;> decide

theorem isSpace_spell (formed : fields.Formed era) {date : Bool} {c : Char}
    (member : c ∈ fields.spell date 'T' era) : isSpace c = false := by
  rcases mem_spell formed member with digit | mark
  · exact isSpace_of_isDigit digit
  · simp only [List.mem_cons, List.not_mem_nil, or_false] at mark
    rcases mark with rfl | rfl | rfl | rfl | rfl <;> rfl

theorem readUnsigned_hyphen {digits : List Char} (rest : List Char)
    (all : ∀ c ∈ digits, c.isDigit = true) :
    readUnsigned (digits ++ '-' :: rest) = none := by
  obtain ⟨taken, dropped⟩ := takeWhile_dropWhile_digits all (head_mark '-' rfl rest)
  have exponent : readExponent ('-' :: rest) = none := rfl
  simp [readUnsigned, taken, dropped, exponent]

theorem radixOf_digits {digits rest : List Char} (all : ∀ c ∈ digits, c.isDigit = true)
    (many : 2 ≤ digits.length) : radixOf (digits ++ rest) = none := by
  cases digits with
  | nil => exact absurd many (by simp)
  | cons first digits =>
    cases digits with
    | nil => exact absurd many (by simp)
    | cons second digits =>
      have digit := all second (by simp)
      have notMark : ∀ mark : Char, mark.isDigit = false → second ≠ mark := by
        rintro mark notDigit rfl
        rw [digit] at notDigit
        cases notDigit
      simp only [List.cons_append, radixOf]
      split
      · next mark _ isMark =>
        cases isMark
        simp [notMark 'x' rfl, notMark 'X' rfl, notMark 'o' rfl, notMark 'O' rfl, notMark 'b' rfl,
          notMark 'B' rfl]
      · rfl

/-- The boundary of a date object is not a number. -/
theorem readNumber_spell (formed : fields.Formed era) (date : Bool) :
    readNumber (String.ofList (fields.spell date 'T' era)) = none := by
  have kept : trim (fields.spell date 'T' era) = fields.spell date 'T' era :=
    trim_of_notSpace fun c member => isSpace_spell formed member
  have digits : ∀ c ∈ fields.year, c.isDigit = true := formed.year.1
  have width := length_of_isDigits formed.year
  have expanded : ∃ rest, Fields.spell.expanded fields date = fields.year ++ '-' :: rest := by
    cases date with
    | true => exact ⟨fields.month, rfl⟩
    | false => exact ⟨_, rfl⟩
  rw [readNumber, String.toList_ofList, kept]
  cases era with
  | four =>
    have plain : ∃ rest, fields.spell date 'T' .four = fields.year ++ '-' :: rest := by
      exact ⟨_, rfl⟩
    obtain ⟨rest, same⟩ := plain
    have radix : radixOf (fields.year ++ '-' :: rest) = none :=
      radixOf_digits digits (by rw [width]; decide)
    have unsigned := readUnsigned_hyphen rest digits
    have notSign : ∀ sign more, sign.isDigit = false → fields.year ++ '-' :: rest ≠ sign :: more := by
      intro sign more notDigit same
      cases years : fields.year with
      | nil =>
        rw [years] at width
        cases width
      | cons first year =>
        rw [years] at same
        cases same
        have digit := digits sign (by rw [years]; simp)
        rw [digit] at notDigit
        cases notDigit
    rw [same]
    rw [radix]
    dsimp only
    split
    · next empty => exact absurd empty (by simp)
    · next unsigned isHead => exact absurd isHead (notSign '-' unsigned rfl)
    · next unsigned isHead => exact absurd isHead (notSign '+' unsigned rfl)
    · exact unsigned
  | before =>
    obtain ⟨rest, same⟩ := expanded
    have unsigned := readUnsigned_hyphen rest digits
    have spelled : fields.spell date 'T' .before = '-' :: (fields.year ++ '-' :: rest) := by
      rw [← same, Fields.spell]
    rw [spelled]
    change (readUnsigned _).map _ = none
    rw [unsigned, Option.map_none]
  | after =>
    obtain ⟨rest, same⟩ := expanded
    have unsigned := readUnsigned_hyphen rest digits
    have spelled : fields.spell date 'T' .after = '+' :: (fields.year ++ '-' :: rest) := by
      rw [← same, Fields.spell]
    rw [spelled]
    exact unsigned

theorem boundValue_number {value : String} :
    boundValue { malloyType := .number, value } = (readNumber value).map .number := rfl

/-- A boundary of a number is the number that it was rounded to, as it is printed. -/
theorem canonical_number (held : raw.Held)
    (canonical : canonicalBoundValue runtimeNumbers .number raw = .ok bound) :
    (∃ text double, raw = .text text ∧ toNumber text = some double ∧
      bound = { malloyType := .number, value := double.text }) ∨
      (∃ ms, raw = .date ms) ∧ boundValue bound = none := by
  cases raw with
  | null => cases canonical
  | date ms =>
    refine .inr ⟨⟨ms, rfl⟩, ?_⟩
    rw [canonical_dateObject held canonical, boundValue_number,
      readNumber_spell (formed_fieldsOf held), Option.map_none]
  | text value =>
    cases rendered : renderNumber runtimeNumbers value with
    | error refused =>
      rw [canonicalBoundValue, rendered] at canonical
      cases canonical
    | ok printed =>
      rw [canonicalBoundValue, rendered] at canonical
      cases canonical
      obtain ⟨double, reads, rfl⟩ := renderNumber_eq_ok.mp rendered
      exact .inl ⟨value, double, rfl, reads, rfl⟩

theorem canonical_string
    (canonical : canonicalBoundValue runtimeNumbers .string raw = .ok bound) :
    bound.malloyType = .string := by
  cases raw <;> cases canonical <;> rfl

theorem boundValue_string (isString : bound.malloyType = .string) :
    boundValue bound = some (.text bound.value) := by
  obtain ⟨malloyType, text⟩ := bound
  cases isString
  rfl

end Driver

end MalloyPublisher.Incremental
