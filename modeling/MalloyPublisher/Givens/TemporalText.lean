import MalloyPublisher.Foundations.Numerals
import MalloyPublisher.Incremental.Bound
import Mathlib.Data.List.TakeWhile

/-!
# Dates in parameters

A date is written in the spelling of its type and read by a grammar of its own, which leaves nothing
to the browser. What it reads it builds, and what does not come out with the fields that were read
is refused. So whatever is read of a printed date is printed as it was, without a word about the
calendar but that a month and a day have two digits.

## Main definitions

* `parseTemporal` — what reads as a date, with the `+` that an address bar takes for a space
* `dateToRequest` — a date in the spelling of a type

## Main results

* `civilOfDays_spec` — a civil date is of the day it was made of
* `restoreUrlPlus_restoreUrlPlus` — a sign is put back once
* `dateToRequest_of_parseTemporal` — what is read of a printed date is printed as it was
-/

namespace MalloyPublisher.Givens

open Foundations
open Incremental (civilOfDays toISOString)

/-! ## Dates as text -/

/-- From `least` to `most` digits off the front of a text. -/
def readDigits (least most : ℕ) (text : List Char) : Option (List Char × List Char) :=
  let digits := (text.take most).takeWhile Char.isDigit
  if least ≤ digits.length then some (digits, text.drop digits.length) else none

/-- One character off the front of a text. -/
def readChar (expected : Char) : List Char → Option (List Char)
  | c :: rest => if c = expected then some rest else none
  | [] => none

def number (digits : List Char) : ℕ := Nat.ofDigitChars 10 digits 0

structure Day where
  year : ℕ
  month : ℕ
  day : ℕ
  deriving DecidableEq

/-- A time of day as it was written. A second or a fraction that was not has no digits. -/
structure Clock where
  hour : ℕ
  minute : ℕ
  second : List Char
  fraction : List Char
  deriving DecidableEq

/-- `\d{4}-\d{1,2}-\d{1,2}`. -/
def readDay (text : List Char) : Option (Day × List Char) := do
  let (year, rest) ← readDigits 4 4 text
  let rest ← readChar '-' rest
  let (month, rest) ← readDigits 1 2 rest
  let rest ← readChar '-' rest
  let (day, rest) ← readDigits 1 2 rest
  return ({ year := number year, month := number month, day := number day }, rest)

/-- What follows a separator, if it does, and what follows that. -/
def readOptional (separator : Char) (least most : ℕ) (text : List Char) : List Char × List Char :=
  ((readChar separator text).bind (readDigits least most)).getD ([], text)

/-- A separator, and `\d{1,2}:\d{2}(?::\d{2})?(?:\.\d{1,9})?`. -/
def readClock (isSeparator : Char → Bool) (text : List Char) : Option (Clock × List Char) := do
  let rest := text.dropWhile isSeparator
  if rest.length = text.length then none
  let (hour, rest) ← readDigits 1 2 rest
  let rest ← readChar ':' rest
  let (minute, rest) ← readDigits 2 2 rest
  let (second, rest) := readOptional ':' 2 2 rest
  let (fraction, rest) := readOptional '.' 1 9 rest
  return ({ hour := number hour, minute := number minute, second, fraction }, rest)

/-- `\d{2}:?\d{2}|\d{2}`, all of a text. -/
def isOffset : List Char → Bool
  | [a, b] => a.isDigit && b.isDigit
  | [a, b, c, d] => a.isDigit && b.isDigit && c.isDigit && d.isDigit
  | [a, b, colon, c, d] => a.isDigit && b.isDigit && colon = ':' && c.isDigit && d.isDigit
  | _ => false

/-- `Z|[+-]\d{2}:?\d{2}|[+-]\d{2}|UTC|GMT`, all of a text, in any case. -/
def isZone (text : List Char) : Bool :=
  let upper := text.map Char.toUpper
  upper = "Z".toList || upper = "UTC".toList || upper = "GMT".toList ||
    match text with
    | sign :: offset => (sign = '+' || sign = '-') && isOffset offset
    | [] => false

/-- What `TEMPORAL` matches of a text. -/
structure Temporal where
  day : Day
  clock : Option Clock
  zone : Option (List Char)
  deriving DecidableEq

/-- `TEMPORAL.exec`. -/
def readTemporal (text : List Char) : Option Temporal := do
  let (day, rest) ← readDay text
  let (clock, rest) :=
    match readClock (fun c => c = 'T' || c = 't' || isSpace c) rest with
    | some (clock, rest) => (some clock, rest)
    | none => (none, rest)
  let zone := rest.dropWhile isSpace
  if zone = [] then return { day, clock, zone := none }
  else if isZone zone then return { day, clock, zone := some zone }
  else none

/-- A full datetime and the offset that follows it where its `+` was taken for a space. -/
def splitAtSpace (text : List Char) : Option (List Char × List Char) := do
  let (_, rest) ← readDay text
  let (_, rest) ← readClock (fun c => c = 'T' || isSpace c) rest
  let offset := rest.dropWhile isSpace
  if offset.length = rest.length then none
  else if isOffset offset then return (text.take (text.length - rest.length), offset)
  else none

/-- A value with its offset `+` put back. -/
def restoreUrlPlus (raw : List Char) : List Char :=
  let trimmed := trim raw
  if trimmed = [] then raw
  else
    match splitAtSpace trimmed with
    | some (datetime, offset) => datetime ++ '+' :: offset
    | none => trimmed

/-- Minutes east of UTC, and none for what is no offset. -/
def zoneOffsetMinutes : Option (List Char) → Option ℤ
  | none => some 0
  | some zone =>
    let upper := zone.map Char.toUpper
    if upper = "Z".toList ∨ upper = "UTC".toList ∨ upper = "GMT".toList then some 0
    else
      match zone with
      | sign :: a :: b :: rest =>
        let mins := number (rest.filter (· ≠ ':'))
        let minutes : ℤ := number [a, b] * 60 + mins
        if mins > 59 then none
        else if minutes > (if sign ≠ '-' then 14 * 60 else 12 * 60) then none
        else some (if sign ≠ '-' then minutes else -minutes)
      | _ => none

/-! ## Dates -/

/-- The day of a civil date, counted from 1970-01-01. A day that its month has not counts on. -/
def daysOfCivil (year month day : ℤ) : ℤ :=
  let shifted := if month ≤ 2 then year - 1 else year
  let era := shifted / 400
  let yearOfEra := shifted - era * 400
  let dayOfYear := (153 * (if 2 < month then month - 3 else month + 9) + 2) / 5 + day - 1
  let dayOfEra := yearOfEra * 365 + yearOfEra / 4 - yearOfEra / 100 + dayOfYear
  era * 146097 + dayOfEra - 719468

/-- `Date.UTC`, its month counted from one. It normalises a month and a day, and takes two digits
for a year of the last century. -/
def utc (day : Day) (hour minute second milli : ℕ) : ℤ :=
  let year : ℤ := if day.year ≤ 99 then 1900 + day.year else day.year
  let month : ℤ := day.month - 1
  daysOfCivil (year + month / 12) (month % 12 + 1) day.day * 86400000 +
    (hour * 3600000 + minute * 60000 + second * 1000 + milli)

def utcDay (instant : ℤ) : ℤ × ℤ × ℤ := civilOfDays (instant / 86400000)

def utcHours (instant : ℤ) : ℤ := instant % 86400000 / 3600000

def utcMinutes (instant : ℤ) : ℤ := instant % 86400000 / 60000 % 60

def utcSeconds (instant : ℤ) : ℤ := instant % 86400000 / 1000 % 60

/-- The milliseconds of a fraction, which may have more digits. -/
def millis (fraction : List Char) : ℕ :=
  let digits := fraction.take 3
  number (digits ++ List.replicate (3 - digits.length) '0')

/-- The instant of a match by its own fields. -/
def Temporal.civil (matched : Temporal) : ℤ :=
  match matched.clock with
  | none => utc matched.day 0 0 0 0
  | some clock =>
    utc matched.day clock.hour clock.minute (number clock.second) (millis clock.fraction)

/-- The fields of a match are those of an instant. -/
def Temporal.Survived (matched : Temporal) (built : ℤ) : Prop :=
  utcDay built = ((matched.day.year : ℤ), (matched.day.month : ℤ), (matched.day.day : ℤ)) ∧
    match matched.clock with
    | none => utcHours built = 0 ∧ utcMinutes built = 0 ∧ utcSeconds built = 0
    | some clock => utcHours built = clock.hour ∧ utcMinutes built = clock.minute ∧
        utcSeconds built = number clock.second

instance (matched : Temporal) (built : ℤ) : Decidable (matched.Survived built) := by
  unfold Temporal.Survived
  cases matched.clock <;> infer_instance

/-- A text as an instant, where it is one. A date refuses a zone that moves its day. -/
def parseTemporal (raw : List Char) (calendarDay : Bool) : Option ℤ := do
  let text := restoreUrlPlus raw
  if text = [] then none
  let matched ← readTemporal text
  let civil := matched.civil
  if ¬matched.Survived civil then none
  if matched.zone.isSome && matched.clock.isNone then none
  let offset ← zoneOffsetMinutes matched.zone
  let instant := civil - offset * 60000
  if calendarDay && matched.zone.isSome && (utcDay instant).2.2 ≠ matched.day.day then none
  return instant

/-- A date in the spelling of the type that is declared. -/
def dateToRequest (value : ℤ) (type : Option String) : String :=
  let iso := (toISOString value).toList
  if type = some "timestamptz" then String.ofList iso
  else if type = some "timestamp" then String.ofList iso.dropLast
  else String.ofList (iso.take 10)

/-! ## Civil dates -/

section Calendar

/-- The year of an era by its century, the four years in it and the day in these. -/
theorem yearOfEra_eq {d c q s : ℤ} (century : 0 ≤ c ∧ c ≤ 4) (quad : 0 ≤ q ∧ q ≤ 24)
    (day : 0 ≤ s ∧ s ≤ 1460) (split : d = 36524 * c + 1461 * q + s)
    (leap : c = 4 → q = 0 ∧ s = 0) (common : q = 24 → s ≤ 1459) :
    (d - d / 1460 + d / 36524 - d / 146096) / 365 =
      if c = 4 then 399 else 100 * c + 4 * q + min (s / 365) 3 := by
  have centuries : d / 36524 = c := by omega
  have eras : d / 146096 = if c = 4 then 1 else 0 := by omega
  have quads : d / 1460 = 25 * c + q + (24 * c + q + s) / 1460 := by omega
  rw [centuries, eras, quads]
  omega

/-- The day of an era is one of 366 of a year of the era. -/
theorem dayOfYear_bounds {d year : ℤ} (inEra : 0 ≤ d ∧ d < 146097)
    (isYear : year = (d - d / 1460 + d / 36524 - d / 146096) / 365) :
    (0 ≤ year ∧ year < 400) ∧
      0 ≤ d - (365 * year + year / 4 - year / 100) ∧
        d - (365 * year + year / 4 - year / 100) ≤ 365 := by
  have century : 0 ≤ d / 36524 ∧ d / 36524 ≤ 4 := by omega
  have quad : 0 ≤ d % 36524 / 1461 ∧ d % 36524 / 1461 ≤ 24 := by omega
  have day : 0 ≤ d % 36524 % 1461 ∧ d % 36524 % 1461 ≤ 1460 := by omega
  have split : d = 36524 * (d / 36524) + 1461 * (d % 36524 / 1461) + d % 36524 % 1461 := by omega
  rw [yearOfEra_eq century quad day split (by omega) (by omega)] at isYear
  generalize d / 36524 = c at *
  generalize d % 36524 / 1461 = q at *
  generalize d % 36524 % 1461 = s at *
  split_ifs at isYear with last
  · omega
  · have centuries : year / 100 = c := by omega
    have quads : year / 4 = 25 * c + q := by omega
    rw [centuries, quads]
    omega

/-- The months from March are of 30 or 31 days, five of them of 153. -/
theorem month_bounds {dayOfYear month : ℤ} (inYear : 0 ≤ dayOfYear ∧ dayOfYear ≤ 365)
    (isMonth : month = (5 * dayOfYear + 2) / 153) :
    (0 ≤ month ∧ month ≤ 11) ∧ 0 ≤ dayOfYear - (153 * month + 2) / 5 ∧
      dayOfYear - (153 * month + 2) / 5 ≤ 30 := by
  omega

/-- A civil date has a month and a day in it, and is of the day it was made of. -/
theorem civilOfDays_spec (days : ℤ) :
    ∃ year month day, civilOfDays days = (year, month, day) ∧ (1 ≤ month ∧ month ≤ 12) ∧
      (1 ≤ day ∧ day ≤ 31) ∧ daysOfCivil year month day = days := by
  obtain ⟨era, isEra⟩ : ∃ era, era = (days + 719468) / 146097 := ⟨_, rfl⟩
  obtain ⟨dayOfEra, isDayOfEra⟩ : ∃ day, day = days + 719468 - era * 146097 := ⟨_, rfl⟩
  obtain ⟨year, isYear⟩ : ∃ year, year =
      (dayOfEra - dayOfEra / 1460 + dayOfEra / 36524 - dayOfEra / 146096) / 365 := ⟨_, rfl⟩
  obtain ⟨dayOfYear, isDayOfYear⟩ : ∃ day, day =
      dayOfEra - (365 * year + year / 4 - year / 100) := ⟨_, rfl⟩
  obtain ⟨month, isMonth⟩ : ∃ month, month = (5 * dayOfYear + 2) / 153 := ⟨_, rfl⟩
  obtain ⟨inYears, inYear⟩ := dayOfYear_bounds (by omega) isYear
  rw [← isDayOfYear] at inYear
  obtain ⟨inMonths, inMonth⟩ := month_bounds inYear isMonth
  refine ⟨_, _, _, rfl, ?_⟩
  unfold daysOfCivil
  dsimp only
  rw [← isEra, ← isDayOfEra, ← isYear, ← isDayOfYear, ← isMonth]
  clear isYear isMonth
  have shifted : ∀ m : ℤ, (if m ≤ 2 then year + era * 400 + (if m ≤ 2 then 1 else 0) - 1
      else year + era * 400 + (if m ≤ 2 then 1 else 0)) = year + era * 400 := by
    intro m
    split_ifs <;> omega
  rw [shifted]
  have eras : (year + era * 400) / 400 = era := by omega
  rw [eras]
  have years : year + era * 400 - era * 400 = year := by omega
  rw [years]
  by_cases early : month < 10
  · rw [if_pos early, if_pos (by omega)]
    omega
  · rw [if_neg early, if_neg (by omega)]
    omega

end Calendar

/-! ## Reading what was printed -/

section Printed

open Incremental (padded isoYear)

theorem isDigit_padded {width n : ℕ} : ∀ c ∈ (padded width n).toList, c.isDigit = true := by
  intro c member
  rw [padded, String.toList_ofList, List.mem_append] at member
  rcases member with zero | digit
  · rw [List.eq_of_mem_replicate zero]
    rfl
  · exact isDigit_toDigits n c digit

theorem number_padded (width n : ℕ) : number (padded width n).toList = n := by
  rw [padded, String.toList_ofList, number, Nat.ofDigitChars_append,
    Nat.ofDigitChars_replicate_zero, mul_zero, Nat.ofDigitChars_ten_toDigits]

theorem length_padded {width n : ℕ} (positive : 0 < width) (fits : n < 10 ^ width) :
    (padded width n).toList.length = width := by
  have short := (Nat.length_toDigits_le_iff (b := 10) (by norm_num) positive).mpr fits
  rw [padded, String.toList_ofList, List.length_append, List.length_replicate]
  omega

/-- Digits are read up to what is none. -/
theorem readDigits_append {least most : ℕ} {digits rest : List Char}
    (all : ∀ c ∈ digits, c.isDigit = true) (enough : least ≤ digits.length)
    (fits : digits.length ≤ most) (ends : ∀ c ∈ rest.head?, c.isDigit = false) :
    readDigits least most (digits ++ rest) = some (digits, rest) := by
  have taken : ((digits ++ rest).take most).takeWhile Char.isDigit = digits := by
    rw [List.take_append, List.take_of_length_le fits, List.takeWhile_append_of_pos all]
    cases rest with
    | nil => simp
    | cons c rest =>
      cases most - digits.length with
      | zero => simp
      | succ more => simp [ends c rfl]
  rw [readDigits]
  simp only [taken, if_pos enough, List.drop_left]

theorem readDigits_padded {least most width n : ℕ} {rest : List Char} (positive : 0 < width)
    (number : n < 10 ^ width) (enough : least ≤ width) (fits : width ≤ most)
    (ends : ∀ c ∈ rest.head?, c.isDigit = false) :
    readDigits least most ((padded width n).toList ++ rest) =
      some ((padded width n).toList, rest) := by
  have length := length_padded positive number
  exact readDigits_append isDigit_padded (by omega) (by omega) ends

end Printed

/-! ## A printed date is printed as it was -/

section PrintedDates

open Incremental (padded isoYear)

variable {instant other : ℤ} {rest : List Char}

/-- The calendar day of an instant, as it is printed. -/
def dayText (instant : ℤ) : List Char :=
  (isoYear (utcDay instant).1).toList ++ '-' :: ((padded 2 (utcDay instant).2.1.toNat).toList ++
    '-' :: (padded 2 (utcDay instant).2.2.toNat).toList)

/-- Its time of day. -/
def clockText (instant : ℤ) : List Char :=
  (padded 2 (utcHours instant).toNat).toList ++ ':' :: ((padded 2 (utcMinutes instant).toNat).toList ++
    ':' :: ((padded 2 (utcSeconds instant).toNat).toList ++
      '.' :: (padded 3 (instant % 1000).toNat).toList))

theorem toList_toISOString (instant : ℤ) :
    (toISOString instant).toList = dayText instant ++ 'T' :: (clockText instant ++ ['Z']) := by
  have hours : (instant % 86400000).toNat / 3600000 = (utcHours instant).toNat := by
    unfold utcHours
    omega
  have minutes : (instant % 86400000).toNat / 60000 % 60 = (utcMinutes instant).toNat := by
    unfold utcMinutes
    omega
  have seconds : (instant % 86400000).toNat / 1000 % 60 = (utcSeconds instant).toNat := by
    unfold utcSeconds
    omega
  have millis : (instant % 86400000).toNat % 1000 = (instant % 1000).toNat := by omega
  unfold toISOString dayText clockText utcDay
  dsimp only
  rw [hours, minutes, seconds, millis]
  have marks : "-".toList = ['-'] ∧ "T".toList = ['T'] ∧ ":".toList = [':'] ∧ ".".toList = ['.'] ∧
      "Z".toList = ['Z'] := ⟨rfl, rfl, rfl, rfl, rfl⟩
  simp only [String.toList_append, marks, List.append_assoc, List.cons_append, List.nil_append]

/-- A year of four digits. -/
def FourDigits (instant : ℤ) : Prop := 0 ≤ (utcDay instant).1 ∧ (utcDay instant).1 ≤ 9999

/-- The day of an instant as numbers. -/
def dayOf (instant : ℤ) : Day where
  year := (utcDay instant).1.toNat
  month := (utcDay instant).2.1.toNat
  day := (utcDay instant).2.2.toNat

/-- Its time of day as it is read. -/
def clockOf (instant : ℤ) : Clock where
  hour := (utcHours instant).toNat
  minute := (utcMinutes instant).toNat
  second := (padded 2 (utcSeconds instant).toNat).toList
  fraction := (padded 3 (instant % 1000).toNat).toList

theorem utcDay_bounds (instant : ℤ) :
    (1 ≤ (utcDay instant).2.1 ∧ (utcDay instant).2.1 ≤ 12) ∧
      1 ≤ (utcDay instant).2.2 ∧ (utcDay instant).2.2 ≤ 31 := by
  obtain ⟨year, month, day, civil, inMonths, inDays, -⟩ := civilOfDays_spec (instant / 86400000)
  rw [utcDay, civil]
  exact ⟨inMonths, inDays⟩

theorem readDay_dayText (four : FourDigits instant) (ends : ∀ c ∈ rest.head?, c.isDigit = false) :
    readDay (dayText instant ++ rest) = some (dayOf instant, rest) := by
  obtain ⟨⟨-, month⟩, -, day⟩ := utcDay_bounds instant
  have hyphen : ∀ text : List Char, ∀ c ∈ ('-' :: text).head?, c.isDigit = false := by
    rintro text c ⟨⟩
    rfl
  have year : isoYear (utcDay instant).1 = padded 4 (utcDay instant).1.toNat := by
    exact if_pos four
  unfold readDay dayText
  rw [year]
  simp only [List.append_assoc, List.cons_append]
  rw [readDigits_padded (by norm_num) (by have := four.2; omega) le_rfl le_rfl (hyphen _)]
  simp only [Option.bind_eq_bind, Option.bind_some, readChar, if_true]
  rw [readDigits_padded (by norm_num) (by omega) (by norm_num) le_rfl (hyphen _)]
  simp only [Option.bind_some, if_true]
  rw [readDigits_padded (by norm_num) (by omega) (by norm_num) le_rfl ends]
  simp only [Option.bind_some, number_padded]
  rfl

theorem readDay_of_not_isDigit {c : Char} (notDigit : c.isDigit = false) :
    readDay (c :: rest) = none := by
  simp [readDay, readDigits, notDigit]

/-- Where a year has not four digits, it has a sign. -/
theorem dayText_of_not_fourDigits (long : ¬FourDigits instant) :
    ∃ sign more, dayText instant = sign :: more ∧ sign.isDigit = false := by
  have year : isoYear (utcDay instant).1 = (if (utcDay instant).1 < 0 then "-" else "+") ++
      padded 6 (utcDay instant).1.natAbs := if_neg long
  rw [dayText, year, String.toList_append]
  split_ifs
  · exact ⟨'-', _, rfl, rfl⟩
  · exact ⟨'+', _, rfl, rfl⟩

theorem length_dayText (four : FourDigits instant) : (dayText instant).length = 10 := by
  obtain ⟨⟨-, month⟩, -, day⟩ := utcDay_bounds instant
  have year : isoYear (utcDay instant).1 = padded 4 (utcDay instant).1.toNat := if_pos four
  have high := four.2
  rw [dayText, year, List.length_append, List.length_cons, List.length_append, List.length_cons,
    length_padded (by norm_num) (by omega), length_padded (by norm_num) (by omega),
    length_padded (by norm_num) (by omega)]

/-- There is no white space in what is printed. -/
theorem isSpace_toISOString : ∀ c ∈ (toISOString instant).toList, isSpace c = false := by
  intro c member
  have digits : ∀ width n, c ∈ (padded width n).toList → isSpace c = false := fun _ _ digit =>
    isSpace_of_isDigit (isDigit_padded c digit)
  have year : c ∈ (isoYear (utcDay instant).1).toList → isSpace c = false := by
    unfold isoYear
    intro inYear
    split_ifs at inYear
    · exact digits _ _ inYear
    all_goals
      rw [String.toList_append, List.mem_append] at inYear
      rcases inYear with sign | digit
      · rw [List.mem_singleton.mp sign]
        rfl
      · exact digits _ _ digit
  have marks : isSpace '-' = false ∧ isSpace 'T' = false ∧ isSpace ':' = false ∧
      isSpace '.' = false ∧ isSpace 'Z' = false := ⟨rfl, rfl, rfl, rfl, rfl⟩
  rw [toList_toISOString] at member
  simp only [dayText, clockText, List.mem_append, List.mem_cons, List.not_mem_nil, or_false] at member
  rcases member with (inYear | rfl | digit | rfl | digit) | rfl |
    ((digit | rfl | digit | rfl | digit | rfl | digit) | rfl)
  · exact year inYear
  all_goals first | exact digits _ _ digit | simp only [marks]

theorem readClock_clockText {isSeparator : Char → Bool} (separates : isSeparator 'T' = true)
    (digits : ∀ c, c.isDigit = true → isSeparator c = false)
    (ends : ∀ c ∈ rest.head?, c.isDigit = false) :
    readClock isSeparator ('T' :: (clockText instant ++ rest)) = some (clockOf instant, rest) := by
  have colon : ∀ text : List Char, ∀ c ∈ (':' :: text).head?, c.isDigit = false := by
    rintro text c ⟨⟩
    rfl
  have point : ∀ text : List Char, ∀ c ∈ ('.' :: text).head?, c.isDigit = false := by
    rintro text c ⟨⟩
    rfl
  have hour : (utcHours instant).toNat < 10 ^ 2 := by unfold utcHours; omega
  have minute : (utcMinutes instant).toNat < 10 ^ 2 := by unfold utcMinutes; omega
  have second : (utcSeconds instant).toNat < 10 ^ 2 := by unfold utcSeconds; omega
  have milli : (instant % 1000).toNat < 10 ^ 3 := by omega
  have separated : ('T' :: (clockText instant ++ rest)).dropWhile isSeparator =
      clockText instant ++ rest := by
    have length := length_padded (by norm_num) hour
    have all := @isDigit_padded 2 (utcHours instant).toNat
    unfold clockText
    cases starts : (padded 2 (utcHours instant).toNat).toList with
    | nil =>
      rw [starts] at length
      cases length
    | cons c more =>
      have notSeparator : isSeparator c = false := digits c (all c (by simp [starts]))
      simp [separates, notSeparator]
  unfold readClock
  rw [separated]
  unfold clockText
  simp only [List.append_assoc, List.cons_append]
  rw [if_neg (by simp)]
  rw [readDigits_padded (by norm_num) hour (by norm_num) le_rfl (colon _)]
  simp only [Option.bind_eq_bind, Option.bind_some, readChar, if_true]
  rw [readDigits_padded (by norm_num) minute le_rfl le_rfl (colon _)]
  simp only [Option.bind_some, readOptional, readChar, if_true]
  rw [readDigits_padded (by norm_num) second le_rfl le_rfl (point _)]
  simp only [Option.getD_some, Option.bind_some, if_true]
  rw [readDigits_padded (by norm_num) milli (by norm_num) (by norm_num) ends]
  simp only [Option.getD_some, number_padded]
  rfl

/-- A printed date as it is matched. -/
theorem readTemporal_dayText (four : FourDigits instant) :
    readTemporal (dayText instant) =
      some { day := dayOf instant, clock := none, zone := none } := by
  have read := @readDay_dayText _ [] four (by simp)
  rw [List.append_nil] at read
  rw [readTemporal, read]
  rfl

theorem readTemporal_clockText (four : FourDigits instant) (zone : List Char)
    (isEmptyOrZ : zone = [] ∨ zone = ['Z']) :
    readTemporal (dayText instant ++ 'T' :: (clockText instant ++ zone)) =
      some { day := dayOf instant, clock := some (clockOf instant),
             zone := if zone = [] then none else some zone } := by
  have mark : ∀ c ∈ ('T' :: (clockText instant ++ zone)).head?, c.isDigit = false := by
    rintro c ⟨⟩
    rfl
  have ends : ∀ c ∈ zone.head?, c.isDigit = false := by
    rintro c first
    rcases isEmptyOrZ with rfl | rfl
    · cases first
    · cases first
      rfl
  have separator : ∀ c : Char, c.isDigit = true → (c = 'T' || c = 't' || isSpace c) = false := by
    intro c digit
    have notSpace := isSpace_of_isDigit digit
    have notT : c ≠ 'T' := by
      rintro rfl
      simp [Char.isDigit] at digit
    have nott : c ≠ 't' := by
      rintro rfl
      simp [Char.isDigit] at digit
    simp [notSpace, notT, nott]
  unfold readTemporal
  rw [readDay_dayText four mark]
  simp only [Option.bind_eq_bind, Option.bind_some]
  rw [readClock_clockText (by rfl) separator ends]
  rcases isEmptyOrZ with rfl | rfl
  · rfl
  · rfl

end PrintedDates

/-! ## The sign that an address bar takes away -/

section Restoring

variable {text rest : List Char}

/-- A text goes on with the second, and there is no `+` before that. -/
def ReadsTo (text rest : List Char) : Prop := ∃ front, text = front ++ rest ∧ '+' ∉ front

theorem ReadsTo.trans {later : List Char} (first : ReadsTo text rest)
    (second : ReadsTo rest later) : ReadsTo text later := by
  obtain ⟨front, rfl, noPlus⟩ := first
  obtain ⟨next, rfl, noPlus'⟩ := second
  exact ⟨front ++ next, (List.append_assoc ..).symm, by simp [noPlus, noPlus']⟩

theorem readsTo_dropWhile {drops : Char → Bool} (keeps : drops '+' = false) (text : List Char) :
    ReadsTo text (text.dropWhile drops) := by
  refine ⟨text.takeWhile drops, List.takeWhile_append_dropWhile.symm, fun plus => ?_⟩
  rw [List.mem_takeWhile_imp plus] at keeps
  cases keeps

theorem readsTo_readDigits {least most : ℕ} {digits : List Char}
    (reads : readDigits least most text = some (digits, rest)) :
    ReadsTo text rest ∧ digits.length + rest.length = text.length ∧ least ≤ digits.length := by
  unfold readDigits at reads
  dsimp only at reads
  split_ifs at reads with enough
  cases reads
  have start : (text.take most).takeWhile Char.isDigit <+: text :=
    (List.takeWhile_prefix _).trans (List.take_prefix _ _)
  obtain ⟨later, split⟩ := start
  have dropped : text.drop ((text.take most).takeWhile Char.isDigit).length = later := by
    exact (congrArg (List.drop _) split.symm).trans List.drop_left
  rw [dropped]
  refine ⟨⟨_, split.symm, fun plus => ?_⟩, by rw [← List.length_append, split], enough⟩
  have digit := List.mem_takeWhile_imp plus
  simp [Char.isDigit] at digit

theorem readsTo_readChar {expected : Char} (other : expected ≠ '+')
    (reads : readChar expected text = some rest) : ReadsTo text rest := by
  cases text with
  | nil => cases reads
  | cons c more =>
    rw [readChar] at reads
    split_ifs at reads with same
    cases reads
    exact ⟨[c], rfl, by simp [same, Ne.symm other]⟩

theorem readsTo_readOptional {separator : Char} (other : separator ≠ '+') (least most : ℕ)
    (text : List Char) : ReadsTo text (readOptional separator least most text).2 := by
  unfold readOptional
  cases read : (readChar separator text).bind (readDigits least most) with
  | none => exact ⟨[], rfl, by simp⟩
  | some digits =>
    obtain ⟨later, isLater, reads⟩ := Option.bind_eq_some_iff.mp read
    exact (readsTo_readChar other isLater).trans (readsTo_readDigits reads).1

theorem readsTo_readDay {day : Day} (reads : readDay text = some (day, rest)) :
    ReadsTo text rest ∧ rest.length < text.length := by
  simp only [readDay, Option.bind_eq_bind, Option.bind_eq_some_iff, Prod.exists] at reads
  obtain ⟨year, afterYear, isYear, beforeMonth, first, month, afterMonth, isMonth, beforeDay,
    second, day', afterDay, isDay, same⟩ := reads
  cases same
  obtain ⟨toYear, lengths, enough⟩ := readsTo_readDigits isYear
  have path := (readsTo_readChar (by decide) first).trans <|
    (readsTo_readDigits isMonth).1.trans <|
    (readsTo_readChar (by decide) second).trans (readsTo_readDigits isDay).1
  refine ⟨toYear.trans path, ?_⟩
  obtain ⟨front, split, -⟩ := path
  have := congrArg List.length split
  rw [List.length_append] at this
  omega

theorem readsTo_readClock {isSeparator : Char → Bool} (keeps : isSeparator '+' = false)
    {clock : Clock} (reads : readClock isSeparator text = some (clock, rest)) :
    ReadsTo text rest := by
  unfold readClock at reads
  by_cases none : (text.dropWhile isSeparator).length = text.length
  · simp [none] at reads
  simp only [if_neg none, Option.bind_eq_bind, Option.bind_eq_some_iff, Prod.exists] at reads
  obtain ⟨hour, afterHour, isHour, beforeMinute, isColon, minute, afterMinute, isMinute, same⟩ :=
    reads
  cases same
  exact (readsTo_dropWhile keeps text).trans <|
    (readsTo_readDigits isHour).1.trans <|
    (readsTo_readChar (by decide) isColon).trans <|
    (readsTo_readDigits isMinute).1.trans <|
    (readsTo_readOptional (by decide) 2 2 _).trans (readsTo_readOptional (by decide) 1 9 _)

/-- An offset is of digits and a colon. -/
theorem mem_isOffset {offset : List Char} (isOffset' : isOffset offset = true) :
    offset ≠ [] ∧ ∀ c ∈ offset, isSpace c = false ∧ c ≠ '+' := by
  have digit : ∀ c : Char, c.isDigit = true → isSpace c = false ∧ c ≠ '+' := by
    intro c isDigit
    refine ⟨isSpace_of_isDigit isDigit, ?_⟩
    rintro rfl
    simp [Char.isDigit] at isDigit
  unfold isOffset at isOffset'
  split at isOffset'
  · simp only [Bool.and_eq_true] at isOffset'
    simp [digit _ isOffset'.1, digit _ isOffset'.2]
  · simp only [Bool.and_eq_true] at isOffset'
    simp [digit _ isOffset'.1.1.1, digit _ isOffset'.1.1.2, digit _ isOffset'.1.2, digit _ isOffset'.2]
  · simp only [Bool.and_eq_true, decide_eq_true_eq] at isOffset'
    obtain ⟨⟨⟨⟨a, b⟩, rfl⟩, c⟩, d⟩ := isOffset'
    have colon : isSpace ':' = false := rfl
    simp [digit _ a, digit _ b, digit _ c, digit _ d, colon]
  · cases isOffset'

/-- What a text is split into at the space. -/
theorem splitAtSpace_spec {datetime offset : List Char}
    (splits : splitAtSpace text = some (datetime, offset)) :
    datetime ≠ [] ∧ '+' ∉ datetime ∧ isOffset offset = true ∧
      ∃ spaces, spaces ≠ [] ∧ (∀ c ∈ spaces, isSpace c = true) ∧
        text = datetime ++ (spaces ++ offset) := by
  simp only [splitAtSpace, Option.bind_eq_bind, Option.bind_eq_some_iff, Prod.exists] at splits
  obtain ⟨day, afterDay, isDay, clock, rest, isClock, splits⟩ := splits
  split_ifs at splits with none isOff
  cases splits
  obtain ⟨toDay, shorter⟩ := readsTo_readDay isDay
  have toClock := readsTo_readClock rfl isClock
  obtain ⟨front, split, noPlus⟩ := toDay.trans toClock
  have taken : text.take (text.length - rest.length) = front := by
    rw [split, List.length_append, Nat.add_sub_cancel, List.take_left]
  rw [taken]
  refine ⟨?_, noPlus, isOff, rest.takeWhile isSpace, ?_, fun c => List.mem_takeWhile_imp, ?_⟩
  · rintro rfl
    obtain ⟨more, isMore, -⟩ := toClock
    simp [split, isMore] at shorter
  · intro empty
    have kept := List.takeWhile_append_dropWhile (p := isSpace) (l := rest)
    rw [empty, List.nil_append] at kept
    exact none (congrArg List.length kept)
  · rw [List.takeWhile_append_dropWhile, split]

theorem splitAtSpace_of_notSpace (notSpace : ∀ c ∈ text, isSpace c = false) :
    splitAtSpace text = none := by
  cases splits : splitAtSpace text with
  | none => rfl
  | some halves =>
    obtain ⟨-, -, -, spaces, some, areSpaces, split⟩ := splitAtSpace_spec splits
    obtain ⟨c, member⟩ := List.exists_mem_of_ne_nil _ some
    have no := notSpace c (by simp [split, member])
    rw [areSpaces c member] at no
    cases no

/-- A text without a space is not changed. -/
theorem restoreUrlPlus_of_notSpace (notSpace : ∀ c ∈ text, isSpace c = false) :
    restoreUrlPlus text = text := by
  rw [restoreUrlPlus, trim_of_notSpace notSpace]
  simp only [splitAtSpace_of_notSpace notSpace, ite_self]

/-- What has been restored is not changed again. -/
theorem restoreUrlPlus_restoreUrlPlus (raw : List Char) :
    restoreUrlPlus (restoreUrlPlus raw) = restoreUrlPlus raw := by
  by_cases blank : trim raw = []
  · simp [restoreUrlPlus, blank]
  have kept : ∀ text, text ≠ [] → trim text = text → splitAtSpace text = none →
      restoreUrlPlus text = text := by
    intro text nonempty trimmed whole
    rw [restoreUrlPlus, trimmed, if_neg nonempty, whole]
  obtain ⟨first, last⟩ := isSpace_trim raw
  have bare : trim (trim raw) = trim raw := trim_eq_self first last
  cases splits : splitAtSpace (trim raw) with
  | none =>
    have same : restoreUrlPlus raw = trim raw := by rw [restoreUrlPlus, if_neg blank, splits]
    rw [same, kept _ blank bare splits]
  | some halves =>
    obtain ⟨datetime, offset⟩ := halves
    obtain ⟨some, noPlus, isOffset', spaces, -, areSpaces, split⟩ := splitAtSpace_spec splits
    obtain ⟨someOffset, plain⟩ := mem_isOffset isOffset'
    have same : restoreUrlPlus raw = datetime ++ '+' :: offset := by
      rw [restoreUrlPlus, if_neg blank, splits]
    rw [same]
    refine kept _ (List.append_ne_nil_of_left_ne_nil some _) (trim_eq_self ?_ ?_) ?_
    · intro c isFirst
      refine first c ?_
      rw [split]
      cases datetime with
      | nil => exact absurd rfl some
      | cons d rest => exact isFirst
    · intro c isLast
      refine (plain c ?_).1
      have split : datetime ++ '+' :: offset = (datetime ++ ['+']) ++ offset := by simp
      rw [split, List.getLast?_append, List.getLast?_eq_some_getLast someOffset] at isLast
      cases isLast
      exact List.getLast_mem someOffset
    · -- There is no `+` in what splits.
      cases again : splitAtSpace (datetime ++ '+' :: offset) with
      | none => rfl
      | some halves =>
        obtain ⟨before, after⟩ := halves
        obtain ⟨-, noPlus, isOffset', spaces, -, areSpaces, split⟩ := splitAtSpace_spec again
        have plus : '+' ∈ before ++ (spaces ++ after) := by simp [← split]
        rcases List.mem_append.mp plus with inFront | plus
        · exact absurd inFront noPlus
        rcases List.mem_append.mp plus with inSpaces | inOffset
        · exact absurd (areSpaces _ inSpaces) (by decide)
        · exact absurd rfl ((mem_isOffset isOffset').2 _ inOffset).2

end Restoring

/-! ## What is read of a printed date -/

section RoundTrip

open Incremental (padded isoYear)

variable {type : Option String} {instant other : ℤ}

/-- What is read, by the steps of the reader. -/
theorem parseTemporal_eq_some_iff {raw : List Char} {calendarDay : Bool} :
    parseTemporal raw calendarDay = some instant ↔
    ∃ matched offset, readTemporal (restoreUrlPlus raw) = some matched ∧
      matched.Survived matched.civil ∧ (matched.zone.isSome → matched.clock.isSome) ∧
      zoneOffsetMinutes matched.zone = some offset ∧ instant = matched.civil - offset * 60000 ∧
      (calendarDay → matched.zone.isSome → (utcDay instant).2.2 = matched.day.day) := by
  unfold parseTemporal
  by_cases empty : restoreUrlPlus raw = []
  · have unread : readTemporal [] = none := rfl
    simp [empty, unread]
  simp only [if_neg empty, Option.bind_eq_bind]
  cases read : readTemporal (restoreUrlPlus raw) with
  | none => simp
  | some matched =>
    simp only [Option.bind_some, Option.some.injEq]
    constructor
    · intro reads
      by_cases survived : matched.Survived matched.civil
      swap
      · simp [survived] at reads
      simp only [survived, not_true_eq_false, if_false] at reads
      by_cases zoneAlone : (matched.zone.isSome && matched.clock.isNone) = true
      · simp [zoneAlone] at reads
      rw [if_neg zoneAlone] at reads
      obtain ⟨offset, isOffset, reads⟩ := Option.bind_eq_some_iff.mp reads
      by_cases moved : (calendarDay && matched.zone.isSome &&
          decide ((utcDay (matched.civil - offset * 60000)).2.2 ≠ matched.day.day)) = true
      · rw [if_pos moved] at reads
        cases reads
      · rw [if_neg moved] at reads
        cases reads
        refine ⟨matched, offset, rfl, survived, fun zoned => ?_, isOffset, rfl,
          fun isDay zoned => ?_⟩
        · cases clock : matched.clock with
          | none => simp [zoned, clock] at zoneAlone
          | some clock => rfl
        · simpa [isDay, zoned] using moved
    · rintro ⟨_, offset, rfl, survived, zoned, isOffset, rfl, unmoved⟩
      have zoneNotAlone : ¬(matched.zone.isSome && matched.clock.isNone) = true := by
        intro alone
        obtain ⟨isZoned, noClock⟩ := (Bool.and_eq_true _ _).mp alone
        have clocked := zoned isZoned
        rw [Option.isNone_iff_eq_none] at noClock
        rw [noClock] at clocked
        cases clocked
      have notMoved : ¬(calendarDay && matched.zone.isSome &&
          decide ((utcDay (matched.civil - offset * 60000)).2.2 ≠ matched.day.day)) = true := by
        simp only [Bool.and_eq_true, decide_eq_true_eq, not_and, ne_eq, not_not, and_imp]
        exact unmoved
      rw [if_neg (not_not.mpr survived), if_neg zoneNotAlone, isOffset, Option.bind_some,
        if_neg notMoved]
      rfl

theorem dayText_congr (same : utcDay other = utcDay instant) : dayText other = dayText instant := by
  rw [dayText, dayText, same]

theorem clockText_congr (hours : utcHours other = utcHours instant)
    (minutes : utcMinutes other = utcMinutes instant)
    (seconds : utcSeconds other = utcSeconds instant) (millis : other % 1000 = instant % 1000) :
    clockText other = clockText instant := by
  rw [clockText, clockText, hours, minutes, seconds, millis]

/-- A match with the fields of an instant is on its day. -/
theorem utcDay_of_survived {matched : Temporal} {built : ℤ} (four : FourDigits instant)
    (survived : matched.Survived built) (day : matched.day = dayOf instant) :
    utcDay built = utcDay instant := by
  obtain ⟨⟨month, -⟩, days, -⟩ := utcDay_bounds instant
  rw [survived.1, day]
  unfold dayOf
  dsimp only
  rw [Int.toNat_of_nonneg four.1, Int.toNat_of_nonneg (by omega), Int.toNat_of_nonneg (by omega)]

/-- A match with its time of day too is printed the same. -/
theorem clockText_of_survived {matched : Temporal} (survived : matched.Survived matched.civil)
    (clock : matched.clock = some (clockOf instant)) :
    clockText matched.civil = clockText instant := by
  have fields := survived.2
  have civil : matched.civil = utc matched.day (clockOf instant).hour (clockOf instant).minute
      (number (clockOf instant).second) (millis (clockOf instant).fraction) := by
    rw [Temporal.civil, clock]
  rw [clock] at fields
  obtain ⟨hours, minutes, seconds⟩ := fields
  have hour : 0 ≤ utcHours instant := by unfold utcHours; omega
  have minute : 0 ≤ utcMinutes instant := by unfold utcMinutes; omega
  have second : 0 ≤ utcSeconds instant := by unfold utcSeconds; omega
  have fraction : millis (clockOf instant).fraction = (instant % 1000).toNat := by
    have length : (padded 3 (instant % 1000).toNat).toList.length = 3 :=
      length_padded (by norm_num) (by omega)
    unfold millis clockOf
    dsimp only
    rw [List.take_of_length_le length.le, length, Nat.sub_self, List.replicate_zero,
      List.append_nil, number_padded]
  refine clockText_congr ?_ ?_ ?_ ?_
  · rw [hours]
    exact Int.toNat_of_nonneg hour
  · rw [minutes]
    exact Int.toNat_of_nonneg minute
  · rw [seconds, clockOf, number_padded]
    exact Int.toNat_of_nonneg second
  · rw [civil, utc, fraction]
    omega

/-- The types that hold a date. -/
def IsTemporal (type : Option String) : Prop :=
  type = some "date" ∨ type = some "timestamp" ∨ type = some "timestamptz"

theorem isSpace_dateToRequest (instant : ℤ) (type : Option String) :
    ∀ c ∈ (dateToRequest instant type).toList, isSpace c = false := by
  intro c member
  unfold dateToRequest at member
  dsimp only at member
  split_ifs at member <;> rw [String.toList_ofList] at member
  · exact isSpace_toISOString c member
  · exact isSpace_toISOString c ((List.dropLast_sublist _).subset member)
  · exact isSpace_toISOString c (List.mem_of_mem_take member)

/-- The three spellings of a date. -/
theorem toList_dateToRequest_timestamptz (instant : ℤ) :
    (dateToRequest instant (some "timestamptz")).toList =
      dayText instant ++ 'T' :: (clockText instant ++ ['Z']) := by
  rw [dateToRequest, if_pos rfl, String.toList_ofList, toList_toISOString]

theorem toList_dateToRequest_timestamp (instant : ℤ) :
    (dateToRequest instant (some "timestamp")).toList =
      dayText instant ++ 'T' :: (clockText instant ++ []) := by
  have split : dayText instant ++ 'T' :: (clockText instant ++ ['Z']) =
      (dayText instant ++ 'T' :: (clockText instant ++ [])) ++ ['Z'] := by simp
  rw [dateToRequest, if_neg (by decide), if_pos rfl, String.toList_ofList, toList_toISOString, split,
    List.dropLast_concat]

theorem toList_dateToRequest_date (instant : ℤ) :
    (dateToRequest instant (some "date")).toList =
      (dayText instant ++ 'T' :: (clockText instant ++ ['Z'])).take 10 := by
  rw [dateToRequest, if_neg (by decide), if_neg (by decide), String.toList_ofList,
    toList_toISOString]

/-- What is read of a printed date is printed as it was. -/
theorem dateToRequest_of_parseTemporal {calendarDay : Bool} (temporal : IsTemporal type)
    (reads : parseTemporal (dateToRequest instant type).toList calendarDay = some other) :
    dateToRequest other type = dateToRequest instant type := by
  have kept := restoreUrlPlus_of_notSpace (isSpace_dateToRequest instant type)
  obtain ⟨matched, offset, isMatch, survived, -, isOffset, rfl, -⟩ := parseTemporal_eq_some_iff.mp reads
  rw [kept] at isMatch
  have four : FourDigits instant := by
    by_contra long
    obtain ⟨sign, more, text, notDigit⟩ := dayText_of_not_fourDigits long
    have unread : ∀ rest, readTemporal (sign :: rest) = none := by
      intro rest
      rw [readTemporal, readDay_of_not_isDigit notDigit]
      rfl
    rcases temporal with rfl | rfl | rfl
    · rw [toList_dateToRequest_date, text, List.cons_append, List.take_succ_cons, unread] at isMatch
      cases isMatch
    · rw [toList_dateToRequest_timestamp, text, List.cons_append, unread] at isMatch
      cases isMatch
    · rw [toList_dateToRequest_timestamptz, text, List.cons_append, unread] at isMatch
      cases isMatch
  rw [← String.toList_inj]
  rcases temporal with rfl | rfl | rfl
  · have printed : ∀ date, FourDigits date →
        (dateToRequest date (some "date")).toList = dayText date := by
      intro date four
      rw [toList_dateToRequest_date, List.take_append_of_le_length (length_dayText four).ge,
        List.take_of_length_le (length_dayText four).le]
    rw [printed instant four, readTemporal_dayText four] at isMatch
    cases isMatch
    cases isOffset
    have sameDay := utcDay_of_survived four survived rfl
    rw [zero_mul, sub_zero, printed instant four, printed _ (by rw [FourDigits, sameDay]; exact four),
      dayText_congr sameDay]
  · rw [toList_dateToRequest_timestamp, readTemporal_clockText four [] (.inl rfl)] at isMatch
    cases isMatch
    cases isOffset
    rw [zero_mul, sub_zero, toList_dateToRequest_timestamp, toList_dateToRequest_timestamp,
      dayText_congr (utcDay_of_survived four survived rfl), clockText_of_survived survived rfl]
  · rw [toList_dateToRequest_timestamptz, readTemporal_clockText four ['Z'] (.inr rfl)] at isMatch
    cases isMatch
    cases isOffset
    rw [zero_mul, sub_zero, toList_dateToRequest_timestamptz, toList_dateToRequest_timestamptz,
      dayText_congr (utcDay_of_survived four survived rfl), clockText_of_survived survived rfl]

end RoundTrip

end MalloyPublisher.Givens
