import MalloyPublisher.Incremental.BoundValues
import MalloyPublisher.Incremental.SqlLiterals

/-!
# Boundaries against the values that they were read from

A boundary may lag the value that a driver handed back and may not lead it, or the rows between the
two are skipped. Cutting a text or an instant at a fixed width lags. A zone that is dropped behind a
day leads where the day there began earlier, and so does a number that is rounded up.

## Main definitions

* `rawValue` — what a driver's value stands for, in the order of its watermark
* `literalValue` — what the literal of a boundary stands for
* `Lags` — a boundary and its literals are not after a value
* `LagHolds` — where they are not

## Main results

* `canonicalBoundValue_iff` — a boundary lags its value exactly where this holds
* `zonedDay_leads` — a day east of UTC
-/

namespace MalloyPublisher.Incremental

open Foundations Givens

/-! ## What driver values stand for -/

/-- A fraction of a second off the front of a text, if there is one. -/
def readFraction : List Char → ℚ × List Char
  | '.' :: c :: rest =>
    if c.isDigit then
      ((number ((c :: rest).takeWhile Char.isDigit) : ℚ) /
        10 ^ ((c :: rest).takeWhile Char.isDigit).length, (c :: rest).dropWhile Char.isDigit)
    else (0, '.' :: c :: rest)
  | text => (0, text)

/-- All of a text as a zone, in minutes east of UTC. None and `Z` are UTC. -/
def readZone (text : List Char) : Option ℤ :=
  match trim text with
  | [] | ['Z'] => some 0
  | sign :: rest =>
    if sign = '+' ∨ sign = '-' then do
      let (hours, rest) ← readDigits 2 2 rest
      let (minutes, rest) := (readDigits 2 2 ((readChar ':' rest).getD rest)).getD ([], rest)
      if rest = [] then
        some ((if sign = '-' then -1 else 1) * (60 * number hours + number minutes : ℕ))
      else none
    else none

/-- A civil time to the second, the fraction behind it and its zone. -/
structure RawInstant where
  second : ℤ
  fraction : ℚ
  zone : ℤ

/-- The instant that is written, in seconds. -/
def RawInstant.value (instant : RawInstant) : ℚ :=
  instant.second + instant.fraction - 60 * instant.zone

/-- `hh:mm:ss` or `hh:mm` off the front of a text. -/
def readTimeOfDay (text : List Char) : Option (List Char × List Char) :=
  (readTime text).or (readPattern "dd:dd".toList text)

/-- All of a text as a day or an instant. -/
def rawInstant (text : List Char) : Option RawInstant :=
  (readDate (trim text)).bind fun
    | (day, []) => (boundInstant day).map fun second => { second, fraction := 0, zone := 0 }
    | (day, separator :: rest) =>
      if separator = 'T' ∨ separator = ' ' then
        (readTimeOfDay rest).bind fun (time, rest) =>
          (boundInstant (day ++ 'T' :: time)).bind fun second =>
            (readZone (readFraction rest).2).map fun zone =>
              { second, fraction := (readFraction rest).1, zone }
      else none

/-- What a driver's value stands for in the order of a watermark. A date object is an instant where
times are compared, the number of its milliseconds where numbers are, and its ISO text. -/
def rawValue (malloyType : WatermarkType) : RawValue → Option Value
  | .null => none
  | .date ms =>
    match malloyType with
    | .date | .timestamp => some (.time (ms / 1000))
    | .number => some (.number ms)
    | .string => some (.text (toISOString ms))
  | .text text =>
    match malloyType with
    | .date | .timestamp => (rawInstant text.toList).map fun instant => .time instant.value
    | .number => (readNumber text).map .number
    | .string => some (.text text)

example : (rawInstant "2024-01-02T03:00:00.5+05:30".toList).map RawInstant.value =
    some (1704144600 + 1 / 2) := by decide +kernel

/-! ## What literals stand for -/

/-- A keyword off the front of a text. -/
def readKeyword (keyword text : List Char) : Option (List Char) :=
  if keyword.isPrefixOf text then some (text.drop keyword.length) else none

/-- All of a text as a string literal. -/
def readQuoted (rules : LiteralRules) (text : List Char) : Option String :=
  (readSqlString rules text).bind fun (value, rest) => if rest = [] then some value else none

/-- What a literal of a type stands for, as a dialect reads its strings. -/
def literalValue (rules : LiteralRules) (malloyType : WatermarkType) (literal : String) :
    Option Value :=
  match malloyType with
  | .date => ((readKeyword "DATE ".toList literal.toList).bind (readQuoted rules)).bind
      (valueOf .date)
  | .timestamp => ((readKeyword "TIMESTAMP ".toList literal.toList).bind (readQuoted rules)).bind
      (valueOf .timestamp)
  | .number => valueOf .number literal
  | .string => (readQuoted rules literal.toList).bind (valueOf .string)

/-! ## Lagging -/

/-- A boundary, and each literal that is printed for it, is not after a value. -/
def Lags (bound : WatermarkBound) (raw : Value) : Prop :=
  (∃ value, boundValue bound = some value ∧ value.Le raw) ∧
    ∀ dialect rules literal, literalRules dialect = some rules →
      renderSqlBound runtimeNumbers bound dialect = .ok literal →
        ∃ value, literalValue rules bound.malloyType literal = some value ∧ value.Le raw

/-- Where a boundary lags: of a day that is written with a zone, where the time of day is not before
the offset of the zone; of a number, where it is not less than it is printed once it is read; and
always of timestamps, strings and date objects, but that these are no numbers. -/
def LagHolds : WatermarkType → RawValue → Prop
  | .date, .text text =>
    ∀ instant, rawInstant text.toList = some instant →
      60 * (instant.zone : ℚ) ≤ (instant.second % 86400 : ℤ) + instant.fraction
  | .number, .text text =>
    ∀ value double, readNumber text = some value → nearest value = some double →
      double.printed ≤ value
  | .number, .date _ => False
  | _, _ => True

/-! ## What literals stand for is what their boundaries do -/

section Literal

variable {bound : WatermarkBound} {raw : RawValue} {malloyType : WatermarkType}
  {rules : LiteralRules} {dialect literal : String} {fields fields' : Fields} {era : Era}

theorem map_eq_ok {ε α β : Type} {f : α → β} {result : Except ε α} {b : β}
    (maps : result.map f = .ok b) : ∃ a, result = .ok a ∧ f a = b := by
  cases result with
  | error e => cases maps
  | ok a =>
    cases maps
    exact ⟨a, rfl, rfl⟩

/-- A text of digits and marks between quotes is read as itself. -/
theorem readQuoted_plain (isRules : literalRules dialect = some rules) {text : List Char}
    (plain : ∀ c ∈ text, c ≠ '\'' ∧ c ≠ '\\') :
    readQuoted rules ('\'' :: (text ++ ['\''])) = some (String.ofList text) := by
  have same : text.flatMap (sqlEscape dialect) = text := by
    conv_rhs => rw [← List.flatMap_singleton' text]
    refine List.flatMap_congr fun c member => ?_
    rw [sqlEscape, if_neg (plain c member).1, if_neg fun both => (plain c member).2 both.1]
  have read := @readSqlString_escaped _ _ isRules text [] (by simp)
  rw [same] at read
  rw [readQuoted, read]
  rfl

theorem plain_spell (formed : fields.Formed era) {date : Bool} {separator : Char}
    (separates : separator = 'T' ∨ separator = ' ') :
    ∀ c ∈ fields.spell date separator era, c ≠ '\'' ∧ c ≠ '\\' := by
  intro c member
  rcases mem_spell formed member with digit | mark
  · constructor <;>
    · rintro rfl
      cases digit
  · simp only [List.mem_cons, List.not_mem_nil, or_false] at mark
    rcases separates with rfl | rfl <;> rcases mark with rfl | rfl | rfl | rfl | rfl <;> decide

theorem length_spell_four (formed : fields.Formed .four) (date : Bool) (separator : Char) :
    (fields.spell date separator .four).length = cutAt date := by
  have year : fields.year.length = 4 := length_of_isDigits formed.year
  have month := length_of_isDigits formed.month
  have day := length_of_isDigits formed.day
  have hour := length_of_isDigits formed.hour
  have minute := length_of_isDigits formed.minute
  have second := length_of_isDigits formed.second
  cases date <;>
    simp [Fields.spell, Fields.dayPart, Fields.minutePart, year, month, day, hour, minute, second,
      cutAt]

theorem exists_last_spell (formed : fields.Formed era) (date : Bool) (separator : Char) :
    ∃ front last, fields.spell date separator era = front ++ last ∧ IsDigits 2 2 last := by
  have expanded : ∃ front last,
      Fields.spell.expanded fields date = front ++ last ∧ IsDigits 2 2 last := by
    cases date with
    | true =>
      exact ⟨fields.year ++ ['-'], fields.month, by simp [Fields.spell.expanded], formed.month⟩
    | false =>
      exact ⟨fields.year ++ (fields.dayPart ++ 'T' :: (fields.hour ++ [':'])), fields.minute,
        by simp [Fields.spell.expanded, Fields.minutePart], formed.minute⟩
  cases era with
  | four =>
    cases date with
    | true =>
      exact ⟨fields.year ++ '-' :: (fields.month ++ ['-']), fields.day,
        by simp [Fields.spell, Fields.dayPart], formed.day⟩
    | false =>
      exact ⟨fields.year ++ (fields.dayPart ++ separator :: (fields.minutePart ++ [':'])),
        fields.second, by simp [Fields.spell], formed.second⟩
  | before =>
    obtain ⟨front, last, split, isDigits⟩ := expanded
    exact ⟨'-' :: front, last, by rw [Fields.spell, split]; rfl, isDigits⟩
  | after =>
    obtain ⟨front, last, split, isDigits⟩ := expanded
    exact ⟨'+' :: front, last, by rw [Fields.spell, split]; rfl, isDigits⟩

theorem exists_first_spell (formed : fields.Formed era) (date : Bool) (separator : Char) :
    ∃ c rest, fields.spell date separator era = c :: rest ∧ isSpace c = false ∧
      (c.isDigit = true ↔ era = .four) := by
  cases era with
  | before => exact ⟨'-', _, rfl, rfl, by decide⟩
  | after => exact ⟨'+', _, rfl, rfl, by decide⟩
  | four =>
    have width : fields.year.length = 4 := length_of_isDigits formed.year
    have digits := formed.year.1
    unfold Fields.spell
    cases years : fields.year with
    | nil =>
      rw [years] at width
      cases width
    | cons c year =>
      have digit := digits c (by rw [years]; simp)
      exact ⟨c, _, rfl, isSpace_of_isDigit digit, iff_of_true digit rfl⟩

/-- Nothing is trimmed of what is spelled. -/
theorem trim_spell (formed : fields.Formed era) {date : Bool} {separator : Char} :
    trim (fields.spell date separator era) = fields.spell date separator era := by
  refine trim_eq_self ?_ ?_
  · obtain ⟨c, rest, split, plain, -⟩ := exists_first_spell formed date separator
    rw [split]
    rintro _ ⟨⟩
    exact plain
  · obtain ⟨front, last, split, isDigits⟩ := exists_last_spell formed date separator
    have nonempty : last ≠ [] := by
      rintro rfl
      exact absurd isDigits.2.1 (by simp)
    rw [split, List.getLast?_append_of_ne_nil _ nonempty]
    exact fun c isLast => isSpace_of_isDigit (isDigits.1 c (List.mem_of_mem_getLast? isLast))

/-- A spelling that begins with one of a year of four digits is of one, and is all of it. -/
theorem eq_of_spell_append {date : Bool} {separator separator' : Char} {rest : List Char}
    (formed : fields.Formed era) (formed' : fields'.Formed .four)
    (split : fields.spell date separator era = fields'.spell date separator' .four ++ rest) :
    era = .four ∧ fields.spell date separator .four = fields'.spell date separator' .four ∧
      rest = [] := by
  obtain ⟨c, more, isHead, -, digit⟩ := exists_first_spell formed date separator
  obtain ⟨c', more', isHead', -, digit'⟩ := exists_first_spell formed' date separator'
  rw [isHead, isHead'] at split
  have sameHead : c = c' := by
    injection split
  have isFour : era = .four := digit.mp (sameHead ▸ digit'.mpr rfl)
  subst isFour
  rw [← isHead, ← isHead'] at split
  have width := congrArg List.length split
  rw [List.length_append, length_spell_four formed, length_spell_four formed'] at width
  have none : rest = [] := List.length_eq_zero_iff.mp (by omega)
  rw [none, List.append_nil] at split
  exact ⟨rfl, split, none⟩

/-- A day that is read again stands for what it stood for. -/
theorem boundInstant_datePrecision {precise : String} (formed : fields.Formed era)
    {separator : Char}
    (renders : datePrecision (String.ofList (fields.spell true separator era)) = .ok precise) :
    ∃ again : Fields, again.Formed .four ∧
      precise = String.ofList (again.spell true ' ' .four) ∧
        boundInstant precise.toList = boundInstant (fields.spell true separator era) := by
  obtain ⟨again, formed', rfl, rest, reads⟩ := datePrecision_eq_ok renders
  refine ⟨again, formed', rfl, ?_⟩
  rw [String.toList_ofList, trim_spell formed] at reads
  obtain ⟨-, -, -, -, -, -, -, split⟩ := readDate_spec reads
  obtain ⟨rfl, same, -⟩ := eq_of_spell_append formed formed' split
  rw [String.toList_ofList, same]

/-- So does a second. -/
theorem boundInstant_secondsPrecision {precise : String} (formed : fields.Formed era)
    {separator : Char}
    (renders : secondsPrecision (String.ofList (fields.spell false separator era)) = .ok precise) :
    ∃ again : Fields, again.Formed .four ∧
      precise = String.ofList (again.spell false ' ' .four) ∧
        boundInstant precise.toList = boundInstant (fields.spell false separator era) := by
  obtain ⟨again, formed', rfl, mark, time, suffix, marks, -, reads, times⟩ :=
    secondsPrecision_eq_ok renders
  refine ⟨again, formed', rfl, ?_⟩
  rw [String.toList_ofList, trim_spell formed] at reads
  obtain ⟨-, -, -, -, -, -, -, splitDate⟩ := readDate_spec reads
  obtain ⟨-, -, -, -, -, -, -, splitTime⟩ := readTime_spec times
  have split : fields.spell false separator era = again.spell false mark .four ++ suffix := by
    rw [splitDate, splitTime]
    simp [Fields.spell]
  obtain ⟨rfl, same, -⟩ := eq_of_spell_append formed formed' split
  rw [String.toList_ofList, same, boundInstant_spell formed' _ marks,
    boundInstant_spell formed' _ (.inr rfl)]

/-- A quoted text behind a keyword. -/
theorem readQuoted_keyword (isRules : literalRules dialect = some rules) {keyword : String}
    {opening : String} (opens : opening.toList = keyword.toList ++ ['\'']) {text : List Char}
    (plain : ∀ c ∈ text, c ≠ '\'' ∧ c ≠ '\\') :
    (readKeyword keyword.toList (opening ++ String.ofList text ++ "'").toList).bind
      (readQuoted rules) = some (String.ofList text) := by
  have close : "'".toList = ['\''] := rfl
  have chars : (opening ++ String.ofList text ++ "'").toList =
      keyword.toList ++ '\'' :: (text ++ ['\'']) := by
    rw [String.toList_append, String.toList_append, String.toList_ofList, opens, close]
    simp
  rw [chars, readKeyword, if_pos (List.isPrefixOf_iff_prefix.mpr (List.prefix_append _ _)),
    List.drop_left, Option.bind_some, readQuoted_plain isRules plain]

/-- A literal stands for what its boundary does. -/
theorem literalValue_render {value : Value} (held : raw.Held)
    (canonical : canonicalBoundValue runtimeNumbers malloyType raw = .ok bound)
    (valued : boundValue bound = some value) (isRules : literalRules dialect = some rules)
    (renders : renderSqlBound runtimeNumbers bound dialect = .ok literal) :
    literalValue rules bound.malloyType literal = some value := by
  cases malloyType with
  | date =>
    obtain ⟨fields, formed, -, isType, spelled⟩ := canonical_temporal (.inl rfl) held canonical
    rw [renderSqlBound, isType] at renders
    rw [boundValue, isType, spelled, valueOf, String.toList_ofList] at valued
    obtain ⟨text, precise, rfl⟩ := map_eq_ok renders
    rw [spelled] at precise
    obtain ⟨again, formed', rfl, same⟩ := boundInstant_datePrecision formed precise
    rw [isType, literalValue, readQuoted_keyword isRules rfl (plain_spell formed' (.inr rfl)),
      Option.bind_some, valueOf, same]
    exact valued
  | timestamp =>
    obtain ⟨fields, formed, -, isType, spelled⟩ := canonical_temporal (.inr rfl) held canonical
    rw [renderSqlBound, isType] at renders
    rw [boundValue, isType, spelled, valueOf, String.toList_ofList] at valued
    obtain ⟨text, precise, rfl⟩ := map_eq_ok renders
    rw [spelled] at precise
    obtain ⟨again, formed', rfl, same⟩ := boundInstant_secondsPrecision formed precise
    rw [isType, literalValue, readQuoted_keyword isRules rfl (plain_spell formed' (.inr rfl)),
      Option.bind_some, valueOf, same]
    exact valued
  | number =>
    rcases canonical_number held canonical with ⟨_, double, rfl, -, rfl⟩ | ⟨-, none⟩
    · obtain ⟨again, reads, rfl⟩ := renderNumber_eq_ok.mp renders
      rw [toNumber_text] at reads
      cases reads
      exact valued
    · rw [none] at valued
      cases valued
  | string =>
    have isString := canonical_string canonical
    rw [boundValue_string isString] at valued
    cases valued
    rw [renderSqlBound, isString] at renders
    cases renders
    have mark : "'".toList = ['\''] := rfl
    have read := @readSqlString_escaped _ _ isRules bound.value.toList [] (by simp)
    have chars : ("'" ++ escapeSqlString bound.value dialect ++ "'").toList =
        '\'' :: (bound.value.toList.flatMap (sqlEscape dialect) ++ ['\'']) := by
      rw [String.toList_append, String.toList_append, mark, toList_escapeSqlString]
      rfl
    rw [isString, literalValue, chars, readQuoted, read, String.ofList_toList]
    rfl

end Literal

/-! ## Where boundaries lag -/

section Order

variable {a b : ℚ}

theorem le_time_iff : (Value.time a).Le (.time b) ↔ a ≤ b := by
  simp only [Value.Le, Value.compare?, Option.some_inj, compare_lt_iff_lt, compare_eq_iff_eq]
  exact le_iff_lt_or_eq.symm

theorem le_number_iff : (Value.number a).Le (.number b) ↔ a ≤ b := by
  simp only [Value.Le, Value.compare?, Option.some_inj, compare_lt_iff_lt, compare_eq_iff_eq]
  exact le_iff_lt_or_eq.symm

end Order

section DateObjects

variable {ms : ℤ} {date : Bool}

/-- The numbers that are printed of an instant. -/
theorem number_fieldsOf (ms : ℤ) :
    number (fieldsOf ms).year = (utcDay ms).1.natAbs ∧
      number (fieldsOf ms).month = (utcDay ms).2.1.toNat ∧
      number (fieldsOf ms).day = (utcDay ms).2.2.toNat ∧
      number (fieldsOf ms).hour = (utcHours ms).toNat ∧
      number (fieldsOf ms).minute = (utcMinutes ms).toNat ∧
      number (fieldsOf ms).second = (utcSeconds ms).toNat := by
  simp only [fieldsOf, number_padded, and_self]

theorem year_fieldsOf (ms : ℤ) (date : Bool) :
    ((fieldsOf ms).time date (eraOf ms)).year = (utcDay ms).1 := by
  obtain ⟨digits, -⟩ := number_fieldsOf ms
  have isEra : eraOf ms = .before ↔ (utcDay ms).1 < 0 := by
    unfold eraOf
    split_ifs with before four <;> simp [before]
  unfold Fields.time
  dsimp only
  rw [digits]
  by_cases before : (utcDay ms).1 < 0
  · rw [if_pos (isEra.mpr before)]
    omega
  · rw [if_neg (mt isEra.mp before)]
    omega

theorem clock_fieldsOf (ms : ℤ) (date : Bool) {time : CivilTime}
    (isTime : time = (fieldsOf ms).time date (eraOf ms)) :
    (time.hour : ℤ) ≤ utcHours ms ∧ (time.minute : ℤ) ≤ utcMinutes ms ∧
      (time.second : ℤ) ≤ utcSeconds ms := by
  obtain ⟨-, -, -, hours, minutes, seconds⟩ := number_fieldsOf ms
  have nonneg : 0 ≤ utcHours ms ∧ 0 ≤ utcMinutes ms ∧ 0 ≤ utcSeconds ms := by
    unfold utcHours utcMinutes utcSeconds
    omega
  subst isTime
  unfold Fields.time
  dsimp only
  rw [hours, minutes, seconds]
  split_ifs <;> omega

theorem day_fieldsOf (ms : ℤ) (date : Bool) {time : CivilTime}
    (isTime : time = (fieldsOf ms).time date (eraOf ms)) :
    (time.month : ℤ) = (utcDay ms).2.1 ∧ 1 ≤ (time.day : ℤ) ∧ (time.day : ℤ) ≤ (utcDay ms).2.2 := by
  obtain ⟨inMonths, inDays⟩ := utcDay_bounds ms
  obtain ⟨-, months, days, -⟩ := number_fieldsOf ms
  subst isTime
  unfold Fields.time
  dsimp only
  rw [months, days]
  generalize utcDay ms = civil at *
  split_ifs <;> omega

/-- The time that is spelled of a date object is not after it. -/
theorem seconds_fieldsOf (ms : ℤ) (date : Bool) :
    ((fieldsOf ms).time date (eraOf ms)).Valid ∧
      ((fieldsOf ms).time date (eraOf ms)).seconds * 1000 ≤ ms := by
  obtain ⟨year, month, day, same, civil, back⟩ := isCivil_civilOfDays (ms / 86400000)
  have sameDay : utcDay ms = (year, month, day) := same
  obtain ⟨time, isTime⟩ : ∃ time, time = (fieldsOf ms).time date (eraOf ms) := ⟨_, rfl⟩
  obtain ⟨hours, minutes, seconds⟩ := clock_fieldsOf ms date isTime
  obtain ⟨isMonth, first, last⟩ := day_fieldsOf ms date isTime
  have isYear := year_fieldsOf ms date
  rw [← isTime] at isYear ⊢
  rw [sameDay] at isYear isMonth last
  dsimp only at isYear isMonth last
  unfold utcHours at hours
  unfold utcMinutes at minutes
  unfold utcSeconds at seconds
  refine ⟨⟨?_, by omega, by omega, by omega⟩, ?_⟩
  · rw [isYear, isMonth]
    exact ⟨civil.1, first, last.trans civil.2.2⟩
  · rw [daysOfCivil_eq] at back
    rw [CivilTime.seconds, isYear, isMonth, daysOfCivil_eq]
    omega

end DateObjects

section Texts

variable {text : String} {instant : RawInstant}

theorem readFraction_nonneg (text : List Char) : 0 ≤ (readFraction text).1 := by
  unfold readFraction
  split
  · split_ifs
    · exact div_nonneg (Nat.cast_nonneg _) (by positivity)
    · exact le_rfl
  · exact le_rfl

/-- Behind the fraction of what is accepted as UTC there is nothing or a `Z`. -/
theorem readZone_of_isUtcSuffix {suffix : List Char} (isSuffix : isUtcSuffix suffix = true) :
    readZone (readFraction suffix).2 = some 0 := by
  have ends : (readFraction suffix).2 = [] ∨ (readFraction suffix).2 = ['Z'] := by
    unfold isUtcSuffix at isSuffix
    unfold readFraction
    split
    · next c rest =>
      simp only [Bool.or_eq_true, decide_eq_true_eq] at isSuffix
      by_cases digit : c.isDigit = true
      · rw [if_pos digit] at isSuffix
        rw [if_pos digit, List.dropWhile_cons_of_pos digit]
        exact isSuffix
      · rw [if_neg digit] at isSuffix
        rw [if_neg digit]
        exact isSuffix
    · next notPoint =>
      split at isSuffix
      · next c rest => exact absurd rfl (notPoint c rest)
      · simpa using isSuffix
  rcases ends with isEnd | isEnd
  · rw [isEnd]
    rfl
  · rw [isEnd]
    rfl

/-- The boundary of a timestamp text is the second that is written, and the rest of the text is a
fraction. -/
theorem rawInstant_timestamp {precise : String} (renders : secondsPrecision text = .ok precise)
    (isInstant : rawInstant text.toList = some instant) :
    boundInstant precise.toList = some instant.second ∧ 0 ≤ instant.fraction ∧
      instant.zone = 0 := by
  obtain ⟨fields, formed, rfl, separator, time, suffix, separates, isSuffix, reads, times⟩ :=
    secondsPrecision_eq_ok renders
  have timeOfDay : readTimeOfDay time =
      some (fields.minutePart ++ ':' :: fields.second, suffix) := by
    rw [readTimeOfDay, times]
    rfl
  have spelled : fields.year ++ fields.dayPart ++ 'T' :: (fields.minutePart ++ ':' :: fields.second) =
      fields.spell false 'T' .four := by
    simp [Fields.spell]
  rw [rawInstant, reads, Option.bind_some] at isInstant
  dsimp only at isInstant
  rw [if_pos separates, timeOfDay, Option.bind_some] at isInstant
  dsimp only at isInstant
  rw [readZone_of_isUtcSuffix isSuffix, spelled, boundInstant_spell formed _ (.inl rfl),
    ← boundInstant_spell formed false (.inr rfl)] at isInstant
  obtain ⟨second, isSecond, same⟩ := Option.bind_eq_some_iff.mp isInstant
  cases same
  rw [String.toList_ofList]
  exact ⟨isSecond, readFraction_nonneg suffix, rfl⟩

theorem readHours_eq {year : ℤ} {month day : ℕ} {chars : List Char} {time : CivilTime}
    (reads : readHours year month day chars = some time) :
    time.year = year ∧ time.month = month ∧ time.day = day := by
  simp only [readHours, Option.bind_eq_bind, Option.bind_eq_some_iff, Prod.exists] at reads
  obtain ⟨hour, rest, -, minute, rest', -, last⟩ := reads
  split_ifs at last
  cases last
  exact ⟨rfl, rfl, rfl⟩

/-- An instant that is written behind a day is on the day. -/
theorem boundInstant_day {fields : Fields} (formed : fields.Formed .four) {time : List Char}
    {second : ℤ} (isSecond : boundInstant (fields.spell true ' ' .four ++ 'T' :: time) = some second) :
    boundInstant (fields.spell true ' ' .four) = some (second / 86400 * 86400) := by
  have years : IsDigits 4 4 fields.year := formed.year
  have read : readCivil (fields.spell true ' ' .four ++ 'T' :: time) =
      readHours (number fields.year : ℤ) (number fields.month) (number fields.day) time := by
    have split : fields.spell true ' ' .four ++ 'T' :: time =
        fields.year ++ (fields.dayPart ++ 'T' :: time) := by
      simp [Fields.spell]
    have ends : ∀ c ∈ (fields.dayPart ++ 'T' :: time).head?, c.isDigit = false :=
      head_mark '-' rfl _
    rw [split, readCivil, readYear_four years ends, Option.bind_some]
    exact readMonths_clock formed (.inl rfl)
  rw [boundInstant, read] at isSecond
  obtain ⟨civil, isCivil, valued⟩ := Option.bind_eq_some_iff.mp isSecond
  obtain ⟨isYear, isMonth, isDay⟩ := readHours_eq isCivil
  split_ifs at valued with valid
  cases valued
  have midnight : (fields.time true .four).Valid := by
    refine ⟨?_, Nat.zero_lt_succ 23, Nat.zero_lt_succ 59, Nat.zero_lt_succ 59⟩
    have civilDay := valid.1
    rw [isYear, isMonth, isDay] at civilDay
    exact civilDay
  rw [boundInstant_spell formed _ (.inr rfl), if_pos midnight, valid.seconds_div, isYear, isMonth,
    isDay]
  simp [CivilTime.seconds, Fields.time]

/-- The boundary of a date text is the day that is written. -/
theorem rawInstant_date {precise : String} (renders : datePrecision text = .ok precise)
    (isInstant : rawInstant text.toList = some instant) :
    boundInstant precise.toList = some (instant.second / 86400 * 86400) := by
  obtain ⟨fields, formed, rfl, rest, reads⟩ := datePrecision_eq_ok renders
  rw [String.toList_ofList]
  rw [rawInstant, reads, Option.bind_some] at isInstant
  cases rest with
  | nil =>
    obtain ⟨second, isSecond, rfl⟩ := Option.map_eq_some_iff.mp isInstant
    have spelled := boundInstant_spell formed true (.inr rfl)
    rw [isSecond] at spelled ⊢
    split_ifs at spelled with valid
    cases spelled
    rw [valid.seconds_div]
    simp [CivilTime.seconds, Fields.time]
  | cons separator rest =>
    dsimp only at isInstant
    split_ifs at isInstant with separates
    obtain ⟨⟨time, suffix⟩, -, more⟩ := Option.bind_eq_some_iff.mp isInstant
    obtain ⟨second, isSecond, more⟩ := Option.bind_eq_some_iff.mp more
    obtain ⟨zone, -, rfl⟩ := Option.map_eq_some_iff.mp more
    exact boundInstant_day formed isSecond

end Texts

section Holds

variable {raw : RawValue} {malloyType : WatermarkType} {bound : WatermarkBound} {value : Value}

/-- The literals lag where the boundary does. -/
theorem lags_iff (held : raw.Held)
    (canonical : canonicalBoundValue runtimeNumbers malloyType raw = .ok bound) :
    Lags bound value ↔ ∃ own, boundValue bound = some own ∧ own.Le value := by
  constructor
  · exact fun lags => lags.1
  · rintro ⟨own, valued, le⟩
    refine ⟨⟨own, valued, le⟩, fun dialect rules literal isRules renders => ?_⟩
    exact ⟨own, literalValue_render held canonical valued isRules renders, le⟩

theorem boundValue_time (temporal : malloyType = .date ∨ malloyType = .timestamp) {text : String}
    {second : ℤ} (isSecond : boundInstant text.toList = some second) :
    boundValue ⟨malloyType, text⟩ = some (.time second) := by
  rcases temporal with rfl | rfl <;>
  · rw [boundValue, valueOf, isSecond]
    rfl

theorem lags_time_iff (held : raw.Held)
    (canonical : canonicalBoundValue runtimeNumbers malloyType raw = .ok bound) {own instant : ℚ}
    (valued : boundValue bound = some (.time own)) : Lags bound (.time instant) ↔ own ≤ instant := by
  rw [lags_iff held canonical, valued]
  simp [le_time_iff]

/-- The boundary of a date object lags. -/
theorem lags_dateObject {ms : ℤ} (held : IsDate ms)
    (temporal : malloyType = .date ∨ malloyType = .timestamp)
    (canonical : canonicalBoundValue runtimeNumbers malloyType (.date ms) = .ok bound) :
    Lags bound (.time (ms / 1000)) := by
  have isBound := canonical_dateObject held canonical
  obtain ⟨valid, before⟩ := seconds_fieldsOf ms (decide (malloyType = .date))
  have isSecond : boundInstant bound.value.toList =
      some ((fieldsOf ms).time (decide (malloyType = .date)) (eraOf ms)).seconds := by
    rw [isBound, String.toList_ofList, boundInstant_spell (formed_fieldsOf held) _ (.inl rfl),
      if_pos valid]
  have valued := boundValue_time temporal isSecond
  have isType : bound = ⟨malloyType, bound.value⟩ := by rw [isBound]
  rw [← isType] at valued
  have isDate : (RawValue.date ms).Held := held
  rw [lags_time_iff isDate canonical valued, le_div_iff₀ (by norm_num)]
  exact_mod_cast before

/-- A boundary and its literals lag the value that it was read from exactly where it is said. -/
theorem canonicalBoundValue_iff (held : raw.Held)
    (canonical : canonicalBoundValue runtimeNumbers malloyType raw = .ok bound)
    (isValue : rawValue malloyType raw = some value) :
    Lags bound value ↔ LagHolds malloyType raw := by
  cases raw with
  | null => cases isValue
  | date ms =>
    cases malloyType with
    | date =>
      cases isValue
      exact iff_of_true (lags_dateObject held (.inl rfl) canonical) trivial
    | timestamp =>
      cases isValue
      exact iff_of_true (lags_dateObject held (.inr rfl) canonical) trivial
    | number =>
      rcases canonical_number held canonical with ⟨_, _, impossible, -⟩ | ⟨-, none⟩
      · cases impossible
      · rw [lags_iff held canonical, none]
        exact iff_of_false (by simp) id
    | string =>
      cases isValue
      have isString := canonical_string canonical
      refine iff_of_true ((lags_iff held canonical).mpr ⟨_, boundValue_string isString, ?_⟩) trivial
      cases canonical
      have split := List.take_append_drop 19 (toISOString ms).toList
      have order := compareText_append ((toISOString ms).toList.take 19)
        ((toISOString ms).toList.drop 19)
      rw [split, String.ofList_toList] at order
      exact order.imp (congrArg some) (congrArg some)
  | text text =>
    cases malloyType with
    | date =>
      obtain ⟨instant, isInstant, rfl⟩ := Option.map_eq_some_iff.mp isValue
      obtain ⟨precise, renders, rfl⟩ := map_eq_ok canonical
      have isDay := rawInstant_date renders isInstant
      have split : (instant.second : ℚ) = (instant.second / 86400 * 86400 : ℤ) +
          (instant.second % 86400 : ℤ) := by
        exact_mod_cast (Int.ediv_mul_add_emod instant.second 86400).symm
      rw [lags_time_iff held canonical (boundValue_time (.inl rfl) isDay), RawInstant.value]
      constructor
      · rintro le _ again
        rw [isInstant] at again
        cases again
        linarith
      · intro holds
        have := holds instant isInstant
        linarith
    | timestamp =>
      obtain ⟨instant, isInstant, rfl⟩ := Option.map_eq_some_iff.mp isValue
      obtain ⟨precise, renders, rfl⟩ := map_eq_ok canonical
      obtain ⟨isSecond, nonneg, utc⟩ := rawInstant_timestamp renders isInstant
      rw [lags_time_iff held canonical (boundValue_time (.inr rfl) isSecond), RawInstant.value, utc]
      refine iff_of_true ?_ trivial
      push_cast
      linarith
    | number =>
      obtain ⟨written, isWritten, rfl⟩ := Option.map_eq_some_iff.mp isValue
      rcases canonical_number held canonical with ⟨_, double, same, reads, rfl⟩ | ⟨⟨_, same⟩, -⟩
      · cases same
        have isNearest : nearest written = some double := by
          rwa [toNumber_eq, isWritten, Option.bind_some] at reads
        rw [lags_iff held canonical, boundValue_number, readNumber_text]
        simp only [Option.map_some, Option.some_inj, exists_eq_left', le_number_iff]
        constructor
        · rintro le _ _ isWritten' isNearest'
          rw [isWritten] at isWritten'
          cases isWritten'
          rw [isNearest] at isNearest'
          cases isNearest'
          exact le
        · exact fun holds => holds written double isWritten isNearest
      · cases same
    | string =>
      have isString := canonical_string canonical
      refine iff_of_true ((lags_iff held canonical).mpr ⟨_, boundValue_string isString, ?_⟩) trivial
      cases isValue
      cases canonical
      have order := compareText_append text.toList []
      rw [List.append_nil, String.ofList_toList] at order
      exact order.imp (congrArg some) (congrArg some)

end Holds

/-- A day that is written with a zone where it began earlier. -/
theorem canonicalBoundValue_zonedDay :
    Lags ⟨.date, "2024-01-02"⟩ (.time 1704160800) ↔
      LagHolds .date (.text "2024-01-02T03:00:00+01:00") := by
  have canonical : canonicalBoundValue runtimeNumbers .date (.text "2024-01-02T03:00:00+01:00") =
      .ok ⟨.date, "2024-01-02"⟩ := by decide +kernel
  exact canonicalBoundValue_iff trivial canonical (by decide +kernel)

/-- In a zone where it began earlier still, the day is after the value that it is of. -/
theorem zonedDay_leads :
    canonicalBoundValue runtimeNumbers .date (.text "2024-01-02T03:00:00+05:00") =
        .ok ⟨.date, "2024-01-02"⟩ ∧
      rawValue .date (.text "2024-01-02T03:00:00+05:00") = some (.time 1704146400) ∧
      ¬Lags ⟨.date, "2024-01-02"⟩ (.time 1704146400) := by
  have canonical : canonicalBoundValue runtimeNumbers .date (.text "2024-01-02T03:00:00+05:00") =
      .ok ⟨.date, "2024-01-02"⟩ := by decide +kernel
  have isDay : boundInstant "2024-01-02".toList = some 1704153600 := by decide +kernel
  refine ⟨canonical, by decide +kernel, ?_⟩
  rw [lags_time_iff (by trivial) canonical (boundValue_time (.inl rfl) isDay)]
  norm_num

end MalloyPublisher.Incremental
