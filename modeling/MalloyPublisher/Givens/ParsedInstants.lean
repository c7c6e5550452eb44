import MalloyPublisher.Givens.CivilDates

/-!
# What a date parameter is read as

The grammar of dates as a relation between texts and what is written in them, apart from the
reader, and what a written date means: the civil time, less the offset that is written.

## Main definitions

* `Temporal.Spells` — a text of the grammar and what is written in it
* `Temporal.Valid` — a written date is one, and its offset one of the world's
* `Temporal.instant` — the instant that is written

## Main results

* `readTemporal_iff` — the reader reads what is written
* `survived_iff` — a match survives where it is a date
* `parseTemporal_iff` — what is read is the instant that is written, if it is one
-/

namespace MalloyPublisher.Givens

open Foundations
open Incremental (civilOfDays)

/-! ## The grammar -/

/-- A run of digits, `\d{least,most}`. -/
def IsDigits (least most : ℕ) (digits : List Char) : Prop :=
  (∀ c ∈ digits, c.isDigit = true) ∧ least ≤ digits.length ∧ digits.length ≤ most

/-- `(\d{4})-(\d{1,2})-(\d{1,2})`. -/
def Day.Spells (day : Day) (text : List Char) : Prop :=
  ∃ year month date, IsDigits 4 4 year ∧ IsDigits 1 2 month ∧ IsDigits 1 2 date ∧
    day = { year := number year, month := number month, day := number date } ∧
    text = year ++ '-' :: (month ++ '-' :: date)

/-- A separator and digits, or nothing. -/
def SpellsOptional (separator : Char) (least most : ℕ) (digits text : List Char) : Prop :=
  digits = [] ∧ text = [] ∨ IsDigits least most digits ∧ text = separator :: digits

/-- `[T\s]`, in any case. -/
def isSeparator (c : Char) : Bool := c = 'T' || c = 't' || isSpace c

/-- `[T\s]+(\d{1,2}):(\d{2})(?::(\d{2}))?(?:\.(\d{1,9}))?`. -/
def Clock.Spells (clock : Clock) (text : List Char) : Prop :=
  ∃ separators hour minute second fraction,
    (separators ≠ [] ∧ ∀ c ∈ separators, isSeparator c = true) ∧ IsDigits 1 2 hour ∧
    IsDigits 2 2 minute ∧ SpellsOptional ':' 2 2 clock.second second ∧
    SpellsOptional '.' 1 9 clock.fraction fraction ∧
    clock.hour = number hour ∧ clock.minute = number minute ∧
    text = separators ++ (hour ++ ':' :: (minute ++ (second ++ fraction)))

/-- A text of the grammar: a day, a time of day or none, and a zone or none. -/
def Temporal.Spells (written : Temporal) (text : List Char) : Prop :=
  ∃ day clock spaces zone, written.day.Spells day ∧
    written.clock.elim (clock = []) (·.Spells clock) ∧ (∀ c ∈ spaces, isSpace c = true) ∧
    written.zone.elim (zone = []) (fun z => isZone z = true ∧ zone = z) ∧
    text = day ++ (clock ++ (spaces ++ zone))

/-- Hours and minutes in minutes. -/
def minutesOf (hours minutes : List Char) : ℤ := number hours * 60 + number minutes

/-- Minutes east of UTC of a zone: from twelve hours west to fourteen east, the minutes of an
hour below 60. -/
inductive Offset : Option (List Char) → ℤ → Prop
  | absent : Offset none 0
  | utc {zone : List Char}
      (name : zone.map Char.toUpper ∈ ["Z".toList, "UTC".toList, "GMT".toList]) :
      Offset (some zone) 0
  | east {hours colon minutes : List Char} (hour : IsDigits 2 2 hours)
      (minute : minutes = [] ∧ colon = [] ∨ IsDigits 2 2 minutes ∧ (colon = [] ∨ colon = [':']))
      (inHour : number minutes < 60) (inWorld : minutesOf hours minutes ≤ 14 * 60) :
      Offset (some ('+' :: (hours ++ (colon ++ minutes)))) (minutesOf hours minutes)
  | west {hours colon minutes : List Char} (hour : IsDigits 2 2 hours)
      (minute : minutes = [] ∧ colon = [] ∨ IsDigits 2 2 minutes ∧ (colon = [] ∨ colon = [':']))
      (inHour : number minutes < 60) (inWorld : minutesOf hours minutes ≤ 12 * 60) :
      Offset (some ('-' :: (hours ++ (colon ++ minutes)))) (-minutesOf hours minutes)

/-- A written date is a date and a time of day, at an offset. -/
structure Temporal.Valid (written : Temporal) (offset : ℤ) : Prop where
  civil : IsCivil written.day.year written.day.month written.day.day
  clock : ∀ clock ∈ written.clock,
    clock.hour < 24 ∧ clock.minute < 60 ∧ number clock.second < 60
  offset : Offset written.zone offset

/-- The milliseconds of a time of day, none where none is written. -/
def timeOfDay (clock : Option Clock) : ℤ :=
  clock.elim 0 fun clock => clock.hour * 3600000 + clock.minute * 60000 +
    number clock.second * 1000 + millis clock.fraction

/-- The civil time that is written, less the offset. -/
def Temporal.instant (written : Temporal) (offset : ℤ) : ℤ :=
  daysOfCivil written.day.year written.day.month written.day.day * 86400000 +
    timeOfDay written.clock - offset * 60000

/-! ## Reading what is written -/

section Reading

variable {least most : ℕ} {digits text rest : List Char}

theorem readDigits_spec (reads : readDigits least most text = some (digits, rest)) :
    IsDigits least most digits ∧ text = digits ++ rest := by
  unfold readDigits at reads
  dsimp only at reads
  split_ifs at reads with enough
  cases reads
  refine ⟨⟨fun c member => List.mem_takeWhile_imp member, enough, ?_⟩, ?_⟩
  · have short := (List.takeWhile_prefix (p := Char.isDigit) (l := text.take most)).length_le
    rw [List.length_take] at short
    omega
  · have start : (text.take most).takeWhile Char.isDigit <+: text :=
      (List.takeWhile_prefix _).trans (List.take_prefix _ _)
    exact (List.prefix_iff_eq_append.mp start).symm

theorem readDigits_isDigits (isDigits : IsDigits least most digits)
    (ends : ∀ c ∈ rest.head?, c.isDigit = false) :
    readDigits least most (digits ++ rest) = some (digits, rest) :=
  readDigits_append isDigits.1 isDigits.2.1 isDigits.2.2 ends

theorem readChar_spec {expected : Char} (reads : readChar expected text = some rest) :
    text = expected :: rest := by
  cases text with
  | nil => cases reads
  | cons c more =>
    rw [readChar] at reads
    split_ifs at reads with same
    cases reads
    rw [same]

theorem readOptional_spec (separator : Char) (least most : ℕ) (text : List Char) :
    ∃ front, SpellsOptional separator least most (readOptional separator least most text).1 front ∧
      text = front ++ (readOptional separator least most text).2 := by
  unfold readOptional
  cases read : (readChar separator text).bind (readDigits least most) with
  | none => exact ⟨[], .inl ⟨rfl, rfl⟩, rfl⟩
  | some found =>
    obtain ⟨later, isLater, reads⟩ := Option.bind_eq_some_iff.mp read
    obtain ⟨isDigits, split⟩ := readDigits_spec reads
    refine ⟨separator :: found.1, .inr ⟨isDigits, rfl⟩, ?_⟩
    rw [readChar_spec isLater, split]
    rfl

theorem readOptional_spells {separator : Char} {front : List Char}
    (spells : SpellsOptional separator least most digits front)
    (ends : ∀ c ∈ rest.head?, c.isDigit = false ∧ c ≠ separator) :
    readOptional separator least most (front ++ rest) = (digits, rest) := by
  rcases spells with ⟨rfl, rfl⟩ | ⟨isDigits, rfl⟩
  · cases rest with
    | nil => rfl
    | cons c rest =>
      have other := (ends c rfl).2
      simp [readOptional, readChar, other]
  · simp only [readOptional, List.cons_append, readChar, if_true, Option.bind_some]
    rw [readDigits_isDigits isDigits fun c first => (ends c first).1]
    rfl

theorem readDay_spec {day : Day} (reads : readDay text = some (day, rest)) :
    ∃ front, day.Spells front ∧ text = front ++ rest := by
  simp only [readDay, Option.bind_eq_bind, Option.bind_eq_some_iff, Prod.exists] at reads
  obtain ⟨year, afterYear, isYear, beforeMonth, first, month, afterMonth, isMonth, beforeDay,
    second, date, afterDay, isDay, same⟩ := reads
  cases same
  obtain ⟨years, rfl⟩ := readDigits_spec isYear
  rw [readChar_spec first]
  obtain ⟨months, rfl⟩ := readDigits_spec isMonth
  rw [readChar_spec second]
  obtain ⟨days, rfl⟩ := readDigits_spec isDay
  exact ⟨_, ⟨year, month, date, years, months, days, rfl, rfl⟩, by simp⟩

theorem readDay_spells {day : Day} (spells : day.Spells text)
    (ends : ∀ c ∈ rest.head?, c.isDigit = false) : readDay (text ++ rest) = some (day, rest) := by
  obtain ⟨year, month, date, years, months, dates, rfl, rfl⟩ := spells
  have hyphen : ∀ text : List Char, ∀ c ∈ ('-' :: text).head?, c.isDigit = false := by
    rintro text c ⟨⟩
    rfl
  unfold readDay
  simp only [List.append_assoc, List.cons_append]
  rw [readDigits_isDigits years (hyphen _)]
  simp only [Option.bind_eq_bind, Option.bind_some, readChar, if_true]
  rw [readDigits_isDigits months (hyphen _)]
  simp only [Option.bind_some, if_true]
  rw [readDigits_isDigits dates ends]
  rfl

theorem readClock_spec {clock : Clock} (reads : readClock isSeparator text = some (clock, rest)) :
    ∃ front, clock.Spells front ∧ text = front ++ rest := by
  unfold readClock at reads
  by_cases none : (text.dropWhile isSeparator).length = text.length
  · simp [none] at reads
  simp only [if_neg none, Option.bind_eq_bind, Option.bind_eq_some_iff, Prod.exists] at reads
  obtain ⟨hour, afterHour, isHour, beforeMinute, isColon, minute, afterMinute, isMinute, same⟩ :=
    reads
  cases same
  obtain ⟨hours, atHour⟩ := readDigits_spec isHour
  rw [readChar_spec isColon] at atHour
  obtain ⟨minutes, atMinute⟩ := readDigits_spec isMinute
  obtain ⟨second, seconds, atSecond⟩ := readOptional_spec ':' 2 2 afterMinute
  obtain ⟨fraction, fractions, atFraction⟩ :=
    readOptional_spec '.' 1 9 (readOptional ':' 2 2 afterMinute).2
  have separated := List.takeWhile_append_dropWhile (p := isSeparator) (l := text)
  refine ⟨_, ⟨text.takeWhile isSeparator, hour, minute, second, fraction, ⟨?_, ?_⟩, hours, minutes,
    seconds, fractions, rfl, rfl, rfl⟩, ?_⟩
  · intro empty
    rw [empty, List.nil_append] at separated
    exact none (congrArg List.length separated)
  · exact fun c => List.mem_takeWhile_imp
  · nth_rewrite 1 [← separated]
    rw [atHour, atMinute]
    nth_rewrite 1 [atSecond]
    nth_rewrite 1 [atFraction]
    simp

theorem isSeparator_of_isDigit {c : Char} (digit : c.isDigit = true) : isSeparator c = false := by
  have notSpace := isSpace_of_isDigit digit
  have notT : c ≠ 'T' := by
    rintro rfl
    simp [Char.isDigit] at digit
  have nott : c ≠ 't' := by
    rintro rfl
    simp [Char.isDigit] at digit
  simp [isSeparator, notSpace, notT, nott]

theorem dropWhile_append_cons {drops : Char → Bool} {front : List Char} {c : Char}
    (all : ∀ c ∈ front, drops c = true) (keeps : drops c = false) :
    (front ++ c :: rest).dropWhile drops = c :: rest := by
  rw [List.dropWhile_append_of_pos all, List.dropWhile_cons_of_neg (by simp [keeps])]

theorem readClock_spells {clock : Clock} (spells : clock.Spells text)
    (ends : ∀ c ∈ rest.head?, c.isDigit = false ∧ c ≠ ':' ∧ c ≠ '.') :
    readClock isSeparator (text ++ rest) = some (clock, rest) := by
  obtain ⟨separators, hour, minute, second, fraction, ⟨nonempty, areSeparators⟩, hours, minutes,
    seconds, fractions, isHour, isMinute, rfl⟩ := spells
  obtain ⟨first, more, rfl⟩ : ∃ first more, hour = first :: more := by
    cases hour with
    | nil => exact absurd hours.2.1 (by simp)
    | cons first more => exact ⟨first, more, rfl⟩
  have colon : ∀ text : List Char, ∀ c ∈ (':' :: text).head?, c.isDigit = false := by
    rintro text c ⟨⟩
    rfl
  have notSeparator := isSeparator_of_isDigit (hours.1 first (by simp))
  -- What follows the fraction is behind the second too, if there is no fraction.
  have afterFraction : ∀ c ∈ (fraction ++ rest).head?, c.isDigit = false ∧ c ≠ ':' := by
    intro c isFirst
    rcases fractions with ⟨-, rfl⟩ | ⟨-, rfl⟩
    · exact ⟨(ends c isFirst).1, (ends c isFirst).2.1⟩
    · cases isFirst
      exact ⟨rfl, by decide⟩
  have afterMinute : ∀ c ∈ (second ++ (fraction ++ rest)).head?, c.isDigit = false := by
    intro c isFirst
    rcases seconds with ⟨-, rfl⟩ | ⟨-, rfl⟩
    · exact (afterFraction c isFirst).1
    · cases isFirst
      rfl
  unfold readClock
  simp only [List.append_assoc, List.cons_append]
  rw [dropWhile_append_cons areSeparators notSeparator, if_neg]
  · rw [← List.cons_append, readDigits_isDigits hours (colon _)]
    simp only [Option.bind_eq_bind, Option.bind_some, readChar, if_true]
    rw [readDigits_isDigits minutes afterMinute]
    simp only [Option.bind_some]
    rw [readOptional_spells seconds afterFraction]
    dsimp only
    rw [readOptional_spells fractions fun c first => ⟨(ends c first).1, (ends c first).2.2⟩]
    rw [← isHour, ← isMinute]
    rfl
  · have some := List.length_pos_of_ne_nil nonempty
    simp only [List.length_append, List.length_cons]
    omega

end Reading

/-! ## Reading all of a text -/

section Matching

variable {text zone : List Char} {written : Temporal}

theorem toNat_of_toUpper {c upper : Char} (same : c.toUpper = upper) :
    c.toNat = upper.toNat ∨ c.toNat = upper.toNat + 32 := by
  subst same
  unfold Char.toUpper
  split_ifs with lower
  · right
    have low : 97 ≤ c.val.toNat := UInt32.le_iff_toNat_le.mp lower.1
    have high : c.val.toNat ≤ 122 := UInt32.le_iff_toNat_le.mp lower.2
    simp only [Char.toNat, UInt32.toNat_add]
    have shift : ('A'.val - 'a'.val).toNat = 2 ^ 32 - 32 := by decide
    rw [shift]
    omega
  · left
    rfl

/-- A zone begins with a letter or a sign. -/
theorem isZone_head (isZone' : isZone zone = true) : ∃ c rest, zone = c :: rest ∧
    (c.isDigit = false ∧ c ≠ ':' ∧ c ≠ '.') ∧ isSpace c = false ∧ isSeparator c = false := by
  cases zone with
  | nil => exact absurd isZone' (by decide)
  | cons c rest =>
    have codes : c.toNat ∈ [43, 45, 71, 85, 90, 103, 117, 122] := by
      have upper : ∀ (upper : Char) (word : List Char),
          (c :: rest).map Char.toUpper = upper :: word →
            c.toNat = upper.toNat ∨ c.toNat = upper.toNat + 32 := by
        intro upper word same
        exact toNat_of_toUpper (List.cons.inj same).1
      simp only [isZone, Bool.or_eq_true, decide_eq_true_eq, Bool.and_eq_true] at isZone'
      rcases isZone' with ((z | utc) | gmt) | ⟨rfl | rfl, -⟩
      · rcases upper 'Z' [] z with code | code <;> simp [code]
      · rcases upper 'U' ['T', 'C'] utc with code | code <;> simp [code]
      · rcases upper 'G' ['M', 'T'] gmt with code | code <;> simp [code]
      · decide
      · decide
    have notDigit : c.isDigit = false := by
      by_contra digit
      simp only [Char.isDigit, Bool.not_eq_false, Bool.and_eq_true, decide_eq_true_eq] at digit
      have low : 48 ≤ c.toNat := by exact_mod_cast digit.1
      have high : c.toNat ≤ 57 := by exact_mod_cast digit.2
      simp only [List.mem_cons, List.not_mem_nil, or_false] at codes
      omega
    have notSpace : isSpace c = false := by
      simp only [List.mem_cons, List.not_mem_nil, or_false] at codes
      simp only [isSpace, Bool.or_eq_false_iff, decide_eq_false_iff_not, List.mem_cons,
        List.not_mem_nil, Bool.and_eq_false_iff, not_or, or_false]
      omega
    have other : ∀ {d : Char}, d.toNat ∉ [43, 45, 71, 85, 90, 103, 117, 122] → c ≠ d := by
      rintro d notCode rfl
      exact notCode codes
    exact ⟨c, rest, rfl, ⟨notDigit, other (by decide), other (by decide)⟩, notSpace,
      by simp [isSeparator, notSpace, other (d := 'T') (by decide), other (d := 't') (by decide)]⟩

/-- Nothing of a zone, and no white space before it, is a digit or a mark of a time of day. -/
theorem head_spaces_zone {spaces : List Char} {c : Char}
    (areSpaces : ∀ c ∈ spaces, isSpace c = true) (isZone' : zone = [] ∨ isZone zone = true)
    (isFirst : c ∈ (spaces ++ zone).head?) :
    c.isDigit = false ∧ c ≠ ':' ∧ c ≠ '.' := by
  cases spaces with
  | nil =>
    rcases isZone' with rfl | isZone'
    · cases isFirst
    · obtain ⟨first, rest, rfl, marks, -⟩ := isZone_head isZone'
      cases isFirst
      exact marks
  | cons space spaces =>
    cases isFirst
    have isSpace' := areSpaces c (by simp)
    refine ⟨?_, ?_, ?_⟩
    · by_contra digit
      rw [isSpace_of_isDigit (by simpa using digit)] at isSpace'
      cases isSpace'
    · rintro rfl
      exact absurd isSpace' (by decide)
    · rintro rfl
      exact absurd isSpace' (by decide)

theorem dropWhile_spaces_zone {spaces : List Char} (areSpaces : ∀ c ∈ spaces, isSpace c = true)
    (isZone' : zone = [] ∨ isZone zone = true) : (spaces ++ zone).dropWhile isSpace = zone := by
  rcases isZone' with rfl | isZone'
  · rw [List.append_nil]
    exact List.dropWhile_eq_nil_iff.mpr areSpaces
  · obtain ⟨c, rest, rfl, -, notSpace, -⟩ := isZone_head isZone'
    exact dropWhile_append_cons areSpaces notSpace

/-- There is no time of day in front of a zone. -/
theorem readClock_zone {spaces : List Char} (areSpaces : ∀ c ∈ spaces, isSpace c = true)
    (isZone' : zone = [] ∨ isZone zone = true) : readClock isSeparator (spaces ++ zone) = none := by
  have separators : ∀ c ∈ spaces, isSeparator c = true := by
    intro c member
    simp [isSeparator, areSpaces c member]
  have dropped : (spaces ++ zone).dropWhile isSeparator = zone := by
    rcases isZone' with rfl | isZone'
    · rw [List.append_nil]
      exact List.dropWhile_eq_nil_iff.mpr separators
    · obtain ⟨c, rest, rfl, -, -, notSeparator⟩ := isZone_head isZone'
      exact dropWhile_append_cons separators notSeparator
  have undigited : readDigits 1 2 zone = none := by
    rcases isZone' with rfl | isZone'
    · rfl
    · obtain ⟨c, rest, rfl, ⟨notDigit, -⟩, -⟩ := isZone_head isZone'
      simp [readDigits, notDigit]
  unfold readClock
  simp only [dropped, undigited]
  split_ifs <;> rfl

/-- A time of day where one is read, and what follows it. -/
def clockAndRest (text : List Char) : Option Clock × List Char :=
  match readClock isSeparator text with
  | some (clock, rest) => (some clock, rest)
  | none => (none, text)

/-- A zone or the end of a text, behind white space. -/
def readZone (day : Day) (clock : Option Clock) (text : List Char) : Option Temporal :=
  let zone := text.dropWhile isSpace
  if zone = [] then some { day, clock, zone := none }
  else if isZone zone then some { day, clock, zone := some zone }
  else none

theorem readTemporal_eq (text : List Char) : readTemporal text =
    (readDay text).bind fun read =>
      readZone read.1 (clockAndRest read.2).1 (clockAndRest read.2).2 :=
  rfl

theorem clockAndRest_spec (text : List Char) : ∃ front,
    (clockAndRest text).1.elim (front = []) (·.Spells front) ∧
      text = front ++ (clockAndRest text).2 := by
  unfold clockAndRest
  cases isClock : readClock isSeparator text with
  | none => exact ⟨[], rfl, rfl⟩
  | some found =>
    obtain ⟨front, spells, split⟩ := readClock_spec isClock
    exact ⟨front, spells, split⟩

theorem clockAndRest_spells {clock : Option Clock} {front spaces : List Char}
    (spells : clock.elim (front = []) (·.Spells front)) (areSpaces : ∀ c ∈ spaces, isSpace c = true)
    (isZone' : zone = [] ∨ isZone zone = true) :
    clockAndRest (front ++ (spaces ++ zone)) = (clock, spaces ++ zone) := by
  unfold clockAndRest
  cases clock with
  | none =>
    cases (spells : front = [])
    rw [List.nil_append, readClock_zone areSpaces isZone']
  | some clock => rw [readClock_spells spells fun c => head_spaces_zone areSpaces isZone']

theorem readZone_spec {day : Day} {clock : Option Clock}
    (reads : readZone day clock text = some written) : ∃ spaces zone,
      (∀ c ∈ spaces, isSpace c = true) ∧
      written.zone.elim (zone = []) (fun z => isZone z = true ∧ zone = z) ∧
      written.day = day ∧ written.clock = clock ∧ text = spaces ++ zone := by
  have spaced := (List.takeWhile_append_dropWhile (p := isSpace) (l := text)).symm
  unfold readZone at reads
  dsimp only at reads
  split_ifs at reads with noZone isZone'
  · cases reads
    rw [noZone] at spaced
    exact ⟨_, [], fun c => List.mem_takeWhile_imp, rfl, rfl, rfl, spaced⟩
  · cases reads
    exact ⟨_, _, fun c => List.mem_takeWhile_imp, ⟨isZone', rfl⟩, rfl, rfl, spaced⟩

theorem readZone_spells {spaces : List Char} (areSpaces : ∀ c ∈ spaces, isSpace c = true)
    (spells : written.zone.elim (zone = []) (fun z => isZone z = true ∧ zone = z)) :
    readZone written.day written.clock (spaces ++ zone) = some written := by
  obtain ⟨day, clock, zone'⟩ := written
  cases zone' with
  | none =>
    cases (spells : zone = [])
    have dropped := dropWhile_spaces_zone areSpaces (.inl rfl)
    simp only [readZone, dropped, if_true]
  | some z =>
    obtain ⟨isZone', rfl⟩ := spells
    have dropped := dropWhile_spaces_zone areSpaces (.inr isZone')
    obtain ⟨c, rest, rfl, -⟩ := isZone_head isZone'
    simp [readZone, dropped, isZone']

/-- What follows a day is no digit. -/
theorem head_clock_zone {clock : Option Clock} {front spaces : List Char} {c : Char}
    (spells : clock.elim (front = []) (·.Spells front)) (areSpaces : ∀ c ∈ spaces, isSpace c = true)
    (isZone' : zone = [] ∨ isZone zone = true) (isFirst : c ∈ (front ++ (spaces ++ zone)).head?) :
    c.isDigit = false := by
  cases clock with
  | none =>
    cases (spells : front = [])
    exact (head_spaces_zone areSpaces isZone' isFirst).1
  | some clock =>
    obtain ⟨separators, hour, minute, second, fraction, ⟨nonempty, areSeparators⟩, -, -, -, -, -,
      -, rfl⟩ := spells
    cases separators with
    | nil => exact absurd rfl nonempty
    | cons separator separators =>
      cases isFirst
      by_contra digit
      have notSeparator := isSeparator_of_isDigit (c := c) (by simpa using digit)
      rw [areSeparators c (by simp)] at notSeparator
      cases notSeparator

/-- The reader reads what is written. -/
theorem readTemporal_iff : readTemporal text = some written ↔ written.Spells text := by
  rw [readTemporal_eq]
  constructor
  · intro reads
    obtain ⟨⟨day, afterDay⟩, isDay, zoned⟩ := Option.bind_eq_some_iff.mp reads
    dsimp only at zoned
    obtain ⟨days, spellsDay, rfl⟩ := readDay_spec isDay
    obtain ⟨front, spellsClock, split⟩ := clockAndRest_spec afterDay
    obtain ⟨spaces, zone, areSpaces, spellsZone, isDay', isClock, rest⟩ := readZone_spec zoned
    rw [← isDay'] at spellsDay
    rw [← isClock] at spellsClock
    refine ⟨days, front, spaces, zone, spellsDay, spellsClock, areSpaces, spellsZone, ?_⟩
    rw [split, rest]
  · rintro ⟨days, front, spaces, zone, spellsDay, spellsClock, areSpaces, spellsZone, rfl⟩
    have isZone' : zone = [] ∨ isZone zone = true := by
      cases same : written.zone with
      | none =>
        rw [same] at spellsZone
        exact .inl spellsZone
      | some z =>
        rw [same] at spellsZone
        obtain ⟨isZone', rfl⟩ := spellsZone
        exact .inr isZone'
    have ends := fun c => head_clock_zone (c := c) spellsClock areSpaces isZone'
    rw [readDay_spells spellsDay ends, Option.bind_some]
    dsimp only
    rw [clockAndRest_spells spellsClock areSpaces isZone']
    exact readZone_spells areSpaces spellsZone

end Matching

/-! ## What is written is a date -/

section Meaning

variable {zone : Option (List Char)} {offset : ℤ} {written : Temporal}

/-- The digits of two. -/
theorem isDigits_two {a b : Char} (first : a.isDigit = true) (second : b.isDigit = true) :
    IsDigits 2 2 [a, b] := by
  refine ⟨?_, le_rfl, le_rfl⟩
  intro c member
  rcases List.mem_pair.mp member with rfl | rfl
  · exact first
  · exact second

theorem exists_two {digits : List Char} (isDigits : IsDigits 2 2 digits) :
    ∃ a b, digits = [a, b] ∧ a.isDigit = true ∧ b.isDigit = true := by
  obtain ⟨all, low, high⟩ := isDigits
  obtain ⟨a, b, rfl⟩ := List.length_eq_two.mp (le_antisymm high low)
  exact ⟨a, b, rfl, all a (by simp), all b (by simp)⟩

theorem ne_colon_of_isDigit {c : Char} (digit : c.isDigit = true) : c ≠ ':' := by
  rintro rfl
  simp [Char.isDigit] at digit

/-- An offset of hours and minutes, or of hours alone. -/
theorem isOffset_iff {text : List Char} : isOffset text = true ↔
    ∃ hours colon minutes, IsDigits 2 2 hours ∧
      (minutes = [] ∧ colon = [] ∨ IsDigits 2 2 minutes ∧ (colon = [] ∨ colon = [':'])) ∧
      text = hours ++ (colon ++ minutes) := by
  constructor
  · intro isOffset'
    unfold isOffset at isOffset'
    split at isOffset'
    · simp only [Bool.and_eq_true] at isOffset'
      exact ⟨_, [], [], isDigits_two isOffset'.1 isOffset'.2, .inl ⟨rfl, rfl⟩, rfl⟩
    · simp only [Bool.and_eq_true] at isOffset'
      obtain ⟨⟨⟨a, b⟩, c⟩, d⟩ := isOffset'
      exact ⟨_, [], _, isDigits_two a b, .inr ⟨isDigits_two c d, .inl rfl⟩, rfl⟩
    · simp only [Bool.and_eq_true, decide_eq_true_eq] at isOffset'
      obtain ⟨⟨⟨⟨a, b⟩, rfl⟩, c⟩, d⟩ := isOffset'
      exact ⟨_, [':'], _, isDigits_two a b, .inr ⟨isDigits_two c d, .inr rfl⟩, rfl⟩
    · cases isOffset'
  · rintro ⟨hours, colon, minutes, isHours, isMinutes, rfl⟩
    obtain ⟨a, b, rfl, digitA, digitB⟩ := exists_two isHours
    rcases isMinutes with ⟨rfl, rfl⟩ | ⟨isMinutes, rfl | rfl⟩
    · simp [isOffset, digitA, digitB]
    · obtain ⟨c, d, rfl, digitC, digitD⟩ := exists_two isMinutes
      simp [isOffset, digitA, digitB, digitC, digitD]
    · obtain ⟨c, d, rfl, digitC, digitD⟩ := exists_two isMinutes
      simp [isOffset, digitA, digitB, digitC, digitD]

/-- The minutes that are read of an offset that is no name. -/
theorem zoneOffsetMinutes_sign {sign : Char} {hours colon minutes : List Char}
    (isSign : sign = '+' ∨ sign = '-') (isHours : IsDigits 2 2 hours)
    (isMinutes : minutes = [] ∧ colon = [] ∨
      IsDigits 2 2 minutes ∧ (colon = [] ∨ colon = [':'])) :
    zoneOffsetMinutes (some (sign :: (hours ++ (colon ++ minutes)))) =
      if 59 < number minutes then none
      else if (if sign = '+' then 14 * 60 else 12 * 60) < minutesOf hours minutes then none
      else some (if sign = '+' then minutesOf hours minutes else -minutesOf hours minutes) := by
  obtain ⟨a, b, rfl, -, -⟩ := exists_two isHours
  have filtered : (colon ++ minutes).filter (· ≠ ':') = minutes := by
    rcases isMinutes with ⟨rfl, rfl⟩ | ⟨isMinutes, rfl | rfl⟩
    · rfl
    · obtain ⟨c, d, rfl, digitC, digitD⟩ := exists_two isMinutes
      simp [ne_colon_of_isDigit digitC, ne_colon_of_isDigit digitD]
    · obtain ⟨c, d, rfl, digitC, digitD⟩ := exists_two isMinutes
      simp [ne_colon_of_isDigit digitC, ne_colon_of_isDigit digitD]
  have noName : ∀ rest : List Char, ¬((sign :: rest).map Char.toUpper = "Z".toList ∨
      (sign :: rest).map Char.toUpper = "UTC".toList ∨
        (sign :: rest).map Char.toUpper = "GMT".toList) := by
    intro rest
    have letters : "Z".toList = ['Z'] ∧ "UTC".toList = ['U', 'T', 'C'] ∧
        "GMT".toList = ['G', 'M', 'T'] := ⟨rfl, rfl, rfl⟩
    rw [letters.1, letters.2.1, letters.2.2]
    rcases isSign with rfl | rfl <;> simp
  unfold zoneOffsetMinutes minutesOf
  simp only [if_neg (noName _), List.cons_append, List.nil_append, filtered]
  rcases isSign with rfl | rfl <;> rfl

/-- An offset is read where it is one of the world's. -/
theorem zoneOffsetMinutes_iff (isZone' : ∀ z ∈ zone, isZone z = true) :
    zoneOffsetMinutes zone = some offset ↔ Offset zone offset := by
  have names : ∀ z : List Char, z.map Char.toUpper ∈ ["Z".toList, "UTC".toList, "GMT".toList] →
      zoneOffsetMinutes (some z) = some 0 := by
    intro z name
    simp only [List.mem_cons, List.not_mem_nil, or_false] at name
    simp only [zoneOffsetMinutes, if_pos name]
  constructor
  · intro reads
    cases zone with
    | none =>
      cases reads
      exact .absent
    | some z =>
      by_cases name : z.map Char.toUpper ∈ ["Z".toList, "UTC".toList, "GMT".toList]
      · rw [names z name] at reads
        cases reads
        exact .utc name
      · have shape := isZone' z rfl
        simp only [List.mem_cons, List.not_mem_nil, or_false, not_or] at name
        simp only [isZone, name, decide_false, Bool.false_or] at shape
        cases z with
        | nil => cases shape
        | cons sign rest =>
          simp only [Bool.and_eq_true, Bool.or_eq_true, decide_eq_true_eq] at shape
          obtain ⟨isSign, isOffset'⟩ := shape
          obtain ⟨hours, colon, minutes, isHours, isMinutes, rfl⟩ := isOffset_iff.mp isOffset'
          rw [zoneOffsetMinutes_sign isSign isHours isMinutes] at reads
          split_ifs at reads with tooMany plus tooFar tooFar
          · cases reads
            cases plus
            exact .east isHours isMinutes (by omega) (by omega)
          · cases reads
            cases isSign.resolve_left plus
            exact .west isHours isMinutes (by omega) (by omega)
  · intro isOffset'
    cases isOffset' with
    | absent => rfl
    | utc name => exact names _ name
    | east isHours isMinutes inHour inWorld =>
      rw [zoneOffsetMinutes_sign (.inl rfl) isHours isMinutes]
      simp only [if_true]
      rw [if_neg (by omega), if_neg (by omega)]
    | west isHours isMinutes inHour inWorld =>
      rw [zoneOffsetMinutes_sign (.inr rfl) isHours isMinutes]
      simp only [Char.reduceEq, if_false]
      rw [if_neg (by omega), if_neg (by omega)]

theorem offset_bounds (isOffset' : Offset zone offset) : -720 ≤ offset ∧ offset ≤ 840 := by
  cases isOffset' with
  | absent | utc => norm_num
  | east hour minute inHour inWorld =>
    unfold minutesOf at *
    omega
  | west hour minute inHour inWorld =>
    unfold minutesOf at *
    omega

end Meaning

/-! ## A match survives where it is a date -/

section Surviving

variable {written : Temporal} {text : List Char}

theorem number_lt {digits : List Char} (all : ∀ c ∈ digits, c.isDigit = true) :
    number digits < 10 ^ digits.length := by
  induction digits with
  | nil => exact Nat.one_pos
  | cons c digits ih =>
    have rest := ih fun c member => all c (List.mem_cons_of_mem _ member)
    have digit := all c (by simp)
    simp only [Char.isDigit, Bool.and_eq_true, decide_eq_true_eq] at digit
    have high : c.toNat ≤ 57 := by exact_mod_cast digit.2
    have value : c.toNat - '0'.toNat ≤ 9 := by
      have zero : '0'.toNat = 48 := rfl
      omega
    unfold number at rest ⊢
    rw [Nat.ofDigitChars_cons, Nat.ofDigitChars_eq_ofDigitChars_zero, List.length_cons, pow_succ]
    nlinarith

/-- A fraction is less than a second. -/
theorem millis_lt {fraction : List Char} (all : ∀ c ∈ fraction, c.isDigit = true) :
    millis fraction < 1000 := by
  have bound : millis fraction <
      10 ^ (fraction.take 3 ++ List.replicate (3 - (fraction.take 3).length) '0').length := by
    refine number_lt fun c member => ?_
    rcases List.mem_append.mp member with front | zero
    · exact all c (List.mem_of_mem_take front)
    · rw [List.eq_of_mem_replicate zero]
      rfl
  rw [List.length_append, List.length_replicate] at bound
  have length : (fraction.take 3).length + (3 - (fraction.take 3).length) = 3 := by
    rw [List.length_take]
    omega
  rwa [length] at bound

theorem isDigit_of_spellsOptional {separator : Char} {least most : ℕ} {digits front : List Char}
    (spells : SpellsOptional separator least most digits front) :
    ∀ c ∈ digits, c.isDigit = true := by
  rcases spells with ⟨rfl, -⟩ | ⟨isDigits, -⟩
  · simp
  · exact isDigits.1

theorem millis_of_spells (spells : written.Spells text) :
    ∀ clock ∈ written.clock, millis clock.fraction < 1000 := by
  intro clock isClock
  obtain ⟨days, front, spaces, zone, -, spellsClock, -⟩ := spells
  cases isClock' : written.clock with
  | none =>
    rw [isClock'] at isClock
    cases isClock
  | some other =>
    rw [isClock'] at isClock spellsClock
    cases isClock
    obtain ⟨_, _, _, _, _, _, _, _, _, fractions, -⟩ := spellsClock
    exact millis_lt (isDigit_of_spellsOptional fractions)

/-- The instant of a match by its own fields, in two parts. -/
theorem civil_eq (written : Temporal) : written.civil =
    utc written.day 0 0 0 0 + timeOfDay written.clock := by
  unfold Temporal.civil timeOfDay
  cases written.clock with
  | none => simp
  | some clock =>
    unfold utc
    simp only [Option.elim_some]
    push_cast
    ring

/-- A year of four digits that is read is past the first hundred. -/
theorem utc_day {day : Day} (inMonths : 1 ≤ day.month ∧ day.month ≤ 12) :
    utc day 0 0 0 0 =
      daysOfCivil (if day.year ≤ 99 then 1900 + day.year else day.year) day.month day.day *
        86400000 := by
  have month : ((day.month : ℤ) - 1) / 12 = 0 ∧ ((day.month : ℤ) - 1) % 12 + 1 = day.month := by
    omega
  unfold utc
  simp only [month.1, month.2, add_zero, Nat.cast_zero, zero_mul]

theorem timeOfDay_nonneg (clock : Option Clock) : 0 ≤ timeOfDay clock := by
  cases clock with
  | none => exact le_rfl
  | some clock =>
    simp only [timeOfDay, Option.elim_some]
    positivity

theorem timeOfDay_lt {clock : Option Clock}
    (fraction : ∀ c ∈ clock, millis c.fraction < 1000)
    (inDay : ∀ c ∈ clock, c.hour < 24 ∧ c.minute < 60 ∧ number c.second < 60) :
    timeOfDay clock < 86400000 := by
  cases clock with
  | none => norm_num [timeOfDay]
  | some clock =>
    have fraction := fraction clock rfl
    obtain ⟨hour, minute, second⟩ := inDay clock rfl
    simp only [timeOfDay, Option.elim_some]
    omega

/-- The days of a year are not those of one nineteen centuries later. -/
theorem daysOfCivil_ne_century (year month day : ℤ) :
    daysOfCivil (1900 + year) month day ≠ daysOfCivil year month day := by
  rw [daysOfCivil_eq, daysOfCivil_eq]
  unfold marchFirst marchYear
  split_ifs <;> omega

/-- The time of day that is written is read back. -/
theorem clock_of_days {clock : Clock} {days : ℤ} (fraction : millis clock.fraction < 1000)
    (inDay : clock.hour < 24 ∧ clock.minute < 60 ∧ number clock.second < 60) :
    utcHours (days * 86400000 + timeOfDay (some clock)) = clock.hour ∧
      utcMinutes (days * 86400000 + timeOfDay (some clock)) = clock.minute ∧
      utcSeconds (days * 86400000 + timeOfDay (some clock)) = number clock.second := by
  simp only [timeOfDay, Option.elim_some, utcHours, utcMinutes, utcSeconds]
  omega

theorem inMonths_of_civil {year month day : ℕ} (civil : IsCivil year month day) :
    1 ≤ month ∧ month ≤ 12 := by
  have := civil.1
  omega

/-- A match survives where its fields are those of a date whose year is past the first hundred,
and is the instant of these then. -/
theorem survived_iff (fraction : ∀ clock ∈ written.clock, millis clock.fraction < 1000) :
    written.Survived written.civil ↔
      IsCivil written.day.year written.day.month written.day.day ∧
        (∀ clock ∈ written.clock,
          clock.hour < 24 ∧ clock.minute < 60 ∧ number clock.second < 60) ∧
        100 ≤ written.day.year := by
  obtain ⟨day, clock, zone⟩ := written
  dsimp only at *
  have nonneg := timeOfDay_nonneg clock
  rw [civil_eq]
  constructor
  · rintro ⟨sameDay, sameClock⟩
    have inDay : ∀ c ∈ clock, c.hour < 24 ∧ c.minute < 60 ∧ number c.second < 60 := by
      rintro c ⟨⟩
      obtain ⟨hours, minutes, seconds⟩ := sameClock
      unfold utcHours at hours
      unfold utcMinutes at minutes
      unfold utcSeconds at seconds
      omega
    obtain ⟨year, month, date, civil, isCivil, back⟩ :=
      isCivil_civilOfDays ((utc day 0 0 0 0 + timeOfDay clock) / 86400000)
    simp only [utcDay, civil, Prod.mk.injEq] at sameDay
    obtain ⟨rfl, rfl, rfl⟩ := sameDay
    have inMonths := inMonths_of_civil isCivil
    have short := timeOfDay_lt fraction inDay
    refine ⟨isCivil, inDay, ?_⟩
    by_contra early
    rw [utc_day inMonths, if_pos (by omega)] at back
    refine daysOfCivil_ne_century day.year day.month day.day ?_
    omega
  · rintro ⟨isCivil, inDay, past⟩
    have inMonths := inMonths_of_civil isCivil
    have short := timeOfDay_lt fraction inDay
    rw [utc_day inMonths, if_neg (by omega)]
    constructor
    · have days : (daysOfCivil day.year day.month day.day * 86400000 + timeOfDay clock) / 86400000 =
          daysOfCivil day.year day.month day.day := by omega
      rw [utcDay, days]
      exact civilOfDays_daysOfCivil isCivil
    · cases clock with
      | none =>
        simp only [timeOfDay, Option.elim_none, utcHours, utcMinutes, utcSeconds]
        omega
      | some clock => exact clock_of_days (fraction clock rfl) (inDay clock rfl)

/-- The instant of a date's own fields. -/
theorem civil_eq_instant (inMonths : 1 ≤ written.day.month ∧ written.day.month ≤ 12)
    (past : 100 ≤ written.day.year) (offset : ℤ) :
    written.civil - offset * 60000 = written.instant offset := by
  rw [civil_eq, utc_day inMonths, if_neg (by omega)]
  rfl

end Surviving

/-! ## What is read -/

section Parsing

variable {raw text zone : List Char} {calendarDay : Bool} {instant : ℤ} {written : Temporal}

/-- The day of an instant that is a part of a day off moves if the day of the month does. -/
theorem utcDay_eq_of_day {civil offset : ℤ} (near : -720 ≤ offset ∧ offset ≤ 840)
    (sameDay : (utcDay (civil - offset * 60000)).2.2 = (utcDay civil).2.2) :
    utcDay (civil - offset * 60000) = utcDay civil := by
  unfold utcDay at *
  rcases lt_trichotomy ((civil - offset * 60000) / 86400000) (civil / 86400000) with
    before | same | after
  · exact absurd sameDay (day_ne_of_near before (by omega))
  · rw [same]
  · exact absurd sameDay.symm (day_ne_of_near after (by omega))

/-- Nothing of a zone is white space. -/
theorem isSpace_of_isZone (isZone' : isZone zone = true) : ∀ c ∈ zone, isSpace c = false := by
  have names : ∀ name : List Char, (∀ upper ∈ name, upper.toNat ∈ [90, 85, 84, 67, 71, 77]) →
      zone.map Char.toUpper = name → ∀ c ∈ zone, isSpace c = false := by
    rintro name letters rfl c member
    have letter := letters _ (List.mem_map_of_mem member)
    have code := toNat_of_toUpper (c := c) rfl
    simp only [List.mem_cons, List.not_mem_nil, or_false] at letter
    simp only [isSpace, Bool.or_eq_false_iff, decide_eq_false_iff_not, List.mem_cons,
      List.not_mem_nil, Bool.and_eq_false_iff, not_or, or_false]
    omega
  cases zone with
  | nil => simp
  | cons sign rest =>
    simp only [isZone, Bool.or_eq_true, decide_eq_true_eq, Bool.and_eq_true] at isZone'
    rcases isZone' with ((z | utc) | gmt) | ⟨isSign, isOffset'⟩
    · exact names _ (by simp) z
    · exact names _ (by simp) utc
    · exact names _ (by simp) gmt
    · intro c member
      rcases List.mem_cons.mp member with rfl | member
      · rcases isSign with rfl | rfl <;> rfl
      · exact ((mem_isOffset isOffset').2 c member).1

theorem trim_append_spaces {front spaces : List Char} {first last : Char}
    (isFirst : front.head? = some first) (isLast : front.getLast? = some last)
    (firstPlain : isSpace first = false) (lastPlain : isSpace last = false)
    (areSpaces : ∀ c ∈ spaces, isSpace c = true) : trim (front ++ spaces) = front := by
  have kept : (front ++ spaces).dropWhile isSpace = front ++ spaces := by
    cases front with
    | nil => cases isFirst
    | cons c front =>
      cases isFirst
      exact List.dropWhile_cons_of_neg (by simp [firstPlain])
  have lastFirst : front.reverse.dropWhile isSpace = front.reverse := by
    rw [← List.head?_reverse] at isLast
    cases reversed : front.reverse with
    | nil =>
      rw [reversed] at isLast
      cases isLast
    | cons c rest =>
      rw [reversed] at isLast
      cases isLast
      exact List.dropWhile_cons_of_neg (by simp [lastPlain])
  rw [trim, kept, List.reverse_append,
    List.dropWhile_append_of_pos (by simpa using areSpaces), lastFirst, List.reverse_reverse]

/-! ### A text of the grammar keeps what is written in it -/

theorem getLast?_append_digits {front digits : List Char} {most : ℕ}
    (isDigits : IsDigits 1 most digits ∨ IsDigits 2 most digits) :
    ∃ last, (front ++ digits).getLast? = some last ∧ last.isDigit = true := by
  have nonempty : digits ≠ [] := by
    rintro rfl
    rcases isDigits with isDigits | isDigits
    · exact absurd isDigits.2.1 (by simp)
    · exact absurd isDigits.2.1 (by simp)
  have all : ∀ c ∈ digits, c.isDigit = true := by
    rcases isDigits with isDigits | isDigits
    · exact isDigits.1
    · exact isDigits.1
  refine ⟨digits.getLast nonempty, ?_, all _ (List.getLast_mem nonempty)⟩
  rw [List.getLast?_append, List.getLast?_eq_some_getLast nonempty]
  rfl

/-- A day and a time of day begin and end with digits. -/
theorem ends_of_spells {days front : List Char} {clock : Option Clock} {day : Day}
    (spellsDay : day.Spells days) (spellsClock : clock.elim (front = []) (·.Spells front)) :
    (∃ first, (days ++ front).head? = some first ∧ first.isDigit = true) ∧
      ∃ last, (days ++ front).getLast? = some last ∧ last.isDigit = true := by
  obtain ⟨year, month, date, years, months, dates, -, rfl⟩ := spellsDay
  constructor
  · cases year with
    | nil => exact absurd years.2.1 (by simp)
    | cons first year => exact ⟨first, rfl, years.1 first (by simp)⟩
  · cases clock with
    | none =>
      cases (spellsClock : front = [])
      have split : year ++ '-' :: (month ++ '-' :: date) ++ [] =
          (year ++ '-' :: (month ++ ['-'])) ++ date := by simp
      rw [split]
      exact getLast?_append_digits (.inl dates)
    | some clock =>
      obtain ⟨separators, hour, minute, second, fraction, -, -, minutes, seconds, fractions, -, -,
        rfl⟩ := spellsClock
      -- The last of the minute, the second and the fraction that is written ends the text.
      rcases fractions with ⟨-, rfl⟩ | ⟨fractions, rfl⟩
      · rcases seconds with ⟨-, rfl⟩ | ⟨seconds, rfl⟩
        · have split : year ++ '-' :: (month ++ '-' :: date) ++
              (separators ++ (hour ++ ':' :: (minute ++ ([] ++ [])))) =
              (year ++ '-' :: (month ++ '-' :: date) ++ (separators ++ (hour ++ [':']))) ++
                minute := by simp
          rw [split]
          exact getLast?_append_digits (.inr minutes)
        · have split : year ++ '-' :: (month ++ '-' :: date) ++
              (separators ++ (hour ++ ':' :: (minute ++ (':' :: clock.second ++ [])))) =
              (year ++ '-' :: (month ++ '-' :: date) ++
                (separators ++ (hour ++ ':' :: (minute ++ [':'])))) ++ clock.second := by simp
          rw [split]
          exact getLast?_append_digits (.inr seconds)
      · have split : year ++ '-' :: (month ++ '-' :: date) ++
            (separators ++ (hour ++ ':' :: (minute ++ (second ++ '.' :: clock.fraction)))) =
            (year ++ '-' :: (month ++ '-' :: date) ++
              (separators ++ (hour ++ ':' :: (minute ++ (second ++ ['.']))))) ++
                clock.fraction := by simp
        rw [split]
        exact getLast?_append_digits (.inl fractions)

/-- White space at the ends of a text of the grammar is none of what is written. -/
theorem spells_trim (spells : written.Spells text) :
    written.Spells (trim text) ∧ trim text ≠ [] := by
  obtain ⟨days, front, spaces, zone, spellsDay, spellsClock, areSpaces, spellsZone, rfl⟩ := spells
  obtain ⟨⟨first, isFirst, firstDigit⟩, last, isLast, lastDigit⟩ :=
    ends_of_spells spellsDay spellsClock
  have firstPlain := isSpace_of_isDigit firstDigit
  have nonempty : days ++ front ≠ [] := by
    intro empty
    rw [empty] at isFirst
    cases isFirst
  cases isZone' : written.zone with
  | none =>
    rw [isZone'] at spellsZone
    cases (spellsZone : zone = [])
    have trimmed := trim_append_spaces isFirst isLast firstPlain (isSpace_of_isDigit lastDigit)
      areSpaces
    rw [← List.append_assoc, List.append_nil, trimmed]
    exact ⟨⟨days, front, [], [], spellsDay, spellsClock, by simp, by rw [isZone']; rfl, by simp⟩,
      nonempty⟩
  | some z =>
    rw [isZone'] at spellsZone
    obtain ⟨zoned, rfl⟩ := spellsZone
    obtain ⟨c, rest, cons, -⟩ := isZone_head zoned
    have lastPlain : isSpace (zone.getLast (by simp [cons])) = false :=
      isSpace_of_isZone zoned _ (List.getLast_mem _)
    have trimmed : trim (days ++ (front ++ (spaces ++ zone)) ++ []) =
        days ++ (front ++ (spaces ++ zone)) := by
      refine trim_append_spaces ?_ ?_ firstPlain lastPlain (by simp)
      · rw [← List.append_assoc, List.head?_append, isFirst]
        rfl
      · rw [List.getLast?_append, List.getLast?_append, List.getLast?_append,
          List.getLast?_eq_some_getLast (by simp [cons])]
        rfl
    rw [List.append_nil] at trimmed
    rw [trimmed]
    refine ⟨⟨days, front, spaces, zone, spellsDay, spellsClock, areSpaces, ?_, rfl⟩, ?_⟩
    · rw [isZone']
      exact ⟨zoned, rfl⟩
    · intro empty
      rw [List.append_eq_nil_iff] at empty
      rw [empty.1, (List.append_eq_nil_iff.mp empty.2).1] at isFirst
      cases isFirst

/-- A time of day is read alike behind fewer separators. -/
theorem readClock_mono {fewer : Char → Bool} {clock : Clock} {rest : List Char}
    (isFewer : ∀ c, fewer c = true → isSeparator c = true)
    (reads : readClock fewer text = some (clock, rest)) :
    readClock isSeparator text = some (clock, rest) := by
  have dropped : text.dropWhile isSeparator = text.dropWhile fewer := by
    have split := List.takeWhile_append_dropWhile (p := fewer) (l := text)
    cases behind : text.dropWhile fewer with
    | nil =>
      rw [behind, List.append_nil] at split
      rw [← split]
      refine List.dropWhile_eq_nil_iff.mpr fun c member => isFewer c (List.mem_takeWhile_imp member)
    | cons first later =>
      have digit : first.isDigit = true := by
        unfold readClock at reads
        rw [behind] at reads
        by_contra notDigit
        simp [readDigits, notDigit] at reads
      rw [behind] at split
      nth_rewrite 1 [← split]
      exact dropWhile_append_cons (fun c member => isFewer c (List.mem_takeWhile_imp member))
        (isSeparator_of_isDigit digit)
  unfold readClock at reads ⊢
  rwa [dropped]

/-- There is no sign to be put back in a text of the grammar. -/
theorem splitAtSpace_of_spells (spells : written.Spells text) : splitAtSpace text = none := by
  have reads := readTemporal_iff.mpr spells
  rw [readTemporal_eq] at reads
  obtain ⟨⟨day, afterDay⟩, isDay, zoned⟩ := Option.bind_eq_some_iff.mp reads
  dsimp only at zoned
  by_contra splits
  obtain ⟨halves, splits⟩ := Option.ne_none_iff_exists'.mp splits
  simp only [splitAtSpace, Option.bind_eq_bind, Option.bind_eq_some_iff, Prod.exists] at splits
  obtain ⟨_, _, isDay', clock, rest, isClock, splits⟩ := splits
  cases isDay.symm.trans isDay'
  have fewer : ∀ c, (c = 'T' || isSpace c) = true → isSeparator c = true := by
    intro c separates
    rw [Bool.or_eq_true] at separates
    rcases separates with mark | space
    · simp [isSeparator, of_decide_eq_true mark]
    · simp [isSeparator, space]
  have read := readClock_mono fewer isClock
  split_ifs at splits with noSpaces isOff
  unfold clockAndRest at zoned
  rw [read] at zoned
  obtain ⟨hours, colon, minutes, isHours, -, digits⟩ := isOffset_iff.mp isOff
  obtain ⟨a, b, rfl, digit, -⟩ := exists_two isHours
  unfold readZone at zoned
  dsimp only at zoned
  rw [digits] at zoned
  split_ifs at zoned with empty isZone'
  · cases empty
  · obtain ⟨c, more, cons, ⟨notDigit, -⟩, -⟩ := isZone_head isZone'
    cases cons
    rw [digit] at notDigit
    cases notDigit

/-- A text of the grammar keeps what is written in it. -/
theorem spells_restoreUrlPlus (spells : written.Spells raw) :
    written.Spells (restoreUrlPlus raw) := by
  obtain ⟨trimmed, nonempty⟩ := spells_trim spells
  rw [restoreUrlPlus, if_neg nonempty, splitAtSpace_of_spells trimmed]
  exact trimmed

/-! ### What is read is what is written -/

theorem isZone_of_spells (spells : written.Spells text) : ∀ z ∈ written.zone, isZone z = true := by
  obtain ⟨_, _, _, _, -, -, -, spellsZone, -⟩ := spells
  intro z member
  rw [show written.zone = some z from member] at spellsZone
  exact spellsZone.1

/-- The instant that is written, where what is written is a date past the first hundred years, has a
zone only behind a time of day and, as a day, is on the day that is written. -/
theorem parseTemporal_iff : parseTemporal raw calendarDay = some instant ↔
    ∃ (written : Temporal) (offset : ℤ),
      written.Spells (restoreUrlPlus raw) ∧ written.Valid offset ∧
      100 ≤ written.day.year ∧ (written.zone.isSome → written.clock.isSome) ∧
      instant = written.instant offset ∧
      (calendarDay → utcDay instant =
        ((written.day.year : ℤ), (written.day.month : ℤ), (written.day.day : ℤ))) := by
  rw [parseTemporal_eq_some_iff]
  constructor
  · rintro ⟨written, offset, reads, survived, zoned, isOffset, rfl, unmoved⟩
    have spells := readTemporal_iff.mp reads
    obtain ⟨isCivil, inDay, past⟩ := (survived_iff (millis_of_spells spells)).mp survived
    have isOffset' := (zoneOffsetMinutes_iff (isZone_of_spells spells)).mp isOffset
    have inMonths := inMonths_of_civil isCivil
    refine ⟨written, offset, spells, ⟨isCivil, inDay, isOffset'⟩, past, zoned,
      civil_eq_instant inMonths past offset, fun isDay => ?_⟩
    rw [← survived.1]
    cases isZoned : written.zone with
    | none =>
      rw [isZoned] at isOffset
      cases isOffset
      rw [zero_mul, sub_zero]
    | some z =>
      refine utcDay_eq_of_day (offset_bounds isOffset') ?_
      rw [survived.1]
      exact unmoved isDay (by rw [isZoned]; rfl)
  · rintro ⟨written, offset, spells, ⟨isCivil, inDay, isOffset'⟩, past, zoned, rfl, unmoved⟩
    have inMonths := inMonths_of_civil isCivil
    refine ⟨written, offset, readTemporal_iff.mpr spells,
      (survived_iff (millis_of_spells spells)).mpr ⟨isCivil, inDay, past⟩, zoned,
      (zoneOffsetMinutes_iff (isZone_of_spells spells)).mpr isOffset',
      (civil_eq_instant inMonths past offset).symm,
      fun isDay _ => ?_⟩
    rw [unmoved isDay]

/-- What is read of a text is the instant that is written in it, which is one; and the instant that
is written in a text of the grammar is read. -/
theorem instantAsWritten (raw : List Char) (calendarDay : Bool) :
    (∀ instant, parseTemporal raw calendarDay = some instant →
      ∃ (written : Temporal) (offset : ℤ),
        written.Spells (restoreUrlPlus raw) ∧ written.Valid offset ∧
        instant = written.instant offset ∧
        (calendarDay → utcDay instant =
          ((written.day.year : ℤ), (written.day.month : ℤ), (written.day.day : ℤ)))) ∧
    ∀ (written : Temporal) (offset : ℤ), written.Spells raw → written.Valid offset →
      100 ≤ written.day.year → (written.zone.isSome → written.clock.isSome) →
      (calendarDay → utcDay (written.instant offset) =
        ((written.day.year : ℤ), (written.day.month : ℤ), (written.day.day : ℤ))) →
      parseTemporal raw calendarDay = some (written.instant offset) := by
  constructor
  · intro instant reads
    obtain ⟨written, offset, spells, valid, -, -, same, unmoved⟩ := parseTemporal_iff.mp reads
    exact ⟨written, offset, spells, valid, same, unmoved⟩
  · intro written offset spells valid past zoned unmoved
    exact parseTemporal_iff.mpr
      ⟨written, offset, spells_restoreUrlPlus spells, valid, past, zoned, rfl, unmoved⟩

end Parsing

end MalloyPublisher.Givens
