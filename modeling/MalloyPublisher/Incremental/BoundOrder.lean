import MalloyPublisher.Incremental.BoundValues

/-!
# The order of boundaries

`compareBounds` compares numbers as numbers and everything else as text. The texts of one spelling
are in the order of the times that they spell. The spellings are not: a day and a time of day stand
apart by a `T` where a date object was cut and by a space where a text was, and the years of six
digits begin with a sign.

## Main definitions

* `ComparesAsValues` — two boundaries compare as what they stand for
* `OrderHolds` — where they do

## Main results

* `compareBounds_iff` — boundaries compare as what they stand for exactly where it holds
* `mixedSpellings_disagree` — a second of a date object and a later one of a text
-/

namespace MalloyPublisher.Incremental

open Foundations Givens

/-! ## The order of civil times -/

namespace CivilTime

/-- The order within a year. -/
def compareDay (first second : CivilTime) : Ordering :=
  (compare first.month second.month).then (compare first.day second.day)

/-- The order within a day. -/
def compareClock (first second : CivilTime) : Ordering :=
  (compare first.hour second.hour).then
    ((compare first.minute second.minute).then (compare first.second second.second))

end CivilTime

section Times

variable {first second : CivilTime}

theorem day_bounds {year month day : ℤ} (civil : IsCivil year month day) : 0 ≤ day ∧ day < 32 := by
  obtain ⟨-, first, last⟩ := civil
  unfold daysInMonth at last
  split_ifs at last <;> omega

theorem compare_daysOfCivil {year month day year' month' day' : ℤ} (civil : IsCivil year month day)
    (civil' : IsCivil year' month' day') :
    compare (daysOfCivil year month day) (daysOfCivil year' month' day') =
      (compare year year').then ((compare month month').then (compare day day')) := by
  have inMonth := day_bounds civil
  have inMonth' := day_bounds civil'
  rw [← compare_mul_add inMonth inMonth']
  refine compare_then ?_ ?_
  · rw [daysOfCivil_lt_iff civil civil']
    dsimp only [CivilBefore]
    omega
  · rw [daysOfCivil_lt_iff civil' civil]
    dsimp only [CivilBefore]
    omega

theorem compare_clock (valid : first.Valid) (valid' : second.Valid) :
    compare ((first.hour * 3600 + first.minute * 60 + first.second : ℕ) : ℤ)
        ((second.hour * 3600 + second.minute * 60 + second.second : ℕ) : ℤ) =
      first.compareClock second := by
  obtain ⟨-, -, minutes, seconds⟩ := valid
  obtain ⟨-, -, minutes', seconds'⟩ := valid'
  have split : ∀ time : CivilTime,
      ((time.hour * 3600 + time.minute * 60 + time.second : ℕ) : ℤ) =
        3600 * time.hour + (60 * time.minute + time.second) := by
    intro time
    push_cast
    ring
  rw [split, split, compare_mul_add (by omega) (by omega), compare_mul_add (by omega) (by omega),
    compare_natCast, compare_natCast, compare_natCast]
  rfl

/-- Civil times are ordered by their years, their days in these and their seconds in those. -/
theorem compare_seconds (valid : first.Valid) (valid' : second.Valid) :
    compare first.seconds second.seconds =
      (compare first.year second.year).then
        ((first.compareDay second).then (first.compareClock second)) := by
  have split : ∀ time : CivilTime, time.seconds =
      86400 * daysOfCivil time.year time.month time.day +
        ((time.hour * 3600 + time.minute * 60 + time.second : ℕ) : ℤ) := by
    intro time
    unfold CivilTime.seconds
    push_cast
    ring
  have inDay : ∀ time : CivilTime, time.Valid →
      0 ≤ ((time.hour * 3600 + time.minute * 60 + time.second : ℕ) : ℤ) ∧
        ((time.hour * 3600 + time.minute * 60 + time.second : ℕ) : ℤ) < 86400 := by
    rintro time ⟨-, hours, minutes, seconds⟩
    omega
  rw [split, split, compare_mul_add (inDay _ valid) (inDay _ valid'), compare_clock valid valid',
    compare_daysOfCivil valid.1 valid'.1, compare_natCast, compare_natCast]
  simp only [CivilTime.compareDay, Ordering.then_assoc]

theorem year_seconds (valid : first.Valid) :
    (civilOfDays (first.seconds / 86400)).1 = first.year := by
  rw [valid.seconds_div, civilOfDays_daysOfCivil valid.1]

theorem sameDay_iff (valid : first.Valid) (valid' : second.Valid) :
    first.seconds / 86400 = second.seconds / 86400 ↔
      (compare first.year second.year).then (first.compareDay second) = .eq := by
  rw [valid.seconds_div, valid'.seconds_div, ← compare_eq_iff_eq,
    compare_daysOfCivil valid.1 valid'.1, compare_natCast, compare_natCast]
  rfl

end Times

/-! ## The order of spellings -/

section Spellings

variable {first second : Fields} {era : Era} {date : Bool} {separator separator' : Char}

theorem compareChars_field {width : ℕ} {digits digits' : List Char}
    (isDigits : IsDigits width width digits) (isDigits' : IsDigits width width digits')
    (rest rest' : List Char) :
    compareChars (digits ++ rest) (digits' ++ rest') =
      (compare (number digits) (number digits')).then (compareChars rest rest') := by
  have width : digits.length = digits'.length := by
    rw [length_of_isDigits isDigits, length_of_isDigits isDigits']
  rw [compareChars_append width, compareChars_digits width isDigits.1 isDigits'.1]
  rfl

theorem compareChars_last {width : ℕ} {digits digits' : List Char}
    (isDigits : IsDigits width width digits) (isDigits' : IsDigits width width digits') :
    compareChars digits digits' = compare (number digits) (number digits') := by
  have same := compareChars_field isDigits isDigits' [] []
  rwa [List.append_nil, List.append_nil, compareChars_nil, Ordering.then_eq] at same

/-- Two spellings of one era are ordered by their years, their days and their times of day, and by
what stands between these where it does. -/
theorem compareChars_spell (formed : first.Formed era) (formed' : second.Formed era) :
    compareChars (first.spell date separator era) (second.spell date separator' era) =
      (compare (number first.year) (number second.year)).then
        (((first.time date era).compareDay (second.time date era)).then
          ((if date = false ∧ era = .four then compare separator.toNat separator'.toNat else .eq).then
            ((first.time date era).compareClock (second.time date era)))) := by
  have day : ∀ rest rest', compareChars (first.dayPart ++ rest) (second.dayPart ++ rest') =
      (compare (number first.month) (number second.month)).then
        ((compare (number first.day) (number second.day)).then (compareChars rest rest')) := by
    intro rest rest'
    simp only [Fields.dayPart, List.cons_append, List.append_assoc, compareChars_cons_self]
    rw [compareChars_field formed.month formed'.month, compareChars_cons_self,
      compareChars_field formed.day formed'.day]
  have minute : compareChars first.minutePart second.minutePart =
      (compare (number first.hour) (number second.hour)).then
        (compare (number first.minute) (number second.minute)) := by
    rw [Fields.minutePart, Fields.minutePart, compareChars_field formed.hour formed'.hour,
      compareChars_cons_self, compareChars_last formed.minute formed'.minute]
  have clock : compareChars (first.minutePart ++ ':' :: first.second)
      (second.minutePart ++ ':' :: second.second) =
        (compare (number first.hour) (number second.hour)).then
          ((compare (number first.minute) (number second.minute)).then
            (compare (number first.second) (number second.second))) := by
    simp only [Fields.minutePart, List.cons_append, List.append_assoc]
    rw [compareChars_field formed.hour formed'.hour, compareChars_cons_self,
      compareChars_field formed.minute formed'.minute, compareChars_cons_self,
      compareChars_last formed.second formed'.second]
  have expanded : compareChars (Fields.spell.expanded first date)
      (Fields.spell.expanded second date) =
        (compare (number first.year) (number second.year)).then
          ((compare (number first.month) (number second.month)).then
            (if date then .eq else (compare (number first.day) (number second.day)).then
              ((compare (number first.hour) (number second.hour)).then
                (compare (number first.minute) (number second.minute))))) := by
    unfold Fields.spell.expanded
    rw [compareChars_field formed.year formed'.year]
    cases date with
    | true =>
      simp only [if_true]
      rw [compareChars_cons_self, compareChars_last formed.month formed'.month, Ordering.then_eq]
    | false =>
      simp only [Bool.false_eq_true, if_false]
      rw [day, compareChars_cons_self, minute]
  cases era with
  | four =>
    rw [Fields.spell, Fields.spell, compareChars_field formed.year formed'.year]
    cases date with
    | true =>
      simp only [if_true]
      rw [day, compareChars_nil]
      simp [Fields.time, CivilTime.compareDay, CivilTime.compareClock]
    | false =>
      simp only [Bool.false_eq_true, if_false]
      rw [day, compareChars_cons, clock]
      simp [Fields.time, CivilTime.compareDay, CivilTime.compareClock, Ordering.then_assoc]
  | before =>
    rw [Fields.spell, Fields.spell, compareChars_cons_self, expanded]
    cases date <;> simp [Fields.time, CivilTime.compareDay, CivilTime.compareClock, Ordering.then_assoc]
  | after =>
    rw [Fields.spell, Fields.spell, compareChars_cons_self, expanded]
    cases date <;> simp [Fields.time, CivilTime.compareDay, CivilTime.compareClock, Ordering.then_assoc]

/-- The place of an era among the texts: `+` before `-` before the digits. -/
def Era.inTexts : Era → ℕ
  | .after => 0
  | .before => 1
  | .four => 2

/-- The place of an era among the years. -/
def Era.inYears : Era → ℕ
  | .before => 0
  | .four => 1
  | .after => 2

theorem exists_head_spell (date : Bool) (separator : Char) (formed : first.Formed era) :
    ∃ c rest, first.spell date separator era = c :: rest ∧ match era with
      | .before => c.toNat = 45
      | .four => 48 ≤ c.toNat
      | .after => c.toNat = 43 := by
  cases era with
  | before => exact ⟨'-', _, rfl, rfl⟩
  | after => exact ⟨'+', _, rfl, rfl⟩
  | four =>
    have width : first.year.length = 4 := length_of_isDigits formed.year
    have digits := formed.year.1
    unfold Fields.spell
    cases years : first.year with
    | nil =>
      rw [years] at width
      cases width
    | cons c year => exact ⟨c, _, rfl, (digit_bounds (digits c (by rw [years]; simp))).1⟩

/-- Two spellings of different eras are ordered by how these begin. -/
theorem compareChars_eras {era' : Era} (formed : first.Formed era) (formed' : second.Formed era')
    (differ : era ≠ era') :
    compareChars (first.spell date separator era) (second.spell date separator' era') =
      compare era.inTexts era'.inTexts := by
  obtain ⟨c, rest, spelled, lead⟩ := exists_head_spell date separator formed
  obtain ⟨c', rest', spelled', lead'⟩ := exists_head_spell date separator' formed'
  have heads : compare c.toNat c'.toNat = compare era.inTexts era'.inTexts := by
    refine compare_congr ?_ ?_ <;> cases era <;> cases era' <;>
      first
        | exact absurd rfl differ
        | (dsimp only [Era.inTexts] at lead lead' ⊢; omega)
  rw [spelled, spelled', compareChars_cons, heads]
  cases era <;> cases era' <;> first | exact absurd rfl differ | rfl

/-- Times of different eras are ordered by these. -/
theorem compare_seconds_eras {era' : Era} (isYear : era.Spells (number first.year))
    (isYear' : era'.Spells (number second.year)) (valid : (first.time date era).Valid)
    (valid' : (second.time date era').Valid) (differ : era ≠ era') :
    compare (first.time date era).seconds (second.time date era').seconds =
      compare era.inYears era'.inYears := by
  have years : compare (first.time date era).year (second.time date era').year =
      compare era.inYears era'.inYears := by
    refine compare_congr ?_ ?_ <;> cases era <;> cases era' <;>
      first
        | exact absurd rfl differ
        | (simp only [Fields.time, Era.inYears, Era.Spells, if_true, reduceCtorEq, if_false]
            at isYear isYear' ⊢
           omega)
  rw [compare_seconds valid valid', years]
  cases era <;> cases era' <;> first | exact absurd rfl differ | rfl

end Spellings

/-! ## Where boundaries compare as what they stand for -/

/-- What a comparator's answer tells. -/
def JsNumber.order : JsNumber → Option Ordering
  | .finite value => some (compare value 0)
  | .infinity negative => some (if negative then .lt else .gt)
  | .nan => none

/-- Two boundaries compare as what they stand for. -/
def ComparesAsValues (first second : WatermarkBound) (value value' : Value) : Prop :=
  ∃ answer order, compareBounds runtimeNumbers first second = .ok answer ∧
    answer.order = some order ∧ value.compare? value' = some order

/-- Where the spellings of two times are in their order. Of two spellings of one era it is with
years of four digits or with a `+`; with a `-` within a year only; and where a space in the one
stands for the `T` of the other, it is on different days, and on the same day where the one with the
space is earlier. Of spellings of two eras it is with a `-` and four digits. -/
def TimesAgree (date : Bool) (raw raw' : RawValue) (time time' : ℤ) : Prop :=
  match raw.era, raw'.era with
  | .four, .four =>
    date = true ∨ raw.separator = raw'.separator ∨ (time / 86400 = time' / 86400 →
      if raw.separator = ' ' then time < time' else time' < time)
  | .after, .after => True
  | .before, .before => (civilOfDays (time / 86400)).1 = (civilOfDays (time' / 86400)).1
  | .before, .four | .four, .before => True
  | _, _ => False

/-- Where two boundaries of driver values compare as what they stand for: always of numbers and of
strings, and of times where their spellings do. -/
def OrderHolds (raw raw' : RawValue) (first second : WatermarkBound) : Prop :=
  match first.malloyType with
  | .number | .string => True
  | malloyType => ∀ time time', boundInstant first.value.toList = some time →
      boundInstant second.value.toList = some time' →
      TimesAgree (decide (malloyType = .date)) raw raw' time time'

section Holds

variable {first second : WatermarkBound} {value value' : Value} {malloyType : WatermarkType}
  {raw raw' : RawValue}

theorem compareBounds_text (same : first.malloyType = second.malloyType)
    (notNumber : first.malloyType ≠ .number) :
    ∃ answer, compareBounds runtimeNumbers first second = .ok answer ∧
      answer.order = some (compareText first.value second.value) := by
  refine ⟨_, by rw [compareBounds, if_neg (not_not_intro same), if_neg notNumber], ?_⟩
  have swapped := compareText_swap first.value second.value
  unfold JsNumber.order
  dsimp only
  cases order : compareText first.value second.value with
  | lt =>
    rw [if_pos (stringLess_iff.mpr order)]
    rfl
  | eq =>
    rw [order] at swapped
    have notLess : ¬ stringLess first.value second.value = true := by
      rw [stringLess_iff, order]
      exact fun impossible => by cases impossible
    have notMore : ¬ stringLess second.value first.value = true := by
      rw [stringLess_iff, ← swapped]
      exact fun impossible => by cases impossible
    rw [if_neg notLess, if_neg notMore]
    rfl
  | gt =>
    rw [order] at swapped
    have notLess : ¬ stringLess first.value second.value = true := by
      rw [stringLess_iff, order]
      exact fun impossible => by cases impossible
    rw [if_neg notLess, if_pos (stringLess_iff.mpr swapped.symm)]
    rfl

theorem comparesAsValues_text_iff (same : first.malloyType = second.malloyType)
    (notNumber : first.malloyType ≠ .number) :
    ComparesAsValues first second value value' ↔
      value.compare? value' = some (compareText first.value second.value) := by
  obtain ⟨answer, compared, told⟩ := compareBounds_text same notNumber
  constructor
  · rintro ⟨_, order, isAnswer, isOrder, ordered⟩
    rw [compared] at isAnswer
    cases isAnswer
    rw [ordered, ← isOrder, told]
  · intro ordered
    exact ⟨answer, _, compared, told, ordered⟩

theorem then_then_iff (before mark behind : Ordering) :
    before.then (mark.then behind) = before.then behind ↔
      (before = .eq → mark = .eq ∨ mark = behind) := by
  cases before <;> cases mark <;> cases behind <;> decide

/-- Two spellings of years of four digits are in order but for what stands between their days and
their times of day. -/
theorem compareChars_four_iff {date : Bool} {fields fields' : Fields} {separator separator' : Char}
    (formed : fields.Formed .four) (formed' : fields'.Formed .four)
    (valid : (fields.time date .four).Valid) (valid' : (fields'.time date .four).Valid) :
    compareChars (fields.spell date separator .four) (fields'.spell date separator' .four) =
        compare (fields.time date .four).seconds (fields'.time date .four).seconds ↔
      (date = true ∨ separator = separator' ∨
        ((fields.time date .four).seconds / 86400 = (fields'.time date .four).seconds / 86400 →
          compare separator.toNat separator'.toNat =
            compare (fields.time date .four).seconds (fields'.time date .four).seconds)) := by
  have years : compare (fields.time date .four).year (fields'.time date .four).year =
      compare (number fields.year) (number fields'.year) := by
    simp only [Fields.time, reduceCtorEq, if_false, compare_natCast]
  have sameDay := sameDay_iff valid valid'
  have seconds := compare_seconds valid valid'
  rw [← Ordering.then_assoc] at seconds
  rw [years] at sameDay seconds
  rw [compareChars_spell formed formed', seconds, ← Ordering.then_assoc, then_then_iff, ← sameDay]
  cases date with
  | true =>
    rw [if_neg fun both => Bool.noConfusion both.1]
    exact iff_of_true (fun _ => .inl rfl) (.inl rfl)
  | false =>
    rw [if_pos ⟨rfl, rfl⟩]
    by_cases same : separator = separator'
    · subst same
      exact iff_of_true (fun _ => .inl (compare_eq_iff_eq.mpr rfl)) (.inr (.inl rfl))
    · have differ : compare separator.toNat separator'.toNat ≠ .eq := fun isEq =>
        same (Char.toNat_inj.mp (compare_eq_iff_eq.mp isEq))
      constructor
      · refine fun holds => .inr (.inr fun isDay => ?_)
        rw [sameDay.mp isDay]
        exact (holds isDay).resolve_left differ
      · rintro (isDate | isSame | holds) isDay
        · cases isDate
        · exact absurd isSame same
        · have told := holds isDay
          rw [sameDay.mp isDay] at told
          exact .inr told

theorem compareChars_after {date : Bool} {fields fields' : Fields} {separator separator' : Char}
    (formed : fields.Formed .after) (formed' : fields'.Formed .after)
    (valid : (fields.time date .after).Valid) (valid' : (fields'.time date .after).Valid) :
    compareChars (fields.spell date separator .after) (fields'.spell date separator' .after) =
      compare (fields.time date .after).seconds (fields'.time date .after).seconds := by
  have years : compare (fields.time date .after).year (fields'.time date .after).year =
      compare (number fields.year) (number fields'.year) := by
    simp only [Fields.time, reduceCtorEq, if_false, compare_natCast]
  rw [compareChars_spell formed formed', compare_seconds valid valid', years,
    if_neg fun both => Era.noConfusion both.2, Ordering.eq_then]

/-- The years before year 0 are spelled against their order. -/
theorem compareChars_before_iff {date : Bool} {fields fields' : Fields} {separator separator' : Char}
    (formed : fields.Formed .before) (formed' : fields'.Formed .before)
    (valid : (fields.time date .before).Valid) (valid' : (fields'.time date .before).Valid) :
    compareChars (fields.spell date separator .before) (fields'.spell date separator' .before) =
        compare (fields.time date .before).seconds (fields'.time date .before).seconds ↔
      (civilOfDays ((fields.time date .before).seconds / 86400)).1 =
        (civilOfDays ((fields'.time date .before).seconds / 86400)).1 := by
  have years : compare (fields.time date .before).year (fields'.time date .before).year =
      compare (number fields'.year) (number fields.year) := by
    refine compare_congr ?_ ?_ <;> simp [Fields.time]
  have sameYear : (fields.time date .before).year = (fields'.time date .before).year ↔
      number fields.year = number fields'.year := by
    simp [Fields.time]
  rw [compareChars_spell formed formed', compare_seconds valid valid', years,
    if_neg fun both => Era.noConfusion both.2, Ordering.eq_then, year_seconds valid,
    year_seconds valid', sameYear]
  rcases lt_trichotomy (number fields.year) (number fields'.year) with less | same | more
  · rw [compare_lt_iff_lt.mpr less, compare_gt_iff_gt.mpr less]
    exact iff_of_false (by simp) less.ne
  · rw [same]
    exact iff_of_true rfl rfl
  · rw [compare_lt_iff_lt.mpr more, compare_gt_iff_gt.mpr more]
    exact iff_of_false (by simp) more.ne'

/-- The spellings of two times are in their order where they are said to. -/
theorem compareChars_spell_iff {date : Bool} {fields fields' : Fields}
    (formed : fields.Formed raw.era) (formed' : fields'.Formed raw'.era)
    (isYear : raw.era.Spells (number fields.year)) (isYear' : raw'.era.Spells (number fields'.year))
    (valid : (fields.time date raw.era).Valid) (valid' : (fields'.time date raw'.era).Valid) :
    compareChars (fields.spell date raw.separator raw.era)
        (fields'.spell date raw'.separator raw'.era) =
          compare (fields.time date raw.era).seconds (fields'.time date raw'.era).seconds ↔
      TimesAgree date raw raw' (fields.time date raw.era).seconds
        (fields'.time date raw'.era).seconds := by
  by_cases same : raw.era = raw'.era
  · unfold TimesAgree
    generalize raw.era = era at *
    generalize raw'.era = era' at *
    subst same
    cases era with
    | four =>
      rw [compareChars_four_iff formed formed' valid valid']
      refine or_congr Iff.rfl (or_congr_right' fun differ => imp_congr_right fun _ => ?_)
      have marks : compare 'T'.toNat ' '.toNat = .gt ∧ compare ' '.toNat 'T'.toNat = .lt := by decide
      rcases separates_separator raw with isT | isSpace <;>
        rcases separates_separator raw' with isT' | isSpace'
      · exact absurd (isT.trans isT'.symm) differ
      · rw [isT, isSpace', marks.1, if_neg (by decide), eq_comm, compare_gt_iff_gt]
      · rw [isSpace, isT', marks.2, if_pos rfl, eq_comm, compare_lt_iff_lt]
      · exact absurd (isSpace.trans isSpace'.symm) differ
    | before => exact compareChars_before_iff formed formed' valid valid'
    | after => exact iff_of_true (compareChars_after formed formed' valid valid') trivial
  · rw [compareChars_eras formed formed' same,
      compare_seconds_eras isYear isYear' valid valid' same]
    unfold TimesAgree
    generalize raw.era = era at *
    generalize raw'.era = era' at *
    cases era <;> cases era' <;> 
      first
        | exact absurd rfl same
        | exact iff_of_true rfl trivial
        | exact iff_of_false (by decide) id

theorem boundValue_temporal (temporal : malloyType = .date ∨ malloyType = .timestamp)
    (isType : first.malloyType = malloyType) (valued : boundValue first = some value) :
    ∃ time : ℤ, boundInstant first.value.toList = some time ∧ value = .time time := by
  unfold boundValue valueOf at valued
  rw [isType] at valued
  rcases temporal with rfl | rfl <;>
  · obtain ⟨time, isTime, rfl⟩ := Option.map_eq_some_iff.mp valued
    exact ⟨time, isTime, rfl⟩

theorem compare_intCast (time time' : ℤ) : compare (time : ℚ) (time' : ℚ) = compare time time' :=
  compare_congr Int.cast_lt Int.cast_lt

/-- Temporal boundaries compare as their times where the spellings of these are in order. -/
theorem comparesAsValues_temporal_iff (temporal : malloyType = .date ∨ malloyType = .timestamp)
    (held : raw.Held) (held' : raw'.Held)
    (canonical : canonicalBoundValue runtimeNumbers malloyType raw = .ok first)
    (canonical' : canonicalBoundValue runtimeNumbers malloyType raw' = .ok second)
    (valued : boundValue first = some value) (valued' : boundValue second = some value') :
    ComparesAsValues first second value value' ↔ OrderHolds raw raw' first second := by
  obtain ⟨fields, formed, isYear, isType, spelled⟩ := canonical_temporal temporal held canonical
  obtain ⟨fields', formed', isYear', isType', spelled'⟩ :=
    canonical_temporal temporal held' canonical'
  obtain ⟨time, isTime, rfl⟩ := boundValue_temporal temporal isType valued
  obtain ⟨time', isTime', rfl⟩ := boundValue_temporal temporal isType' valued'
  have condition : OrderHolds raw raw' first second ↔
      TimesAgree (decide (malloyType = .date)) raw raw' time time' := by
    unfold OrderHolds
    rw [isType, isTime, isTime']
    rcases temporal with rfl | rfl <;> simp
  rw [spelled, String.toList_ofList, boundInstant_spell formed _ (separates_separator raw)] at isTime
  rw [spelled', String.toList_ofList,
    boundInstant_spell formed' _ (separates_separator raw')] at isTime'
  split_ifs at isTime with valid
  split_ifs at isTime' with valid'
  cases isTime
  cases isTime'
  have notNumber : first.malloyType ≠ .number := by
    rw [isType]
    rcases temporal with rfl | rfl <;> decide
  rw [condition, comparesAsValues_text_iff (isType.trans isType'.symm) notNumber, spelled, spelled',
    compareText_ofList (fun _ => isUnit_spell formed (separates_separator raw))
      fun _ => isUnit_spell formed' (separates_separator raw'),
    ← compareChars_spell_iff formed formed' isYear isYear' valid valid', Value.compare?,
    compare_intCast, Option.some_inj, eq_comm]

theorem comparesAsValues_number {double double' : Double} :
    ComparesAsValues { malloyType := .number, value := double.text }
      { malloyType := .number, value := double'.text } (.number double.printed)
      (.number double'.printed) := by
  refine ⟨.finite (double.value - double'.value), compare double.printed double'.printed, ?_, ?_,
    rfl⟩
  · rw [compareBounds, if_neg (not_not_intro rfl), if_pos rfl,
      parse_of_toNumber (toNumber_text double), parse_of_toNumber (toNumber_text double')]
    rfl
  · rw [JsNumber.order, Option.some_inj]
    rcases lt_trichotomy double.value double'.value with less | same | more
    · rw [compare_lt_iff_lt.mpr (printed_lt less), compare_lt_iff_lt.mpr (sub_neg.mpr less)]
    · cases double
      cases double'
      cases same
      rw [sub_self, compare_eq_iff_eq.mpr rfl, compare_eq_iff_eq.mpr rfl]
    · rw [compare_gt_iff_gt.mpr (printed_lt more), compare_gt_iff_gt.mpr (sub_pos.mpr more)]

/-- Boundaries of driver values compare as what they stand for exactly where their spellings do. -/
theorem compareBounds_iff (held : raw.Held) (held' : raw'.Held)
    (canonical : canonicalBoundValue runtimeNumbers malloyType raw = .ok first)
    (canonical' : canonicalBoundValue runtimeNumbers malloyType raw' = .ok second)
    (valued : boundValue first = some value) (valued' : boundValue second = some value') :
    ComparesAsValues first second value value' ↔ OrderHolds raw raw' first second := by
  cases malloyType with
  | date => exact comparesAsValues_temporal_iff (.inl rfl) held held' canonical canonical' valued valued'
  | timestamp => exact comparesAsValues_temporal_iff (.inr rfl) held held' canonical canonical' valued valued'
  | number =>
    rcases canonical_number held canonical with ⟨_, double, rfl, -, rfl⟩ | ⟨-, none⟩
    · rcases canonical_number held' canonical' with ⟨_, double', rfl, -, rfl⟩ | ⟨-, none⟩
      · rw [boundValue_number, readNumber_text] at valued valued'
        cases valued
        cases valued'
        exact iff_of_true comparesAsValues_number trivial
      · rw [none] at valued'
        cases valued'
    · rw [none] at valued
      cases valued
  | string =>
    have isString := canonical_string canonical
    have isString' := canonical_string canonical'
    have holds : OrderHolds raw raw' first second := by
      unfold OrderHolds
      rw [isString]
      trivial
    rw [boundValue_string isString] at valued
    rw [boundValue_string isString'] at valued'
    cases valued
    cases valued'
    refine iff_of_true ((comparesAsValues_text_iff (isString.trans isString'.symm) ?_).mpr rfl) holds
    rw [isString]
    decide

end Holds

/-- On the next day the same two spellings are in order. -/
theorem compareBounds_nextDay :
    ComparesAsValues ⟨.timestamp, "2024-01-01 23:00:00"⟩ ⟨.timestamp, "2024-01-02T00:00:00"⟩
        (.time 1704150000) (.time 1704153600) ↔
      OrderHolds (.text "2024-01-01 23:00:00") (.date 1704153600000)
        ⟨.timestamp, "2024-01-01 23:00:00"⟩ ⟨.timestamp, "2024-01-02T00:00:00"⟩ := by
  have canonical : canonicalBoundValue runtimeNumbers .timestamp (.text "2024-01-01 23:00:00") =
      .ok ⟨.timestamp, "2024-01-01 23:00:00"⟩ := by decide +kernel
  have canonical' : canonicalBoundValue runtimeNumbers .timestamp (.date 1704153600000) =
      .ok ⟨.timestamp, "2024-01-02T00:00:00"⟩ := by decide +kernel
  have held : (RawValue.date 1704153600000).Held := ⟨by norm_num, by norm_num⟩
  exact compareBounds_iff trivial held canonical canonical' (by decide +kernel) (by decide +kernel)

/-- A midnight that a driver hands back as a date object is compared as after the last hour of its
day that another hands back as text. -/
theorem mixedSpellings_disagree :
    ∃ first second : WatermarkBound, ∃ value value' : Value,
      canonicalBoundValue runtimeNumbers .timestamp (.date 1704067200000) = .ok first ∧
      canonicalBoundValue runtimeNumbers .timestamp (.text "2024-01-01 23:00:00") = .ok second ∧
      boundValue first = some value ∧ boundValue second = some value' ∧
      value.compare? value' = some .lt ∧ ¬ ComparesAsValues first second value value' := by
  refine ⟨⟨.timestamp, "2024-01-01T00:00:00"⟩, ⟨.timestamp, "2024-01-01 23:00:00"⟩,
    .time 1704067200, .time 1704150000, by decide +kernel, by decide +kernel, by decide +kernel,
    by decide +kernel, by decide +kernel, ?_⟩
  intro agrees
  have ordered := (comparesAsValues_text_iff (by rfl) (by decide)).mp agrees
  exact absurd ordered (by decide +kernel)

end MalloyPublisher.Incremental
