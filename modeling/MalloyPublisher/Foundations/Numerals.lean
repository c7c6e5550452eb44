import MalloyPublisher.Foundations.Text
import Mathlib.Data.Int.Log
import Mathlib.Data.Rat.Floor

/-!
# Numbers as text

The runtime's numbers are doubles. One is printed by the fewest decimal digits that are read back as
it, with an exponent where it is very large or very small; a text is read by its exact decimal
value, which is then rounded. What is printed is read back.

## Main definitions

* `Double`, `nearest` — a finite number, by its value, and the one a value is rounded to
* `Double.digits`, `Double.text` — `String(value)`
* `toNumber` — `Number(text)`, where that is finite
* `readNumber`, `Double.printed` — the number that is written, and the one that is printed

## Main results

* `nearest_value` — a double is rounded to itself
* `toNumber_text` — what is printed is read back
* `nearest_mono`, `printed_lt` — rounding and printing keep the order
-/

namespace MalloyPublisher.Foundations

/-! ## Doubles -/

/-- The values of the finite doubles: a significand of 53 bits, in a place from -1074 to 971. -/
def IsDouble (value : ℚ) : Prop :=
  ∃ significand place : ℤ, |significand| < 2 ^ 53 ∧ -1074 ≤ place ∧ place ≤ 971 ∧
    value = significand * 2 ^ place

/-- A finite double, by its value. The two zeros are one, as they are to `===` and to JSON. -/
structure Double where
  value : ℚ
  isDouble : IsDouble value

/-- The nearest whole number, the even one of two. -/
def roundHalfEven (value : ℚ) : ℤ :=
  let part := value - ⌊value⌋
  if part < 1 / 2 then ⌊value⌋
  else if 1 / 2 < part then ⌊value⌋ + 1
  else if ⌊value⌋ % 2 = 0 then ⌊value⌋ else ⌊value⌋ + 1

/-- The place of the last bit that a double near a value has. -/
def lastPlace (value : ℚ) : ℤ := max (Int.log 2 |value| - 52) (-1074)

/-- A value to the last place. -/
def rounded (value : ℚ) : ℚ := roundHalfEven (value / 2 ^ lastPlace value) * 2 ^ lastPlace value

theorem roundHalfEven_intCast (value : ℤ) : roundHalfEven value = value := by
  simp [roundHalfEven]

theorem floor_le_roundHalfEven (value : ℚ) : ⌊value⌋ ≤ roundHalfEven value := by
  unfold roundHalfEven
  dsimp only
  split_ifs <;> omega

theorem roundHalfEven_le_floor_add_one (value : ℚ) : roundHalfEven value ≤ ⌊value⌋ + 1 := by
  unfold roundHalfEven
  dsimp only
  split_ifs <;> omega

/-- A whole number bounds what is rounded where it bounds the value. -/
theorem roundHalfEven_le {value : ℚ} {bound : ℤ} (below : value ≤ bound) :
    roundHalfEven value ≤ bound := by
  rcases below.lt_or_eq with less | rfl
  · have floor : ⌊value⌋ < bound := Int.floor_lt.mpr less
    have := roundHalfEven_le_floor_add_one value
    omega
  · rw [roundHalfEven_intCast]

theorem le_roundHalfEven {value : ℚ} {bound : ℤ} (above : (bound : ℚ) ≤ value) :
    bound ≤ roundHalfEven value :=
  (Int.le_floor.mpr above).trans (floor_le_roundHalfEven value)

/-- A double has no bits behind its last place. -/
theorem rounded_of_isDouble {value : ℚ} (isDouble : IsDouble value) : rounded value = value := by
  obtain ⟨significand, place, small, lowest, -, rfl⟩ := isDouble
  have two : (2 : ℚ) ≠ 0 := two_ne_zero
  rcases eq_or_ne significand 0 with rfl | nonzero
  · simp [rounded, roundHalfEven]
  have last : lastPlace (significand * 2 ^ place) ≤ place := by
    refine max_le ?_ lowest
    have size : |(significand : ℚ) * 2 ^ place| < 2 ^ (53 + place) := by
      have scale : |(2 : ℚ) ^ place| = 2 ^ place := abs_of_pos (zpow_pos two_pos place)
      rw [abs_mul, scale, zpow_add₀ two]
      have bits : |(significand : ℚ)| < 2 ^ (53 : ℤ) := by exact_mod_cast small
      exact mul_lt_mul_of_pos_right bits (zpow_pos two_pos place)
    have positive : 0 < |(significand : ℚ) * 2 ^ place| :=
      abs_pos.mpr (mul_ne_zero (Int.cast_ne_zero.mpr nonzero) (zpow_ne_zero place two))
    have := (Int.lt_zpow_iff_log_lt (b := 2) one_lt_two positive).mp (by exact_mod_cast size)
    omega
  have whole : (significand : ℚ) * 2 ^ place / 2 ^ lastPlace (significand * 2 ^ place) =
      ((significand * 2 ^ (place - lastPlace (significand * 2 ^ place)).toNat : ℤ) : ℚ) := by
    rw [mul_div_assoc, ← zpow_sub₀ two]
    push_cast
    rw [← zpow_natCast, Int.toNat_of_nonneg (by omega)]
  rw [rounded, whole, roundHalfEven_intCast, ← whole, div_mul_cancel₀ _ (zpow_ne_zero _ two)]

theorem abs_roundHalfEven_le {value : ℚ} {bound : ℤ} (within : |value| ≤ bound) :
    |roundHalfEven value| ≤ bound := by
  obtain ⟨low, high⟩ := abs_le.mp within
  exact abs_le.mpr ⟨le_roundHalfEven (by exact_mod_cast low), roundHalfEven_le high⟩

theorem le_abs_roundHalfEven {value : ℚ} {bound : ℤ} (beyond : (bound : ℚ) ≤ |value|) :
    bound ≤ |roundHalfEven value| := by
  rcases le_abs.mp beyond with above | below
  · exact le_abs.mpr (.inl (le_roundHalfEven above))
  · have : value ≤ ((-bound : ℤ) : ℚ) := by
      push_cast
      linarith
    have := roundHalfEven_le this
    exact le_abs.mpr (.inr (by omega))

section Places

variable {value : ℚ}

/-- To its last place a value has no more than 53 bits. -/
theorem abs_div_lastPlace_le (value : ℚ) :
    |value / 2 ^ lastPlace value| ≤ ((2 ^ 53 : ℤ) : ℚ) := by
  have scale : |(2 : ℚ) ^ lastPlace value| = 2 ^ lastPlace value := abs_of_pos (zpow_pos two_pos _)
  have log : Int.log 2 |value| + 1 ≤ 53 + lastPlace value := by
    have : Int.log 2 |value| - 52 ≤ lastPlace value := le_max_left ..
    omega
  have size : |value| < (2 : ℚ) ^ (Int.log 2 |value| + 1) :=
    Int.lt_zpow_succ_log_self (b := 2) one_lt_two |value|
  have wide : (2 : ℚ) ^ (Int.log 2 |value| + 1) ≤ 2 ^ (53 + lastPlace value) :=
    zpow_le_zpow_right₀ one_le_two log
  have split : (2 : ℚ) ^ (53 + lastPlace value) = ((2 ^ 53 : ℤ) : ℚ) * 2 ^ lastPlace value := by
    rw [zpow_add₀ two_ne_zero]
    norm_num
  rw [abs_div, scale, div_le_iff₀ (zpow_pos two_pos _), ← split]
  exact size.le.trans wide

/-- A value whose last place is not the lowest has all of 53 bits. -/
theorem le_abs_div_lastPlace (nonzero : value ≠ 0) (above : -1074 < lastPlace value) :
    ((2 ^ 52 : ℤ) : ℚ) ≤ |value / 2 ^ lastPlace value| := by
  have scale : |(2 : ℚ) ^ lastPlace value| = 2 ^ lastPlace value := abs_of_pos (zpow_pos two_pos _)
  have log : Int.log 2 |value| = 52 + lastPlace value := by
    unfold lastPlace at above ⊢
    omega
  have size : (2 : ℚ) ^ Int.log 2 |value| ≤ |value| :=
    Int.zpow_log_le_self (b := 2) one_lt_two (abs_pos.mpr nonzero)
  rw [abs_div, scale, le_div_iff₀ (zpow_pos two_pos _)]
  rw [log, zpow_add₀ two_ne_zero] at size
  push_cast
  exact (by norm_num : (2 : ℚ) ^ 52 * 2 ^ lastPlace value = _).trans_le size

/-- A whole number of places that is below 2^1024. -/
theorem place_lt_of_fits {significand place : ℤ} {bits : ℕ} (many : (2 : ℤ) ^ bits ≤ |significand|)
    (fits : |(significand : ℚ) * 2 ^ place| < 2 ^ 1024) : bits + place < 1024 := by
  have scale : |(2 : ℚ) ^ place| = 2 ^ place := abs_of_pos (zpow_pos two_pos _)
  have many : (2 : ℚ) ^ (bits : ℤ) ≤ |(significand : ℚ)| := by exact_mod_cast many
  have size : (2 : ℚ) ^ (bits + place : ℤ) ≤ |(significand : ℚ) * 2 ^ place| := by
    rw [zpow_add₀ two_ne_zero, abs_mul, scale]
    exact mul_le_mul_of_nonneg_right many (zpow_pos two_pos _).le
  have less : (2 : ℚ) ^ (bits + place : ℤ) < 2 ^ (1024 : ℤ) :=
    size.trans_lt (by exact_mod_cast fits)
  exact (zpow_lt_zpow_iff_right₀ one_lt_two).mp less

/-- What is rounded is a double where it is not too large. -/
theorem isDouble_rounded (fits : |rounded value| < 2 ^ 1024) : IsDouble (rounded value) := by
  have most := abs_roundHalfEven_le (abs_div_lastPlace_le value)
  have lowest : -1074 ≤ lastPlace value := le_max_right ..
  unfold rounded at fits ⊢
  rcases most.lt_or_eq with less | carries
  · refine ⟨_, lastPlace value, less, lowest, ?_, rfl⟩
    by_contra high
    have nonzero : value ≠ 0 := by
      rintro rfl
      simp [lastPlace] at high
    have many := le_abs_roundHalfEven (le_abs_div_lastPlace nonzero (by omega))
    have := place_lt_of_fits (by exact_mod_cast many) fits
    omega
  · -- One bit more is carried, and the last is zero.
    have place := place_lt_of_fits (by exact_mod_cast carries.ge) fits
    have even : roundHalfEven (value / 2 ^ lastPlace value) =
        2 * (roundHalfEven (value / 2 ^ lastPlace value) / 2) := by
      rcases abs_eq (by norm_num : (0 : ℤ) ≤ 2 ^ 53) |>.mp carries with same | same <;>
        rw [same] <;> norm_num
    refine ⟨roundHalfEven (value / 2 ^ lastPlace value) / 2, lastPlace value + 1, ?_, by omega,
      by omega, ?_⟩
    · rcases abs_eq (by norm_num : (0 : ℤ) ≤ 2 ^ 53) |>.mp carries with same | same <;>
        rw [same] <;> norm_num
    · rw [zpow_add_one₀ two_ne_zero]
      nth_rewrite 1 [even]
      push_cast
      ring

/-- The nearest double, below 2^1024. -/
def nearest (value : ℚ) : Option Double :=
  if fits : |rounded value| < 2 ^ 1024 then some ⟨rounded value, isDouble_rounded fits⟩ else none

theorem abs_lt_of_isDouble (isDouble : IsDouble value) : |value| < 2 ^ 1024 := by
  obtain ⟨significand, place, small, -, highest, rfl⟩ := isDouble
  have scale : |(2 : ℚ) ^ place| = 2 ^ place := abs_of_pos (zpow_pos two_pos _)
  have bits : |(significand : ℚ)| < 2 ^ (53 : ℤ) := by exact_mod_cast small
  have high : (2 : ℚ) ^ place ≤ 2 ^ (971 : ℤ) := zpow_le_zpow_right₀ one_le_two highest
  calc |(significand : ℚ) * 2 ^ place| = |(significand : ℚ)| * 2 ^ place := by rw [abs_mul, scale]
    _ < 2 ^ (53 : ℤ) * 2 ^ place := mul_lt_mul_of_pos_right bits (zpow_pos two_pos _)
    _ ≤ 2 ^ (53 : ℤ) * 2 ^ (971 : ℤ) := mul_le_mul_of_nonneg_left high (by positivity)
    _ = 2 ^ 1024 := by rw [← zpow_add₀ two_ne_zero, ← zpow_natCast]; norm_num

/-- A double is rounded to itself. -/
theorem nearest_value (double : Double) : nearest double.value = some double := by
  have same := rounded_of_isDouble double.isDouble
  have fits : |rounded double.value| < 2 ^ 1024 := by
    rw [same]
    exact abs_lt_of_isDouble double.isDouble
  rw [nearest, dif_pos fits]
  exact congrArg some (by cases double; congr)

end Places

/-! ## Digits -/

/-- A whole number in a decimal place. -/
structure Decimal where
  significand : ℕ
  place : ℤ

def Decimal.value (decimal : Decimal) : ℚ := decimal.significand * 10 ^ decimal.place

namespace Double

variable (double : Double)

/-- The place of the last of so many digits of a number. -/
def placeOf (count : ℕ) : ℤ := Int.log 10 |double.value| + 1 - count

/-- The decimal of so many digits that is next to a number, or on it, towards zero. -/
def below (count : ℕ) : Decimal where
  significand := ⌊|double.value| / 10 ^ double.placeOf count⌋.toNat
  place := double.placeOf count

/-- The next one, which may be a power of ten. -/
def above (count : ℕ) : Decimal :=
  if (double.below count).significand + 1 = 10 ^ count then
    { significand := 10 ^ (count - 1), place := double.placeOf count + 1 }
  else { double.below count with significand := (double.below count).significand + 1 }

/-- A decimal is read as the number, its sign apart. -/
def ReadBack (decimal : Decimal) : Prop :=
  (nearest decimal.value).map Double.value = some |double.value|

instance (decimal : Decimal) : Decidable (double.ReadBack decimal) :=
  inferInstanceAs (Decidable (_ = _))

/-- So many digits are enough. -/
def Suffices (count : ℕ) : Prop :=
  0 < count ∧ (double.ReadBack (double.below count) ∨ double.ReadBack (double.above count))

instance (count : ℕ) : Decidable (double.Suffices count) := inferInstanceAs (Decidable (_ ∧ _))

end Double

theorem IsDouble.neg {value : ℚ} (isDouble : IsDouble value) : IsDouble (-value) := by
  obtain ⟨significand, place, small, lowest, highest, rfl⟩ := isDouble
  refine ⟨-significand, place, by rwa [abs_neg], lowest, highest, ?_⟩
  push_cast
  ring

theorem IsDouble.abs {value : ℚ} (isDouble : IsDouble value) : IsDouble |value| := by
  rcases abs_choice value with same | same
  · rwa [same]
  · rw [same]
    exact isDouble.neg

/-- What has finitely many bits behind the point has as many digits there. -/
theorem exists_mul_pow_eq {value : ℚ} (isDouble : IsDouble value) :
    ∃ (behind : ℕ) (whole : ℤ), value * 10 ^ behind = whole := by
  obtain ⟨significand, place, -, -, -, rfl⟩ := isDouble
  rcases Int.eq_nat_or_neg place with ⟨bits, rfl | rfl⟩
  · refine ⟨0, significand * 2 ^ bits, ?_⟩
    push_cast
    rw [zpow_natCast, pow_zero, mul_one]
  · refine ⟨bits, significand * 5 ^ bits, ?_⟩
    have split : (10 : ℚ) ^ bits = 2 ^ bits * 5 ^ bits := by rw [← mul_pow]; norm_num
    push_cast
    rw [split, zpow_neg, zpow_natCast, mul_assoc, inv_mul_cancel_left₀ (by positivity)]

/-- Enough digits spell a number out. -/
theorem exists_suffices {double : Double} (nonzero : double.value ≠ 0) :
    ∃ count, double.Suffices count := by
  obtain ⟨behind, whole, spelled⟩ := exists_mul_pow_eq double.isDouble.abs
  have positive : 0 < |double.value| := abs_pos.mpr nonzero
  have shift : (0 : ℚ) < 10 ^ behind := by positivity
  have atLeast : 1 ≤ |double.value| * 10 ^ behind := by
    have : (0 : ℚ) < whole := spelled ▸ mul_pos positive shift
    rw [spelled]
    exact_mod_cast this
  have high : -(behind : ℤ) ≤ Int.log 10 |double.value| := by
    refine (Int.zpow_le_iff_le_log (b := 10) (by norm_num) positive).mp ?_
    push_cast
    rw [zpow_neg, zpow_natCast]
    exact (inv_le_iff_one_le_mul₀ shift).mpr atLeast
  set count : ℕ := (Int.log 10 |double.value| + 1 + behind).toNat
  have place : double.placeOf count = -(behind : ℤ) := by
    unfold Double.placeOf
    omega
  refine ⟨count, by omega, .inl ?_⟩
  have exact : (double.below count).value = |double.value| := by
    have scaled : |double.value| / 10 ^ double.placeOf count = whole := by
      rw [place, zpow_neg, zpow_natCast, div_inv_eq_mul, spelled]
    have nonneg : 0 ≤ whole := by
      have : (0 : ℚ) ≤ whole := spelled ▸ (zero_le_one.trans atLeast)
      exact_mod_cast this
    rw [Decimal.value, Double.below, scaled, Int.floor_intCast, place]
    dsimp only
    rw [zpow_neg, zpow_natCast, ← div_eq_mul_inv, div_eq_iff shift.ne', spelled]
    exact_mod_cast Int.toNat_of_nonneg nonneg
  unfold Double.ReadBack
  rw [exact]
  exact congrArg (Option.map _) (nearest_value ⟨|double.value|, double.isDouble.abs⟩)

namespace Double

variable (double : Double) (nonzero : double.value ≠ 0)

/-- The shortest decimal that is read as a number; of two the closer, and the even one where both
are as close. -/
def shortest : Decimal :=
  let count := Nat.find (exists_suffices nonzero)
  let below := double.below count
  let above := double.above count
  if ¬double.ReadBack below then above
  else if ¬double.ReadBack above then below
  else if |double.value| - below.value < above.value - |double.value| then below
  else if above.value - |double.value| < |double.value| - below.value then above
  else if below.significand % 2 = 0 then below else above

theorem readBack_shortest : double.ReadBack (double.shortest nonzero) := by
  have either := (Nat.find_spec (exists_suffices nonzero)).2
  unfold shortest
  dsimp only
  rcases Decidable.em (double.ReadBack (double.below (Nat.find (exists_suffices nonzero))))
    with readsBelow | noBelow
  · rw [if_neg (not_not_intro readsBelow)]
    split_ifs <;> assumption
  · rw [if_pos noBelow]
    exact either.resolve_left noBelow

end Double

/-! ## Printing -/

/-- An exponent, with its sign. -/
def exponentText (exponent : ℤ) : List Char :=
  'e' :: (if exponent < 0 then '-' else '+') :: Nat.toDigits 10 exponent.natAbs

/-- A decimal as numbers are printed: spelled out where its point stands near its digits. -/
def Decimal.text (decimal : Decimal) : List Char :=
  let digits := Nat.toDigits 10 decimal.significand
  let point := digits.length + decimal.place
  if digits.length ≤ point ∧ point ≤ 21 then digits ++ List.replicate decimal.place.toNat '0'
  else if 0 < point ∧ point ≤ 21 then
    digits.take point.toNat ++ '.' :: digits.drop point.toNat
  else if -6 < point ∧ point ≤ 0 then
    '0' :: '.' :: (List.replicate (-point).toNat '0' ++ digits)
  else if digits.length = 1 then digits ++ exponentText (point - 1)
  else digits.take 1 ++ '.' :: (digits.drop 1 ++ exponentText (point - 1))

/-- `String(value)`. -/
def Double.text (double : Double) : String :=
  String.ofList <|
    if nonzero : double.value ≠ 0 then
      (if double.value < 0 then ['-'] else []) ++ (double.shortest nonzero).text
    else ['0']

/-! ## Reading -/

/-- All of a text as a whole number. -/
def readWhole (text : List Char) : Option ℕ :=
  if text ≠ [] ∧ text.all Char.isDigit then some (Nat.ofDigitChars 10 text 0) else none

/-- All of a text as an exponent; there may be none. -/
def readExponent : List Char → Option ℤ
  | [] => some 0
  | mark :: text =>
    if mark = 'e' ∨ mark = 'E' then
      match text with
      | '-' :: digits => (readWhole digits).map fun size : ℕ => -(size : ℤ)
      | '+' :: digits => (readWhole digits).map fun size : ℕ => (size : ℤ)
      | digits => (readWhole digits).map fun size : ℕ => (size : ℤ)
    else none

/-- All of a text as a decimal without a sign. -/
def readUnsigned (text : List Char) : Option ℚ :=
  let whole := text.takeWhile Char.isDigit
  let (fraction, exponent) :=
    match text.dropWhile Char.isDigit with
    | '.' :: rest => (rest.takeWhile Char.isDigit, rest.dropWhile Char.isDigit)
    | rest => ([], rest)
  if whole = [] ∧ fraction = [] then none
  else (readExponent exponent).map fun exponent =>
    (Nat.ofDigitChars 10 (whole ++ fraction) 0 : ℚ) * 10 ^ (exponent - (fraction.length : ℤ))

/-- The digits of a literal of another radix. -/
def radixOf : List Char → Option (ℕ × List Char)
  | '0' :: mark :: digits =>
    if mark = 'x' ∨ mark = 'X' then some (16, digits)
    else if mark = 'o' ∨ mark = 'O' then some (8, digits)
    else if mark = 'b' ∨ mark = 'B' then some (2, digits)
    else none
  | _ => none

def radixDigit (digit : Char) : ℕ :=
  if digit.isDigit then digit.toNat - 48 else digit.toLower.toNat - 87

def readRadix (radix : ℕ) (digits : List Char) : Option ℚ :=
  if digits ≠ [] ∧ digits.all fun digit => digit.isAlphanum && radixDigit digit < radix then
    some (digits.foldl (fun value digit => radix * value + radixDigit digit) 0 : ℕ)
  else none

def Double.neg (double : Double) : Double where
  value := -double.value
  isDouble := double.isDouble.neg

/-- `Number(text)`, where that is finite. -/
def toNumber (text : String) : Option Double :=
  let chars := trim text.toList
  match radixOf chars with
  | some (radix, digits) => (readRadix radix digits).bind nearest
  | none =>
    match chars with
    | [] => nearest 0
    | '-' :: unsigned => ((readUnsigned unsigned).bind nearest).map Double.neg
    | '+' :: unsigned => (readUnsigned unsigned).bind nearest
    | unsigned => (readUnsigned unsigned).bind nearest

/-! ## What is printed is read back -/

section RoundTrip

theorem takeWhile_dropWhile_digits {digits rest : List Char}
    (all : ∀ digit ∈ digits, digit.isDigit = true)
    (ends : ∀ c ∈ rest.head?, c.isDigit = false) :
    (digits ++ rest).takeWhile Char.isDigit = digits ∧
      (digits ++ rest).dropWhile Char.isDigit = rest := by
  rw [List.takeWhile_append_of_pos all, List.dropWhile_append_of_pos all]
  cases rest with
  | nil => simp
  | cons c rest =>
    have stops : c.isDigit = false := ends c rfl
    simp [stops]

/-- A decimal with a point. -/
theorem readUnsigned_point (whole fraction exponent : List Char) {power : ℤ}
    (wholeDigits : ∀ digit ∈ whole, digit.isDigit = true) (nonempty : whole ≠ [])
    (fractionDigits : ∀ digit ∈ fraction, digit.isDigit = true)
    (ends : ∀ c ∈ exponent.head?, c.isDigit = false)
    (reads : readExponent exponent = some power) :
    readUnsigned (whole ++ '.' :: (fraction ++ exponent)) =
      some ((Nat.ofDigitChars 10 (whole ++ fraction) 0 : ℚ) *
        10 ^ (power - (fraction.length : ℤ))) := by
  have point : ∀ c ∈ ('.' :: (fraction ++ exponent)).head?, c.isDigit = false := by
    rintro c ⟨⟩
    rfl
  obtain ⟨takes, drops⟩ := takeWhile_dropWhile_digits wholeDigits point
  obtain ⟨takesFraction, dropsFraction⟩ := takeWhile_dropWhile_digits fractionDigits ends
  simp [readUnsigned, takes, drops, takesFraction, dropsFraction, nonempty, reads]

/-- A decimal without a point. -/
theorem readUnsigned_whole (whole exponent : List Char) {power : ℤ}
    (wholeDigits : ∀ digit ∈ whole, digit.isDigit = true) (nonempty : whole ≠ [])
    (ends : ∀ c ∈ exponent.head?, c.isDigit = false ∧ c ≠ '.')
    (reads : readExponent exponent = some power) :
    readUnsigned (whole ++ exponent) =
      some ((Nat.ofDigitChars 10 whole 0 : ℚ) * 10 ^ power) := by
  obtain ⟨takes, drops⟩ :=
    takeWhile_dropWhile_digits wholeDigits fun c first => (ends c first).1
  cases exponent with
  | nil =>
    rw [List.append_nil] at takes drops ⊢
    simp [readUnsigned, takes, drops, nonempty, reads]
  | cons mark rest =>
    have noPoint : mark ≠ '.' := (ends mark rfl).2
    simp [readUnsigned, takes, drops, nonempty, reads, noPoint]

theorem isDigit_toDigits (n : ℕ) : ∀ digit ∈ Nat.toDigits 10 n, digit.isDigit = true :=
  fun _ member => Nat.isDigit_of_mem_toDigits (by norm_num) (by norm_num) member

theorem readWhole_toDigits (n : ℕ) : readWhole (Nat.toDigits 10 n) = some n := by
  have nonempty : Nat.toDigits 10 n ≠ [] := Nat.toDigits_ne_nil
  have all : (Nat.toDigits 10 n).all Char.isDigit = true :=
    List.all_eq_true.mpr (isDigit_toDigits n)
  rw [readWhole, if_pos ⟨nonempty, all⟩, Nat.ofDigitChars_ten_toDigits]

theorem readExponent_exponentText (exponent : ℤ) :
    readExponent (exponentText exponent) = some exponent := by
  unfold exponentText
  split_ifs with negative
  · change (readWhole (Nat.toDigits 10 exponent.natAbs)).map (fun size : ℕ => -(size : ℤ)) = _
    rw [readWhole_toDigits, Option.map_some, Int.ofNat_natAbs_of_nonpos negative.le, neg_neg]
  · change (readWhole (Nat.toDigits 10 exponent.natAbs)).map (fun size : ℕ => (size : ℤ)) = _
    rw [readWhole_toDigits, Option.map_some, Int.natAbs_of_nonneg (not_lt.mp negative)]

/-- What is printed of a decimal is read as its value. -/
theorem readUnsigned_text (decimal : Decimal) :
    readUnsigned decimal.text = some decimal.value := by
  have all := isDigit_toDigits decimal.significand
  have nonempty : Nat.toDigits 10 decimal.significand ≠ [] := Nat.toDigits_ne_nil
  have spells := Nat.ofDigitChars_ten_toDigits (n := decimal.significand)
  have none : ∀ c ∈ ([] : List Char).head?, c.isDigit = false ∧ c ≠ '.' := by simp
  have mark : ∀ exponent, ∀ c ∈ (exponentText exponent).head?, c.isDigit = false ∧ c ≠ '.' := by
    rintro exponent c ⟨⟩
    exact ⟨rfl, by decide⟩
  unfold Decimal.text Decimal.value
  generalize Nat.toDigits 10 decimal.significand = digits at all nonempty spells
  have some : 0 < digits.length := List.length_pos_iff.mpr nonempty
  have zeros : ∀ count, ∀ digit ∈ List.replicate count '0', digit.isDigit = true := by
    intro count digit member
    rw [List.eq_of_mem_replicate member]
    rfl
  dsimp only
  split_ifs with large near small single
  · -- Zeros before the point.
    have read := readUnsigned_whole (digits ++ List.replicate decimal.place.toNat '0') []
      (fun digit member => (List.mem_append.mp member).elim (all digit) (zeros _ digit))
      (List.append_ne_nil_of_left_ne_nil nonempty _) none rfl
    have place : (10 : ℚ) ^ decimal.place = 10 ^ decimal.place.toNat := by
      rw [← zpow_natCast, Int.toNat_of_nonneg (by omega)]
    rw [List.append_nil] at read
    rw [read, Nat.ofDigitChars_append, spells, Nat.ofDigitChars_replicate_zero, place]
    push_cast
    congr 1
    ring
  · -- The point among the digits.
    have read := readUnsigned_point (digits.take (digits.length + decimal.place).toNat)
      (digits.drop (digits.length + decimal.place).toNat) []
      (fun digit member => all digit (List.mem_of_mem_take member))
      (fun empty => (List.take_eq_nil_iff.mp empty).elim (by omega) nonempty)
      (fun digit member => all digit (List.mem_of_mem_drop member))
      (fun c first => (none c first).1) rfl
    rw [List.append_nil] at read
    rw [read, List.take_append_drop, spells, List.length_drop]
    congr 3
    omega
  · -- Zeros behind the point.
    have read := readUnsigned_point ['0']
      (List.replicate (-(digits.length + decimal.place)).toNat '0' ++ digits) [] (zeros 1)
      (List.cons_ne_nil _ _)
      (fun digit member => (List.mem_append.mp member).elim (zeros _ digit) (all digit))
      (fun c first => (none c first).1) rfl
    have leading : Nat.ofDigitChars 10
        (['0'] ++ (List.replicate (-(digits.length + decimal.place)).toNat '0' ++ digits)) 0 =
          decimal.significand := by
      rw [Nat.ofDigitChars_append, Nat.ofDigitChars_append, Nat.ofDigitChars_replicate_zero]
      simpa [Nat.ofDigitChars_cons] using spells
    rw [List.append_nil] at read
    refine read.trans ?_
    rw [leading, List.length_append, List.length_replicate]
    congr 3
    push_cast
    omega
  · rw [readUnsigned_whole digits _ all nonempty (mark _) (readExponent_exponentText _), spells,
      single]
    congr 3
    ring
  · have read := readUnsigned_point (digits.take 1) (digits.drop 1)
      (exponentText (digits.length + decimal.place - 1))
      (fun digit member => all digit (List.mem_of_mem_take member))
      (fun empty => (List.take_eq_nil_iff.mp empty).elim (by omega) nonempty)
      (fun digit member => all digit (List.mem_of_mem_drop member))
      (fun c first => (mark _ c first).1) (readExponent_exponentText _)
    rw [read, List.take_append_drop, spells, List.length_drop]
    congr 3
    omega

/-- What is printed of a decimal is of digits, a point and an exponent. -/
theorem mem_text {decimal : Decimal} {c : Char} (member : c ∈ decimal.text) :
    c.isDigit = true ∨ c = '.' ∨ c = 'e' ∨ c = '+' ∨ c = '-' := by
  have all := isDigit_toDigits decimal.significand
  have exponents : ∀ exponent, c ∈ exponentText exponent →
      c.isDigit = true ∨ c = '.' ∨ c = 'e' ∨ c = '+' ∨ c = '-' := by
    intro exponent inExponent
    rcases List.mem_cons.mp inExponent with rfl | inExponent
    · simp
    rcases List.mem_cons.mp inExponent with sign | digit
    · split_ifs at sign <;> simp [sign]
    · exact .inl (isDigit_toDigits _ _ digit)
  unfold Decimal.text at member
  dsimp only at member
  split_ifs at member <;>
    simp only [List.mem_append, List.mem_cons, List.mem_replicate] at member
  · rcases member with digit | ⟨-, rfl⟩
    · exact .inl (all c digit)
    · exact .inl rfl
  · rcases member with digit | rfl | digit
    · exact .inl (all c (List.mem_of_mem_take digit))
    · simp
    · exact .inl (all c (List.mem_of_mem_drop digit))
  · rcases member with rfl | rfl | ⟨-, rfl⟩ | digit
    · exact .inl rfl
    · simp
    · exact .inl rfl
    · exact .inl (all c digit)
  · rcases member with digit | inExponent
    · exact .inl (all c digit)
    · exact exponents _ inExponent
  · rcases member with digit | rfl | digit | inExponent
    · exact .inl (all c (List.mem_of_mem_take digit))
    · simp
    · exact .inl (all c (List.mem_of_mem_drop digit))
    · exact exponents _ inExponent

end RoundTrip

section RoundTrip

/-- What is printed of a decimal is neither trimmed nor taken for another radix. -/
theorem text_plain (decimal : Decimal) (sign : List Char) (isSign : ∀ c ∈ sign, c = '-') :
    trim (sign ++ decimal.text) = sign ++ decimal.text ∧
      radixOf (sign ++ decimal.text) = none := by
  have plain : ∀ c ∈ sign ++ decimal.text,
      c.isDigit = true ∨ c = '.' ∨ c = 'e' ∨ c = '+' ∨ c = '-' := by
    intro c member
    rcases List.mem_append.mp member with signed | printed
    · simp [isSign c signed]
    · exact mem_text printed
  generalize sign ++ decimal.text = chars at plain
  constructor
  · refine trim_of_notSpace fun c member => ?_
    rcases plain c member with digit | rfl | rfl | rfl | rfl
    · exact isSpace_of_isDigit digit
    all_goals rfl
  · unfold radixOf
    split
    · next mark digits =>
      have second := plain mark (List.mem_cons_of_mem _ (List.mem_cons_self ..))
      split_ifs with hexadecimal octal binary
      · rcases hexadecimal with rfl | rfl <;> simp [Char.isDigit] at second
      · rcases octal with rfl | rfl <;> simp [Char.isDigit] at second
      · rcases binary with rfl | rfl <;> simp [Char.isDigit] at second
      · rfl
    · rfl

theorem nearest_of_readBack {double : Double} {decimal : Decimal}
    (reads : double.ReadBack decimal) :
    nearest decimal.value = some ⟨|double.value|, double.isDouble.abs⟩ := by
  obtain ⟨read, isRead, same⟩ := Option.map_eq_some_iff.mp reads
  rw [isRead]
  obtain ⟨value, isDouble⟩ := read
  dsimp only at same
  subst same
  rfl

/-- What is printed of a number is not blank. -/
theorem trim_text_ne_nil (double : Double) : trim double.text.toList ≠ [] := by
  unfold Double.text
  rw [String.toList_ofList]
  split_ifs with nonzero negative
  · rw [(text_plain (double.shortest nonzero) ['-'] (by simp)).1]
    exact List.cons_ne_nil _ _
  · rw [(text_plain (double.shortest nonzero) [] (by simp)).1, List.nil_append]
    intro empty
    have unsigned := readUnsigned_text (double.shortest nonzero)
    rw [empty] at unsigned
    cases unsigned
  · exact List.cons_ne_nil _ _

/-- What is printed of a number is read back as it. -/
theorem toNumber_text (double : Double) : toNumber double.text = some double := by
  unfold toNumber Double.text
  rw [String.toList_ofList]
  split_ifs with nonzero negative
  · obtain ⟨kept, plain⟩ := text_plain (double.shortest nonzero) ['-'] (by simp)
    have reads := nearest_of_readBack (double.readBack_shortest nonzero)
    dsimp only
    rw [kept, plain]
    change ((readUnsigned (double.shortest nonzero).text).bind nearest).map Double.neg = _
    rw [readUnsigned_text, Option.bind_some, reads, Option.map_some]
    obtain ⟨value, isDouble⟩ := double
    simp only [Double.neg, abs_of_neg negative, neg_neg]
  · obtain ⟨kept, plain⟩ := text_plain (double.shortest nonzero) [] (by simp)
    have unsigned := readUnsigned_text (double.shortest nonzero)
    have reads := nearest_of_readBack (double.readBack_shortest nonzero)
    dsimp only
    rw [kept, plain, List.nil_append]
    dsimp only
    split
    · next empty => rw [empty] at unsigned; cases unsigned
    · next signed => rw [signed] at unsigned; cases unsigned
    · next signed => rw [signed] at unsigned; cases unsigned
    · rw [unsigned, Option.bind_some, reads]
      obtain ⟨value, isDouble⟩ := double
      simp only [abs_of_nonneg (not_lt.mp negative)]
  · have zero : double.value = 0 := of_not_not nonzero
    have unsigned : readUnsigned ['0'] = some 0 := by
      refine (readUnsigned_whole ['0'] [] (by simp) (List.cons_ne_nil _ _) (by simp) rfl).trans ?_
      simp [Nat.ofDigitChars_cons]
    change (readUnsigned ['0']).bind nearest = _
    rw [unsigned, Option.bind_some, ← zero, nearest_value]

end RoundTrip

/-! ## Rounding and the order -/

section Order

variable {x y : ℚ}

theorem roundHalfEven_mono (le : x ≤ y) : roundHalfEven x ≤ roundHalfEven y := by
  have floors : ⌊x⌋ ≤ ⌊y⌋ := Int.floor_le_floor le
  rcases floors.lt_or_eq with less | same
  · have := roundHalfEven_le_floor_add_one x
    have := floor_le_roundHalfEven y
    omega
  · unfold roundHalfEven
    rw [same]
    dsimp only
    split_ifs <;> first | omega | (exfalso; linarith)

theorem roundHalfEven_neg (x : ℚ) : roundHalfEven (-x) = -roundHalfEven x := by
  by_cases whole : x = ⌊x⌋
  · have neg : -x = ((-⌊x⌋ : ℤ) : ℚ) := by
      push_cast
      linarith
    rw [neg, roundHalfEven_intCast]
    nth_rewrite 2 [whole]
    rw [roundHalfEven_intCast]
  · have strict : (⌊x⌋ : ℚ) < x := lt_of_le_of_ne (Int.floor_le x) (Ne.symm whole)
    have below : x < ⌊x⌋ + 1 := Int.lt_floor_add_one x
    have floor : ⌊-x⌋ = -⌊x⌋ - 1 := by
      rw [Int.floor_eq_iff]
      push_cast
      constructor <;> linarith
    unfold roundHalfEven
    rw [floor]
    push_cast
    split_ifs <;> first | omega | (exfalso; linarith)

theorem rounded_neg (x : ℚ) : rounded (-x) = -rounded x := by
  have place : lastPlace (-x) = lastPlace x := by rw [lastPlace, lastPlace, abs_neg]
  rw [rounded, rounded, place, neg_div, roundHalfEven_neg]
  push_cast
  ring

theorem rounded_nonneg (nonneg : 0 ≤ x) : 0 ≤ rounded x := by
  have scale : (0 : ℚ) < 2 ^ lastPlace x := zpow_pos two_pos _
  have whole : 0 ≤ roundHalfEven (x / 2 ^ lastPlace x) :=
    le_roundHalfEven (by exact_mod_cast div_nonneg nonneg scale.le)
  exact mul_nonneg (by exact_mod_cast whole) scale.le

/-- A larger number is not rounded to a smaller one. -/
theorem rounded_mono_of_pos (positive : 0 < x) (le : x ≤ y) : rounded x ≤ rounded y := by
  have later : 0 < y := positive.trans_le le
  have places : lastPlace x ≤ lastPlace y := by
    rw [lastPlace, lastPlace, abs_of_pos positive, abs_of_pos later]
    have := Int.log_mono_right (b := 2) positive le
    omega
  rcases places.lt_or_eq with less | same
  · -- The smaller number has at most all of its bits, the larger one at least one more place.
    have lowest : -1074 ≤ lastPlace x := le_max_right ..
    have small := abs_roundHalfEven_le (abs_div_lastPlace_le x)
    have large := le_abs_roundHalfEven (le_abs_div_lastPlace later.ne' (by omega))
    have nonneg : 0 ≤ roundHalfEven (y / 2 ^ lastPlace y) :=
      le_roundHalfEven (by exact_mod_cast div_nonneg later.le (zpow_pos two_pos _).le)
    rw [abs_of_nonneg nonneg] at large
    have most : (roundHalfEven (x / 2 ^ lastPlace x) : ℚ) ≤ 2 ^ (53 : ℤ) := by
      exact_mod_cast (le_abs_self _).trans small
    have least : (2 : ℚ) ^ (52 : ℤ) ≤ roundHalfEven (y / 2 ^ lastPlace y) := by
      exact_mod_cast large
    calc rounded x ≤ 2 ^ (53 : ℤ) * 2 ^ lastPlace x :=
          mul_le_mul_of_nonneg_right most (zpow_pos two_pos _).le
      _ = 2 ^ (53 + lastPlace x) := (zpow_add₀ two_ne_zero _ _).symm
      _ ≤ 2 ^ (52 + lastPlace y) := zpow_le_zpow_right₀ one_le_two (by omega)
      _ = 2 ^ (52 : ℤ) * 2 ^ lastPlace y := zpow_add₀ two_ne_zero _ _
      _ ≤ rounded y := mul_le_mul_of_nonneg_right least (zpow_pos two_pos _).le
  · rw [rounded, rounded, same]
    have scale : (0 : ℚ) < 2 ^ lastPlace y := zpow_pos two_pos _
    have whole := roundHalfEven_mono (div_le_div_of_nonneg_right le scale.le)
    exact mul_le_mul_of_nonneg_right (by exact_mod_cast whole) scale.le

theorem rounded_mono (le : x ≤ y) : rounded x ≤ rounded y := by
  have zero : rounded 0 = 0 := by simp [rounded, roundHalfEven]
  rcases lt_trichotomy x 0 with negative | rfl | positive
  · rcases lt_or_ge y 0 with negativeToo | nonneg
    · have flipped := rounded_mono_of_pos (x := -y) (y := -x) (by linarith) (by linarith)
      rw [rounded_neg, rounded_neg] at flipped
      linarith
    · have flipped := rounded_nonneg (x := -x) (by linarith)
      rw [rounded_neg] at flipped
      linarith [rounded_nonneg nonneg]
  · rw [zero]
    exact rounded_nonneg le
  · exact rounded_mono_of_pos positive le

theorem nearest_eq_some {double : Double} (isNearest : nearest x = some double) :
    double.value = rounded x := by
  unfold nearest at isNearest
  split_ifs at isNearest
  cases isNearest
  rfl

theorem nearest_mono {first second : Double} (le : x ≤ y) (isFirst : nearest x = some first)
    (isSecond : nearest y = some second) : first.value ≤ second.value := by
  rw [nearest_eq_some isFirst, nearest_eq_some isSecond]
  exact rounded_mono le

theorem nearest_neg (x : ℚ) : nearest (-x) = (nearest x).map Double.neg := by
  unfold nearest
  by_cases fits : |rounded x| < 2 ^ 1024
  · have fitsToo : |rounded (-x)| < 2 ^ 1024 := by rwa [rounded_neg, abs_neg]
    rw [dif_pos fits, dif_pos fitsToo, Option.map_some, Option.some.injEq]
    simp only [Double.neg, Double.mk.injEq]
    exact rounded_neg x
  · have fitsNot : ¬|rounded (-x)| < 2 ^ 1024 := by rwa [rounded_neg, abs_neg]
    rw [dif_neg fits, dif_neg fitsNot, Option.map_none]

end Order

/-! ## The number that is written -/

section Written

/-- What a text is as a number before it is rounded. -/
def readNumber (text : String) : Option ℚ :=
  let chars := trim text.toList
  match radixOf chars with
  | some (radix, digits) => readRadix radix digits
  | none =>
    match chars with
    | [] => some 0
    | '-' :: unsigned => (readUnsigned unsigned).map fun value => -value
    | '+' :: unsigned => readUnsigned unsigned
    | unsigned => readUnsigned unsigned

/-- `Number(text)` is the number that is nearest to what is written. -/
theorem toNumber_eq (text : String) : toNumber text = (readNumber text).bind nearest := by
  unfold toNumber readNumber
  dsimp only
  split
  · rfl
  · split
    · rfl
    · next unsigned _ =>
      cases readUnsigned unsigned with
      | none => rfl
      | some value => exact (nearest_neg value).symm
    · rfl
    · rfl

/-- The number that is printed of a double, which is not always the double. -/
def Double.printed (double : Double) : ℚ :=
  if nonzero : double.value ≠ 0 then
    if double.value < 0 then -(double.shortest nonzero).value else (double.shortest nonzero).value
  else 0

theorem readNumber_text (double : Double) : readNumber double.text = some double.printed := by
  unfold readNumber Double.text Double.printed
  rw [String.toList_ofList]
  split_ifs with nonzero negative
  · obtain ⟨kept, plain⟩ := text_plain (double.shortest nonzero) ['-'] (by simp)
    dsimp only
    rw [kept, plain]
    change (readUnsigned (double.shortest nonzero).text).map _ = _
    rw [readUnsigned_text, Option.map_some]
  · obtain ⟨kept, plain⟩ := text_plain (double.shortest nonzero) [] (by simp)
    have unsigned := readUnsigned_text (double.shortest nonzero)
    dsimp only
    rw [kept, plain, List.nil_append]
    dsimp only
    split
    · next empty => rw [empty] at unsigned; cases unsigned
    · next signed => rw [signed] at unsigned; cases unsigned
    · next signed => rw [signed] at unsigned; cases unsigned
    · exact unsigned
  · have unsigned : readUnsigned ['0'] = some 0 := by
      refine (readUnsigned_whole ['0'] [] (by simp) (List.cons_ne_nil _ _) (by simp) rfl).trans ?_
      simp [Nat.ofDigitChars_cons]
    exact unsigned

/-- What is printed of a double is nearest to it. -/
theorem nearest_printed (double : Double) : nearest double.printed = some double := by
  have reads := toNumber_text double
  rwa [toNumber_eq, readNumber_text, Option.bind_some] at reads

/-- What is printed is in the order of the doubles. -/
theorem printed_lt {first second : Double} (less : first.value < second.value) :
    first.printed < second.printed := by
  by_contra notLess
  have le := nearest_mono (not_lt.mp notLess) (nearest_printed second) (nearest_printed first)
  exact absurd less (not_lt.mpr le)

end Written

/-! ## Whole numbers -/

section Whole

open Double

end Whole
end MalloyPublisher.Foundations
