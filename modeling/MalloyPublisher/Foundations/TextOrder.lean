import MalloyPublisher.Foundations.Text
import Mathlib.Tactic.Ring
import Mathlib.Tactic.Linarith

/-!
# The order of texts of fixed widths

The runtime compares texts by their code units from the left. Texts whose parts have the same widths
are compared part by part, and digits of the same width as the numbers that they spell.

## Main definitions

* `compareText` — how the runtime orders two texts
* `compareChars` — the same of characters that are one code unit each

## Main results

* `compareText_ofList` — plain texts are ordered by their characters
* `compareChars_append` — parts of the same width are compared one after the other
* `compareChars_digits` — digits are ordered as numbers
-/

namespace MalloyPublisher.Foundations

/-! ## Orderings -/

section Orderings

variable {α β γ : Type*} [LinearOrder α] [LinearOrder β] [LinearOrder γ]

/-- Two pairs are ordered alike. -/
theorem compare_congr {a b : α} {c d : β} (less : a < b ↔ c < d) (greater : b < a ↔ d < c) :
    compare a b = compare c d := by
  rcases lt_trichotomy a b with lt | rfl | gt
  · rw [compare_lt_iff_lt.mpr lt, compare_lt_iff_lt.mpr (less.mp lt)]
  · have same : c = d := le_antisymm (not_lt.mp fun gt => lt_irrefl _ (greater.mpr gt))
      (not_lt.mp fun lt => lt_irrefl _ (less.mpr lt))
    rw [compare_eq_iff_eq.mpr rfl, compare_eq_iff_eq.mpr same]
  · rw [compare_gt_iff_gt.mpr gt, compare_gt_iff_gt.mpr (greater.mp gt)]

/-- A pair is ordered by a first part, and by a second one where the first are the same. -/
theorem compare_then {a b : α} {c d : β} {e f : γ} (less : a < b ↔ c < d ∨ c = d ∧ e < f)
    (greater : b < a ↔ d < c ∨ d = c ∧ f < e) :
    compare a b = (compare c d).then (compare e f) := by
  rcases lt_trichotomy c d with lt | rfl | gt
  · rw [compare_lt_iff_lt.mpr lt, compare_lt_iff_lt.mpr (less.mpr (.inl lt))]
    rfl
  · have eq : compare c c = .eq := compare_eq_iff_eq.mpr rfl
    rw [eq]
    refine compare_congr ?_ ?_
    · rw [less]
      simp
    · rw [greater]
      simp
  · rw [compare_gt_iff_gt.mpr gt, compare_gt_iff_gt.mpr (greater.mpr (.inl gt))]
    rfl

/-- Of two numbers in one place value the places before are compared first. -/
theorem compare_mul_add {p u v a b : ℤ} (first : 0 ≤ a ∧ a < p) (second : 0 ≤ b ∧ b < p) :
    compare (p * u + a) (p * v + b) = (compare u v).then (compare a b) := by
  have key : ∀ {u v a b : ℤ}, 0 ≤ a ∧ a < p → 0 ≤ b ∧ b < p →
      (p * u + a < p * v + b ↔ u < v ∨ u = v ∧ a < b) := by
    intro u v a b first second
    constructor
    · intro less
      rcases lt_trichotomy u v with lt | rfl | gt
      · exact .inl lt
      · exact .inr ⟨rfl, by linarith⟩
      · have : p * (v + 1) ≤ p * u := mul_le_mul_of_nonneg_left gt (by linarith)
        linarith
    · rintro (lt | ⟨rfl, lt⟩)
      · have : p * (u + 1) ≤ p * v := mul_le_mul_of_nonneg_left lt (by linarith)
        linarith
      · linarith
  exact compare_then (key first second) (key second first)

theorem compare_natCast (a b : ℕ) : compare (a : ℤ) (b : ℤ) = compare a b :=
  compare_congr (by omega) (by omega)

end Orderings

/-! ## Texts -/

/-- How the runtime orders two texts. -/
def compareText (a b : String) : Ordering := List.compareLex compare (utf16 a) (utf16 b)

/-- The order of characters that are one code unit each. -/
def compareChars (a b : List Char) : Ordering :=
  List.compareLex compare (a.map Char.toNat) (b.map Char.toNat)

section Texts

theorem compareLex_eq_lt_iff {a b : List ℕ} :
    List.compareLex compare a b = .lt ↔ List.Lex (· < ·) a b := by
  induction a generalizing b with
  | nil =>
    cases b with
    | nil => simp [List.compareLex_nil_nil]
    | cons y b => simp [List.compareLex_nil_cons]
  | cons x a ih =>
    cases b with
    | nil => simp [List.compareLex_cons_nil]
    | cons y b =>
      rw [List.compareLex_cons_cons, Ordering.then_eq_lt, compare_lt_iff_lt, compare_eq_iff_eq, ih]
      constructor
      · rintro (less | ⟨rfl, less⟩)
        · exact .rel less
        · exact .cons less
      · rintro (_ | less | less)
        · exact .inl less
        · exact .inr ⟨rfl, less⟩

theorem compareLex_swap (a b : List ℕ) :
    (List.compareLex compare a b).swap = List.compareLex compare b a := by
  induction a generalizing b with
  | nil =>
    cases b with
    | nil => rfl
    | cons y b => simp [List.compareLex_nil_cons, List.compareLex_cons_nil]
  | cons x a ih =>
    cases b with
    | nil => simp [List.compareLex_nil_cons, List.compareLex_cons_nil]
    | cons y b =>
      rw [List.compareLex_cons_cons, List.compareLex_cons_cons, Ordering.swap_then, ih]
      congr 1
      exact Nat.compare_swap x y

theorem stringLess_iff {a b : String} : stringLess a b = true ↔ compareText a b = .lt := by
  rw [stringLess, decide_eq_true_eq, compareText, compareLex_eq_lt_iff]

theorem compareText_swap (a b : String) : (compareText a b).swap = compareText b a :=
  compareLex_swap _ _

theorem compareLex_append (a b : List ℕ) :
    List.compareLex compare a (a ++ b) = .lt ∨ List.compareLex compare a (a ++ b) = .eq := by
  induction a with
  | nil =>
    cases b with
    | nil => exact .inr rfl
    | cons y b => exact .inl List.compareLex_nil_cons
  | cons x a ih =>
    have same : compare x x = .eq := compare_eq_iff_eq.mpr rfl
    rwa [List.cons_append, List.compareLex_cons_cons, same, Ordering.eq_then]

/-- A text is not after one that begins with it. -/
theorem compareText_append (a b : List Char) :
    compareText (String.ofList a) (String.ofList (a ++ b)) = .lt ∨
      compareText (String.ofList a) (String.ofList (a ++ b)) = .eq := by
  have units : utf16 (String.ofList (a ++ b)) =
      utf16 (String.ofList a) ++ b.flatMap codeUnits := by
    rw [utf16, utf16, String.toList_ofList, String.toList_ofList, List.flatMap_append]
  rw [compareText, units]
  exact compareLex_append _ _

/-- A character of one code unit. -/
def IsUnit (c : Char) : Prop := c.toNat < 0x10000

instance (c : Char) : Decidable (IsUnit c) := inferInstanceAs (Decidable (_ < _))

theorem utf16_ofList {chars : List Char} (units : ∀ c ∈ chars, IsUnit c) :
    utf16 (String.ofList chars) = chars.map Char.toNat := by
  rw [utf16, String.toList_ofList]
  induction chars with
  | nil => rfl
  | cons c chars ih =>
    have unit : codeUnits c = [c.toNat] := if_pos (units c (by simp))
    rw [List.flatMap_cons, unit, ih fun c member => units c (List.mem_cons_of_mem _ member)]
    rfl

/-- Plain texts are ordered by their characters. -/
theorem compareText_ofList {a b : List Char} (first : ∀ c ∈ a, IsUnit c)
    (second : ∀ c ∈ b, IsUnit c) :
    compareText (String.ofList a) (String.ofList b) = compareChars a b := by
  rw [compareText, utf16_ofList first, utf16_ofList second, compareChars]

theorem compareChars_cons (c d : Char) (a b : List Char) :
    compareChars (c :: a) (d :: b) = (compare c.toNat d.toNat).then (compareChars a b) := by
  rw [compareChars, List.map_cons, List.map_cons, List.compareLex_cons_cons, compareChars]

theorem compareChars_cons_self (c : Char) (a b : List Char) :
    compareChars (c :: a) (c :: b) = compareChars a b := by
  have eq : compare c.toNat c.toNat = .eq := compare_eq_iff_eq.mpr rfl
  rw [compareChars_cons, eq]
  rfl

theorem compareChars_nil : compareChars [] [] = .eq := rfl

/-- Parts of the same width are compared one after the other. -/
theorem compareChars_append {a b : List Char} (width : a.length = b.length) (x y : List Char) :
    compareChars (a ++ x) (b ++ y) = (compareChars a b).then (compareChars x y) := by
  induction a generalizing b with
  | nil =>
    cases List.length_eq_zero_iff.mp width.symm
    rfl
  | cons c a ih =>
    cases b with
    | nil => cases width
    | cons d b =>
      rw [List.cons_append, List.cons_append, compareChars_cons, compareChars_cons,
        ih (Nat.succ_injective width), Ordering.then_assoc]

theorem digit_bounds {c : Char} (digit : c.isDigit = true) : 48 ≤ c.toNat ∧ c.toNat ≤ 57 := by
  simp only [Char.isDigit, Bool.and_eq_true, decide_eq_true_eq] at digit
  exact ⟨by exact_mod_cast digit.1, by exact_mod_cast digit.2⟩

theorem isUnit_of_isDigit {c : Char} (digit : c.isDigit = true) : IsUnit c := by
  have := digit_bounds digit
  unfold IsUnit
  omega

theorem ofDigitChars_lt {digits : List Char} (all : ∀ c ∈ digits, c.isDigit = true) :
    Nat.ofDigitChars 10 digits 0 < 10 ^ digits.length := by
  induction digits with
  | nil => exact Nat.one_pos
  | cons c digits ih =>
    have rest := ih fun c member => all c (List.mem_cons_of_mem _ member)
    have digit := digit_bounds (all c (by simp))
    have value : c.toNat - '0'.toNat ≤ 9 := by
      have zero : '0'.toNat = 48 := rfl
      omega
    rw [Nat.ofDigitChars_cons, Nat.ofDigitChars_eq_ofDigitChars_zero, List.length_cons, pow_succ]
    nlinarith

/-- Digits of the same width are ordered as the numbers that they spell. -/
theorem compareChars_digits {a b : List Char} (width : a.length = b.length)
    (first : ∀ c ∈ a, c.isDigit = true) (second : ∀ c ∈ b, c.isDigit = true) :
    compareChars a b = compare (Nat.ofDigitChars 10 a 0) (Nat.ofDigitChars 10 b 0) := by
  induction a generalizing b with
  | nil =>
    cases List.length_eq_zero_iff.mp width.symm
    rfl
  | cons c a ih =>
    cases b with
    | nil => cases width
    | cons d b =>
      have widths : a.length = b.length := Nat.succ_injective width
      have restA : ∀ c ∈ a, c.isDigit = true :=
        fun c member => first c (List.mem_cons_of_mem _ member)
      have restB : ∀ c ∈ b, c.isDigit = true :=
        fun c member => second c (List.mem_cons_of_mem _ member)
      have smallA := ofDigitChars_lt restA
      have smallB := ofDigitChars_lt restB
      have digitC := digit_bounds (first c (by simp))
      have digitD := digit_bounds (second d (by simp))
      have split : ∀ (e : Char) (l : List Char), (Nat.ofDigitChars 10 (e :: l) 0 : ℤ) =
          10 ^ l.length * ((e.toNat - 48 : ℕ) : ℤ) + Nat.ofDigitChars 10 l 0 := by
        intro e l
        have zero : '0'.toNat = 48 := rfl
        rw [Nat.ofDigitChars_cons, Nat.ofDigitChars_eq_ofDigitChars_zero, zero]
        push_cast
        ring
      rw [compareChars_cons, ih widths restA restB,
        ← compare_natCast (Nat.ofDigitChars 10 (c :: a) 0), split, split, ← widths,
        compare_mul_add ⟨by positivity, by exact_mod_cast smallA⟩
          ⟨by positivity, by rw [widths]; exact_mod_cast smallB⟩, compare_natCast]
      congr 1
      · refine compare_congr ?_ ?_ <;> omega
      · exact (compare_natCast _ _).symm

end Texts

end MalloyPublisher.Foundations
