import Mathlib.Data.List.Basic

/-!
# Strings in JSON

A string is written between quotes, with its quotes, backslashes and control characters escaped, and
the halves of surrogate pairs that stand alone as their numbers. What is written is read back, so no
two strings are written alike, whatever follows them.

## Main definitions

* `jsonString` — `JSON.stringify` of a string
* `readString` — the string of what stands between the quotes

## Main results

* `readString_jsonUnits` — what is written is read back
* `jsonString_inj` — what is written is one string, and leaves what follows
-/

namespace MalloyPublisher.Foundations

/-- A string of the language, as its code units. -/
abbrev JsString := List ℕ

/-! ## Writing -/

def hexDigit (digit : ℕ) : ℕ := if digit < 10 then 0x30 + digit else 0x61 + (digit - 10)

/-- `\u` and four hexadecimal digits. -/
def escapeUnit (code : ℕ) : JsString :=
  [0x5C, 0x75, hexDigit (code / 0x1000 % 16), hexDigit (code / 0x100 % 16),
    hexDigit (code / 0x10 % 16), hexDigit (code % 16)]

def isLeading (code : ℕ) : Bool := 0xD800 ≤ code && code ≤ 0xDBFF

def isTrailing (code : ℕ) : Bool := 0xDC00 ≤ code && code ≤ 0xDFFF

/-- The inside of a string as `JSON.stringify` writes it. -/
def jsonUnits : JsString → JsString
  | [] => []
  | code :: rest =>
    if code = 0x22 ∨ code = 0x5C then 0x5C :: code :: jsonUnits rest
    else if code = 0x8 then 0x5C :: 0x62 :: jsonUnits rest
    else if code = 0xC then 0x5C :: 0x66 :: jsonUnits rest
    else if code = 0xA then 0x5C :: 0x6E :: jsonUnits rest
    else if code = 0xD then 0x5C :: 0x72 :: jsonUnits rest
    else if code = 0x9 then 0x5C :: 0x74 :: jsonUnits rest
    else if code < 0x20 then escapeUnit code ++ jsonUnits rest
    else if isLeading code then
      match rest with
      | next :: later =>
        if isTrailing next then code :: next :: jsonUnits later
        else escapeUnit code ++ jsonUnits (next :: later)
      | [] => escapeUnit code
    else if isTrailing code then escapeUnit code ++ jsonUnits rest
    else code :: jsonUnits rest

/-- `JSON.stringify` of a string. -/
def jsonString (text : JsString) : JsString := 0x22 :: (jsonUnits text ++ [0x22])

/-! ## Reading -/

/-- The value of a hexadecimal digit as it is written. -/
def hexOf (code : ℕ) : ℕ := if code < 0x61 then code - 0x30 else code - 0x61 + 10

/-- What a letter behind a backslash stands for. -/
def unescapeUnit (code : ℕ) : ℕ :=
  if code = 0x62 then 0x8 else if code = 0x66 then 0xC else if code = 0x6E then 0xA
  else if code = 0x72 then 0xD else if code = 0x74 then 0x9 else code

/-- A unit in front of what is read. -/
def putUnit (code : ℕ) (read : JsString × JsString) : JsString × JsString := (code :: read.1, read.2)

/-- The string up to a closing quote, and what follows it. -/
def readString : JsString → Option (JsString × JsString)
  | [] => none
  | code :: rest =>
    if code = 0x22 then some ([], rest)
    else if code = 0x5C then
      match rest with
      | [] => none
      | letter :: later =>
        if letter = 0x75 then
          match later with
          | a :: b :: c :: d :: behind => (readString behind).map
              (putUnit (0x1000 * hexOf a + 0x100 * hexOf b + 0x10 * hexOf c + hexOf d))
          | _ => none
        else (readString later).map (putUnit (unescapeUnit letter))
    else (readString rest).map (putUnit code)

variable {code letter : ℕ} {text rest : JsString}

theorem hexOf_hexDigit {digit : ℕ} (small : digit < 16) : hexOf (hexDigit digit) = digit := by
  unfold hexOf hexDigit
  split_ifs <;> omega

theorem readString_quote : readString (0x22 :: rest) = some ([], rest) := by
  rw [readString.eq_def]
  exact if_pos rfl

theorem readString_plain (notQuote : code ≠ 0x22) (notEscape : code ≠ 0x5C) :
    readString (code :: rest) = (readString rest).map (putUnit code) := by
  rw [readString.eq_def]
  simp only [if_neg notQuote, if_neg notEscape]

theorem readString_letter (notUnicode : letter ≠ 0x75) :
    readString (0x5C :: letter :: rest) = (readString rest).map (putUnit (unescapeUnit letter)) := by
  rw [readString.eq_def]
  simp only [if_neg notUnicode]
  rfl

theorem readString_escapeUnit (small : code < 0x10000) :
    readString (escapeUnit code ++ rest) = (readString rest).map (putUnit code) := by
  have value : 0x1000 * (code / 0x1000 % 16) + 0x100 * (code / 0x100 % 16) +
      0x10 * (code / 0x10 % 16) + code % 16 = code := by omega
  have digit : ∀ n, hexOf (hexDigit (n % 16)) = n % 16 := fun n => hexOf_hexDigit (Nat.mod_lt n (by decide))
  rw [escapeUnit, readString.eq_def]
  simp only [List.cons_append, List.nil_append, digit, value]
  rfl

/-- What is written is read back, up to the closing quote. -/
theorem readString_jsonUnits (text rest : JsString) :
    readString (jsonUnits text ++ 0x22 :: rest) = some (text, rest) := by
  fun_induction jsonUnits text with
  | case1 => exact readString_quote
  | case2 code text special ih =>
    have letter : code ≠ 0x75 ∧ unescapeUnit code = code := by
      rcases special with rfl | rfl <;> decide
    rw [List.cons_append, List.cons_append, readString_letter letter.1, ih, letter.2]
    rfl
  | case3 text _ ih | case4 text _ _ ih | case5 text _ _ _ ih | case6 text _ _ _ _ ih
  | case7 text _ _ _ _ _ ih =>
    rw [List.cons_append, List.cons_append, readString_letter (by decide), ih]
    rfl
  | case8 code text _ _ _ _ _ _ control ih =>
    rw [List.append_assoc, readString_escapeUnit (by omega), ih]
    rfl
  | case9 code _ _ _ _ _ _ _ leading next later trailing ih =>
    simp only [isLeading, isTrailing, Bool.and_eq_true, decide_eq_true_eq] at leading trailing
    rw [List.cons_append, List.cons_append, readString_plain (by omega) (by omega),
      readString_plain (by omega) (by omega), ih]
    rfl
  | case10 code _ _ _ _ _ _ _ leading next later _ ih =>
    simp only [isLeading, Bool.and_eq_true, decide_eq_true_eq] at leading
    rw [List.append_assoc, readString_escapeUnit (by omega), ih]
    rfl
  | case11 code _ _ _ _ _ _ _ leading =>
    simp only [isLeading, Bool.and_eq_true, decide_eq_true_eq] at leading
    rw [readString_escapeUnit (by omega), readString_quote]
    rfl
  | case12 code text _ _ _ _ _ _ _ _ trailing ih =>
    simp only [isTrailing, Bool.and_eq_true, decide_eq_true_eq] at trailing
    rw [List.append_assoc, readString_escapeUnit (by omega), ih]
    rfl
  | case13 code text special _ _ _ _ _ _ _ _ ih =>
    rw [not_or] at special
    rw [List.cons_append, readString_plain special.1 special.2, ih]
    rfl

/-- What is written is one string, and leaves what follows. -/
theorem jsonString_inj {first second behind behind' : JsString}
    (same : jsonString first ++ behind = jsonString second ++ behind') :
    first = second ∧ behind = behind' := by
  simp only [jsonString, List.cons_append, List.append_assoc, List.nil_append, List.cons.injEq,
    true_and] at same
  have isFirst := readString_jsonUnits first behind
  rw [same, readString_jsonUnits second behind', Option.some_inj, Prod.mk.injEq] at isFirst
  exact ⟨isFirst.1.symm, isFirst.2.symm⟩

end MalloyPublisher.Foundations
