/-
# Strings as the source language has them

A text is kept as its characters. Comparison is by UTF-16 code unit and white space
is the language's own class, neither of which is the host's.
-/

import Mathlib.Data.List.Lex

namespace MalloyPublisher.Foundations

/-- The UTF-16 code units of a character. -/
def codeUnits (c : Char) : List Nat :=
  if c.toNat < 0x10000 then [c.toNat]
  else [0xD800 + (c.toNat - 0x10000) / 0x400, 0xDC00 + (c.toNat - 0x10000) % 0x400]

/-- The UTF-16 code units of a text, in which the runtime compares strings. -/
def utf16 (text : String) : List Nat := text.toList.flatMap codeUnits

/-- The runtime's `a < b` on strings. -/
def stringLess (a b : String) : Bool :=
  decide (List.Lex (· < ·) (utf16 a) (utf16 b))

/-- The characters `String.prototype.trim` removes and `\s` matches. -/
def isSpace (c : Char) : Bool :=
  c.toNat ∈ [0x9, 0xA, 0xB, 0xC, 0xD, 0x20, 0xA0, 0x1680, 0x2028, 0x2029, 0x202F, 0x205F,
    0x3000, 0xFEFF] || (0x2000 ≤ c.toNat && c.toNat ≤ 0x200A)

/-- `String.prototype.trimStart`. -/
def trimStart (text : String) : String := String.ofList (text.toList.dropWhile isSpace)

/-- `String.prototype.trim`. -/
def trim (chars : List Char) : List Char :=
  ((chars.dropWhile isSpace).reverse.dropWhile isSpace).reverse

/-- `String.prototype.trim`, of a text. -/
def trimmed (text : String) : String := String.ofList (trim text.toList)

/-- `String.prototype.split` at a one-character separator. -/
def splitText (separator : Char) (text : String) : List String :=
  (text.toList.splitOn separator).map String.ofList

/-- A text that splits into no two pieces is not split. -/
theorem splitText_of_length_le_one {separator : Char} {text : String}
    (short : (splitText separator text).length ≤ 1) : splitText separator text = [text] := by
  have whole : [separator].intercalate (text.toList.splitOn separator) = text.toList :=
    List.intercalate_splitOn separator
  unfold splitText at short ⊢
  rw [List.length_map] at short
  match pieces : text.toList.splitOn separator, short with
  | [], _ => exact absurd pieces (List.splitOn_ne_nil separator text.toList)
  | [piece], _ =>
    rw [pieces, List.intercalate_singleton] at whole
    rw [List.map_singleton, whole, String.ofList_toList]

/-! ## The order of strings -/

/-- `a ≤ b` in the default order of `Array.prototype.sort`. -/
def sortLE (a b : String) : Bool := !stringLess b a

/-- A character is no half of a surrogate pair. -/
theorem char_lt (c : Char) : c.toNat < 0xD800 ∨ 0xDFFF < c.toNat ∧ c.toNat < 0x110000 := by
  rcases c.valid with low | high
  · exact .inl low
  · exact .inr high

/-- The code units of a character tell where it ends. -/
theorem codeUnits_append {a b : Char} {xs ys : List Nat}
    (same : codeUnits a ++ xs = codeUnits b ++ ys) : a = b ∧ xs = ys := by
  have first := char_lt a
  have second := char_lt b
  have equal : a.toNat = b.toNat → a = b := fun h => Char.toNat_inj.mp h
  unfold codeUnits at same
  split_ifs at same with shortA shortB shortB
  · simp only [List.singleton_append, List.cons.injEq] at same
    exact ⟨equal same.1, same.2⟩
  · simp only [List.cons_append, List.cons.injEq] at same
    omega
  · simp only [List.cons_append, List.cons.injEq] at same
    omega
  · simp only [List.nil_append, List.cons_append, List.cons.injEq] at same
    exact ⟨equal (by omega), same.2.2⟩

theorem utf16_injective : Function.Injective utf16 := by
  have chars : ∀ xs ys : List Char, xs.flatMap codeUnits = ys.flatMap codeUnits → xs = ys := by
    intro xs
    induction xs with
    | nil =>
      intro ys same
      cases ys with
      | nil => rfl
      | cons y ys =>
        rw [List.flatMap_cons] at same
        unfold codeUnits at same
        split_ifs at same <;> simp at same
    | cons x xs ih =>
      intro ys same
      cases ys with
      | nil =>
        rw [List.flatMap_cons] at same
        unfold codeUnits at same
        split_ifs at same <;> simp at same
      | cons y ys =>
        obtain ⟨rfl, rest⟩ := codeUnits_append (by simpa using same)
        rw [ih ys rest]
  intro a b same
  exact String.toList_inj.mp (chars _ _ same)

theorem sortLE_iff {a b : String} : sortLE a b = true ↔ utf16 a ≤ utf16 b := by
  rw [sortLE, stringLess, Bool.not_eq_true', decide_eq_false_iff_not, ← not_lt]
  exact Iff.rfl

instance : Std.Total (fun a b : String => sortLE a b = true) :=
  ⟨fun _ _ => by simpa only [sortLE_iff] using le_total _ _⟩

instance : IsTrans String (fun a b => sortLE a b = true) :=
  ⟨fun _ _ _ => by simpa only [sortLE_iff] using le_trans⟩

instance : Std.Antisymm (fun a b : String => sortLE a b = true) :=
  ⟨fun _ _ first second =>
    utf16_injective (le_antisymm (sortLE_iff.mp first) (sortLE_iff.mp second))⟩

/-! ## Trimming -/

section Trimming

variable {chars : List Char}

theorem dropWhile_isSpace_eq_self (first : ∀ c ∈ chars.head?, isSpace c = false) :
    chars.dropWhile isSpace = chars := by
  cases chars with
  | nil => rfl
  | cons c rest => rw [List.dropWhile_cons, first c rfl]; rfl

/-- A text with no white space at its ends is not trimmed. -/
theorem trim_eq_self (first : ∀ c ∈ chars.head?, isSpace c = false)
    (last : ∀ c ∈ chars.getLast?, isSpace c = false) : trim chars = chars := by
  rw [trim, dropWhile_isSpace_eq_self first,
    dropWhile_isSpace_eq_self fun c isLast => last c (by rwa [List.head?_reverse] at isLast),
    List.reverse_reverse]

/-- A trimmed text has no white space at its ends. -/
theorem isSpace_trim (chars : List Char) :
    (∀ c ∈ (trim chars).head?, isSpace c = false) ∧
      ∀ c ∈ (trim chars).getLast?, isSpace c = false := by
  have bare : ∀ list : List Char, ∀ c ∈ (list.dropWhile isSpace).head?, isSpace c = false := by
    intro list c first
    have := List.head?_dropWhile_not isSpace list
    rw [Option.mem_def.mp first] at this
    simpa using this
  constructor
  · intro c first
    rw [trim, List.head?_reverse] at first
    obtain ⟨front, split⟩ := List.dropWhile_suffix (l := (chars.dropWhile isSpace).reverse) isSpace
    have last : c ∈ (chars.dropWhile isSpace).reverse.getLast? := by
      rw [← split, List.getLast?_append, Option.mem_def.mp first]
      rfl
    rw [List.getLast?_reverse] at last
    exact bare chars c last
  · intro c last
    rw [trim, List.getLast?_reverse] at last
    exact bare _ c last

theorem trim_of_notSpace (notSpace : ∀ c ∈ chars, isSpace c = false) : trim chars = chars :=
  trim_eq_self (fun c first => notSpace c (List.mem_of_mem_head? first))
    fun c last => notSpace c (List.mem_of_mem_getLast? last)

theorem isSpace_of_isDigit {c : Char} (digit : c.isDigit = true) : isSpace c = false := by
  simp only [Char.isDigit, Bool.and_eq_true, decide_eq_true_eq] at digit
  have low : 48 ≤ c.toNat := by exact_mod_cast digit.1
  have high : c.toNat ≤ 57 := by exact_mod_cast digit.2
  simp only [isSpace, Bool.or_eq_false_iff, decide_eq_false_iff_not, List.mem_cons,
    List.not_mem_nil, Bool.and_eq_false_iff, not_or, or_false]
  omega

end Trimming

end MalloyPublisher.Foundations
