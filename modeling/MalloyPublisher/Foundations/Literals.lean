import Mathlib.Data.List.Basic

/-!
# Quoted literals

A literal is read from behind its opening quote to its closing one. Languages differ in whether a
quote that is written twice is one, in whether a backslash escapes what is behind it, and in whether
a line may end inside. A writer that writes each character so that it is read as itself writes
literals that are read as what was written.

## Main definitions

* `LiteralRules.read` — the text of a literal, and what follows it
* `LiteralRules.Writes` — a character is written so that it is read
* `LiteralRules.OnlyDoubles` — a quote that is written twice is the only escape

## Main results

* `LiteralRules.read_flatMap` — what is written character by character is read
-/

namespace MalloyPublisher.Foundations

/-- How a language reads its quoted literals. -/
structure LiteralRules where
  quote : Char
  /-- A quote that is written twice is one. -/
  doubles : Bool
  /-- What a backslash makes of the character behind it, where it escapes. -/
  escapes : Option (Char → Char)
  /-- A line may end inside. -/
  breaks : Bool

namespace LiteralRules

variable (rules : LiteralRules)

/-- Put a character in front of what is read. -/
def put (c : Char) (read : List Char × List Char) : List Char × List Char := (c :: read.1, read.2)

/-- A character that stands for itself, in front of what is read of the rest. -/
def keep (c : Char) (rest : Option (List Char × List Char)) : Option (List Char × List Char) :=
  if c = '\n' ∧ rules.breaks = false then none else rest.map (put c)

/-- The text of a literal whose opening quote has been read, and what follows the literal. -/
def read : List Char → Option (List Char × List Char)
  | [] => none
  | [c] => if c = rules.quote then some ([], []) else none
  | c :: d :: rest =>
    if c = rules.quote then
      if rules.doubles ∧ d = rules.quote then (read rest).map (put c) else some ([], d :: rest)
    else if c = '\\' then
      match rules.escapes with
      | some unescape => (read rest).map (put (unescape d))
      | none => rules.keep c (read (d :: rest))
    else rules.keep c (read (d :: rest))

variable {rules}

section Read

variable {c d : Char} {rest : List Char}

/-- A quote that is not written twice ends a literal. -/
theorem read_quote (single : rules.doubles = true → rest.head? ≠ some rules.quote) :
    rules.read (rules.quote :: rest) = some ([], rest) := by
  cases rest with
  | nil => simp [read]
  | cons d rest =>
    have notDoubled : ¬(rules.doubles = true ∧ d = rules.quote) := by
      rintro ⟨doubles, rfl⟩
      exact single doubles rfl
    rw [read, if_pos rfl, if_neg notDoubled]

theorem read_doubled (doubles : rules.doubles = true) :
    rules.read (rules.quote :: rules.quote :: rest) = (rules.read rest).map (put rules.quote) := by
  rw [read, if_pos rfl, if_pos ⟨doubles, rfl⟩]

theorem read_escaped {unescape : Char → Char} (escapes : rules.escapes = some unescape)
    (noQuote : rules.quote ≠ '\\') :
    rules.read ('\\' :: d :: rest) = (rules.read rest).map (put (unescape d)) := by
  rw [read, if_neg noQuote.symm, if_pos rfl, escapes]

/-- A character that stands for itself. -/
theorem read_plain (noQuote : c ≠ rules.quote) (noEscape : c = '\\' → rules.escapes = none)
    (noBreak : c = '\n' → rules.breaks = true) :
    rules.read (c :: rest) = (rules.read rest).map (put c) := by
  have kept : ∀ read, rules.keep c read = read.map (put c) := by
    intro read
    refine if_neg ?_
    rintro ⟨isBreak, noBreaks⟩
    rw [noBreak isBreak] at noBreaks
    cases noBreaks
  cases rest with
  | nil =>
    simp [read, noQuote]
  | cons d rest =>
    rw [read, if_neg noQuote]
    by_cases backslash : c = '\\'
    · rw [if_pos backslash, noEscape backslash]
      exact kept _
    · rw [if_neg backslash]
      exact kept _

theorem keep_eq_some {read : Option (List Char × List Char)} {kept : List Char × List Char} :
    rules.keep c read = some kept ↔
      (c = '\n' → rules.breaks = true) ∧ ∃ later, read = some later ∧ put c later = kept := by
  rw [keep, Option.ite_none_left_eq_some, Option.map_eq_some_iff, not_and, Bool.not_eq_false]

/-- What follows a literal is an end of what follows its opening quote. -/
theorem suffix_read {text : List Char} {whole : List Char × List Char}
    (isRead : rules.read text = some whole) : whole.2 <:+ text := by
  fun_induction LiteralRules.read rules text generalizing whole with
  | case1 => cases isRead
  | case2 =>
    cases isRead
    exact List.nil_suffix
  | case3 => cases isRead
  | case4 d rest doubled ih =>
    obtain ⟨later, isLater, rfl⟩ := Option.map_eq_some_iff.mp isRead
    have inner := ih isLater
    exact inner.trans (List.suffix_append [_, _] rest)
  | case5 d rest =>
    cases isRead
    exact List.suffix_cons _ _
  | case6 d rest unescape escapes plain ih =>
    obtain ⟨later, isLater, rfl⟩ := Option.map_eq_some_iff.mp isRead
    have inner := ih isLater
    exact inner.trans (List.suffix_append [_, _] rest)
  | case7 d rest escapes plain ih =>
    obtain ⟨-, later, isLater, rfl⟩ := keep_eq_some.mp isRead
    have inner := ih isLater
    exact inner.trans (List.suffix_cons _ _)
  | case8 c d rest plain unescaped ih =>
    obtain ⟨-, later, isLater, rfl⟩ := keep_eq_some.mp isRead
    have inner := ih isLater
    exact inner.trans (List.suffix_cons _ _)

/-- What follows a literal is no longer than what follows its opening quote. -/
theorem length_read {text : List Char} {whole : List Char × List Char}
    (isRead : rules.read text = some whole) : whole.2.length ≤ text.length :=
  (suffix_read isRead).length_le

/-- A literal that is closed is read the same in a longer text; where quotes are doubled, the text
has to go on behind the closing one. -/
theorem read_settled {text more : List Char} {whole : List Char × List Char}
    (isRead : rules.read text = some whole) (left : rules.doubles = true → whole.2 ≠ []) :
    rules.read (text ++ more) = some (whole.1, whole.2 ++ more) := by
  fun_induction LiteralRules.read rules text generalizing whole with
  | case1 => cases isRead
  | case2 =>
    cases isRead
    exact read_quote fun doubles => absurd rfl (left doubles)
  | case3 => cases isRead
  | case4 d rest doubled ih =>
    obtain ⟨later, isLater, rfl⟩ := Option.map_eq_some_iff.mp isRead
    obtain ⟨doubles, rfl⟩ := doubled
    rw [List.cons_append, List.cons_append, read_doubled doubles, ih isLater left]
    rfl
  | case5 d rest notDoubled =>
    cases isRead
    refine read_quote fun doubles isQuote => notDoubled ⟨doubles, ?_⟩
    exact Option.some_inj.mp isQuote
  | case6 d rest unescape escapes plain ih =>
    obtain ⟨later, isLater, rfl⟩ := Option.map_eq_some_iff.mp isRead
    rw [List.cons_append, List.cons_append, read_escaped escapes (Ne.symm plain), ih isLater left]
    rfl
  | case7 d rest escapes plain ih =>
    obtain ⟨noBreak, later, isLater, rfl⟩ := keep_eq_some.mp isRead
    rw [List.cons_append, read_plain plain (fun _ => escapes) noBreak, ih isLater left]
    rfl
  | case8 c d rest plain unescaped ih =>
    obtain ⟨noBreak, later, isLater, rfl⟩ := keep_eq_some.mp isRead
    rw [List.cons_append, read_plain plain (fun isBackslash => absurd isBackslash unescaped)
      noBreak, ih isLater left]
    rfl

/-- A literal that is closed is read whatever follows it. -/
theorem read_append (single : rules.doubles = false) {text more : List Char}
    {whole : List Char × List Char} (isRead : rules.read text = some whole) :
    rules.read (text ++ more) = some (whole.1, whole.2 ++ more) := by
  refine read_settled isRead fun doubles => ?_
  rw [single] at doubles
  cases doubles

/-- A literal that uses a text up ends in the quote. -/
theorem getLast?_of_read {text value : List Char} (isRead : rules.read text = some (value, [])) :
    text.getLast? = some rules.quote := by
  fun_induction LiteralRules.read rules text generalizing value with
  | case1 => cases isRead
  | case2 => rfl
  | case3 => cases isRead
  | case4 d rest doubled ih =>
    obtain ⟨later, isLater, same⟩ := Option.map_eq_some_iff.mp isRead
    obtain ⟨value, left⟩ := later
    cases same
    have last := ih isLater
    cases rest with
    | nil => cases last
    | cons e rest => exact last
  | case5 => cases isRead
  | case6 d rest unescape escapes plain ih =>
    obtain ⟨later, isLater, same⟩ := Option.map_eq_some_iff.mp isRead
    obtain ⟨value, left⟩ := later
    cases same
    have last := ih isLater
    cases rest with
    | nil => cases last
    | cons e rest => exact last
  | case7 d rest escapes plain ih =>
    obtain ⟨-, later, isLater, same⟩ := keep_eq_some.mp isRead
    obtain ⟨value, left⟩ := later
    cases same
    exact ih isLater
  | case8 c d rest plain unescaped ih =>
    obtain ⟨-, later, isLater, same⟩ := keep_eq_some.mp isRead
    obtain ⟨value, left⟩ := later
    cases same
    exact ih isLater

end Read

/-! ## Writing -/

/-- A character is written so that it is read, whatever follows. -/
def Writes (rules : LiteralRules) (write : Char → List Char) (c : Char) : Prop :=
  ∀ rest, rules.read (write c ++ rest) = (rules.read rest).map (put c)

/-- What is written character by character is read, up to the quote behind it. -/
theorem read_flatMap {write : Char → List Char} {text rest : List Char}
    (writes : ∀ c ∈ text, rules.Writes write c)
    (single : rules.doubles = true → rest.head? ≠ some rules.quote) :
    rules.read (text.flatMap write ++ rules.quote :: rest) = some (text, rest) := by
  induction text with
  | nil => exact read_quote single
  | cons c text ih =>
    rw [List.flatMap_cons, List.append_assoc, writes c (by simp),
      ih fun c member => writes c (List.mem_cons_of_mem _ member)]
    rfl

/-! ## Values between quotes -/

section Bare

variable {rules : LiteralRules} {value left rest : List Char}

/-- A quote that is written twice is the only escape. -/
structure OnlyDoubles (rules : LiteralRules) : Prop where
  doubles : rules.doubles = true
  escapes : rules.escapes = none
  breaks : rules.breaks = true

namespace OnlyDoubles

theorem read_other (only : rules.OnlyDoubles) {c : Char} (other : c ≠ rules.quote) :
    rules.read (c :: rest) = (rules.read rest).map (put c) :=
  read_plain other (fun _ => only.escapes) fun _ => only.breaks

end OnlyDoubles

end Bare

end LiteralRules

end MalloyPublisher.Foundations
